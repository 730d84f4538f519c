import RowSql.Proofs.Value
import RowSql.Record

/-!
# Records of texts

Only an integer that is too large can make a comparison fail. A record all of
whose values are texts has none: a text that does not read as a number is
compared as it stands.
-/

namespace RowSql

/-- Every value of a record is a text. -/
def Record.IsTextual (r : Record) : Prop := ∀ f ∈ r.fields, ∃ t, f.2 = .text t

instance (v : Value) : Decidable (∃ t, v = .text t) :=
  match v with
  | .text t => isTrue ⟨t, rfl⟩
  | .null | .boolean _ | .integer _ | .double _ | .decimal _ | .array _ |
    .object _ =>
    isFalse fun h => by
      obtain ⟨t, ht⟩ := h
      cases ht

instance (r : Record) : Decidable r.IsTextual :=
  inferInstanceAs (Decidable (∀ f ∈ r.fields, ∃ t, f.2 = .text t))

theorem Named.mem_of_get? {α : Type} {things : Named α} {name : Text} {a : α}
    (h : things.get? name = some a) : (name, a) ∈ things := by
  induction things with
  | nil => cases h
  | cons f fs ih =>
      rw [get?] at h
      split at h
      · next hf =>
          cases h
          rw [← hf]
          exact List.mem_cons_self
      · exact List.mem_cons_of_mem _ (ih h)

/-! ## Fields set in order

A field keeps the place of its name, and a new name goes to the end. So distinct
names set one after the other stay in the order in which they were set. -/

theorem Named.set_of_not_mem {α : Type} {things : Named α} {name : Text}
    (h : name ∉ things.names) (a : α) :
    things.set name a = things ++ [(name, a)] := by
  induction things with
  | nil => rfl
  | cons f fs ih =>
      rw [names, List.map_cons, List.mem_cons, not_or] at h
      rw [set, if_neg fun heq => h.1 heq.symm, ih h.2, List.cons_append]

/-- Things set under names that are new and distinct stand at the end, in
order. -/
theorem Named.setAll_eq_append {α : Type} {things more : Named α}
    (h : (Named.names (things ++ more)).Nodup) :
    things.setAll more = things ++ more := by
  induction more generalizing things with
  | nil => exact (List.append_nil things).symm
  | cons f fs ih =>
      have hsplit : things ++ f :: fs = things ++ [f] ++ fs := by
        rw [List.append_assoc, List.singleton_append]
      have hnew : f.1 ∉ things.names := by
        rw [names, List.map_append, List.map_cons, List.nodup_append] at h
        exact fun hmem => h.2.2 _ hmem _ List.mem_cons_self rfl
      rw [hsplit] at h ⊢
      rw [setAll, List.foldl_cons, set_of_not_mem hnew]
      exact ih h

theorem Named.mem_of_mem_set {α : Type} {things : Named α} {name : Text} {a : α}
    {f : Text × α} (h : f ∈ things.set name a) :
    f = (name, a) ∨ f ∈ things := by
  induction things with
  | nil => exact .inl (List.mem_singleton.1 h)
  | cons g gs ih =>
      rw [set] at h
      split at h
      · exact (List.mem_cons.1 h).imp_right (List.mem_cons_of_mem g)
      · rcases List.mem_cons.1 h with rfl | h
        · exact .inr List.mem_cons_self
        · exact (ih h).imp_right (List.mem_cons_of_mem g)

theorem Named.mem_of_mem_setAll {α : Type} {things more : Named α}
    {f : Text × α} (h : f ∈ things.setAll more) : f ∈ things ∨ f ∈ more := by
  induction more generalizing things with
  | nil => exact .inl h
  | cons g gs ih =>
      rcases ih h with h | h
      · rcases mem_of_mem_set h with rfl | h
        · exact .inr List.mem_cons_self
        · exact .inl h
      · exact .inr (List.mem_cons_of_mem g h)

/-- Distinct names that are set in an empty record are its fields. -/
theorem Record.fields_ofFields {fields : Fields} (h : fields.names.Nodup) :
    (Record.ofFields fields).fields = fields :=
  Named.setAll_eq_append (show (Named.names ([] ++ fields)).Nodup from h)

theorem Record.ofFields_fields (r : Record) : Record.ofFields r.fields = r := by
  have hfields := fields_ofFields r.distinct
  cases r with
  | mk fields distinct => exact (Record.mk.injEq ..).mpr hfields

/-! ## What is under a name

Looking a name up behind any number of fields that were set finds the last of
them under it, or what was there before. Records are compared by the order of
their names and by what is under each. -/

namespace Named

variable {α : Type} {things more : Named α} {name other : Text}

theorem get?_set (things : Named α) (name : Text) (a : α) :
    (things.set name a).get? name = some a := by
  induction things with
  | nil => exact if_pos rfl
  | cons f fs ih =>
      rw [set]
      split
      · exact if_pos rfl
      · next hf => rw [get?, if_neg hf, ih]

theorem get?_set_of_ne (h : other ≠ name) (a : α) :
    (things.set name a).get? other = things.get? other := by
  induction things with
  | nil => exact if_neg (Ne.symm h)
  | cons f fs ih =>
      rw [set]
      split
      · next hf => rw [get?, get?, hf, if_neg (Ne.symm h), if_neg (Ne.symm h)]
      · rw [get?, get?, ih]

theorem mem_names_set {a : α} :
    other ∈ (things.set name a).names ↔
      other = name ∨ other ∈ things.names := by
  rw [names_set]
  split
  · next hmem => exact ⟨.inr, fun h => h.elim (fun heq => heq ▸ hmem) id⟩
  · rw [List.mem_append, List.mem_singleton, or_comm]

theorem get?_append :
    (things ++ more).get? name = (things.get? name).or (more.get? name) := by
  induction things with
  | nil => rfl
  | cons f fs ih =>
      rw [List.cons_append, get?, get?, ih]
      split <;> rfl

/-- Of the things set under a name the last one is there, else what was there
before. -/
theorem get?_setAll (things more : Named α) (name : Text) :
    (things.setAll more).get? name =
      (get? name more.reverse).or (things.get? name) := by
  induction more generalizing things with
  | nil => rfl
  | cons f fs ih =>
      show ((things.set f.1 f.2).setAll fs).get? name = _
      rw [ih, List.reverse_cons, get?_append]
      by_cases hf : f.1 = name
      · subst hf
        rw [get?_set, get?, if_pos rfl]
        cases get? f.1 fs.reverse <;> rfl
      · rw [get?_set_of_ne (Ne.symm hf), get?, if_neg hf]
        cases get? name fs.reverse <;> rfl

theorem get?_map {β : Type} (f : α → β) (things : Named α) (name : Text) :
    get? name (things.map fun p => (p.1, f p.2)) =
      (things.get? name).map f := by
  induction things with
  | nil => rfl
  | cons p ps ih =>
      rw [List.map_cons, get?, get?, ih]
      split <;> rfl

/-- What stands under one of some distinct names is what is found there. -/
theorem get?_of_mem (h : things.names.Nodup) {p : Text × α} (hp : p ∈ things) :
    things.get? p.1 = some p.2 := by
  induction things with
  | nil => exact absurd hp List.not_mem_nil
  | cons f fs ih =>
      have hdistinct : f.1 ∉ names fs ∧ (names fs).Nodup := List.nodup_cons.1 h
      rcases List.mem_cons.1 hp with rfl | hp
      · exact if_pos rfl
      · have hne : f.1 ≠ p.1 :=
          fun he => hdistinct.1 (he ▸ List.mem_map_of_mem hp)
        rw [get?, if_neg hne, ih hdistinct.2 hp]

/-- Names that are set keep their places if they are there. The others go last,
in the order of their first mention. -/
theorem names_setAll (things more : Named α) :
    (things.setAll more).names =
      things.names ++ (more.names.filter (· ∉ things.names)).eraseDups := by
  induction more generalizing things with
  | nil => exact (List.append_nil _).symm
  | cons f fs ih =>
      show ((things.set f.1 f.2).setAll fs).names =
        things.names ++ ((f.1 :: names fs).filter (· ∉ things.names)).eraseDups
      rw [ih, names_set]
      split
      · next hf => rw [List.filter_cons_of_neg (by simpa using hf)]
      · next hf =>
          rw [List.filter_cons_of_pos (by simpa using hf), List.eraseDups_cons,
            List.filter_filter, List.append_assoc, List.singleton_append]
          simp [not_or, Bool.and_comm, Bool.beq_eq_decide_eq]

/-- Things under distinct names are known by their names, in order, and by what
is found. -/
theorem eq_of_get?_eq (h : things.names.Nodup)
    (hnames : things.names = more.names)
    (hget : ∀ name, things.get? name = more.get? name) : things = more := by
  have hview {l : Named α} (hl : l.names.Nodup) :
      l.map (fun f => (f.1, some f.2)) = l.names.map fun name =>
        (name, l.get? name) := by
    rw [names, List.map_map]
    exact List.map_congr_left fun f hf =>
      congrArg (Prod.mk f.1) (get?_of_mem hl hf).symm
  have hinj (f g : Text × α) (hfg : (f.1, some f.2) = (g.1, some g.2)) :
      f = g := by
    rw [Prod.mk.injEq, Option.some.injEq] at hfg
    exact Prod.ext hfg.1 hfg.2
  rw [← List.map_inj_right hinj, hview h, hview (hnames ▸ h), hnames]
  exact List.map_congr_left fun name _ => congrArg (Prod.mk name) (hget name)

/-- Things that are set once more are as they were. -/
theorem setAll_setAll (h : things.names.Nodup) (more : Named α) :
    (things.setAll more).setAll more = things.setAll more := by
  have hdistinct := nodup_setAll h more
  refine eq_of_get?_eq (nodup_setAll hdistinct more) ?_ fun name => ?_
  · have hnone : more.names.filter (· ∉ (things.setAll more).names) = [] := by
      rw [List.filter_eq_nil_iff, names_setAll]
      intro name hname
      by_cases hmem : name ∈ things.names <;> simp [hmem, hname]
    rw [names_setAll, hnone]
    exact List.append_nil _
  · rw [get?_setAll, get?_setAll]
    cases get? name more.reverse <;> rfl

end Named

theorem Record.setAll_setAll (r : Record) (fields : Fields) :
    (r.setAll fields).setAll fields = r.setAll fields := by
  have hfields := Named.setAll_setAll r.distinct fields
  exact (Record.mk.injEq ..).mpr hfields

/-- Texts as values. -/
def textFields (xs : List (Text × Text)) : Fields :=
  xs.map fun x => (x.1, .text x.2)

theorem names_textFields (xs : List (Text × Text)) :
    (textFields xs).names = xs.map Prod.fst := by
  rw [Named.names, textFields, List.map_map]
  rfl

/-- The last text under a name. -/
def lastText? (xs : List (Text × Text)) (name : Text) : Option Text :=
  Named.get? name xs.reverse

/-- A field that is set has its last text, and any other is what it was. -/
theorem Record.get?_setAll_textFields (r : Record) (xs : List (Text × Text))
    (name : Text) :
    (r.setAll (textFields xs)).get? name =
      ((lastText? xs name).map .text).or (r.get? name) := by
  rw [get?, setAll, Named.get?_setAll, textFields, ← List.map_reverse,
    Named.get?_map]
  rfl

/-! ## Values in range

An integer that no double comes near makes comparing fail. Outside of such
integers every comparison has an answer. -/

/-- A record without integers beyond the finite numbers. -/
def Record.InRange (r : Record) : Prop := ∀ f ∈ r.fields, f.2.InRange

instance (r : Record) : Decidable r.InRange :=
  inferInstanceAs (Decidable (∀ f ∈ r.fields, f.2.InRange))

theorem Value.InRange.exists_number? {v : Value} (h : v.InRange) :
    ∃ x, v.number? = .ok x := by
  cases v with
  | integer n =>
      have hfinite : (Binary64.ofInt n).isFinite = true := h
      exact ⟨_, by rw [number?, Binary64.ofInt?, if_pos hfinite]; rfl⟩
  | array _ | object _ => exact ⟨_, by rw [number?, h.short.asText_eq]; rfl⟩
  | null | boolean _ | double _ | decimal _ | text _ => exact ⟨_, rfl⟩

/-- Values in range can be compared for equality. -/
theorem Value.InRange.exists_equal {v w : Value} (hv : v.InRange)
    (hw : w.InRange) :
    ∃ b, v.equal w = .ok b := by
  obtain ⟨x, hx⟩ := hv.exists_number?
  obtain ⟨y, hy⟩ := hw.exists_number?
  rw [equal]
  split
  · rw [hx, hy]
    cases x <;> cases y <;> exact ⟨_, rfl⟩
  · exact ⟨false, rfl⟩

theorem Record.InRange.value {r : Record} (h : r.InRange) (name : Text) :
    (r.value name).InRange := by
  rw [Record.value, get?]
  cases hv : r.fields.get? name with
  | none => trivial
  | some v => exact h _ (Named.mem_of_get? hv)

theorem Record.IsTextual.inRange {r : Record} (h : r.IsTextual) :
    r.InRange := by
  intro f hf
  obtain ⟨t, ht⟩ := h f hf
  rw [ht]
  trivial

/-! ## Texts

Records of texts, which is what SQL alone can store, have no such integer, and
all that is said of records in range holds of them. -/

/-- What a record of texts has under a name is a text, if it is anything. -/
theorem Record.IsTextual.value_eq {r : Record} (h : r.IsTextual) (name : Text) :
    r.value name = .null ∨ ∃ t, r.value name = .text t := by
  rw [value, get?]
  cases hv : r.fields.get? name with
  | none => exact .inl rfl
  | some v =>
      obtain ⟨t, ht⟩ := h _ (Named.mem_of_get? hv)
      exact .inr ⟨t, ht⟩

/-- Comparing two texts gives an answer. -/
theorem Value.exists_equal_text (a b : Text) :
    ∃ v, equal (.text a) (.text b) = .ok v := by
  simp only [equal, number?, isPresent, Bool.and_self, if_true, bind,
    Except.bind]
  split <;> exact ⟨_, rfl⟩

end RowSql

import RowSql.Proofs.Json.Rows

/-!
# What is read can be written

Whatever a file holds, the rows that are read from it are storable: no integer
is read that has too many digits, every string that is read is whole, an object
has each name once, and nothing is read as a decimal. Each reader leaves an end
of the text that it is given, so this goes down from the file to the strings in
it.
-/

namespace RowSql.Json

variable {t r : Text}

/-! ## Numbers and names

What a reader leaves is a suffix of what it was given, and what it gives can be
written again. For an integer that takes the limit on its digits, which is the
same for both. -/

theorem isSuffix_skipSpace (t : Text) : skipSpace t <:+ t :=
  List.dropWhile_suffix _

theorem isSuffix_of_after? {w : Text} (h : after? w t = some r) : r <:+ t := by
  induction w generalizing t with
  | nil =>
      cases h
      exact List.suffix_rfl
  | cons c cs ih =>
      cases t with
      | nil => cases h
      | cons d s =>
          rw [after?] at h
          split at h
          · exact (ih h).trans (List.suffix_cons d s)
          · cases h

theorem asciiDigit?_lt {c : CodePoint} {d : Nat} (h : asciiDigit? c = some d) :
    d < 10 := by
  rw [asciiDigit?] at h
  split at h
  · next hc =>
      have hhigh : c.toNat ≤ 57 := hc.2
      cases h
      omega
  · cases h

theorem asciiDigits_eq {ds : List Nat} (h : asciiDigits t = (ds, r)) :
    r <:+ t ∧ ∀ d ∈ ds, d < 10 := by
  induction t generalizing ds with
  | nil =>
      cases h
      exact ⟨List.suffix_rfl, fun d hd => absurd hd List.not_mem_nil⟩
  | cons c s ih =>
      rw [asciiDigits] at h
      split at h
      · next hc =>
          have hrest : asciiDigits s = ((asciiDigits s).1, r) := by
            rw [← (Prod.mk.inj h).2]
          obtain ⟨hsuffix, hds⟩ := ih hrest
          rw [← (Prod.mk.inj h).1]
          exact ⟨hsuffix.trans (List.suffix_cons c s),
            List.forall_mem_cons.2 ⟨asciiDigit?_lt hc, hds⟩⟩
      · cases h
        exact ⟨List.suffix_rfl, fun d hd => absurd hd List.not_mem_nil⟩

/-- The digits before a point: at least one, and each below ten. -/
theorem readWhole?_eq_some {ds : List Nat} (h : readWhole? t = some (ds, r)) :
    r <:+ t ∧ ds ≠ [] ∧ ∀ d ∈ ds, d < 10 := by
  rw [readWhole?.eq_def] at h
  split at h
  · cases h
    exact ⟨List.suffix_cons _ _, List.cons_ne_nil 0 [], by decide⟩
  · split at h
    · cases h
    · next hne =>
        obtain ⟨hsuffix, hds⟩ := asciiDigits_eq (Option.some.inj h)
        refine ⟨hsuffix, ?_, hds⟩
        rintro rfl
        exact hne r (Option.some.inj h)

theorem isSuffix_of_readFraction? {ds : List Nat}
    (h : readFraction? t = some (ds, r)) :
    r <:+ t := by
  rw [readFraction?.eq_def] at h
  split at h
  · split at h
    · cases h
    · exact (asciiDigits_eq (Option.some.inj h)).1.trans (List.suffix_cons _ _)
  · cases h

theorem isSuffix_of_splitSign {negative : Bool}
    (h : splitSign t = (negative, r)) : r <:+ t := by
  rw [splitSign.eq_def] at h
  split at h <;> cases h
  · exact List.suffix_cons _ _
  · exact List.suffix_cons _ _
  · exact List.suffix_rfl

theorem isSuffix_of_readPower? {n : Int} (h : readPower? t = some (n, r)) :
    r <:+ t := by
  cases t with
  | nil => cases h
  | cons c s =>
      obtain ⟨negative, u, hu⟩ : ∃ negative u, splitSign s = (negative, u) :=
        ⟨_, _, rfl⟩
      rw [readPower?] at h
      split at h
      · rw [hu] at h
        simp only at h
        split at h
        · cases h
        · next hds =>
            rw [← (Prod.mk.inj (Option.some.inj h)).2]
            exact ((asciiDigits_eq hds).1.trans
              (isSuffix_of_splitSign hu)).trans
              (List.suffix_cons c s)
      · cases h

/-- An integer that is read has no more digits than are read. -/
theorem readable_of_integer {negative : Bool} {ds : List Nat} {v : Value}
    (hne : ds ≠ []) (h : ∀ d ∈ ds, d < 10) (hv : integer negative ds = .ok v) :
    v.Storable := by
  rw [integer] at hv
  split at hv
  · cases hv
  · next hlimit =>
      cases hv
      have habs :
          (if negative then -(ofDigits ds : Int) else ofDigits ds).natAbs =
            ofDigits ds := by
        split <;> omega
      have hlen :=
        length_decimalDigits_le (List.length_pos_iff.2 hne) (ofDigits_lt h)
      have hshort :
          Value.ShortInt (if negative then -(ofDigits ds : Int)
            else ofDigits ds) := by
        rw [Value.shortInt_iff, habs]
        omega
      exact hshort

/-- A number that is read is a double, or an integer that can be written. -/
theorem readUnsigned?_eq_some {negative : Bool} {v : Value}
    (h : readUnsigned? negative t = some (.ok v, r)) :
    r <:+ t ∧ v.Storable := by
  rw [readUnsigned?] at h
  split at h
  · cases h
  next whole s hwhole =>
  obtain ⟨hsuffix, hne, hds⟩ := readWhole?_eq_some hwhole
  split at h
  · next fraction u hfraction =>
      have hu := (isSuffix_of_readFraction? hfraction).trans hsuffix
      cases hpower : readPower? u with
      | none =>
          rw [hpower] at h
          cases h
          exact ⟨hu, trivial⟩
      | some p =>
          rw [hpower] at h
          cases h
          exact ⟨(isSuffix_of_readPower? hpower).trans hu, trivial⟩
  · split at h
    · next power u hpower =>
        cases h
        exact ⟨(isSuffix_of_readPower? hpower).trans hsuffix, trivial⟩
    · have hv := Prod.mk.inj (Option.some.inj h)
      exact ⟨hv.2 ▸ hsuffix, readable_of_integer hne hds hv.1⟩

theorem readNumber?_eq_some {v : Value} (h : readNumber? t = some (.ok v, r)) :
    r <:+ t ∧ v.Storable := by
  rw [readNumber?.eq_def] at h
  split at h
  · exact (readUnsigned?_eq_some h).imp_left fun hs =>
      hs.trans (List.suffix_cons _ _)
  · exact readUnsigned?_eq_some h

theorem readNamed?_eq_some {v : Value} (h : readNamed? t = some (v, r)) :
    r <:+ t ∧ v.Storable := by
  have hstorable : ∀ p ∈ namedValues, p.2.Storable := by
    simp only [namedValues, List.forall_mem_cons]
    exact ⟨trivial, trivial, trivial, trivial, trivial, trivial,
      (fun _ h => absurd h List.not_mem_nil)⟩
  obtain ⟨p, hp, hafter⟩ := List.exists_of_findSome?_eq_some h
  obtain ⟨s, hs, heq⟩ := Option.map_eq_some_iff.1 hafter
  cases heq
  exact ⟨isSuffix_of_after? hs, hstorable p hp⟩

theorem readScalar_eq_ok {v : Value} (h : readScalar t = .ok (v, r)) :
    r <:+ t ∧ v.Storable := by
  rw [readScalar] at h
  split at h
  · next hnamed =>
      cases h
      exact readNamed?_eq_some hnamed
  · split at h
    · next x s hnumber =>
        obtain ⟨w, rfl, heq⟩ := map_eq_ok h
        cases heq
        exact readNumber?_eq_some hnumber
    · cases h

/-! ## Values

The three readers call each other with less fuel, so what they give is said of
one amount of fuel for all three at once. -/

/-- Values that are read under names can be written, when of those with the same
name the last one is left in the place of the first. -/
theorem storable_setAll {ms : List (Text × Value)}
    (hnames : ∀ m ∈ ms, m.1.Whole) (h : ∀ m ∈ ms, m.2.Storable) :
    (Value.object (Named.setAll [] ms)).Storable := by
  have hmem : ∀ m ∈ Named.setAll [] ms, m ∈ ms := fun m hm =>
    (Named.mem_of_mem_setAll hm).resolve_left List.not_mem_nil
  have hempty : (Named.names ([] : Named Value)).Nodup := List.nodup_nil
  exact Value.every_iff.2
    ⟨⟨Named.nodup_setAll hempty ms, fun m hm => hnames m (hmem m hm)⟩,
    List.forall_mem_map.2 fun m hm => h m (hmem m hm)⟩

/-- What the three readers of values with the same fuel give. -/
structure ReadsStorable (fuel : Nat) : Prop where
  value : ∀ {t r v}, t.OfChars → readValue fuel t = .ok (v, r) →
    r <:+ t ∧ v.Storable
  items : ∀ {t r vs}, t.OfChars → readItems fuel t = .ok (vs, r) →
    r <:+ t ∧ ∀ v ∈ vs, v.Storable
  members : ∀ {t r ms}, t.OfChars → readMembers fuel t = .ok (ms, r) →
    r <:+ t ∧ (∀ m ∈ ms, m.1.Whole) ∧ ∀ m ∈ ms, m.2.Storable

theorem readsStorable_value {fuel : Nat} (ih : ReadsStorable fuel) {v : Value}
    (ht : t.OfChars) (h : readValue (fuel + 1) t = .ok (v, r)) :
    r <:+ t ∧ v.Storable := by
  rw [readValue.eq_def] at h
  simp only at h
  split at h
  · next s =>
      obtain ⟨⟨u, r⟩, hu, heq⟩ := map_eq_ok h
      cases heq
      obtain ⟨hsuffix, hwhole, _⟩ :=
        readString_eq_ok (ht.of_isSuffix (List.suffix_cons _ s)) hu
      exact ⟨hsuffix.trans (List.suffix_cons _ s), hwhole⟩
  · next s =>
      have hs : skipSpace s <:+ .char '[' :: s :=
        (isSuffix_skipSpace s).trans (List.suffix_cons _ s)
      split at h
      · next u hu =>
          cases h
          rw [hu] at hs
          exact ⟨(List.suffix_cons _ _).trans hs, trivial, trivial⟩
      · obtain ⟨⟨vs, r⟩, hvs, heq⟩ := map_eq_ok h
        cases heq
        obtain ⟨hsuffix, hall⟩ := ih.items (ht.of_isSuffix hs) hvs
        exact ⟨hsuffix.trans hs, Value.every_iff.2 ⟨trivial, hall⟩⟩
  · next s =>
      have hs : skipSpace s <:+ .char '{' :: s :=
        (isSuffix_skipSpace s).trans (List.suffix_cons _ s)
      split at h
      · next u hu =>
          cases h
          rw [hu] at hs
          have hempty : (Value.object []).Storable :=
            ⟨⟨List.nodup_nil, List.forall_mem_nil _⟩, trivial⟩
          exact ⟨(List.suffix_cons _ _).trans hs, hempty⟩
      · obtain ⟨⟨ms, r⟩, hms, heq⟩ := map_eq_ok h
        cases heq
        obtain ⟨hsuffix, hnames, hall⟩ := ih.members (ht.of_isSuffix hs) hms
        exact ⟨hsuffix.trans hs, storable_setAll hnames hall⟩
  · exact readScalar_eq_ok h

theorem readsStorable_items {fuel : Nat} (ih : ReadsStorable fuel)
    {vs : List Value} (ht : t.OfChars)
    (h : readItems (fuel + 1) t = .ok (vs, r)) :
    r <:+ t ∧ ∀ v ∈ vs, v.Storable := by
  rw [readItems] at h
  split at h
  · cases h
  next v s hv =>
  obtain ⟨hs, hstorable⟩ := ih.value ht hv
  have hskip := (isSuffix_skipSpace s).trans hs
  split at h
  · next u hu =>
      cases h
      rw [hu] at hskip
      exact ⟨(List.suffix_cons _ _).trans hskip,
        List.forall_mem_singleton.2 hstorable⟩
  · next u hu =>
      obtain ⟨⟨ws, r⟩, hws, heq⟩ := map_eq_ok h
      cases heq
      rw [hu] at hskip
      have hnext :=
        (isSuffix_skipSpace u).trans ((List.suffix_cons _ _).trans hskip)
      obtain ⟨hsuffix, hall⟩ := ih.items (ht.of_isSuffix hnext) hws
      exact ⟨hsuffix.trans hnext, List.forall_mem_cons.2 ⟨hstorable, hall⟩⟩
  · cases h

theorem readsStorable_members {fuel : Nat} (ih : ReadsStorable fuel)
    {ms : List (Text × Value)} (ht : t.OfChars)
    (h : readMembers (fuel + 1) t = .ok (ms, r)) :
    r <:+ t ∧ (∀ m ∈ ms, m.1.Whole) ∧ ∀ m ∈ ms, m.2.Storable := by
  rw [readMembers.eq_def] at h
  simp only at h
  split at h
  · next s =>
      split at h
      · cases h
      next name u hname =>
      obtain ⟨hu, hwhole, _⟩ :=
        readString_eq_ok (ht.of_isSuffix (List.suffix_cons _ s)) hname
      have hu : skipSpace u <:+ .char '"' :: s :=
        (isSuffix_skipSpace u).trans (hu.trans (List.suffix_cons _ s))
      split at h
      · next v hv =>
          rw [hv] at hu
          have hv :=
            (isSuffix_skipSpace v).trans ((List.suffix_cons _ _).trans hu)
          split at h
          · cases h
          next d w hd =>
          obtain ⟨hw, hstorable⟩ := ih.value (ht.of_isSuffix hv) hd
          have hskip := (isSuffix_skipSpace w).trans (hw.trans hv)
          split at h
          · next x hx =>
              cases h
              rw [hx] at hskip
              exact ⟨(List.suffix_cons _ _).trans hskip,
                List.forall_mem_singleton.2 hwhole,
                List.forall_mem_singleton.2 hstorable⟩
          · next x hx =>
              obtain ⟨⟨ns, r⟩, hns, heq⟩ := map_eq_ok h
              cases heq
              rw [hx] at hskip
              have hnext :=
                (isSuffix_skipSpace x).trans
                  ((List.suffix_cons _ _).trans hskip)
              obtain ⟨hsuffix, hnames, hall⟩ :=
                ih.members (ht.of_isSuffix hnext) hns
              exact ⟨hsuffix.trans hnext,
                List.forall_mem_cons.2 ⟨hwhole, hnames⟩,
                List.forall_mem_cons.2 ⟨hstorable, hall⟩⟩
          · cases h
      · cases h
  · cases h

theorem readsStorable (fuel : Nat) : ReadsStorable fuel := by
  induction fuel with
  | zero =>
      refine ⟨fun _ h => ?_, fun _ h => ?_, fun _ h => ?_⟩
      · cases h
      · cases h
      · cases h
  | succ fuel ih =>
      exact ⟨readsStorable_value ih, readsStorable_items ih,
        readsStorable_members ih⟩

/-- A value that is read can be written. -/
theorem storable_of_read {v : Value} (ht : t.OfChars) (h : read t = .ok v) :
    v.Storable := by
  rw [read] at h
  split at h
  · cases h
  · split at h
    · cases h
    · next hd =>
        split at h
        · cases h
          exact ((readsStorable _).value
            (ht.of_isSuffix (isSuffix_skipSpace t)) hd).2
        · cases h

/-! ## Rows

The rows of a table are objects in an array, so each of them is as storable as
the values that it was read with. -/

theorem exists_of_mapM_eq_some {α β : Type} {f : α → Option β} {xs : List α}
    {ys : List β} (h : xs.mapM f = some ys) :
    ∀ y ∈ ys, ∃ x ∈ xs, f x = some y := by
  induction xs generalizing ys with
  | nil =>
      cases h
      exact fun y hy => absurd hy List.not_mem_nil
  | cons x xs ih =>
      rw [List.mapM_cons] at h
      obtain ⟨z, hz, h⟩ := Option.bind_eq_some_iff.1 h
      obtain ⟨zs, hzs, h⟩ := Option.bind_eq_some_iff.1 h
      cases h
      refine List.forall_mem_cons.2 ⟨⟨x, List.mem_cons_self, hz⟩,
        fun y hy => ?_⟩
      obtain ⟨a, ha, hay⟩ := ih hzs y hy
      exact ⟨a, List.mem_cons_of_mem x ha, hay⟩

/-- Rows that are read can be written. -/
theorem storable_of_rows? {v : Value} (hv : v.Storable) {rows : List Record}
    (h : rows? v = some rows) : ∀ r ∈ rows, r.Storable := by
  intro r hr
  rw [rows?.eq_def] at h
  split at h
  · next items =>
      obtain ⟨o, ho, hrecord⟩ := exists_of_mapM_eq_some h r hr
      have hobject : o.Storable := (Value.every_iff.1 hv).2 o ho
      rw [record?.eq_def] at hrecord
      split at hrecord
      · next members =>
          cases hrecord
          obtain ⟨⟨-, hnames⟩, hmembers⟩ := Value.every_iff.1 hobject
          intro f hf
          have hmem : f ∈ members :=
            (Named.mem_of_mem_setAll hf).resolve_left List.not_mem_nil
          exact ⟨hnames f hmem, hmembers f.2 (List.mem_map_of_mem hmem)⟩
      · cases hrecord
  · cases h

end RowSql.Json

import RowSql.Proofs.Filter.LeafReading

/-!
# The parts of a leaf

A text is a leaf when it can be taken apart in some way: into a field, an
operator that touches no word if it is one, and a value, with blanks around and
between them. The reader tries the ways in turn, so it finds one whenever there
is one, and what it finds is one of them. Which one it finds is not said here;
but where the field and the operator begin and end in the text is known from
their lengths alone.
-/

namespace RowSql.Filter

open Text

/-- A way to take the text of a leaf apart. -/
structure LeafParts where
  before : Text
  field : Text
  gap : Text
  op : Operator
  written : Text
  after : Text

namespace LeafParts

/-- The text of the parts. -/
def text (m : LeafParts) : Text :=
  m.before ++ (m.field ++ (m.gap ++ (m.written ++ m.after)))

/-- What a reader keeps of the parts. -/
def leaf (m : LeafParts) : Leaf := ⟨m.field, m.written, trim m.after⟩

/-- The parts are those of a leaf. -/
structure Fits (m : LeafParts) : Prop where
  blanks_before : Blanks m.before
  field_ne_nil : m.field ≠ []
  field_chars : ∀ c ∈ m.field, isFieldChar c = true
  blanks_gap : Blanks m.gap
  spells : Spells m.op.spelling m.written
  apart_before :
      m.op.isWord = true → m.gap = [] → ∀ c ∈ m.field.getLast?, isWord c = false
  apart_after : m.op.isWord = true → beginsWithWord m.after = false
  value : isLeafValue (trim m.after) = true

end LeafParts

/-! ## Reading the operator

The operators are tried in a fixed order. That one of them is read behind a
field means that some operator is there with a value behind it, and no more is
needed. -/

theorem readOperatorAs?_eq_some_iff {touching : Bool} {t : Text} {op : Operator}
    {r : Text × Text} :
    readOperatorAs? touching t op = some r ↔
      ∃ x y, t = x ++ y ∧ Spells op.spelling x ∧ r = (x, trim y) ∧
        (op.isWord = true → touching = false ∧ beginsWithWord y = false) ∧
        isLeafValue (trim y) = true := by
  rw [readOperatorAs?]
  constructor
  · intro h
    split at h
    · next y hy =>
        obtain ⟨x, hx, rfl⟩ := afterWord?_eq_some_iff.1 hy
        split at h
        · cases h
        · next hn =>
            cases h
            rw [Bool.not_eq_true, Bool.or_eq_false_iff, Bool.not_eq_false']
              at hn
            refine ⟨x, y, rfl, hx,
              by rw [← hx.length_eq, List.take_left], fun hop => ?_, hn.2⟩
            have hfree := hn.1
            rwa [hop, Bool.true_and, Bool.or_eq_false_iff] at hfree
    · cases h
  · rintro ⟨x, y, rfl, hx, rfl, hword, hvalue⟩
    have hfree : (op.isWord && (touching || beginsWithWord y)) = false := by
      cases hop : op.isWord with
      | false => rfl
      | true => simp [hword hop]
    rw [afterWord?_append hx, ← hx.length_eq, List.take_left]
    simp [hfree, hvalue]

/-- An operator touches the field when no blank stands between and the field
ends in a word. -/
theorem touching_eq_false_iff {last : CodePoint} {gap u : Text}
    (hgap : Blanks gap) (hu : FlushLeft u) (hne : u ≠ []) :
    (isWord last && (gap ++ u).head?.all fun c => !isBlank c) = false ↔
      (gap = [] → isWord last = false) := by
  cases gap with
  | nil =>
      obtain ⟨c, u, rfl⟩ := List.exists_cons_of_ne_nil hne
      simp [flushLeft_cons.1 hu]
  | cons d gap => simp [(blanks_cons.1 hgap).1]

theorem Operator.mem_all (op : Operator) : op ∈ Operator.all := by
  cases op <;> decide

theorem Operator.flushLeft_of_spells {op : Operator} {x y : Text}
    (h : Spells op.spelling x) :
    FlushLeft (x ++ y) := by
  rw [flushLeft_append (Operator.ne_nil_of_spells h)]
  intro c s hc
  exact Operator.isBlank_of_spells h (hc ▸ List.mem_cons_self)

theorem readOperator?_eq_some {last : CodePoint} {t : Text} {r : Text × Text}
    (h : readOperator? last t = some r) :
    ∃ (gap : Text) (op : Operator) (x y : Text),
      t = gap ++ (x ++ y) ∧ Blanks gap ∧ Spells op.spelling x ∧
      r = (x, trim y) ∧
      (op.isWord = true →
        (gap = [] → isWord last = false) ∧ beginsWithWord y = false) ∧
      isLeafValue (trim y) = true := by
  obtain ⟨gap, hgap, ht⟩ := exists_eq_append_trimLeft t
  obtain ⟨op, _, hop⟩ := List.exists_of_findSome?_eq_some h
  obtain ⟨x, y, hxy, hx, rfl, hword, hvalue⟩ :=
    readOperatorAs?_eq_some_iff.1 hop
  have hflush : FlushLeft (x ++ y) := Operator.flushLeft_of_spells hx
  have hne : x ++ y ≠ [] :=
    List.append_ne_nil_of_left_ne_nil (Operator.ne_nil_of_spells hx) y
  rw [hxy] at ht
  rw [ht, touching_eq_false_iff hgap hflush hne] at hword
  exact ⟨gap, op, x, y, ht, hgap, hx, rfl, hword, hvalue⟩

theorem readOperator?_isSome {last : CodePoint} {gap x y : Text} {op : Operator}
    (hgap : Blanks gap) (hx : Spells op.spelling x)
    (hword : op.isWord = true →
      (gap = [] → isWord last = false) ∧ beginsWithWord y = false)
    (hvalue : isLeafValue (trim y) = true) :
    (readOperator? last (gap ++ (x ++ y))).isSome = true := by
  have hflush : FlushLeft (x ++ y) := Operator.flushLeft_of_spells hx
  have hne : x ++ y ≠ [] :=
    List.append_ne_nil_of_left_ne_nil (Operator.ne_nil_of_spells hx) y
  rw [readOperator?, trimLeft_append_blanks hgap, hflush.trimLeft_eq,
    List.findSome?_isSome_iff]
  refine ⟨op, op.mem_all, Option.isSome_iff_exists.2 ⟨(x, trim y), ?_⟩⟩
  refine readOperatorAs?_eq_some_iff.2 ⟨x, y, rfl, hx, rfl, ?_, hvalue⟩
  rwa [touching_eq_false_iff hgap hflush hne]

/-! ## Reading the field

The fields are tried from the longest down, each with all operators. So some
field is read when any of them can be, though it may be another one. -/

theorem Leaf.exists_parts_of_readField? {t : Text} {leaf : Leaf}
    (h : readField? t = some leaf) :
    ∃ m : LeafParts, m.Fits ∧ m.before = [] ∧ m.text = t ∧ m.leaf = leaf := by
  induction t generalizing leaf with
  | nil => cases h
  | cons c s ih =>
      rw [readField?] at h
      split at h
      · next hc =>
          split at h
          · next leaf' hs =>
              obtain ⟨m, hm, hbefore, rfl, rfl⟩ := ih hs
              refine ⟨{ m with field := c :: m.field }, { hm with
                field_ne_nil := List.cons_ne_nil _ _
                field_chars := List.forall_mem_cons.2 ⟨hc, hm.field_chars⟩
                apart_before :=
                fun hop hgap d hd => hm.apart_before hop hgap d ?_ },
                hbefore, ?_, Option.some.inj h⟩
              · obtain ⟨e, f, hf⟩ := List.exists_cons_of_ne_nil hm.field_ne_nil
                rwa [hf, List.getLast?_cons_cons, ← hf] at hd
              · simp only [LeafParts.text, hbefore, List.nil_append,
                  List.cons_append]
          · obtain ⟨r, hr, hleaf⟩ := Option.map_eq_some_iff.1 h
            obtain ⟨gap, op, x, y, rfl, hgap, hx, rfl, hword, hvalue⟩ :=
              readOperator?_eq_some hr
            refine ⟨⟨[], [c], gap, op, x, y⟩, ⟨blanks_nil, List.cons_ne_nil _ _,
              List.forall_mem_singleton.2 hc, hgap, hx, ?_,
              fun hop => (hword hop).2, hvalue⟩, rfl,
              rfl, hleaf⟩
            intro hop hnil d hd
            cases hd
            exact (hword hop).1 hnil
      · cases h

theorem Leaf.readField?_isSome {f gap x y : Text} {op : Operator} (hne : f ≠ [])
    (hf : ∀ c ∈ f, isFieldChar c = true) (hgap : Blanks gap)
    (hx : Spells op.spelling x)
    (hbefore : op.isWord = true → gap = [] → ∀ c ∈ f.getLast?, isWord c = false)
    (hafter : op.isWord = true → beginsWithWord y = false)
    (hvalue : isLeafValue (trim y) = true) :
    (readField? (f ++ (gap ++ (x ++ y)))).isSome = true := by
  induction f with
  | nil => exact absurd rfl hne
  | cons c f ih =>
      rw [List.forall_mem_cons] at hf
      rw [List.cons_append, readField?, if_pos hf.1]
      cases hread : readField? (f ++ (gap ++ (x ++ y))) with
      | some leaf => rfl
      | none =>
          cases f with
          | nil =>
              have hlast : op.isWord = true → gap = [] → isWord c = false :=
                fun hop hnil => hbefore hop hnil c rfl
              rw [List.nil_append, Option.isSome_map]
              exact readOperator?_isSome hgap hx
                (fun hop => ⟨hlast hop, hafter hop⟩) hvalue
          | cons d f =>
              have hsome := ih (List.cons_ne_nil d f) hf.2 fun hop hnil e he =>
                hbefore hop hnil e (by rwa [List.getLast?_cons_cons])
              rw [hread] at hsome
              cases hsome

/-! ## Reading the leaf

The blanks around a leaf are told from its parts, since these are flush. Two
ways to take one text apart are therefore the same if the lengths of their
fields and operators are. -/

/-- What is read are parts of the text. -/
theorem Leaf.exists_parts {t : Text} {leaf : Leaf} (h : read? t = some leaf) :
    ∃ m : LeafParts, m.Fits ∧ m.text = t ∧ m.leaf = leaf := by
  obtain ⟨b, hb, ht⟩ := exists_eq_append_trimLeft t
  obtain ⟨m, hm, hbefore, htext, hleaf⟩ := exists_parts_of_readField? h
  refine ⟨{ m with before := b }, { hm with blanks_before := hb }, ?_, hleaf⟩
  rw [LeafParts.text, hbefore, List.nil_append] at htext
  rw [LeafParts.text, htext, ← ht]

namespace LeafParts

variable {m n : LeafParts}

theorem Fits.flushLeft_field (hm : m.Fits) (u : Text) :
    FlushLeft (m.field ++ u) := by
  rw [flushLeft_append hm.field_ne_nil]
  intro c s hc
  have hfield := hm.field_chars c (hc ▸ List.mem_cons_self)
  cases hblank : isBlank c with
  | false => rfl
  | true => rw [isFieldChar_of_isBlank hblank] at hfield; cases hfield

/-- A text that has such parts is read. -/
theorem Fits.read?_isSome (hm : m.Fits) :
    (Leaf.read? m.text).isSome = true := by
  rw [Leaf.read?, text, trimLeft_append_blanks hm.blanks_before,
    (hm.flushLeft_field _).trimLeft_eq]
  exact Leaf.readField?_isSome hm.field_ne_nil hm.field_chars hm.blanks_gap
    hm.spells
    hm.apart_before hm.apart_after hm.value

/-- Blanks before a flush text are told from it. -/
theorem blanks_append_inj {b b' u u' : Text} (hb : Blanks b) (hb' : Blanks b')
    (hu : FlushLeft u) (hu' : FlushLeft u') (h : b ++ u = b' ++ u') :
    b = b' ∧ u = u' := by
  have htail : u = u' := by
    rw [← hu.trimLeft_eq, ← hu'.trimLeft_eq, ← trimLeft_append_blanks hb, h,
      trimLeft_append_blanks hb']
  subst htail
  exact ⟨List.append_cancel_right h, rfl⟩

/-- The parts of a text are known from the lengths of its field and its
operator. -/
theorem Fits.eq_of_length (hm : m.Fits) (hn : n.Fits) (htext : m.text = n.text)
    (hfield : m.field.length = n.field.length)
    (hwritten : m.written.length = n.written.length) :
    m.before = n.before ∧ m.field = n.field ∧ m.gap = n.gap ∧
      m.written = n.written ∧
      m.after = n.after := by
  obtain ⟨hbefore, hrest⟩ := blanks_append_inj hm.blanks_before hn.blanks_before
    (hm.flushLeft_field _) (hn.flushLeft_field _) htext
  obtain ⟨hf, hrest⟩ := List.append_inj hrest hfield
  obtain ⟨hgap, hrest⟩ := blanks_append_inj hm.blanks_gap hn.blanks_gap
    (Operator.flushLeft_of_spells hm.spells)
      (Operator.flushLeft_of_spells hn.spells) hrest
  obtain ⟨hw, hafter⟩ := List.append_inj hrest hwritten
  exact ⟨hbefore, hf, hgap, hw, hafter⟩

end LeafParts

end RowSql.Filter

import RowSql.Proofs.Filter.Literals
import RowSql.Proofs.Statement.Cursor

/-!
# What a leaf means

A leaf can often be cut in more than one way, and a reader that tries the ways
in turn takes the first that works. With blanks between its parts a leaf leaves
no choice: the longest field ends at the first blank, no operator goes on into a
blank, and what is left is the literal. So the leaf means what it looks like,
whatever stands in the literal and however the field is called: its field must
be there, and the rule of the operator must be true of its value.
-/

namespace RowSql.Filter

open Text

variable {op : Operator} {f x t text : Text}

/-! ## Operators in capitals and small letters

In letters of ASCII upper case and letter case agree: such an operator is the
one that is read and the one that is judged. With letters of other scripts they
need not. -/

/-- An operator in capital or small letters of ASCII. -/
def Operator.InCase (op : Operator) (x : Text) : Prop :=
  x.map CodePoint.toUpper = op.spelling

instance (op : Operator) (x : Text) : Decidable (op.InCase x) :=
  inferInstanceAs (Decidable (_ = _))

/-- What has a capital letter in ASCII is in ASCII. -/
theorem toNat_lt_of_toUpper {c : CodePoint} (h : c.toUpper.toNat < 128) :
    c.toNat < 128 := by
  cases c with
  | surrogate k => exact h
  | char c =>
      have hupper : c.toUpper.toNat < 128 := h
      show c.toNat < 128
      by_cases hsmall : c.val ≥ 'a'.val ∧ c.val ≤ 'z'.val
      · have hle : c.toNat ≤ 'z'.toNat := hsmall.2
        exact Nat.lt_of_le_of_lt hle (by decide)
      · have hself : c.toUpper = c := dif_neg hsmall
        rwa [hself] at hupper

theorem Operator.InCase.ascii (h : op.InCase x) {c : CodePoint} (hc : c ∈ x) :
    c.toNat < 128 := by
  have hupper : c.toUpper ∈ op.spelling := h ▸ List.mem_map_of_mem hc
  exact toNat_lt_of_toUpper (ascii_spelling hupper)

theorem Operator.InCase.spells (h : op.InCase x) : Spells op.spelling x := by
  rw [Spells, map_foldCase_spelling, ← h]
  exact List.map_congr_left fun c hc => by rw [foldCase, if_pos (h.ascii hc)]

/-- The operator that is meant is the one that is written. -/
theorem Operator.InCase.ofWritten?_eq (h : op.InCase x) :
    ofWritten? x = some op := by
  have hforeign : ∀ c ∈ x, ¬ IsForeignCapital c :=
    fun c hc hc' => hc'.not_ascii (h.ascii hc)
  exact ofWritten?_of_spells h.spells hforeign

/-! ## Leaves with blanks between their parts

A blank ends the field, and no operator goes over it. So the parts that are
written are the first that the reader tries and finds, and it tries nothing
else. -/

/-- A text is a field, an operator and a literal, with blanks between them and
perhaps around them. -/
def IsSpaced (f x t text : Text) : Prop :=
  ∃ b b₁ b₂ b', text = b ++ (f ++ (b₁ ++ (x ++ (b₂ ++ (t ++ b'))))) ∧
    Blanks b ∧ (Blanks b₁ ∧ b₁ ≠ []) ∧ (Blanks b₂ ∧ b₂ ≠ []) ∧ Blanks b'

/-- Nothing is read as a field where a blank stands. -/
theorem Leaf.readField?_of_bounded {rest : Text} (h : Bounded rest) :
    readField? rest = none := by
  cases rest with
  | nil => rfl
  | cons c s =>
      rw [readField?, isFieldChar_of_isBlank (bounded_cons.1 h)]
      rfl

/-- The longest field is taken if an operator and a value can be read behind
it. -/
theorem Leaf.readField?_concat {g rest : Text} {c : CodePoint} {r : Text × Text}
    (hg : ∀ d ∈ g, isFieldChar d = true) (hc : isFieldChar c = true)
    (hrest : Bounded rest)
    (h : readOperator? c rest = some r) :
    readField? (g ++ c :: rest) = some ⟨g ++ [c], r.1, r.2⟩ := by
  induction g with
  | nil =>
      rw [List.nil_append, readField?, hc, readField?_of_bounded hrest, h]
      rfl
  | cons d g ih =>
      rw [List.forall_mem_cons] at hg
      rw [List.cons_append, readField?, hg.1, ih hg.2]
      rfl

theorem Leaf.read?_spaced (htext : IsSpaced f x t text)
    (hf : Statement.IsField f) (hx : Spells op.spelling x) (ht : Trimmed t)
    (hval : isLeafValue t = true) :
    read? text = some ⟨f, x, t⟩ := by
  obtain ⟨b, b₁, b₂, b', rfl, hb, ⟨hb₁, hne₁⟩, ⟨hb₂, hne₂⟩, hb'⟩ := htext
  obtain ⟨g, c, rfl⟩ := (List.eq_nil_or_concat f).resolve_left hf.ne_nil
  rw [List.concat_eq_append] at hf ⊢
  have hwritten : Written op b₁ x (b₂ ++ (t ++ b')) := by
    obtain ⟨d, s, rfl⟩ := List.exists_cons_of_ne_nil hne₂
    have hd : isBlank d = true := (blanks_cons.1 hb₂).1
    have hword : isWord d = false :=
      Statement.not_word_of_bounded (bounded_cons (s := s).2 hd) d s rfl
    refine ⟨hb₁, hx, fun _ => hne₁, fun _ => hword, fun s hs => ?_⟩
    rw [List.cons_append, List.cons.injEq] at hs
    exact absurd (hs.1 ▸ hd) (by decide)
  have htrim : trim (b₂ ++ (t ++ b')) = t := by
    rw [← List.append_assoc, trim_blanks_append hb₂ hb', ht.trim_eq]
  have hskip :
      trimLeft (b₁ ++ (x ++ (b₂ ++ (t ++ b')))) = x ++ (b₂ ++ (t ++ b')) := by
    obtain ⟨e, z, rfl⟩ :=
      List.exists_cons_of_ne_nil (Operator.ne_nil_of_spells hx)
    rw [trimLeft_append_blanks hb₁, List.cons_append,
      trimLeft_cons (Operator.isBlank_of_spells hx List.mem_cons_self)]
  have hread :
      readOperator? c (b₁ ++ (x ++ (b₂ ++ (t ++ b')))) = some (x, t) := by
    obtain ⟨d, s, rfl⟩ := List.exists_cons_of_ne_nil hne₁
    have hd : isBlank d = true := (blanks_cons.1 hb₁).1
    have hfind := hwritten.findSome?_eq (.inl (by rw [htrim]; exact hval))
    rw [htrim, if_pos hval] at hfind
    rw [readOperator?, hskip, List.cons_append, List.head?_cons,
      Option.all_some, hd, Bool.not_true, Bool.and_false]
    exact hfind
  have hflush : FlushLeft (g ++ [c] ++ (b₁ ++ (x ++ (b₂ ++ (t ++ b'))))) :=
    (flushLeft_append hf.ne_nil).2 (trimmed_of_solid hf.solid).head
  rw [read?, trimLeft_append_blanks hb, hflush.trimLeft_eq, List.append_assoc,
    List.singleton_append]
  exact readField?_concat (fun d hd => hf.field d (List.mem_append_left [c] hd))
    (hf.field c (List.mem_append_right g List.mem_cons_self))
      (hb₁.bounded hne₁) hread

/-! ## The verdict

The field is looked up before anything else is judged. A value that is there is
handed to the operator with the literal as it is written, and the literal's rule
is what the operator finds. -/

theorem condition_eq_judge {r : Record}
    (hread : Leaf.read? text = some ⟨f, x, t⟩)
    (hop : Operator.ofWritten? x = some op)
    (hpresent : (r.value f).isPresent = true) :
    condition text r = op.judge (r.value f) t := by
  rw [condition, hread]
  show Leaf.holds ⟨f, x, t⟩ r = _
  rw [Leaf.holds, if_pos hpresent]
  simp only [hop]

theorem condition_of_absent {r : Record}
    (hread : Leaf.read? text = some ⟨f, x, t⟩)
    (habsent : (r.value f).isPresent = false) :
    condition text r = .ok false := by
  rw [condition, hread]
  show Leaf.holds ⟨f, x, t⟩ r = _
  rw [Leaf.holds, habsent]
  rfl

/-- Where a leaf is read, a record satisfies it if the field is there and the
operator finds so. -/
theorem condition_of_read? {r : Record} {meant : Value → Prop}
    (hread : Leaf.read? text = some ⟨f, x, t⟩)
    (hop : Operator.ofWritten? x = some op)
    (hjudge : ∃ verdict, op.judge (r.value f) t = .ok verdict ∧
      (verdict = true ↔ meant (r.value f))) :
    ∃ verdict, condition text r = .ok verdict ∧
      (verdict = true ↔ ∃ a, r.get? f = some a ∧ a ≠ .null ∧ meant a) := by
  cases hpresent : (r.value f).isPresent with
  | false =>
      refine ⟨false, condition_of_absent hread hpresent,
        fun h => absurd h Bool.false_ne_true, ?_⟩
      rintro ⟨a, ha, hne, _⟩
      rw [Value.isPresent_eq_false_iff, Record.value, ha] at hpresent
      exact absurd hpresent hne
  | true =>
      rw [condition_eq_judge hread hop hpresent]
      obtain ⟨verdict, hverdict, hiff⟩ := hjudge
      refine ⟨verdict, hverdict, hiff.trans ?_⟩
      cases hget : r.get? f with
      | none =>
          rw [Record.value, hget] at hpresent
          cases hpresent
      | some a =>
          have hvalue : r.value f = a := by rw [Record.value, hget]; rfl
          rw [hvalue] at hpresent ⊢
          have hne : a ≠ .null := by
            rintro rfl
            cases hpresent
          refine ⟨fun h => ⟨a, rfl, hne, h⟩, ?_⟩
          rintro ⟨_, ha, _, h⟩
          exact Option.some.inj ha ▸ h

/-- A leaf with blanks between its parts is true of a record in range exactly
when the record has a value in the field, other than null, of which it is true
what the operator says with this literal. -/
theorem condition_spaced {r : Record} {meant : Value → Prop}
    (htext : IsSpaced f x t text) (hf : Statement.IsField f) (hx : op.InCase x)
    (ht : op.Literal t meant) (hr : r.InRange) :
    ∃ verdict, condition text r = .ok verdict ∧
      (verdict = true ↔ ∃ a, r.get? f = some a ∧ a ≠ .null ∧ meant a) := by
  have hread := Leaf.read?_spaced htext hf hx.spells ht.readable.1 ht.readable.2
  exact condition_of_read? hread hx.ofWritten?_eq (ht.judge_eq (hr.value f))

/-- A list whose first text has a comma and a parenthesis in it, behind a dotted
field. -/
def awkwardLeaf : Text := " a.b\niN\t( \"x,)\" , 'O\"N')\n".toText

def awkwardList : Text := "( \"x,)\" , 'O\"N')".toText

theorem literal_awkwardList :
    Operator.Literal .within awkwardList
        (·.toText ∈ ["x,)".toText, "O\"N".toText]) := by
  have hlast :
      WritesAll ["O\"N".toText]
        (" ".toText ++ between '\'' "O\"N".toText ++ "".toText) :=
      .single (by decide) (by decide) (by decide)
  have hall : WritesAll ["x,)".toText, "O\"N".toText]
      (" ".toText ++ between '"' "x,)".toText ++ " ".toText ++ .char ',' ::
        (" ".toText ++ between '\'' "O\"N".toText ++ "".toText)) :=
    .cons (by decide) (by decide) (by decide) (List.cons_ne_nil _ _) hlast
  exact .within ⟨_, hall, rfl⟩

theorem condition_spaced_awkwardLeaf :
    IsSpaced "a.b".toText "iN".toText awkwardList awkwardLeaf ∧
      Statement.IsField "a.b".toText ∧ Operator.within.InCase "iN".toText ∧
      Operator.Literal .within awkwardList
          (·.toText ∈ ["x,)".toText, "O\"N".toText]) ∧
      (Record.ofFields [("a.b".toText, .text "x,)".toText)]).InRange ∧
      condition awkwardLeaf (.ofFields [("a.b".toText, .text "x,)".toText)]) =
        .ok true := by
  have htext : IsSpaced "a.b".toText "iN".toText awkwardList awkwardLeaf :=
    ⟨" ".toText, "\n".toText, "\t".toText, "\n".toText, rfl,
      by decide, by decide, by decide, by decide⟩
  have hrange :
      (Record.ofFields [("a.b".toText, .text "x,)".toText)]).InRange := by
      decide
  obtain ⟨verdict, hverdict, hiff⟩ :=
    condition_spaced htext (by decide) (by decide) literal_awkwardList hrange
  have htrue := hiff.2 ⟨.text "x,)".toText, rfl, nofun, List.mem_cons_self⟩
  exact ⟨htext,
    by decide, by decide, literal_awkwardList, hrange, htrue ▸ hverdict⟩

end RowSql.Filter

import RowSql.Proofs.Filter.Meaning

/-!
# Equality, order and the inequalities

Values are compared in three ways. Equality and the order of rows go by finite
numbers, and by texts where one of the values is none; they say the same because
two texts are equal just when neither comes first. The inequalities read numbers
with another reader, which knows infinities and gives no number where nothing
can be read. Where both values are finite numbers the two readers give the same
numbers, so all three ways look at the same two places.
-/

namespace RowSql

/-- Two texts are the same when neither comes first. -/
theorem Text.compare_eq_eq_iff {s t : Text} :
    Text.compare s t = .eq ↔ s = t := by
  constructor
  · intro h
    have hle : s ≤ t := compare_isLE_iff.1 (by rw [h]; rfl)
    have hge : t ≤ s :=
      compare_isLE_iff.1
        (by rw [@Std.OrientedCmp.eq_swap _ Text.compare, h]; rfl)
    exact Std.le_antisymm hle hge
  · rintro rfl
    exact Std.ReflCmp.compare_self

namespace Binary64

variable {x y : Binary64} {i j : Int}

theorem eq_eq_decide (hx : x.place? = some i) (hy : y.place? = some j) :
    x.eq y = decide (i = j) := by
  rw [eq, hx, hy]

/-- What is no number is in no order. -/
theorem unordered (h : x.place? = none ∨ y.place? = none) :
    x.lt y = false ∧ x.le y = false := by
  rw [lt, le]
  rcases h with h | h <;> rw [h]
  · exact ⟨rfl, rfl⟩
  · cases x.place? <;> exact ⟨rfl, rfl⟩

end Binary64

namespace Value

variable {a b : Value} {x y : Binary64} {i j : Int}

/-! ## Order and equality

Equality and the order of rows ask the same two questions: whether both values
are finite numbers, and if not, how their texts compare. So they are taken case
by case side by side. -/

theorem equal_of_numbers (ha : a.number? = .ok (some x))
    (hb : b.number? = .ok (some y)) :
    a.equal b = .ok (x.eq y) := by
  rw [equal, isPresent_of_number? ha, isPresent_of_number? hb]
  simp only [ha, hb]
  rfl

theorem equal_of_texts {x y : Option Binary64} (hne : a ≠ .null)
    (hne' : b ≠ .null) (ha : a.number? = .ok x) (hb : b.number? = .ok y)
    (hnone : x = none ∨ y = none) :
    a.equal b = .ok (decide (a.toText = b.toText)) := by
  rw [equal, isPresent_of_ne_null hne, isPresent_of_ne_null hne']
  simp only [ha, hb]
  rcases hnone with rfl | rfl
  · rfl
  · cases x <;> rfl

/-- Two values compare as an order says, whichever comes first, and are equal if
it is no strict one. -/
structure Ordered (a b : Value) (o : Ordering) : Prop where
  compare_eq : a.compare b = .ok o
  compare_swap : b.compare a = .ok o.swap
  equal_eq : a.equal b = .ok (o == .eq)
  equal_swap : b.equal a = .ok (o == .eq)

theorem ordered_of_numbers (ha : a.number? = .ok (some x))
    (hb : b.number? = .ok (some y)) (hx : x.place? = some i)
    (hy : y.place? = some j) : Ordered a b (Ord.compare i j) := by
  have hequal : decide (i = j) = (Ord.compare i j == .eq) := by
    rw [Bool.eq_iff_iff, decide_eq_true_eq, beq_iff_eq, Int.compare_eq_eq]
  constructor
  · rw [compare_of_numbers ha hb, compareNumbers_eq hx hy]
  · rw [compare_of_numbers hb ha, compareNumbers_eq hy hx,
      @Std.OrientedCmp.eq_swap _ Ord.compare]
  · rw [equal_of_numbers ha hb, Binary64.eq_eq_decide hx hy, hequal]
  · rw [equal_of_numbers hb ha, Binary64.eq_eq_decide hy hx, ← hequal]
    simp only [eq_comm]

theorem ordered_of_texts {x y : Option Binary64} (hne : a ≠ .null)
    (hne' : b ≠ .null) (ha : a.number? = .ok x) (hb : b.number? = .ok y)
    (hnone : x = none ∨ y = none) :
    Ordered a b (Text.compare a.toText b.toText) := by
  have hequal :
      decide (a.toText = b.toText) =
        (Text.compare a.toText b.toText == .eq) := by
    rw [Bool.eq_iff_iff, decide_eq_true_eq, beq_iff_eq, Text.compare_eq_eq_iff]
  constructor
  · exact compare_of_texts hne hne' ha hb hnone
  · rw [compare_of_texts hne' hne hb ha hnone.symm,
      @Std.OrientedCmp.eq_swap _ Text.compare]
  · rw [equal_of_texts hne hne' ha hb hnone, hequal]
  · rw [equal_of_texts hne' hne hb ha hnone.symm, ← hequal]
    simp only [eq_comm]

theorem InRange.exists_ordered (ha : a.InRange) (hb : b.InRange)
    (hne : a ≠ .null) (hne' : b ≠ .null) : ∃ o, Ordered a b o := by
  obtain ⟨x, hx⟩ := ha.exists_number?
  obtain ⟨y, hy⟩ := hb.exists_number?
  cases x with
  | none => exact ⟨_, ordered_of_texts hne hne' hx hy (.inl rfl)⟩
  | some x =>
      cases y with
      | none => exact ⟨_, ordered_of_texts hne hne' hx hy (.inr rfl)⟩
      | some y =>
          obtain ⟨i, hi⟩ := exists_place?_of_number? hx
          obtain ⟨j, hj⟩ := exists_place?_of_number? hy
          exact ⟨_, ordered_of_numbers hx hy hi hj⟩

end Value

namespace Filter

open Text Value

variable {f t v : Text} {q : CodePoint} {r : Record} {a : Value}
  {x y : Binary64} {i j : Int}

/-! ## Inequalities

An inequality reads numbers with the lenient reader. Where the strict one finds
two finite numbers it finds the same two, and where the lenient one finds no
number every inequality is false. -/

/-- The verdicts of the five comparisons go by an order. -/
structure Follows (o : Ordering) (verdict : Operator → Except Overflow Bool) :
    Prop where
  less : verdict .less = .ok (o == .lt)
  equal : verdict .equal = .ok (o == .eq)
  greater : verdict .greater = .ok (o == .gt)
  atMost : verdict .atMost = .ok (o == .lt || o == .eq)
  atLeast : verdict .atLeast = .ok (o == .gt || o == .eq)

theorem follows_judge (ht : Writes v t) (ha : a.number? = .ok (some x))
    (hv : (Value.text v).number? = .ok (some y)) (hx : x.place? = some i)
    (hy : y.place? = some j) :
    Follows (Ord.compare i j) (Operator.judge · a t) := by
  obtain ⟨hless, hgreater, hatMost, hatLeast⟩ :=
    judge_of_numbers ht (number?_eq_some_iff.1 ha).1
      (number?_eq_some_iff.1 hv).1
  have hequal : Operator.judge .equal a t = .ok (x.eq y) := by
    show a.equal (.text (stripQuotes t)) = _
    rw [ht.stripQuotes_eq, equal_of_numbers ha hv]
  simp only [Binary64.lt, Binary64.le, Binary64.eq, hx, hy]
    at hless hgreater hatMost hatLeast hequal
  have hlt : (Ord.compare i j == .lt) = decide (i < j) := by
    rw [Bool.eq_iff_iff, beq_iff_eq, decide_eq_true_eq, Int.compare_eq_lt]
  have heq : (Ord.compare i j == .eq) = decide (i = j) := by
    rw [Bool.eq_iff_iff, beq_iff_eq, decide_eq_true_eq, Int.compare_eq_eq]
  have hgt : (Ord.compare i j == .gt) = decide (j < i) := by
    rw [Bool.eq_iff_iff, beq_iff_eq, decide_eq_true_eq, Int.compare_eq_gt]
  constructor
  · rw [hless, hlt]
  · rw [hequal, heq]
  · rw [hgreater, hgt]
  · rw [hatMost, hlt, heq, ← Bool.decide_or, Except.ok.injEq, decide_eq_decide]
    exact Int.le_iff_lt_or_eq
  · rw [hatLeast, hgt, heq, ← Bool.decide_or, Except.ok.injEq, decide_eq_decide,
      @eq_comm _ i j]
    exact Int.le_iff_lt_or_eq

theorem judge_of_nan {op : Operator} (ht : Writes v t) (hx : a.toNumber = .ok x)
    (hy : (Value.text v).toNumber = .ok y) (hnan : x = .nan ∨ y = .nan)
    (hop : op ∈ [Operator.less, .greater, .atMost, .atLeast]) :
    op.judge a t = .ok false := by
  have hplace : x.place? = none ∨ y.place? = none :=
    hnan.imp (congrArg Binary64.place?) (congrArg Binary64.place?)
  obtain ⟨hlt, hle⟩ := Binary64.unordered hplace
  obtain ⟨hgt, hge⟩ := Binary64.unordered hplace.symm
  have hjudge := judge_of_numbers ht hx hy
  rw [hlt, hle, hgt, hge] at hjudge
  obtain ⟨hless, hgreater, hatMost, hatLeast⟩ := hjudge
  simp only [List.mem_cons, List.not_mem_nil, or_false] at hop
  rcases hop with rfl | rfl | rfl | rfl
  · exact hless
  · exact hgreater
  · exact hatMost
  · exact hatLeast

/-! ## Conditions

The verdicts of a record on the conditions that compare one field with one text
are those of the operators on the value in the field, and these follow the order
of the two. -/

/-- One condition for each operator, on a field and a text in quotes, with
blanks between the parts and perhaps around them. -/
def Conditions (f : Text) (q : CodePoint) (v : Text) (texts : Operator → Text) :
    Prop :=
  ∀ op, IsSpaced f op.spelling (between q v) (texts op)

theorem Conditions.read?_eq {texts : Operator → Text}
    (h : Conditions f q v texts) (hf : Statement.IsField f) (hq : Encloses q v)
    (op : Operator) :
    Leaf.read? (texts op) = some ⟨f, op.spelling, between q v⟩ :=
  Leaf.read?_spaced (h op) hf (spells_self op.spelling)
    (Writes.quoted hq).trimmed
    (Writes.quoted hq).isLeafValue

namespace Conditions

variable {texts : Operator → Text} (h : Conditions f q v texts)
  (hf : Statement.IsField f) (hq : Encloses q v)

include h hf hq

theorem follow (ha : (r.value f).number? = .ok (some x))
    (hv : (Value.text v).number? = .ok (some y)) :
    ∃ o, (r.value f).compare (.text v) = .ok o ∧
      Follows o fun op => condition (texts op) r := by
  obtain ⟨i, hi⟩ := exists_place?_of_number? ha
  obtain ⟨j, hj⟩ := exists_place?_of_number? hv
  have hjudge (op : Operator) :
      condition (texts op) r = op.judge (r.value f) (between q v) :=
      condition_eq_judge (h.read?_eq hf hq op) op.ofWritten?_spelling
        (isPresent_of_number? ha)
  refine ⟨Ord.compare i j, (ordered_of_numbers ha hv hi hj).compare_eq, ?_⟩
  simp only [hjudge]
  exact follows_judge (.quoted hq) ha hv hi hj

theorem false_of_nan (ha : (r.value f).InRange)
    (hnan : (r.value f).toNumber = .ok .nan ∨
      (Value.text v).toNumber = .ok .nan)
    {op : Operator} (hop : op ∈ [Operator.less, .greater, .atMost, .atLeast]) :
    condition (texts op) r = .ok false := by
  have hread := h.read?_eq hf hq op
  cases hpresent : (r.value f).isPresent with
  | false => exact condition_of_absent hread hpresent
  | true =>
      obtain ⟨x, hx⟩ := ha.exists_toNumber
      obtain ⟨y, hy⟩ : ∃ y, (Value.text v).toNumber = .ok y := ⟨_, rfl⟩
      rw [hx, hy, Except.ok.injEq, Except.ok.injEq] at hnan
      rw [condition_eq_judge hread op.ofWritten?_spelling hpresent]
      exact judge_of_nan (.quoted hq) hx hy hnan hop

end Conditions

/-- The ways to compare values agree. What reads as a finite number is the same
number for either reader. Any two values in range that are there are ordered,
and equal when neither is before the other. Of a field and a text that both read
as finite numbers the comparisons say what their order is, and where one of them
is no number no inequality holds. -/
theorem comparisons_agree :
    (∀ (a : Value) y, a.number? = .ok (some y) ↔
      a.toNumber = .ok y ∧ y.isFinite = true) ∧
    (∀ a b : Value, a.InRange → b.InRange → a ≠ .null → b ≠ .null →
      ∃ o, Ordered a b o) ∧
    ∀ f q v (r : Record) texts, Statement.IsField f → Encloses q v →
      Conditions f q v texts → (r.value f).InRange →
      (∀ x y, (r.value f).number? = .ok (some x) →
        (Value.text v).number? = .ok (some y) →
        ∃ o, (r.value f).compare (.text v) = .ok o ∧
          Follows o fun op => condition (texts op) r) ∧
      ((r.value f).toNumber = .ok .nan ∨ (Value.text v).toNumber = .ok .nan →
        ∀ op ∈ [Operator.less, .greater, .atMost, .atLeast],
          condition (texts op) r = .ok false) := by
  refine ⟨fun a y => number?_eq_some_iff, fun a b ha hb => ha.exists_ordered hb,
    ?_⟩
  intro f q v r texts hf hq htexts hr
  exact ⟨fun x y => htexts.follow hf hq,
    fun hnan op hop => htexts.false_of_nan hf hq hr hnan hop⟩

/-- The comparisons of a field with a text, written plainly. -/
def plainly (f : Text) (q : CodePoint) (v : Text) (op : Operator) : Text :=
  f ++ " ".toText ++ op.spelling ++ " ".toText ++ between q v

theorem conditions_plainly (f : Text) (q : CodePoint) (v : Text) :
    Conditions f q v (plainly f q v) := by
  intro op
  refine ⟨[], " ".toText, " ".toText, [], ?_, blanks_nil,
    by decide, by decide, blanks_nil⟩
  simp only [plainly, List.append_assoc, List.nil_append, List.append_nil]

/-- Ten in two spellings, and a field that is there next to what is no
number. -/
theorem comparisons_agree_ten :
    Ordered (.integer 10) (.text "1e1".toText) .eq ∧
    Follows .eq (fun op => condition
      (plainly "n".toText '"' "1e1".toText op)
      (.ofFields [("n".toText, .integer 10)])) ∧
    ∀ op ∈ [Operator.less, .greater, .atMost, .atLeast],
      condition (plainly "n".toText '\'' "nan".toText op)
        (.ofFields [("n".toText, .integer 10)]) = .ok false := by
  have hcompare : (Value.integer 10).compare (.text "1e1".toText) = .ok .eq :=
    by decide +kernel
  have hten : (Value.integer 10).number? = .ok (some (.ofInt 10)) := by
    decide +kernel
  have htext : (Value.text "1e1".toText).number? = .ok (some (.ofInt 10)) := by
    decide +kernel
  obtain ⟨_, hordered, hconditions⟩ := comparisons_agree
  obtain ⟨o, ho⟩ :=
    hordered (.integer 10) (.text "1e1".toText) (by decide +kernel) trivial
      nofun nofun
  refine ⟨?_, ?_, ?_⟩
  · cases ho.compare_eq.symm.trans hcompare
    exact ho
  · obtain ⟨o, ho, hfollows⟩ := (hconditions "n".toText '"' "1e1".toText
      (.ofFields [("n".toText, .integer 10)]) _ (by decide) (by decide)
        (conditions_plainly _ _ _) (by decide +kernel)).1 _ _ hten htext
    cases ho.symm.trans hcompare
    exact hfollows
  · exact (hconditions "n".toText '\'' "nan".toText
      (.ofFields [("n".toText, .integer 10)]) _
      (by decide) (by decide) (conditions_plainly _ _ _) (by decide +kernel)).2
      (.inr (by decide +kernel))

end Filter

end RowSql

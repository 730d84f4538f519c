import Mathlib.Data.List.Basic
import RowSql.Proofs.Record

/-!
# How values compare

A comparison goes by numbers where both values are numbers, and by texts
elsewhere. That is no order on all values: 9 is before 10 as a number, but as
texts "10" is before "1a" and "1a" before "9". On values of one kind it is one.
There each value has a rank, its place on the line of numbers or its text,
values are compared by their ranks, and those that are not there come last.
-/

namespace RowSql

/-! ## Numbers on a line

A double that is a number has a place: its units if it is finite, and one step
beyond all of these if it is infinite. The four comparisons are those of places,
and false where one side has none. -/

namespace Binary64

variable {x y : Binary64}

theorem lt_iff : x.lt y = true ↔ ∃ i ∈ x.place?, ∃ j ∈ y.place?, i < j := by
  rw [lt]
  cases x.place? <;> cases y.place? <;> simp

theorem gt_iff : y.lt x = true ↔ ∃ i ∈ x.place?, ∃ j ∈ y.place?, i > j := by
  rw [lt]
  cases x.place? <;> cases y.place? <;> simp

theorem le_iff : x.le y = true ↔ ∃ i ∈ x.place?, ∃ j ∈ y.place?, i ≤ j := by
  rw [le]
  cases x.place? <;> cases y.place? <;> simp

theorem ge_iff : y.le x = true ↔ ∃ i ∈ x.place?, ∃ j ∈ y.place?, i ≥ j := by
  rw [le]
  cases x.place? <;> cases y.place? <;> simp

theorem exists_place? (h : x.isFinite = true) : ∃ i, x.place? = some i := by
  cases x with
  | nan | infinite _ => cases h
  | finite negative units _ => exact ⟨_, rfl⟩

theorem isFinite_ofBool (b : Bool) : (ofBool b).isFinite = true := by
  cases b <;> decide +kernel

theorem not_isFinite_nan : ¬ nan.isFinite = true :=
  Bool.false_ne_true

end Binary64

namespace Value

variable {a b : Value} {x y : Binary64} {i j : Int}

/-- The place of the number that stands for a value in an inequality, if it has
one. -/
def place? (a : Value) : Option Int :=
  a.toNumber.toOption.bind Binary64.place?

theorem place?_eq (h : a.toNumber = .ok x) : a.place? = x.place? := by
  rw [place?, h]
  rfl

/-- A value and a text both stand for numbers, and these are so related. -/
def Compares (related : Int → Int → Prop) (a : Value) (v : Text) : Prop :=
  ∃ i ∈ a.place?, ∃ j ∈ (text v).place?, related i j

theorem InRange.exists_toNumber (h : a.InRange) : ∃ x, a.toNumber = .ok x := by
  cases a with
  | integer n =>
      have hfinite : (Binary64.ofInt n).isFinite = true := h
      exact ⟨_, by rw [toNumber, Binary64.ofInt?, if_pos hfinite]⟩
  | array _ | object _ => exact ⟨_, by rw [toNumber, h.short.asText_eq]; rfl⟩
  | null | boolean _ | double _ | decimal _ | text _ => exact ⟨_, rfl⟩

/-- A number that is not there and one that is no number are both not finite. -/
theorem filter_isFinite_eq_some_iff {o : Option Binary64} :
    o.filter (·.isFinite) = some x ↔ o.getD .nan = x ∧ x.isFinite = true := by
  rw [Option.filter_eq_some_iff]
  cases o with
  | none =>
      rw [Option.getD_none]
      constructor
      · rintro ⟨h, _⟩
        cases h
      · rintro ⟨rfl, hfinite⟩
        exact absurd hfinite Binary64.not_isFinite_nan
  | some z => rw [Option.some.injEq, Option.getD_some]

/-- The two readers of numbers agree on finite ones. -/
theorem number?_eq_some_iff :
    a.number? = .ok (some x) ↔ a.toNumber = .ok x ∧ x.isFinite = true := by
  cases a with
  | null =>
      rw [number?, toNumber, Except.ok.injEq, Except.ok.injEq]
      constructor
      · intro h
        cases h
      · rintro ⟨rfl, hfinite⟩
        exact absurd hfinite Binary64.not_isFinite_nan
  | boolean b =>
      rw [number?, toNumber, Except.ok.injEq, Except.ok.injEq,
        Option.some.injEq]
      exact ⟨fun h => ⟨h, h ▸ Binary64.isFinite_ofBool b⟩, And.left⟩
  | integer n =>
      rw [number?, toNumber, Binary64.ofInt?]
      split
      · next hfinite =>
          show Except.ok (some (Binary64.ofInt n)) = .ok (some x) ↔ _
          rw [Except.ok.injEq, Except.ok.injEq, Option.some.injEq]
          exact ⟨fun h => ⟨h, h ▸ hfinite⟩, And.left⟩
      · constructor
        · intro h
          cases h
        · rintro ⟨h, _⟩
          cases h
  | double z =>
      rw [number?, toNumber, Except.ok.injEq, Except.ok.injEq]
      split
      · next hfinite =>
          rw [Option.some.injEq]
          exact ⟨fun h => ⟨h, h ▸ hfinite⟩, And.left⟩
      · next hnot =>
          constructor
          · intro h
            cases h
          · rintro ⟨rfl, hfinite⟩
            exact absurd hfinite hnot
  | decimal t | text t =>
      rw [number?, toNumber, Except.ok.injEq, Except.ok.injEq]
      exact filter_isFinite_eq_some_iff
  | array items | object members =>
      rw [number?, toNumber]
      cases asText _ with
      | error e =>
          constructor
          · intro h
            cases h
          · rintro ⟨h, _⟩
            cases h
      | ok t =>
          simp only [Except.map, Except.ok.injEq]
          exact filter_isFinite_eq_some_iff

/-- What reads as a finite number has a place. -/
theorem exists_place?_of_number? (h : a.number? = .ok (some x)) :
    ∃ i, x.place? = some i :=
  Binary64.exists_place? (number?_eq_some_iff.1 h).2

/-! ## Kinds of comparison

Two values compare in one of three ways: by where null stands, as numbers if
both are, or as texts. Each has an equation, and the theory goes by these and
does not open the comparison again. -/

theorem compareNumbers_eq (hx : x.place? = some i) (hy : y.place? = some j) :
    compareNumbers x y = Ord.compare i j := by
  rw [compareNumbers, Binary64.lt, Binary64.lt, hx, hy]
  simp only [decide_eq_true_eq]
  split
  · next h => exact (Int.compare_eq_lt.2 h).symm
  · split
    · next h => exact (Int.compare_eq_gt.2 h).symm
    · next h h' => exact (Int.compare_eq_eq.2 (by omega)).symm

theorem isPresent_eq_false_iff : a.isPresent = false ↔ a = .null := by
  cases a <;> simp [isPresent]

theorem compare_null_left (h : b ≠ .null) : compare .null b = .ok .gt := by
  cases b <;> first
    | exact absurd rfl h
    | rfl

theorem compare_null_right (h : a ≠ .null) : compare a .null = .ok .lt := by
  cases a <;> first
    | exact absurd rfl h
    | rfl

theorem isPresent_of_ne_null (h : a ≠ .null) : a.isPresent = true := by
  rw [← Bool.not_eq_false, isPresent_eq_false_iff]
  exact h

theorem isPresent_of_number? (h : a.number? = .ok (some x)) :
    a.isPresent = true :=
  isPresent_of_ne_null (by rintro rfl; cases h)

/-- Finite numbers are compared by their places. -/
theorem compare_of_numbers (ha : a.number? = .ok (some x))
    (hb : b.number? = .ok (some y)) :
    a.compare b = .ok (compareNumbers x y) := by
  rw [compare, isPresent_of_number? ha, isPresent_of_number? hb]
  simp only [ha, hb]
  rfl

/-- Where one of two values reads as no finite number, both are compared by
their texts. -/
theorem compare_of_texts {x y : Option Binary64} (hne : a ≠ .null)
    (hne' : b ≠ .null) (ha : a.number? = .ok x) (hb : b.number? = .ok y)
    (hnone : x = none ∨ y = none) :
    a.compare b = .ok (Text.compare a.toText b.toText) := by
  rw [compare, isPresent_of_ne_null hne, isPresent_of_ne_null hne']
  simp only [ha, hb]
  rcases hnone with rfl | rfl
  · rfl
  · cases x <;> rfl

end Value

/-! ## Ranks

Within one kind the comparison is that of ranks in a linear order, with null
behind all of them. That makes it total and transitive at one go; across kinds
it is neither, which is why a column has to be of one. -/

theorem Text.compare_isLE_iff {s t : Text} :
    (Text.compare s t).isLE = true ↔ s ≤ t := by
  rw [Text.compare, ← Std.not_lt]
  split
  · next h =>
      exact ⟨fun _ h' => Std.lt_irrefl (Std.lt_trans h h'), fun _ => rfl⟩
  · split
    · next h => exact ⟨nofun, fun h' => absurd h h'⟩
    · next h => exact ⟨fun _ => h, fun _ => rfl⟩

instance : Std.TransCmp Text.compare where
  eq_swap {s t} := by
    rw [Text.compare, Text.compare]
    by_cases h : s < t
    · have h' : ¬ t < s := fun h' => Std.lt_irrefl (Std.lt_trans h h')
      rw [if_pos h, if_neg h', if_pos h]
      rfl
    · by_cases h' : t < s
      · rw [if_neg h, if_pos h', if_pos h']
        rfl
      · rw [if_neg h, if_neg h', if_neg h', if_neg h]
        rfl
  isLE_trans {s t u} h h' := by
    rw [Text.compare_isLE_iff] at h h' ⊢
    exact Std.le_trans h h'

/-- Ranks compared, where what has none comes last. -/
def compareLast {κ : Type} (cmp : κ → κ → Ordering) :
    Option κ → Option κ → Ordering
  | some a, some b => cmp a b
  | some _, none => .lt
  | none, some _ => .gt
  | none, none => .eq

instance {κ : Type} (cmp : κ → κ → Ordering) [Std.TransCmp cmp] :
    Std.TransCmp (compareLast cmp) where
  eq_swap {a b} := by
    cases a <;> cases b <;> first
      | rfl
      | exact @Std.OrientedCmp.eq_swap _ cmp _ _ _
  isLE_trans {a b c} h h' := by
    cases a <;> cases b <;> cases c <;> first
      | rfl
      | exact absurd h Bool.false_ne_true
      | exact absurd h' Bool.false_ne_true
      | exact @Std.TransCmp.isLE_trans _ cmp _ _ _ _ h h'

namespace Value

/-- The values all read as finite numbers, or all do not. -/
def Uniform (vs : List Value) : Prop :=
  (∀ v ∈ vs, ∃ x, v.number? = .ok (some x)) ∨ ∀ v ∈ vs, v.number? = .ok none

instance (v : Value) : Decidable (∃ x, v.number? = .ok (some x)) :=
  decidable_of_iff (v.number?.toOption.join.isSome = true) <| by
    cases v.number? with
    | error e => simp [Except.toOption]
    | ok x => cases x <;> simp [Except.toOption]

instance (vs : List Value) : Decidable (Uniform vs) :=
  inferInstanceAs (Decidable (_ ∨ _))

/-- One value need not come behind another. -/
def NotAfter (a b : Value) : Prop := ∃ o, a.compare b = .ok o ∧ o ≠ .gt

/-- Comparing is a total preorder on the values of a kind. Any two of them can
be compared, and compared the other way round they give the opposite. -/
structure Preordered (kind : Value → Prop) : Prop where
  swap : ∀ a b, kind a → kind b →
    ∃ o, a.compare b = .ok o ∧ b.compare a = .ok o.swap
  total : ∀ a b, kind a → kind b → a.NotAfter b ∨ b.NotAfter a
  trans : ∀ a b c, kind a → kind b → kind c → a.NotAfter b → b.NotAfter c →
    a.NotAfter c

/-- Values are compared by their ranks. -/
def RankedBy {κ : Type} (cmp : κ → κ → Ordering) (rank : Value → Option κ)
    (kind : Value → Prop) :
    Prop :=
  ∀ a b, kind a → kind b → a.compare b = .ok (compareLast cmp (rank a) (rank b))

variable {κ : Type} {cmp : κ → κ → Ordering} {rank : Value → Option κ}
  {kind : Value → Prop} {vs : List Value}

theorem RankedBy.notAfter_iff (h : RankedBy cmp rank kind) {a b : Value}
    (ha : kind a) (hb : kind b) :
    a.NotAfter b ↔ (compareLast cmp (rank a) (rank b)).isLE = true := by
  rw [NotAfter, h a b ha hb, Ordering.isLE_iff_ne_gt]
  constructor
  · rintro ⟨o, ho, hne⟩
    exact Except.ok.inj ho ▸ hne
  · exact fun hne => ⟨_, rfl, hne⟩

theorem RankedBy.preordered [Std.TransCmp cmp] (h : RankedBy cmp rank kind) :
    Preordered kind where
  swap a b ha hb :=
    ⟨_, h a b ha hb,
      (h b a hb ha).trans (congrArg Except.ok Std.OrientedCmp.eq_swap)⟩
  total a b ha hb := by
    rw [h.notAfter_iff ha hb, h.notAfter_iff hb ha,
      @Std.OrientedCmp.eq_swap _ (compareLast cmp) _ (rank b)]
    cases compareLast cmp (rank a) (rank b) <;> simp
  trans a b c ha hb hc hab hbc := by
    rw [h.notAfter_iff ha hb] at hab
    rw [h.notAfter_iff hb hc] at hbc
    rw [h.notAfter_iff ha hc]
    exact Std.TransCmp.isLE_trans hab hbc

/-- Where values that are there have ranks, null has none and comes last. -/
theorem rankedBy_or_null (hnone : rank .null = none)
    (hvs : ∀ a ∈ vs, ∀ b ∈ vs, ∃ i j, rank a = some i ∧ rank b = some j ∧
      a ≠ .null ∧ b ≠ .null ∧
      a.compare b = .ok (cmp i j)) :
    RankedBy cmp rank fun v => v ∈ vs ∨ v = .null := by
  rintro a b (ha | rfl) (hb | rfl)
  · obtain ⟨i, j, hi, hj, _, _, h⟩ := hvs a ha b hb
    rw [h, hi, hj]
    rfl
  · obtain ⟨i, _, hi, _, hne, _⟩ := hvs a ha a ha
    rw [compare_null_right hne, hi, hnone]
    rfl
  · obtain ⟨i, _, hi, _, hne, _⟩ := hvs b hb b hb
    rw [compare_null_left hne, hi, hnone]
    rfl
  · rw [hnone]
    rfl

/-- The place of the finite number that a value reads as, if it does. -/
def numberPlace? (v : Value) : Option Int :=
  v.number?.toOption.join.bind Binary64.place?

/-- The text of a value that is there. -/
def presentText? (v : Value) : Option Text :=
  if v.isPresent then some v.toText else none

theorem rankedBy_numberPlace? (h : ∀ v ∈ vs, ∃ x, v.number? = .ok (some x)) :
    RankedBy Ord.compare numberPlace? fun v => v ∈ vs ∨ v = .null := by
  have hplace : ∀ v ∈ vs, ∃ x i, v.number? = .ok (some x) ∧ x.place? = some i ∧
      v.numberPlace? = some i ∧ v ≠ .null := by
    intro v hv
    obtain ⟨x, hx⟩ := h v hv
    obtain ⟨i, hi⟩ := exists_place?_of_number? hx
    exact ⟨x, i, hx, hi,
      by rw [numberPlace?, hx]; exact hi, by rintro rfl; cases hx⟩
  refine rankedBy_or_null rfl fun a ha b hb => ?_
  obtain ⟨x, i, hx, hi, hrank, hne⟩ := hplace a ha
  obtain ⟨y, j, hy, hj, hrank', hne'⟩ := hplace b hb
  exact ⟨i, j, hrank, hrank', hne, hne',
    by rw [compare_of_numbers hx hy, compareNumbers_eq hi hj]⟩

theorem rankedBy_presentText? (h : ∀ v ∈ vs, v.number? = .ok none)
    (hvs : ∀ v ∈ vs, v ≠ .null) :
    RankedBy Text.compare presentText? fun v => v ∈ vs ∨ v = .null := by
  refine rankedBy_or_null rfl fun a ha b hb => ?_
  have htext {v : Value} (hv : v ∈ vs) : v.presentText? = some v.toText :=
    if_pos (isPresent_of_ne_null (hvs v hv))
  exact ⟨_, _, htext ha, htext hb, hvs a ha, hvs b hb,
    compare_of_texts (hvs a ha) (hvs b hb) (h a ha) (h b hb) (.inl rfl)⟩

/-- Values of one kind, and null with them, are in a total preorder. -/
theorem Uniform.preordered (h : Uniform vs) (hvs : ∀ v ∈ vs, v ≠ .null) :
    Preordered fun v => v ∈ vs ∨ v = .null :=
  h.elim (fun hnumbers => (rankedBy_numberPlace? hnumbers).preordered)
    fun htexts => (rankedBy_presentText? htexts hvs).preordered

end Value

end RowSql

import Mathlib.Data.List.Basic
import RowSql.Proofs.Binding
import RowSql.Proofs.Number.Written
import RowSql.Proofs.Text.Items

/-!
# Values in the place of placeholders

What binding gives is told here without a scan: a place of the text is a
placeholder when it holds a question mark and no quote is open before it, every
placeholder has the value of its number, and the result is put together from
what each place turns into. Binding goes over the rest of the text with the rest
of the values, and the place it has come to says which values these are and
which quote is open. That is one equation for every place, proved from the last
place to the first; success, the result and the first error are all read off it.

A value's literal leaves no quote open that was not, so behind what a place
turns into the same quote is open as behind the place itself.
-/

namespace RowSql

open Text

namespace Value

/-- A value that can be bound: an integer can be written, and so can what an
array or an object is shown as, in quotes of some kind. -/
def Usable : Value → Prop
  | .null => False
  | .text p => p.Bindable
  | .integer n => ShortInt n
  | .array items => (array items).Short ∧ (repr (.array items)).Bindable
  | .object members =>
      (object members).Short ∧ (repr (.object members)).Bindable
  | .boolean _ | .double _ | .decimal _ => True

instance : DecidablePred Usable := fun v =>
  match v with
  | .null => .isFalse id
  | .text p => inferInstanceAs (Decidable p.Bindable)
  | .integer n => inferInstanceAs (Decidable (ShortInt n))
  | .array items =>
    inferInstanceAs
      (Decidable ((array items).Short ∧ (repr (.array items)).Bindable))
  | .object members =>
    inferInstanceAs
      (Decidable ((object members).Short ∧ (repr (.object members)).Bindable))
  | .boolean _ | .double _ | .decimal _ => .isTrue trivial

/-- A decimal is written without quote characters. -/
def Regular : Value → Prop
  | .decimal t => ∀ c ∈ t, isQuote c = false
  | _ => True

instance : DecidablePred Regular := fun v =>
  match v with
  | .decimal t => inferInstanceAs (Decidable (∀ c ∈ t, isQuote c = false))
  | .null | .boolean _ | .integer _ | .double _ | .text _ | .array _ |
    .object _ =>
    .isTrue trivial

end Value

namespace Binding

/-! ## Placeholders

A question mark is a placeholder if the quotes of the text so far are closed.
Counting the placeholders before a place says which value comes there, and the
first error is found by going over the places and then the end. -/

/-- A question mark before which no quote is open. -/
def IsPlaceholder (t : Text) (n : Nat) : Prop :=
  t[n]? = some '?' ∧ quoteRun none (t.take n) = none

instance (t : Text) (n : Nat) : Decidable (IsPlaceholder t n) :=
  inferInstanceAs (Decidable (_ ∧ _))

/-- The number of placeholders before a place. -/
def placeholdersBefore (t : Text) (n : Nat) : Nat :=
  (List.range n).countP (IsPlaceholder t ·)

/-- What a place turns into: a placeholder into the literal of its number, and
any other place into the character that it holds. -/
def image (t : Text) (literals : List Text) (n : Nat) : Text :=
  if IsPlaceholder t n then literals[placeholdersBefore t n]?.getD []
  else t[n]?.toList

/-- What the places before a place turn into. -/
def substituted (t : Text) (literals : List Text) (n : Nat) : Text :=
  (List.range n).flatMap (image t literals)

/-- Why a text cannot be put in quotes, if it cannot. -/
def unquotable? (p : Text) : Option BindingError :=
  if p.Bindable then none else some .bothQuotes

/-- Why a value cannot be bound, if it cannot. -/
def unusable? : Value → Option BindingError
  | .null => some .null
  | .text p => unquotable? p
  | .integer n =>
      if Value.ShortInt n then none else some (.overflow .integerTooLong)
  | .array items =>
    if (Value.array items).Short then unquotable? (Value.repr (.array items))
    else some (.overflow .integerTooLong)
  | .object members =>
    if (Value.object members).Short then
      unquotable? (Value.repr (.object members))
    else some (.overflow .integerTooLong)
  | .boolean _ | .double _ | .decimal _ => none

/-- The error that is met at a place. -/
def errorAt? (t : Text) (values : List Value) (n : Nat) : Option BindingError :=
  if IsPlaceholder t n then
    match values[placeholdersBefore t n]? with
    | none => some .notEnough
    | some v => unusable? v
  else
    none

/-- The error that is met behind the text. -/
def errorBehind? (t : Text) (values : List Value) : Option BindingError :=
  if placeholdersBefore t t.length < values.length then some .tooMany else none

/-- The error that is met first from left to right. -/
def firstError? (t : Text) (values : List Value) : Option BindingError :=
  ((List.range t.length).findSome? (errorAt? t values)).or
    (errorBehind? t values)

variable {t : Text} {values : List Value} {literals : List Text} {n m : Nat}

theorem IsPlaceholder.lt_length (h : IsPlaceholder t n) : n < t.length :=
  (List.getElem?_eq_some_iff.1 h.1).1

theorem placeholdersBefore_succ (t : Text) (n : Nat) :
    placeholdersBefore t (n + 1) =
      placeholdersBefore t n + if IsPlaceholder t n then 1 else 0 := by
  rw [placeholdersBefore, List.range_succ, List.countP_append,
    List.countP_singleton, ← placeholdersBefore]
  simp only [decide_eq_true_eq]

theorem placeholdersBefore_mono (h : n ≤ m) :
    placeholdersBefore t n ≤ placeholdersBefore t m :=
  (List.range_sublist.2 h).countP_le

theorem IsPlaceholder.before_lt (h : IsPlaceholder t n) (hm : n < m) :
    placeholdersBefore t n < placeholdersBefore t m :=
  calc placeholdersBefore t n
    _ < placeholdersBefore t (n + 1) := by
      rw [placeholdersBefore_succ, if_pos h]
      exact Nat.lt_succ_self _
    _ ≤ placeholdersBefore t m := placeholdersBefore_mono hm

/-- Every number below the number of placeholders is the number of one. -/
theorem exists_placeholder {k : Nat} (h : k < placeholdersBefore t m) :
    ∃ n < m, IsPlaceholder t n ∧ placeholdersBefore t n = k := by
  induction m with
  | zero => exact absurd h (Nat.not_lt_zero k)
  | succ m ih =>
      by_cases hlt : k < placeholdersBefore t m
      · obtain ⟨n, hn, hplace⟩ := ih hlt
        exact ⟨n, Nat.lt_succ_of_lt hn, hplace⟩
      · rw [placeholdersBefore_succ] at h
        split at h
        · next hm => exact ⟨m, Nat.lt_succ_self m, hm, by omega⟩
        · exact absurd h hlt

theorem quoteRun_take_succ (h : n < t.length) :
    quoteRun none (t.take (n + 1)) =
      quoteStep (quoteRun none (t.take n)) t[n] := by
  rw [List.take_succ_eq_append_getElem h, quoteRun_append]
  rfl

namespace IsPlaceholder

theorem getElem_eq (h : IsPlaceholder t n) (hn : n < t.length) : t[n] = '?' :=
  Option.some.inj ((List.getElem?_eq_getElem hn).symm.trans h.1)

theorem drop_eq (h : IsPlaceholder t n) :
    t.drop n = .char '?' :: t.drop (n + 1) := by
  rw [List.drop_eq_getElem_cons h.lt_length, h.getElem_eq]

/-- No quote is open behind a placeholder. -/
theorem quoteRun_succ (h : IsPlaceholder t n) :
    quoteRun none (t.take (n + 1)) = none := by
  rw [quoteRun_take_succ h.lt_length, h.2, h.getElem_eq]
  rfl

end IsPlaceholder

/-! ## Literals

How a value is written, or why it is not. A literal closes the quotes that it
opens, so in its place the state of the quotes is what it was for the question
mark. -/

theorem unquotable?_eq_none_iff {p : Text} :
    unquotable? p = none ↔ p.Bindable := by
  rw [unquotable?]
  split <;> simp [*]

theorem quoted_eq_error {p : Text} {e : BindingError}
    (h : unquotable? p = some e) :
    quoted p = .error e := by
  rw [unquotable?] at h
  split at h
  · cases h
  · next hp =>
      rw [Bindable, not_or, not_not, not_not] at hp
      rw [quoted, ← Option.some.inj h]
      simp [hp.1, hp.2]

/-- What is written for an array or an object, whose text is there if it is
short. -/
theorem literal_of_data {v : Value}
    (h : literal v = (v.asText.mapError BindingError.overflow).bind quoted) :
    literal v = if v.Short then quoted v.toText
    else .error (.overflow .integerTooLong) := by
  rw [h, Value.asText_eq_ite]
  split <;> rfl

theorem usable_iff {v : Value} : v.Usable ↔ unusable? v = none := by
  cases v with
  | null => exact ⟨False.elim, nofun⟩
  | text p => exact unquotable?_eq_none_iff.symm
  | integer n =>
      rw [Value.Usable, unusable?]
      split <;> simp [*]
  | array _ | object _ =>
      rw [Value.Usable, unusable?, ← unquotable?_eq_none_iff]
      split <;> simp [*]
  | boolean _ | double _ | decimal _ => exact ⟨fun _ => rfl, fun _ => trivial⟩

theorem literal_eq_error {v : Value} {e : BindingError}
    (h : unusable? v = some e) :
    literal v = .error e := by
  cases v with
  | null => exact congrArg Except.error (Option.some.inj h)
  | text p => exact quoted_eq_error h
  | integer n =>
      rw [unusable?] at h
      split at h
      · cases h
      · next hlong =>
          rw [literal, Value.asText, if_neg hlong, ← Option.some.inj h]
          rfl
  | array _ | object _ =>
      rw [unusable?] at h
      rw [literal_of_data rfl]
      split at h
      · next hshort =>
          rw [if_pos hshort]
          exact quoted_eq_error h
      · next hlong => rw [if_neg hlong, ← Option.some.inj h]
  | boolean _ | double _ | decimal _ => cases h

/-- The literal of a value that has one. -/
def written (v : Value) : Text :=
  (literal v).toOption.getD []

theorem exists_literal {v : Value} (h : v.Usable) : ∃ w, literal v = .ok w := by
  cases v with
  | null => exact absurd h id
  | text p => exact ⟨_, literal_text h⟩
  | integer n =>
      have hn : Value.ShortInt n := h
      rw [literal, Value.asText, if_pos hn]
      exact ⟨_, rfl⟩
  | array _ | object _ =>
      rw [literal_of_data rfl, if_pos h.1]
      exact ⟨_, quoted_eq_ok h.2⟩
  | boolean _ | double _ | decimal _ => exact ⟨_, rfl⟩

theorem literal_eq_written {v : Value} (h : v.Usable) :
    literal v = .ok (written v) := by
  obtain ⟨w, hw⟩ := exists_literal h
  rw [written, hw]
  rfl

theorem not_isQuote_of_number {w : Text} (h : w ⊆ numberCharacters) :
    ∀ c ∈ w, isQuote c = false := by
  have hall : ∀ c ∈ numberCharacters, isQuote c = false := by decide
  exact fun c hc => hall c (h hc)

/-- A text in quotes closes them. -/
theorem quoteRun_quoted {p w : Text} (h : quoted p = .ok w) :
    quoteRun none w = none := by
  have hp : p.Bindable := by
    by_contra hp
    have herror : quoted p = .error .bothQuotes := quoted_eq_error (if_neg hp)
    rw [herror] at h
    cases h
  rw [quoted_eq_ok hp] at h
  cases h
  exact quoteRun_between hp.encloses.quote hp.encloses.absent

/-- A literal closes the quotes that it opens. -/
theorem quoteRun_literal {v : Value} {w : Text} (hv : v.Regular)
    (h : literal v = .ok w) :
    quoteRun none w = none := by
  cases v with
  | null => cases h
  | boolean b => cases h; cases b <;> rfl
  | integer n =>
      rw [literal, Value.asText] at h
      split at h <;> cases h
      exact quoteRun_of_not_quote
        (not_isQuote_of_number (ofInt_subset_numberCharacters n))
  | double x =>
      cases h
      exact quoteRun_of_not_quote
        (not_isQuote_of_number x.toText_subset_numberCharacters)
  | decimal t => cases h; exact quoteRun_of_not_quote hv
  | text p => exact quoteRun_quoted h
  | array _ | object _ =>
      rw [literal_of_data rfl] at h
      split at h
      · exact quoteRun_quoted h
      · cases h

/-! ## One equation for every place

Binding from a place on, with the values that are left there, is stated for all
places together: it comes to the first error behind the place, or to the text
that is left with the literals in it. The induction is on the length of what is
left. -/

/-- An error, or else a result. -/
def outcome (error? : Option BindingError) (result : Text) :
    Except BindingError Text :=
  match error? with
  | some e => .error e
  | none => .ok result

theorem map_outcome (error? : Option BindingError) (result s : Text) :
    (outcome error? result).map (s ++ ·) = outcome error? (s ++ result) := by
  cases error? <;> rfl

/-- Binding from a place on, where the quote is open that is open there and the
values are left that are left there. -/
def bindAt (t : Text) (values : List Value) (n : Nat) :
    Except BindingError Text :=
  bindFrom (quoteRun none (t.take n)) (t.drop n)
    (values.drop (placeholdersBefore t n))

theorem bindAt_length (t : Text) (values : List Value) :
    bindAt t values t.length = outcome (errorBehind? t values) [] := by
  rw [bindAt, List.drop_length, errorBehind?]
  by_cases hk : placeholdersBefore t t.length < values.length
  · rw [if_pos hk, List.drop_eq_getElem_cons hk]
    rfl
  · rw [if_neg hk, List.drop_eq_nil_of_le (Nat.le_of_not_lt hk)]
    rfl

/-- A place that is no placeholder is copied. -/
theorem bindAt_of_not_placeholder (hn : n < t.length)
    (h : ¬ IsPlaceholder t n) :
    bindAt t values n = (bindAt t values (n + 1)).map (t[n] :: ·) := by
  have hc : ¬ (quoteRun none (t.take n) = none ∧ t[n] = '?') :=
    fun hc => h ⟨(List.getElem?_eq_getElem hn).trans (congrArg some hc.2), hc.1⟩
  rw [bindAt, List.drop_eq_getElem_cons hn, bindFrom_cons hc, bindAt,
    quoteRun_take_succ hn, placeholdersBefore_succ, if_neg h]
  rfl

/-- A placeholder for which no value is left is an error. -/
theorem bindAt_of_none (h : IsPlaceholder t n)
    (hv : values[placeholdersBefore t n]? = none) :
    bindAt t values n = .error .notEnough := by
  rw [bindAt, h.2, h.drop_eq,
    List.drop_eq_nil_of_le (List.getElem?_eq_none_iff.1 hv)]
  rfl

/-- A placeholder takes the literal of the value of its number. -/
theorem bindAt_of_some {v : Value} (h : IsPlaceholder t n)
    (hv : values[placeholdersBefore t n]? = some v) :
    bindAt t values n = (literal v).bind fun w =>
    (bindAt t values (n + 1)).map (w ++ ·) := by
  obtain ⟨hk, rfl⟩ := List.getElem?_eq_some_iff.1 hv
  rw [bindAt, h.2, h.drop_eq, List.drop_eq_getElem_cons hk,
    bindFrom_placeholder, bindAt, h.quoteRun_succ, placeholdersBefore_succ,
    if_pos h]

/-- Binding stops at a place with an error. -/
theorem bindAt_of_error {e : BindingError} (h : errorAt? t values n = some e) :
    bindAt t values n = .error e := by
  rw [errorAt?] at h
  split at h
  · next hplace =>
      cases hv : values[placeholdersBefore t n]? with
      | none =>
          rw [hv] at h
          rw [bindAt_of_none hplace hv, ← Option.some.inj h]
      | some v =>
          rw [hv] at h
          rw [bindAt_of_some hplace hv, literal_eq_error h]
          rfl
  · cases h

/-- Binding goes past any other place, which turns into its image. -/
theorem bindAt_succ (hn : n < t.length) (h : errorAt? t values n = none) :
    bindAt t values n =
      (bindAt t values (n + 1)).map (image t (values.map written) n ++ ·) := by
  rw [image]
  by_cases hplace : IsPlaceholder t n
  · rw [errorAt?, if_pos hplace] at h
    cases hv : values[placeholdersBefore t n]? with
    | none =>
        rw [hv] at h
        cases h
    | some v =>
        rw [hv] at h
        rw [bindAt_of_some hplace hv, literal_eq_written (usable_iff.2 h),
          if_pos hplace, List.getElem?_map, hv]
        rfl
  · rw [bindAt_of_not_placeholder hn hplace, if_neg hplace,
      List.getElem?_eq_getElem hn]
    rfl

theorem bindAt_eq (h : n + m = t.length) :
    bindAt t values n =
      outcome (((List.range' n m).findSome? (errorAt? t values)).or
        (errorBehind? t values))
        ((List.range' n m).flatMap (image t (values.map written))) := by
  induction m generalizing n with
  | zero =>
      rw [Nat.add_zero] at h
      rw [h, bindAt_length]
      rfl
  | succ m ih =>
      rw [List.range'_succ, List.findSome?_cons, List.flatMap_cons]
      cases herror : errorAt? t values n with
      | some e => exact bindAt_of_error herror
      | none =>
          have hn : n < t.length := by omega
          rw [bindAt_succ hn herror, ih (by omega)]
          exact map_outcome _ _ _

theorem bind_eq (t : Text) (values : List Value) :
    bind t values =
      outcome (firstError? t values)
          (substituted t (values.map written) t.length) := by
  have h := @bindAt_eq t values 0 t.length (Nat.zero_add t.length)
  rwa [← List.range_eq_range'] at h

/-! ## When there is no error

At the start of the text this says when binding succeeds: there are as many
values as placeholders, and each has a literal. -/

theorem firstError?_eq_none_iff :
    firstError? t values = none ↔
      placeholdersBefore t t.length = values.length ∧ ∀ v ∈ values,
      v.Usable := by
  rw [firstError?, Option.or_eq_none_iff, List.findSome?_eq_none_iff]
  constructor
  · rintro ⟨hplaces, hbehind⟩
    have hle : values.length ≤ placeholdersBefore t t.length := by
      by_contra hlt
      rw [errorBehind?, if_pos (Nat.lt_of_not_le hlt)] at hbehind
      cases hbehind
    have hnumber {k : Nat} (hk : k < placeholdersBefore t t.length) :
        ∃ v, values[k]? = some v ∧ v.Usable := by
      obtain ⟨n, hn, hplace, rfl⟩ := exists_placeholder hk
      have hnone := hplaces n (List.mem_range.2 hn)
      rw [errorAt?, if_pos hplace] at hnone
      cases hv : values[placeholdersBefore t n]? with
      | none => rw [hv] at hnone; cases hnone
      | some v => rw [hv] at hnone; exact ⟨v, rfl, usable_iff.2 hnone⟩
    constructor
    · refine Nat.le_antisymm (Nat.le_of_not_lt fun hlt => ?_) hle
      obtain ⟨v, hv, _⟩ := hnumber hlt
      rw [List.getElem?_eq_none (Nat.le_refl _)] at hv
      cases hv
    · intro v hv
      obtain ⟨k, hk, rfl⟩ := List.getElem_of_mem hv
      obtain ⟨u, hu, husable⟩ := hnumber (Nat.lt_of_lt_of_le hk hle)
      rw [List.getElem?_eq_getElem hk] at hu
      exact Option.some.inj hu ▸ husable
  · rintro ⟨hcount, husable⟩
    refine ⟨fun n _ => ?_, if_neg (Nat.not_lt_of_le (Nat.le_of_eq hcount.symm))⟩
    rw [errorAt?]
    split
    · next hplace =>
        have hk : placeholdersBefore t n < values.length :=
          hcount ▸ hplace.before_lt hplace.lt_length
        rw [List.getElem?_eq_getElem hk]
        exact usable_iff.1 (husable _ (List.getElem_mem hk))
    · rfl

/-! ## Quotes in the result

At corresponding places the text and what it is bound to are in the same state,
for the literals between close their quotes. -/

theorem substituted_succ (t : Text) (literals : List Text) (n : Nat) :
    substituted t literals (n + 1) = substituted t literals n ++
      image t literals n := by
  rw [substituted, List.range_succ, List.flatMap_append, List.flatMap_singleton]
  rfl

theorem substituted_mono (literals : List Text) (h : n ≤ m) :
    substituted t literals n <+: substituted t literals m := by
  induction h with
  | refl => exact List.prefix_rfl
  | step _ ih => exact ih.trans ⟨_, (substituted_succ t literals _).symm⟩

/-- Literals that close their quotes change nothing for what stands behind
them. -/
theorem quoteRun_substituted
    (hliterals : ∀ w ∈ literals, quoteRun none w = none) (h : n ≤ t.length) :
    quoteRun none (substituted t literals n) = quoteRun none (t.take n) := by
  induction n with
  | zero => rfl
  | succ n ih =>
      rw [substituted_succ, quoteRun_append, ih (Nat.le_of_succ_le h), image]
      split
      · next hplace =>
          rw [hplace.2, hplace.quoteRun_succ]
          cases hw : literals[placeholdersBefore t n]? with
          | none => rfl
          | some w => exact hliterals w (List.mem_of_getElem? hw)
      · rw [quoteRun_take_succ h, List.getElem?_eq_getElem h]
        rfl

/-! ## What binding gives

The parts come together in one statement about every text and every list of
values. -/

/-- A text and values are bound just when there are as many placeholders as
values, and every value can be written. Each placeholder is then replaced by the
literal of the value of its number and each other character is kept, and at
every place of the text the same quote is open in the result. Otherwise the
error is the one that is met first. -/
theorem bind_substitutes (t : Text) (values : List Value) :
    ((∃ u, bind t values = .ok u) ↔
      placeholdersBefore t t.length = values.length ∧ ∀ v ∈ values, v.Usable) ∧
    (∀ u, bind t values = .ok u →
      ∃ literals : List Text, values.map literal = literals.map .ok ∧
        u = substituted t literals t.length ∧
        ((∀ v ∈ values, v.Regular) →
          ∀ n ≤ t.length, substituted t literals n <+: u ∧
            quoteRun none (substituted t literals n) =
              quoteRun none (t.take n))) ∧
    ∀ e, bind t values = .error e ↔ firstError? t values = some e := by
  rw [← firstError?_eq_none_iff, bind_eq]
  cases herror : firstError? t values with
  | some e =>
      refine ⟨⟨fun ⟨u, hu⟩ => (nomatch hu), nofun⟩, fun u hu => (nomatch hu),
        fun e' => ?_⟩
      rw [outcome, Except.error.injEq, Option.some.injEq]
  | none =>
      refine ⟨⟨fun _ => rfl, fun _ => ⟨_, rfl⟩⟩, fun u hu => ?_,
        fun e => ⟨nofun, nofun⟩⟩
      have husable := (firstError?_eq_none_iff.1 herror).2
      cases hu
      refine ⟨values.map written, ?_, rfl,
        fun hregular n hn => ⟨substituted_mono _ hn, ?_⟩⟩
      · rw [List.map_map]
        exact List.map_congr_left fun v hv => literal_eq_written (husable v hv)
      · refine quoteRun_substituted (fun w hw => ?_) hn
        obtain ⟨v, hv, rfl⟩ := List.mem_map.1 hw
        exact quoteRun_literal (hregular v hv)
          (literal_eq_written (husable v hv))

/-- A quoted question mark stays, and so does one in a value. -/
theorem bind_substitutes_quoted :
    ∃ literals : List Text,
      [Value.text "it's ?".toText, .decimal "1E+2".toText].map literal =
        literals.map .ok ∧
      "a = \"it's ?\" AND b = '?' AND c = 1E+2".toText =
        substituted "a = ? AND b = '?' AND c = ?".toText literals 27 ∧
      ∀ n ≤ 27, substituted "a = ? AND b = '?' AND c = ?".toText literals n <+:
          "a = \"it's ?\" AND b = '?' AND c = 1E+2".toText ∧
        quoteRun none (substituted "a = ? AND b = '?' AND c = ?".toText
          literals n) =
          quoteRun none ("a = ? AND b = '?' AND c = ?".toText.take n) := by
  obtain ⟨literals, hliterals, hu, hquotes⟩ :=
    (bind_substitutes "a = ? AND b = '?' AND c = ?".toText
      [.text "it's ?".toText, .decimal "1E+2".toText]).2.1
      "a = \"it's ?\" AND b = '?' AND c = 1E+2".toText (by decide)
  exact ⟨literals, hliterals, hu, hquotes (by decide)⟩

end Binding

end RowSql

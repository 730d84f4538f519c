import RowSql.Json.Reader
import RowSql.Json.Rows
import RowSql.Proofs.Json.Number
import RowSql.Proofs.Value

/-!
# Scalars, written and read

A value that is neither a text nor a decimal and has no parts is written as a
name or as a number, and is read back when a comma or the end of a line follows.
The names are told from the numbers by their first letters.
-/

namespace RowSql.Json

variable {t rest : Text} {v : Value}

/-! ## Names and numbers

The names begin with letters, and the numbers with a digit or a minus, behind
which one name has its letters. So the head of a scalar says how it is read. -/

theorem after?_cons_of_ne {w c : CodePoint} (h : w ≠ c) (ws s : Text) :
    after? (w :: ws) (c :: s) = none :=
  if_neg h

/-- No name opens with a digit, with or without a minus sign before it. -/
theorem readNamed?_eq_none {c : CodePoint} {n : Nat}
    (hc : asciiDigit? c = some n) (s : Text) :
    readNamed? (c :: s) = none ∧ readNamed? (.char '-' :: c :: s) = none := by
  have hne (w : CodePoint) (hw : asciiDigit? w = none) : w ≠ c := by
    intro heq
    rw [heq, hc] at hw
    cases hw
  have hnone (w : CodePoint) (ws : Text) (x : Value)
      (hw : asciiDigit? w = none) :
      (after? (w :: ws) (c :: s)).map (fun rest => (x, rest)) = none := by
    rw [after?_cons_of_ne (hne w hw)]
    rfl
  have hminus (w : CodePoint) (ws : Text) (x : Value) (hw : w ≠ .char '-') :
      (after? (w :: ws) (.char '-' :: c :: s)).map (fun rest => (x, rest)) =
        none := by
    rw [after?_cons_of_ne hw]
    rfl
  constructor
  · rw [readNamed?, List.findSome?_eq_none_iff]
    simp only [namedValues, List.forall_mem_cons]
    exact ⟨hnone 'n' _ _ rfl, hnone 't' _ _ rfl, hnone 'f' _ _ rfl,
      hnone 'N' _ _ rfl, hnone 'I' _ _ rfl, hnone '-' _ _ rfl,
      (fun _ h => absurd h List.not_mem_nil)⟩
  · rw [readNamed?, List.findSome?_eq_none_iff]
    simp only [namedValues, List.forall_mem_cons]
    exact ⟨hminus 'n' _ _ (by decide), hminus 't' _ _ (by decide),
      hminus 'f' _ _ (by decide), hminus 'N' _ _ (by decide),
      hminus 'I' _ _ (by decide), hnone 'I' _ _ rfl,
      (fun _ h => absurd h List.not_mem_nil)⟩

/-- What is read as a number behind its sign opens with a digit. -/
theorem exists_digit_of_readUnsigned? {negative : Bool}
    {p : Except Fault Value × Text} (h : readUnsigned? negative t = some p) :
    ∃ c n s, t = c :: s ∧ asciiDigit? c = some n := by
  cases t with
  | nil => cases h
  | cons c s =>
      cases hc : asciiDigit? c with
      | some n => exact ⟨c, n, s, rfl, hc⟩
      | none =>
          have hwhole : readWhole? (c :: s) = none := by
            rw [readWhole?.eq_def]
            split
            · next heq =>
                rw [(List.cons.inj heq).1] at hc
                cases hc
            · simp only [asciiDigits, hc]
          rw [readUnsigned?, hwhole] at h
          cases h

theorem readScalar_of_readUnsigned?
    (h : readUnsigned? false t = some (.ok v, rest)) :
    readScalar t = .ok (v, rest) := by
  obtain ⟨c, n, s, rfl, hc⟩ := exists_digit_of_readUnsigned? h
  have hnumber : readNumber? (c :: s) = readUnsigned? false (c :: s) := by
    rw [readNumber?.eq_def]
    split
    · next heq =>
        rw [(List.cons.inj heq).1] at hc
        cases hc
    · rfl
  rw [readScalar, (readNamed?_eq_none hc s).1, hnumber, h]
  rfl

theorem readScalar_minus_of_readUnsigned?
    (h : readUnsigned? true t = some (.ok v, rest)) :
    readScalar (.char '-' :: t) = .ok (v, rest) := by
  obtain ⟨c, n, s, rfl, hc⟩ := exists_digit_of_readUnsigned? h
  rw [readScalar, (readNamed?_eq_none hc s).2, readNumber?, h]
  rfl

/-! ## Integers and doubles

An integer is written with its digits and a double with a point, a power or a
name. That keeps the two apart when they are read. -/

theorem integer_eq (negative : Bool) {n : Nat}
    (h : (decimalDigits n).length ≤ digitLimit) :
    integer negative (decimalDigits n) =
      .ok (.integer (if negative then -(n : Int) else n)) := by
  rw [integer, if_neg (Nat.not_lt.2 h), ofDigits_decimalDigits]

theorem readScalar_ofInt {n : Int} (h : Value.ShortInt n) (hr : Closes rest) :
    readScalar (Text.ofInt n ++ rest) = .ok (.integer n, rest) := by
  rw [Value.shortInt_iff] at h
  have hlt : ∀ d ∈ decimalDigits n.natAbs, d < 10 :=
    fun d hd => lt_ten_of_mem_decimalDigits hd
  rw [Text.ofInt, ofNat_eq_map]
  split
  · next hneg =>
      have hread :=
        readUnsigned?_digits true (isWhole_decimalDigits n.natAbs) hlt hr
      rw [integer_eq true h, if_pos rfl, show -(n.natAbs : Int) = n by omega]
        at hread
      exact readScalar_minus_of_readUnsigned? hread
  · next hpos =>
      have hread :=
        readUnsigned?_digits false (isWhole_decimalDigits n.natAbs) hlt hr
      rw [integer_eq false h, if_neg Bool.false_ne_true,
        show (n.natAbs : Int) = n by omega] at hread
      exact readScalar_of_readUnsigned? hread

theorem readScalar_writeDouble (x : Binary64) (hr : Closes rest) :
    readScalar (writeDouble x ++ rest) = .ok (.double x, rest) := by
  cases x with
  | nan => rfl
  | infinite negative => cases negative <;> rfl
  | finite negative units fits =>
      rw [writeDouble, Binary64.toText]
      · cases negative with
        | false =>
            exact readScalar_of_readUnsigned?
              (readUnsigned?_magnitudeText false fits hr)
        | true =>
            exact readScalar_minus_of_readUnsigned?
              (readUnsigned?_magnitudeText true fits hr)
      · exact Binary64.noConfusion
      · intro _ h
        cases h

/-- A scalar is read as a value. -/
theorem readValue_of_readScalar (h : readScalar t = .ok (v, rest))
    (fuel : Nat) :
    readValue (fuel + 1) t = .ok (v, rest) := by
  have hnone (c : CodePoint) (hc : ∀ s,
      readScalar (c :: s) = fail .expectingValue (c :: s)) :
      ∀ s, t = c :: s → False := by
    rintro s rfl
    rw [hc] at h
    cases h
  rw [readValue, h]
  · exact hnone '"' fun s => rfl
  · exact hnone '[' fun s => rfl
  · exact hnone '{' fun s => rfl

end RowSql.Json

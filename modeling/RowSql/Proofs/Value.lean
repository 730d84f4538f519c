import RowSql.Proofs.Number.Digits
import RowSql.Proofs.Number.Rounding
import RowSql.Value

/-!
# What is inside of a value

An array and an object hold values, which may be arrays and objects again. What
is shown of all values is shown of a value from its parts, and a property that a
value has with all that is inside of it is one that it has itself and its parts
have with all that is inside of them. The recursion over lists of items and of
members is gone through here, once, so that it is nowhere else.
-/

namespace RowSql.Value

open Binary64

variable {p q : Value → Prop} {v : Value}

/-! ## From the parts to the whole

There is a statement for values, one for items and one for members, as there is
in the definition of values; the last two only collect what the first one
says. -/

section

variable {motive : Value → Prop}

mutual

theorem of_parts (h : ∀ v : Value, (∀ w ∈ v.parts, motive w) → motive v) :
    (v : Value) → motive v
  | .array items => h _ (of_parts_items h items)
  | .object members => h _ (List.forall_mem_map.2 (of_parts_members h members))
  | .null | .boolean _ | .integer _ | .double _ | .decimal _ | .text _ =>
      h _ nofun

theorem of_parts_items (h : ∀ v : Value, (∀ w ∈ v.parts, motive w) → motive v) :
    (vs : List Value) → ∀ w ∈ vs, motive w
  | [] => nofun
  | v :: vs => List.forall_mem_cons.2 ⟨of_parts h v, of_parts_items h vs⟩

theorem of_parts_members
    (h : ∀ v : Value, (∀ w ∈ v.parts, motive w) → motive v) :
    (ms : List (Text × Value)) → ∀ m ∈ ms, motive m.2
  | [] => nofun
  | (_, v) :: ms => List.forall_mem_cons.2 ⟨of_parts h v, of_parts_members h ms⟩

end

end

theorem everyItem_iff {vs : List Value} :
    EveryItem p vs ↔ ∀ v ∈ vs, v.Every p := by
  induction vs with
  | nil => simp [EveryItem]
  | cons v vs ih => rw [EveryItem, ih, List.forall_mem_cons]

theorem everyMember_iff {ms : List (Text × Value)} :
    EveryMember p ms ↔ ∀ m ∈ ms, m.2.Every p := by
  induction ms with
  | nil => simp [EveryMember]
  | cons m ms ih => rw [EveryMember, ih, List.forall_mem_cons]

theorem every_iff : v.Every p ↔ p v ∧ ∀ w ∈ v.parts, w.Every p := by
  cases v with
  | array items => rw [Every, everyItem_iff, parts]
  | object members => rw [Every, everyMember_iff, parts, List.forall_mem_map]
  | null | boolean | integer | double | decimal | text =>
      exact ⟨fun h => ⟨h, nofun⟩, And.left⟩

theorem Every.imp (himp : ∀ v, p v → q v) : v.Every p → v.Every q := by
  induction v using of_parts with
  | h v ih =>
      intro h
      obtain ⟨hv, hparts⟩ := every_iff.1 h
      exact every_iff.2 ⟨himp v hv, fun w hw => ih w hw (hparts w hw)⟩

theorem reprItems_eq_map (vs : List Value) : reprItems vs = vs.map repr := by
  induction vs with
  | nil => rfl
  | cons v vs ih => rw [reprItems, ih, List.map_cons]

theorem reprMembers_eq_map (ms : List (Text × Value)) :
    reprMembers ms = ms.map fun m => m.1.repr ++ ": ".toText ++ m.2.repr := by
  induction ms with
  | nil => rfl
  | cons m ms ih => rw [reprMembers, ih, List.map_cons]

/-! ## Numbers in range

An integer with a finite nearest number has at most 342 digits, so it can be
written. The text of a value whose integers are all so is there, whatever the
value is. -/

/-- A value that is no integer beyond the finite numbers. -/
def InRangeHere : Value → Prop
  | .integer n => (ofInt n).isFinite = true
  | _ => True

/-- A value without integers beyond the finite numbers. -/
def InRange (v : Value) : Prop :=
  v.Every InRangeHere

instance : DecidablePred InRangeHere
  | .integer n => inferInstanceAs (Decidable ((ofInt n).isFinite = true))
  | .null | .boolean _ | .double _ | .decimal _ | .text _ | .array _ |
    .object _ =>
    isTrue trivial

instance : DecidablePred InRange :=
  decidableEvery InRangeHere

theorem shortInt_iff {n : Int} :
    ShortInt n ↔ (decimalDigits n.natAbs).length ≤ digitLimit := by
  rw [ShortInt, ofNat_eq_map, List.length_map]

theorem shortInt_of_isFinite {n : Int} (h : (ofInt n).isFinite = true) :
    ShortInt n := by
  have hlt : n.natAbs < 2 ^ bitsAboveOne := by
    refine Nat.lt_of_not_le fun hle => ?_
    have hlimit : unitsLimit ≤ n.natAbs * unitsPerOne / 1 := by
      rw [unitsLimit_eq, Nat.div_one]
      exact Nat.mul_le_mul_right _ hle
    rw [ofInt, ofUnits_eq_infinite hlimit] at h
    exact Bool.false_ne_true h
  have hbits : bitsAboveOne = 1024 := rfl
  have hdigits : (decimalDigits n.natAbs).length ≤ 342 :=
    length_decimalDigits_le (by omega)
      (Nat.lt_of_lt_of_le hlt (two_pow_le_ten_pow (by omega)))
  have hlimit : digitLimit = 4300 := rfl
  rw [shortInt_iff]
  omega

theorem InRange.short (h : v.InRange) : v.Short := by
  refine Every.imp (fun v hv => ?_) h
  cases v with
  | integer n => exact shortInt_of_isFinite hv
  | null | boolean | double | decimal | text | array | object => trivial

theorem Short.asText_eq (h : v.Short) : v.asText = .ok v.toText := by
  rw [asText_eq_ite, if_pos h]

theorem asText_eq_ok_iff {t : Text} :
    v.asText = .ok t ↔ v.Short ∧ v.toText = t := by
  rw [asText_eq_ite]
  split
  · next h => rw [Except.ok.injEq, and_iff_right h]
  · next h => exact ⟨nofun, fun h' => absurd h'.1 h⟩

end RowSql.Value

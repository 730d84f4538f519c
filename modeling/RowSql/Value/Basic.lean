import RowSql.Number.Binary64
import RowSql.Number.DigitLimit

/-!
# Values

A field holds nothing, a boolean, a number or a text. A table file can put
arrays and objects there as well. Nothing is asked of what is inside of them,
but they are kept, and shown and written as they are. An object keeps its
members in the order in which they were first named.
-/

namespace RowSql

/-- The value of a field. A decimal is known by its text; it can be bound to a
placeholder and is never read from a table. -/
inductive Value where
  | null
  | boolean (b : Bool)
  | integer (n : Int)
  | double (x : Binary64)
  | decimal (written : Text)
  | text (t : Text)
  | array (items : List Value)
  | object (members : List (Text × Value))

namespace Value

/-! ## Deciding equality

Values are nested in lists of values and of members, so equality is decided for
all three at once. Two values that are made in different ways are different. -/

mutual

protected def decEq : (a b : Value) → Decidable (a = b)
  | .null, b =>
    match b with
    | .null => isTrue rfl
    | .boolean _ | .integer _ | .double _ | .decimal _ | .text _ | .array _
    | .object _ => isFalse nofun
  | .boolean a, b =>
    match b with
    | .boolean b => decidable_of_iff (a = b) (boolean.injEq a b ▸ Iff.rfl)
    | .null | .integer _ | .double _ | .decimal _ | .text _ | .array _
    | .object _ => isFalse nofun
  | .integer a, b =>
    match b with
    | .integer b => decidable_of_iff (a = b) (integer.injEq a b ▸ Iff.rfl)
    | .null | .boolean _ | .double _ | .decimal _ | .text _ | .array _
    | .object _ => isFalse nofun
  | .double a, b =>
    match b with
    | .double b => decidable_of_iff (a = b) (double.injEq a b ▸ Iff.rfl)
    | .null | .boolean _ | .integer _ | .decimal _ | .text _ | .array _
    | .object _ => isFalse nofun
  | .decimal a, b =>
    match b with
    | .decimal b => decidable_of_iff (a = b) (decimal.injEq a b ▸ Iff.rfl)
    | .null | .boolean _ | .integer _ | .double _ | .text _ | .array _
    | .object _ => isFalse nofun
  | .text a, b =>
    match b with
    | .text b => decidable_of_iff (a = b) (text.injEq a b ▸ Iff.rfl)
    | .null | .boolean _ | .integer _ | .double _ | .decimal _ | .array _
    | .object _ => isFalse nofun
  | .array a, b =>
    match b with
    | .array b =>
      have := Value.itemsDecEq a b
      decidable_of_iff (a = b) (array.injEq a b ▸ Iff.rfl)
    | .null | .boolean _ | .integer _ | .double _ | .decimal _ | .text _
    | .object _ => isFalse nofun
  | .object a, b =>
    match b with
    | .object b =>
      have := Value.membersDecEq a b
      decidable_of_iff (a = b) (object.injEq a b ▸ Iff.rfl)
    | .null | .boolean _ | .integer _ | .double _ | .decimal _ | .text _
    | .array _ => isFalse nofun

protected def itemsDecEq : (a b : List Value) → Decidable (a = b)
  | [], [] => isTrue rfl
  | [], _ :: _ | _ :: _, [] => isFalse nofun
  | v :: vs, w :: ws =>
    have := v.decEq w
    have := Value.itemsDecEq vs ws
    decidable_of_iff (v = w ∧ vs = ws) (List.cons.injEq v vs w ws ▸ Iff.rfl)

protected def membersDecEq : (a b : List (Text × Value)) → Decidable (a = b)
  | [], [] => isTrue rfl
  | [], _ :: _ | _ :: _, [] => isFalse nofun
  | (name, v) :: ms, (other, w) :: ns =>
    have := v.decEq w
    have := Value.membersDecEq ms ns
    decidable_of_iff ((name = other ∧ v = w) ∧ ms = ns) (by simp)

end

instance : DecidableEq Value := Value.decEq

/-! ## Inside of a value

A property of values that is to hold at every depth is asked of the value and of
all its parts. -/

/-- The values directly inside of a value. -/
def parts : Value → List Value
  | .array items => items
  | .object members => members.map Prod.snd
  | _ => []

mutual

/-- A value and all that is inside of it have a property. -/
def Every (p : Value → Prop) : Value → Prop
  | .array items => p (.array items) ∧ EveryItem p items
  | .object members => p (.object members) ∧ EveryMember p members
  | v => p v

def EveryItem (p : Value → Prop) : List Value → Prop
  | [] => True
  | v :: vs => v.Every p ∧ EveryItem p vs

def EveryMember (p : Value → Prop) : List (Text × Value) → Prop
  | [] => True
  | (_, v) :: ms => v.Every p ∧ EveryMember p ms

end

section

variable (p : Value → Prop) [DecidablePred p]

mutual

instance decidableEvery : (v : Value) → Decidable (v.Every p)
  | .array items =>
    have := decidableEveryItem items
    inferInstanceAs (Decidable (p (.array items) ∧ EveryItem p items))
  | .object members =>
    have := decidableEveryMember members
    inferInstanceAs (Decidable (p (.object members) ∧ EveryMember p members))
  | .null => inferInstanceAs (Decidable (p .null))
  | .boolean b => inferInstanceAs (Decidable (p (.boolean b)))
  | .integer n => inferInstanceAs (Decidable (p (.integer n)))
  | .double x => inferInstanceAs (Decidable (p (.double x)))
  | .decimal t => inferInstanceAs (Decidable (p (.decimal t)))
  | .text t => inferInstanceAs (Decidable (p (.text t)))

instance decidableEveryItem : (vs : List Value) → Decidable (EveryItem p vs)
  | [] => isTrue trivial
  | v :: vs =>
    have := decidableEvery v
    have := decidableEveryItem vs
    inferInstanceAs (Decidable (v.Every p ∧ EveryItem p vs))

instance decidableEveryMember :
    (ms : List (Text × Value)) → Decidable (EveryMember p ms)
  | [] => isTrue trivial
  | (_, v) :: ms =>
    have := decidableEvery v
    have := decidableEveryMember ms
    inferInstanceAs (Decidable (v.Every p ∧ EveryMember p ms))

end

end

end Value

/-! ## Large integers

Integers are exact, and there are two things that one can be too large for: to
be compared as a number, and, with still more digits, to be written. -/

/-- What an integer is too large for. -/
inductive Overflow where
  /-- It has no finite nearest number. -/
  | integerTooLarge
  /-- It has more digits than are written. -/
  | integerTooLong
deriving DecidableEq, Repr

/-- The words for an integer that cannot be compared or written. -/
def Overflow.message : Overflow → Text
  | integerTooLarge => "int too large to convert to float".toText
  | integerTooLong => tooManyDigitsToWrite

namespace Value

/-- An integer with no more digits than are read and written. -/
def ShortInt (n : Int) : Prop := (Text.ofNat n.natAbs).length ≤ digitLimit

instance (n : Int) : Decidable (ShortInt n) :=
  inferInstanceAs (Decidable ((Text.ofNat n.natAbs).length ≤ digitLimit))

/-- A value that is no integer, or a short one. -/
def ShortHere : Value → Prop
  | .integer n => ShortInt n
  | _ => True

instance : DecidablePred ShortHere
  | .integer n => inferInstanceAs (Decidable (ShortInt n))
  | .null | .boolean _ | .double _ | .decimal _ | .text _ | .array _ |
    .object _ =>
    isTrue trivial

/-- A value that holds only integers which can be written. -/
def Short (v : Value) : Prop := v.Every ShortHere

instance : DecidablePred Short := decidableEvery ShortHere

end Value

end RowSql

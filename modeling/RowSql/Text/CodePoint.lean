/-!
# Code points

A text can hold any code point of Unicode: the characters, and the surrogates
U+D800 to U+DFFF, which are halves of a pair and no characters. No encoded file
holds a surrogate, but the escapes of a JSON string can name one on its own; it
is kept, and is equal to nothing but itself. Code points are ordered by their
numbers, and `CodePoint.toNat_inj` says that a number belongs to one code point
only.
-/

namespace RowSql

/-- A code point: a character, or the surrogate of a number from U+D800 on. -/
inductive CodePoint where
  | char (c : Char)
  | surrogate (k : Fin 0x800)
deriving DecidableEq, Repr

namespace CodePoint

instance : Coe Char CodePoint := ⟨char⟩

def toNat : CodePoint → Nat
  | char c => c.toNat
  | surrogate k => 0xD800 + k

def ofNat (n : Nat) : CodePoint :=
  if h : 0xD800 ≤ n ∧ n < 0xE000 then surrogate ⟨n - 0xD800, by omega⟩
  else char (Char.ofNat n)

/-- The character that is shown for a code point: the replacement character
stands for a surrogate. -/
def toChar : CodePoint → Char
  | char c => c
  | surrogate _ => '\uFFFD'

/-- A code point, or the small letter of an ASCII capital one. -/
def toLower : CodePoint → CodePoint
  | char c => char c.toLower
  | surrogate k => surrogate k

/-- A code point, or the capital letter of an ASCII small one. -/
def toUpper : CodePoint → CodePoint
  | char c => char c.toUpper
  | surrogate k => surrogate k

theorem toNat_inj {a b : CodePoint} (h : a.toNat = b.toNat) : a = b := by
  have apart (c : Char) (k : Fin 0x800) : c.toNat ≠ 0xD800 + k := by
    have hv : c.toNat < 0xD800 ∨ 0xDFFF < c.toNat ∧ c.toNat < 0x110000 :=
      c.valid
    omega
  match a, b, h with
  | char c, char d, h => rw [Char.toNat_inj.1 h]
  | char c, surrogate k, h => exact absurd h (apart c k)
  | surrogate k, char c, h => exact absurd h.symm (apart c k)
  | surrogate k, surrogate l, h => rw [Fin.ext (Nat.add_left_cancel h)]

/-! ## Order

Texts are compared by the numbers of their code points. -/

instance : LT CodePoint := ⟨fun a b => a.toNat < b.toNat⟩

instance : LE CodePoint := ⟨fun a b => a.toNat ≤ b.toNat⟩

instance (a b : CodePoint) : Decidable (a < b) :=
  inferInstanceAs (Decidable (a.toNat < b.toNat))

instance (a b : CodePoint) : Decidable (a ≤ b) :=
  inferInstanceAs (Decidable (a.toNat ≤ b.toNat))

theorem lt_iff {a b : CodePoint} : a < b ↔ a.toNat < b.toNat := Iff.rfl

theorem le_iff {a b : CodePoint} : a ≤ b ↔ a.toNat ≤ b.toNat := Iff.rfl

instance : Trans (· < · : CodePoint → CodePoint → Prop) (· < ·) (· < ·) :=
  ⟨fun {_ _ _} h h' => Nat.lt_trans (lt_iff.1 h) (lt_iff.1 h')⟩

instance : Std.Irrefl (· < · : CodePoint → CodePoint → Prop) :=
  ⟨fun a => Nat.lt_irrefl a.toNat⟩

instance : Std.Asymm (· < · : CodePoint → CodePoint → Prop) :=
  ⟨fun _ _ h => Nat.lt_asymm (lt_iff.1 h)⟩

/-- Two code points of which neither comes first are the same. -/
instance : Std.Trichotomous (· < · : CodePoint → CodePoint → Prop) :=
  ⟨fun _ _ h h' =>
    toNat_inj (Nat.le_antisymm (Nat.not_lt.1 h') (Nat.not_lt.1 h))⟩

instance : Std.IsLinearOrder CodePoint where
  le_refl a := Nat.le_refl a.toNat
  le_trans _ _ _ h h' := Nat.le_trans (le_iff.1 h) (le_iff.1 h')
  le_antisymm _ _ h h' := toNat_inj (Nat.le_antisymm (le_iff.1 h) (le_iff.1 h'))
  le_total a b := Nat.le_total a.toNat b.toNat

instance : Std.LawfulOrderLT CodePoint where
  lt_iff _ _ := Nat.lt_iff_le_and_not_ge

end CodePoint

end RowSql

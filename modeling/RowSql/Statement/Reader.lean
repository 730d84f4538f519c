import RowSql.Statement.Cursor
import RowSql.Statement.Error

/-!
# Parts that must be there

A reader moves a cursor past what must stand there and fails otherwise. A
failure does not say which statement it belongs to; that is added once, by who
reads the whole statement. No reader moves a cursor back.
-/

namespace RowSql.Statement

/-- What is wrong with a statement, whichever statement it is. -/
inductive Fault where
  | shape
  | limitTooLong (digits : Nat)
deriving DecidableEq

/-- The error for a fault in a statement. -/
def Fault.toError (kind statement : Text) : Fault → ParseError
  | shape => .malformed kind statement
  | limitTooLong digits => .limitTooLong digits

/-- Steps in sequence succeed when each of them does. -/
theorem bind_eq_ok {ε α β : Type} {x : Except ε α} {f : α → Except ε β}
    {b : β} :
    x >>= f = .ok b ↔ ∃ a, x = .ok a ∧ f a = .ok b := by
  cases x with
  | error e =>
    constructor
    · intro h; cases h
    · rintro ⟨a, h, _⟩; cases h
  | ok a =>
    constructor
    · intro h; exact ⟨a, rfl, h⟩
    · rintro ⟨_, ha, h⟩; cases ha; exact h

/-- What must be there. -/
def required {α : Type} : Option α → Except Fault α
  | some a => .ok a
  | none => .error .shape

/-- What must be so. -/
def ensure (b : Bool) : Except Fault Unit :=
  if b then .ok () else .error .shape

/-- Passes a word that must stand at a cursor. -/
def passWord (word : Text) (c : Cursor) : Except Fault Cursor :=
  match c.expectWord word with
  | (true, c) => .ok c
  | (false, _) => .error .shape

/-- Passes a text that must stand at a cursor. -/
def passText (t : Text) (c : Cursor) : Except Fault Cursor :=
  match c.expectText t with
  | (true, c) => .ok c
  | (false, _) => .error .shape

/-- Reads an identifier that must stand at a cursor. -/
def readName (qualified : Bool) (c : Cursor) : Except Fault (Text × Cursor) :=
  match c.identifier qualified with
  | (some name, c) => .ok (name, c)
  | (none, _) => .error .shape

theorem remaining_passWord_lt {c d : Cursor} {word : Text} (hw : word ≠ [])
    (h : passWord word c = .ok d) : d.remaining < c.remaining := by
  rw [passWord] at h
  split at h
  · next e he =>
    cases h
    have hlt := Cursor.remaining_expectWord_lt (c := c) hw (by rw [he])
    rwa [he] at hlt
  · cases h

theorem remaining_passText_le {c d : Cursor} {t : Text}
    (h : passText t c = .ok d) : d.remaining ≤ c.remaining := by
  rw [passText] at h
  split at h
  · next e he =>
    cases h
    have hle := c.remaining_expectText_le t
    rwa [he] at hle
  · cases h

theorem remaining_readName_le {c d : Cursor} {qualified : Bool} {name : Text}
    (h : readName qualified c = .ok (name, d)) : d.remaining ≤ c.remaining := by
  rw [readName] at h
  split at h
  · next e he =>
    cases h
    have hle := c.remaining_identifier_le qualified
    rwa [he] at hle
  · cases h

end RowSql.Statement

import RowSql.Json.Basic

/-!
# JSON strings

A string is written in ASCII: a quote, a backslash and the control characters
with a name are written with a backslash, and every other character that is not
printable ASCII by its UTF-16 code units in hexadecimal. Reading accepts in
addition any character but a control character as itself. The code units of a
surrogate pair are read as one character; a surrogate that stands alone is kept
as it is.
-/

namespace RowSql.Json

/-! ## Writing

A character that has a name is written with it behind a backslash. The others
are written as they are if they are printable ASCII, and by their code units if
they are not. -/

def hex4 (n : Nat) : Text :=
  [Text.hexDigit (n / 4096 % 16), Text.hexDigit (n / 256 % 16),
    Text.hexDigit (n / 16 % 16), Text.hexDigit (n % 16)]

def unitEscape (n : Nat) : Text :=
  '\\' :: 'u' :: hex4 n

/-- The letter that stands for a character behind a backslash. -/
def shortEscape? (c : CodePoint) : Option CodePoint :=
  match c with
  | '"' => some '"'
  | '\\' => some '\\'
  | '\n' => some 'n'
  | '\r' => some 'r'
  | '\t' => some 't'
  | '\x08' => some 'b'
  | '\x0c' => some 'f'
  | _ => none

def writeChar (c : CodePoint) : Text :=
  match shortEscape? c with
  | some e => ['\\', e]
  | none =>
    if ' ' ≤ c ∧ c ≤ '~' then [c]
    else if c.toNat < 0x10000 then unitEscape c.toNat
    else
      unitEscape (0xD800 + (c.toNat - 0x10000) / 0x400)
        ++ unitEscape (0xDC00 + (c.toNat - 0x10000) % 0x400)

def writeString (t : Text) : Text :=
  Text.between '"' (t.flatMap writeChar)

/-! ## Reading

Two units that make a pair are read as one character. A string ends at its first
quote that no backslash stands before; a control character may not be in it. -/

def hexDigit? (c : CodePoint) : Option Nat :=
  if '0' ≤ c ∧ c ≤ '9' then some (c.toNat - 48)
  else if 'a' ≤ c ∧ c ≤ 'f' then some (c.toNat - 87)
  else if 'A' ≤ c ∧ c ≤ 'F' then some (c.toNat - 55)
  else none

def readHex4? : Text → Option (Nat × Text)
  | a :: b :: c :: d :: s =>
    match hexDigit? a, hexDigit? b, hexDigit? c, hexDigit? d with
    | some a, some b, some c, some d =>
      some (((a * 16 + b) * 16 + c) * 16 + d, s)
    | _, _, _, _ => none
  | _ => none

/-- The character of a surrogate pair. -/
def pairedUnits (n m : Nat) : CodePoint :=
  .ofNat (0x10000 + (n - 0xD800) * 0x400 + (m - 0xDC00))

/-- Reads what follows the first code unit of a possible pair: the second unit,
if an escape follows that is not the very end of the text. -/
def readSecondUnit? : Text → Except Fault (Option (Nat × Text))
  | '\\' :: 'u' :: s =>
    -- an escape that ends the text is refused when the string goes on with it
    if s.length ≤ 4 then .ok none
    else
      match readHex4? s with
      | some r => .ok (some r)
      | none => .error (.problem .invalidUnicodeEscape (s.length + 1))
  | _ => .ok none

/-- Reads the digits behind `\u`, and the second half of a surrogate pair if one
follows. At least one character must stand behind the digits. -/
def readUnits (t : Text) : Except Fault (CodePoint × Text) :=
  if t.length ≤ 4 then .error (.problem .invalidUnicodeEscape (t.length + 1))
  else
    match readHex4? t with
    | none => .error (.problem .invalidUnicodeEscape (t.length + 1))
    | some (n, s) =>
      if 0xD800 ≤ n ∧ n ≤ 0xDBFF then
        match readSecondUnit? s with
        | .error e => .error e
        | .ok (some (m, r)) =>
          if 0xDC00 ≤ m ∧ m ≤ 0xDFFF then .ok (pairedUnits n m, r)
          -- what is no second half stays in the text, to be read for itself
          else .ok (.ofNat n, s)
        | .ok none => .ok (.ofNat n, s)
      else .ok (.ofNat n, s)

/-- The character that a letter stands for behind a backslash. -/
def unescape? (e : CodePoint) : Option CodePoint :=
  match e with
  | '"' => some '"'
  | '\\' => some '\\'
  | '/' => some '/'
  | 'b' => some '\x08'
  | 'f' => some '\x0c'
  | 'n' => some '\n'
  | 'r' => some '\r'
  | 't' => some '\t'
  | _ => none

/-- Reads what follows a backslash in a string that has `opening` characters
from its first quote to the end of the text. -/
def readEscape (opening : Nat) : Text → Except Fault (CodePoint × Text)
  | [] => .error (.problem .unterminatedString opening)
  | e :: s =>
    if e = 'u' then readUnits s
    else
      match unescape? e with
      | some c => .ok (c, s)
      | none => .error (.problem .invalidEscape (s.length + 2))

theorem length_of_readHex4? {t s : Text} {n : Nat}
    (h : readHex4? t = some (n, s)) :
    s.length ≤ t.length := by
  match t with
  | [] | [_] | [_, _] | [_, _, _] => cases h
  | a :: b :: c :: d :: r =>
    simp only [readHex4?] at h
    split at h
    · cases h; simp only [List.length_cons]; omega
    · cases h

theorem length_of_readSecondUnit? {t s : Text} {n : Nat}
    (h : readSecondUnit? t = .ok (some (n, s))) : s.length ≤ t.length := by
  rw [readSecondUnit?.eq_def] at h
  split at h
  · split at h
    · cases h
    · split at h
      · next hr =>
          cases h; have :=
            length_of_readHex4? hr; simp only [List.length_cons]; omega
      · cases h
  · cases h

theorem length_of_readUnits {t s : Text} {c : CodePoint}
    (h : readUnits t = .ok (c, s)) :
    s.length ≤ t.length := by
  rw [readUnits] at h
  split at h
  · cases h
  split at h
  · cases h
  next n r hr =>
  have hl := length_of_readHex4? hr
  split at h
  · split at h
    · cases h
    · next m u hu =>
      have hl2 := length_of_readSecondUnit? hu
      split at h <;> simp only [Except.ok.injEq, Prod.mk.injEq] at h
      · exact h.2 ▸ Nat.le_trans hl2 hl
      · exact h.2 ▸ hl
    · simp only [Except.ok.injEq, Prod.mk.injEq] at h
      exact h.2 ▸ hl
  · simp only [Except.ok.injEq, Prod.mk.injEq] at h
    exact h.2 ▸ hl

theorem length_of_readEscape {opening : Nat} {t s : Text} {c : CodePoint}
    (h : readEscape opening t = .ok (c, s)) : s.length ≤ t.length := by
  cases t with
  | nil => cases h
  | cons e r =>
    rw [readEscape] at h
    split at h
    · exact Nat.le_succ_of_le (length_of_readUnits h)
    · split at h
      · cases h; exact Nat.le_succ _
      · cases h

/-- Reads a string from behind its first quote. -/
def readString (opening : Nat) : Text → Except Fault (Text × Text)
  | [] => .error (.problem .unterminatedString opening)
  | c :: s =>
    if c = '"' then .ok ([], s)
    else if c = '\\' then
      match _h : readEscape opening s with
      | .error e => .error e
      | .ok (d, r) => (readString opening r).map fun p => (d :: p.1, p.2)
    else if c.toNat ≤ 0x1F then
      .error (.problem .controlCharacter (s.length + 1))
    else (readString opening s).map fun p => (c :: p.1, p.2)
termination_by t => t.length
decreasing_by
  · exact Nat.lt_succ_of_le (length_of_readEscape _h)
  · exact Nat.lt_succ_self _

end RowSql.Json

import RowSql.Text.Basic

/-!
# UTF-8

Bytes are decoded one at a time. Between characters nothing is pending; inside
one, the decoder knows how many bytes are still owed and in what range the next
one must lie, which rules out overlong forms, surrogates and code points beyond
the last. The first byte that cannot be is reported with the bytes of its
character that were read before it.
-/

namespace RowSql

/-- The contents of a file. -/
abbrev Bytes := List UInt8

namespace Utf8

/-- Why bytes are not UTF-8. -/
inductive Reason where
  | invalidStart
  | invalidContinuation
  | unexpectedEnd
deriving DecidableEq, Repr

/-- Bytes that are no character: where they start, where they stop, and the
first of them. -/
structure Fault where
  reason : Reason
  start : Nat
  stop : Nat
  lead : UInt8
deriving DecidableEq, Repr

/-- A character of which the first bytes have been read. -/
structure Pending where
  start : Nat
  lead : UInt8
  /-- The bytes still owed, less one. -/
  owed : Nat
  low : UInt8
  high : UInt8
  /-- The bits read so far. -/
  bits : Nat

/-- What is pending after the first byte of a longer character, if it is one. -/
def opening? (pos : Nat) (b : UInt8) : Option Pending :=
  if 0xC2 ≤ b ∧ b ≤ 0xDF then some ⟨pos, b, 0, 0x80, 0xBF, b.toNat - 0xC0⟩
  -- the second byte rules out overlong forms, surrogates and what is beyond the
  -- last code point
  else if b = 0xE0 then some ⟨pos, b, 1, 0xA0, 0xBF, 0⟩
  else if b = 0xED then some ⟨pos, b, 1, 0x80, 0x9F, 13⟩
  else if 0xE1 ≤ b ∧ b ≤ 0xEF then some ⟨pos, b, 1, 0x80, 0xBF, b.toNat - 0xE0⟩
  else if b = 0xF0 then some ⟨pos, b, 2, 0x90, 0xBF, 0⟩
  else if 0xF1 ≤ b ∧ b ≤ 0xF3 then some ⟨pos, b, 2, 0x80, 0xBF, b.toNat - 0xF0⟩
  else if b = 0xF4 then some ⟨pos, b, 2, 0x80, 0x8F, 4⟩
  else none

/-- Decodes the bytes from a position on. -/
def decodeFrom (pos : Nat) : Option Pending → Bytes → Except Fault Text
  | none, [] => .ok []
  | some p, [] => .error ⟨.unexpectedEnd, p.start, pos, p.lead⟩
  | none, b :: bs =>
    if b < 0x80 then
      (decodeFrom (pos + 1) none bs).map (.char (Char.ofNat b.toNat) :: ·)
    else
      match opening? pos b with
      | some p => decodeFrom (pos + 1) (some p) bs
      | none => .error ⟨.invalidStart, pos, pos + 1, b⟩
  | some p, b :: bs =>
    if p.low ≤ b ∧ b ≤ p.high then
      let bits := 64 * p.bits + (b.toNat - 0x80)
      match p.owed with
      | 0 => (decodeFrom (pos + 1) none bs).map (.char (Char.ofNat bits) :: ·)
      | owed + 1 =>
        decodeFrom (pos + 1)
          (some { p with owed, low := 0x80, high := 0xBF, bits }) bs
    else .error ⟨.invalidContinuation, p.start, pos, p.lead⟩

def decode (bytes : Bytes) : Except Fault Text :=
  decodeFrom 0 none bytes

/-- The bytes of a text. A surrogate has none of its own and gets those of the
character that is shown for it. -/
def encode (t : Text) : Bytes :=
  t.flatMap fun c => String.utf8EncodeChar c.toChar

def Reason.message : Reason → Text
  | invalidStart => "invalid start byte".toText
  | invalidContinuation => "invalid continuation byte".toText
  | unexpectedEnd => "unexpected end of data".toText

/-- The words for a fault: one byte is shown, several are counted. -/
def Fault.message (f : Fault) : Text :=
  let place :=
    if f.stop = f.start + 1 then
      "byte 0x".toText ++ [Text.hexDigit (f.lead.toNat / 16),
        Text.hexDigit (f.lead.toNat % 16)]
        ++ " in position ".toText ++ Text.ofNat f.start
    else
      "bytes in position ".toText ++ Text.ofNat f.start ++ .char '-' ::
        Text.ofNat (f.stop - 1)
  "'utf-8' codec can't decode ".toText ++ place ++ ": ".toText ++
    f.reason.message

end Utf8

namespace Text

/-- A text in which every line ends with a line feed alone, whether it ended
with a carriage return, a line feed or both. -/
def unifyLines : Text → Text
  | [] => []
  | '\r' :: '\n' :: s => '\n' :: unifyLines s
  | '\r' :: s => '\n' :: unifyLines s
  | c :: s => c :: unifyLines s

end Text

end RowSql

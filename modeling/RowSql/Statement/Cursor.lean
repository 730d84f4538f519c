import RowSql.Text.Basic
import RowSql.Text.Upper
import RowSql.Text.Word

/-!
# A position in a text

A cursor moves over a text from left to right, past blanks and past what it is
asked to read. Each operation gives its answer and the cursor after it, also
when it fails: a word that is not the expected one has been passed, and blanks
before an expected text or identifier have been passed.
-/

namespace RowSql

/-- A text and a position in it. -/
structure Cursor where
  text : Text
  pos : Nat
deriving DecidableEq

namespace Cursor

def rest (c : Cursor) : Text :=
  c.text.drop c.pos

/-- A number of characters further on. -/
def advance (c : Cursor) (n : Nat) : Cursor :=
  { c with pos := c.pos + n }

/-- Past the blanks. -/
def skipBlanks (c : Cursor) : Cursor :=
  c.advance (c.rest.takeWhile isBlank).length

/-- Past the blanks, and whether the text ends there. -/
def atEnd (c : Cursor) : Bool × Cursor :=
  (c.skipBlanks.rest.isEmpty, c.skipBlanks)

/-- Past the blanks, and the word that stands there, which may be empty. -/
def peekWord (c : Cursor) : Text × Cursor :=
  (c.skipBlanks.rest.takeWhile isWord, c.skipBlanks)

/-- Past the blanks and the word that stands there. -/
def popWord (c : Cursor) : Text × Cursor :=
  let (word, c) := c.peekWord
  (word, c.advance word.length)

/-- Past a word, and whether its upper-case form is the one expected. -/
def expectWord (c : Cursor) (word : Text) : Bool × Cursor :=
  let (found, c) := c.popWord
  (upper found == word, c)

/-- Past the blanks, and past the word that stands there if its upper-case form
is the one asked for. -/
def consumeWord (c : Cursor) (word : Text) : Bool × Cursor :=
  let (found, c) := c.peekWord
  if upper found == word then (true, c.popWord.2) else (false, c)

/-- Past the blanks, and past a text if it stands there. -/
def expectText (c : Cursor) (t : Text) : Bool × Cursor :=
  let c := c.skipBlanks
  if c.pos ≤ c.text.length && t.isPrefixOf c.rest then
    (true, c.advance t.length) else (false, c)

/-- Past the blanks and the identifier that stands there, which is not empty. A
qualified one may hold dots. -/
def identifier (c : Cursor) (qualified : Bool) : Option Text × Cursor :=
  let c := c.skipBlanks
  let name := c.rest.takeWhile fun a => isWord a || qualified && a == '.'
  if name = [] then (none, c) else (some name, c.advance name.length)

/-- What a cursor can be asked. -/
inductive Request where
  | skipBlanks
  | atEnd
  | peekWord
  | popWord
  | expectWord (word : Text)
  | consumeWord (word : Text)
  | expectText (t : Text)
  | identifier (qualified : Bool)
  | rest

/-- What it answers. -/
inductive Reply where
  | done
  | flag (b : Bool)
  | text (t : Text)
  | refused
deriving DecidableEq

/-- The answer to a request, and the cursor after it. -/
def answer (c : Cursor) : Request → Reply × Cursor
  | .skipBlanks => (.done, c.skipBlanks)
  | .atEnd => (.flag c.atEnd.1, c.atEnd.2)
  | .peekWord => (.text c.peekWord.1, c.peekWord.2)
  | .popWord => (.text c.popWord.1, c.popWord.2)
  | .expectWord word =>
    (if (c.expectWord word).1 then .done else .refused, (c.expectWord word).2)
  | .consumeWord word => (.flag (c.consumeWord word).1, (c.consumeWord word).2)
  | .expectText t =>
    (if (c.expectText t).1 then .done else .refused, (c.expectText t).2)
  | .identifier qualified =>
    ((c.identifier qualified).1.elim .refused .text, (c.identifier qualified).2)
  | .rest => (.text c.rest, c)

/-- The answers to a list of requests, each with the cursor after it. -/
def answers (c : Cursor) : List Request → List (Reply × Cursor)
  | [] => []
  | r :: rs => c.answer r :: (c.answer r).2.answers rs

def remaining (c : Cursor) : Nat :=
  c.text.length - c.pos

theorem length_rest (c : Cursor) : c.rest.length = c.remaining := by
  simp [rest, remaining]

@[simp] theorem text_advance (c : Cursor) (n : Nat) :
    (c.advance n).text = c.text := rfl

@[simp] theorem pos_advance (c : Cursor) (n : Nat) :
    (c.advance n).pos = c.pos + n := rfl

theorem remaining_advance (c : Cursor) (n : Nat) :
    (c.advance n).remaining = c.remaining - n := by
  simp only [remaining, text_advance, pos_advance]
  omega

theorem remaining_skipBlanks_le (c : Cursor) :
    c.skipBlanks.remaining ≤ c.remaining := by
  rw [skipBlanks, remaining_advance]
  exact Nat.sub_le _ _

theorem remaining_popWord_le (c : Cursor) :
    c.popWord.2.remaining ≤ c.remaining := by
  simp only [popWord, peekWord, remaining_advance]
  exact Nat.le_trans (Nat.sub_le _ _) c.remaining_skipBlanks_le

/-- Popping a word that is not empty uses up some text. -/
theorem remaining_popWord_lt {c : Cursor} (h : c.popWord.1 ≠ []) :
    c.popWord.2.remaining < c.remaining := by
  simp only [popWord, peekWord, remaining_advance] at h ⊢
  have h1 := List.length_pos_iff.2 h
  have h2 := (List.takeWhile_sublist (l := c.skipBlanks.rest) isWord).length_le
  rw [length_rest] at h2
  have h3 := c.remaining_skipBlanks_le
  omega

/-- An expected word that is not empty uses up some text. -/
theorem remaining_expectWord_lt {c : Cursor} {word : Text} (hw : word ≠ [])
    (h : (c.expectWord word).1 = true) :
    (c.expectWord word).2.remaining < c.remaining := by
  apply remaining_popWord_lt
  intro hn
  simp only [expectWord, hn] at h
  exact hw (by simpa [upper] using h)

theorem remaining_consumeWord_le (c : Cursor) (word : Text) :
    (c.consumeWord word).2.remaining ≤ c.remaining := by
  simp only [consumeWord]
  split
  · exact Nat.le_trans (remaining_popWord_le _) c.remaining_skipBlanks_le
  · exact c.remaining_skipBlanks_le

theorem remaining_expectText_le (c : Cursor) (t : Text) :
    (c.expectText t).2.remaining ≤ c.remaining := by
  simp only [expectText]
  split
  · rw [remaining_advance]
    exact Nat.le_trans (Nat.sub_le _ _) c.remaining_skipBlanks_le
  · exact c.remaining_skipBlanks_le

theorem remaining_identifier_le (c : Cursor) (qualified : Bool) :
    (c.identifier qualified).2.remaining ≤ c.remaining := by
  simp only [identifier]
  split
  · exact c.remaining_skipBlanks_le
  · rw [remaining_advance]
    exact Nat.le_trans (Nat.sub_le _ _) c.remaining_skipBlanks_le

end Cursor

end RowSql

import RowSql.Filter.Pattern
import RowSql.Record
import RowSql.Text.Quoted
import RowSql.Text.Upper
import RowSql.Text.Word

/-!
# Leaf conditions

A leaf of a filter is a field, an operator and a value. The text of a leaf can
often be cut in more than one way: the longest field that leaves a readable rest
is taken, and at that place the first operator, in a fixed order, that leaves a
readable value.
-/

namespace RowSql.Filter

inductive Operator where
  | atLeast
  | atMost
  | equal
  | greater
  | less
  | like
  | within
deriving DecidableEq, Repr

namespace Operator

def spelling : Operator → Text
  | atLeast => ['>', '=']
  | atMost => ['<', '=']
  | equal => ['=']
  | greater => ['>']
  | less => ['<']
  | like => "LIKE".toText
  | within => "IN".toText

/-- An operator that is a word, and must not touch another word. -/
def isWord : Operator → Bool
  | like | within => true
  | _ => false

/-- The operators in the order in which they are looked for. -/
def all : List Operator :=
  [atLeast, atMost, equal, greater, less, like, within]

/-- The operator that a written one means: the one spelled like its upper-case
form. A word that is an operator only letter by letter can mean none. -/
def ofWritten? (written : Text) : Option Operator :=
  all.find? fun op => upper written == op.spelling

end Operator

/-- A leaf as it is written. -/
structure Leaf where
  field : Text
  operator : Text
  value : Text
deriving DecidableEq

def isParenthesised : Text → Bool
  | [] => false
  | c :: s => c == '(' && s.getLast? == some (.char ')')

/-- A text in one pair of quotes, without that quote character inside. -/
def isQuotedBy (q : CodePoint) : Text → Bool
  | [] => false
  | c :: s => c == q && s.getLast? == some q && !s.dropLast.contains q

/-- Texts that can be the value of a leaf: a parenthesised one, a quoted one, or
one without blanks. -/
def isLeafValue (t : Text) : Bool :=
  isParenthesised t || isQuotedBy '"' t || isQuotedBy '\'' t
    || (!t.isEmpty && t.all fun c => !isBlank c)

def beginsWithWord : Text → Bool
  | [] => false
  | c :: _ => isWord c

/-- Reads one operator, as it is written, and a value from what follows a field.
An operator word touches no word on either side; `touching` says whether the
text before it ends with a character of a word. -/
def readOperatorAs? (touching : Bool) (t : Text) (op : Operator) :
    Option (Text × Text) :=
  match afterWord? op.spelling t with
  | some rest =>
    if (op.isWord && (touching || beginsWithWord rest)) ||
      !isLeafValue (Text.trim rest) then none
    else some (t.take op.spelling.length, Text.trim rest)
  | none => none

/-- Reads an operator and a value after a field that ends with `last`. -/
def readOperator? (last : CodePoint) (t : Text) : Option (Text × Text) :=
  let rest := Text.trimLeft t
  -- a blank in between keeps the field and the operator from touching
  let touching := isWord last && t.head?.all fun c => !isBlank c
  Operator.all.findSome? (readOperatorAs? touching rest)

/-- Reads a leaf from a text that begins with its field. -/
def Leaf.readField? : Text → Option Leaf
  | [] => none
  | c :: s =>
    if isFieldChar c then
      -- a longer field comes first, and this one only if no longer one leaves a
      -- readable rest
      match readField? s with
      | some leaf => some { leaf with field := c :: leaf.field }
      | none => (readOperator? c s).map fun r => ⟨[c], r.1, r.2⟩
    else none

def Leaf.read? (t : Text) : Option Leaf :=
  readField? (Text.trimLeft t)

/-- The items of a parenthesised list, without their quotes. -/
def listItems? (t : Text) : Option (List Text) :=
  if isParenthesised t then
  some ((Text.items t.tail.dropLast).map Text.stripQuotes) else none

/-- What an operator says of a value that is there. -/
def Operator.judge (op : Operator) (actual : Value) (written : Text) :
    Except Overflow Bool :=
  let operand := Value.text (Text.stripQuotes written)
  match op with
  | .equal => actual.equal operand
  | .greater => do return (← operand.toNumber).lt (← actual.toNumber)
  | .less => do return (← actual.toNumber).lt (← operand.toNumber)
  | .atLeast => do return (← operand.toNumber).le (← actual.toNumber)
  | .atMost => do return (← actual.toNumber).le (← operand.toNumber)
  | .like => do
    return (Pattern.ofText (Text.stripQuotes written)).covers (← actual.asText)
  | .within => do
    return ((listItems? written).getD []).contains (← actual.asText)

/-- Whether a record satisfies a leaf. A field that is missing or null satisfies
none. -/
def Leaf.holds (leaf : Leaf) (r : Record) : Except Overflow Bool :=
  if (r.value leaf.field).isPresent then
    match Operator.ofWritten? leaf.operator with
    | some op => op.judge (r.value leaf.field) leaf.value
    | none => return false
  else return false

/-- Whether a record satisfies the text of a leaf. A text that cannot be read is
satisfied by none. -/
def condition (t : Text) (r : Record) : Except Overflow Bool :=
  match Leaf.read? t with
  | some leaf => leaf.holds r
  | none => return false

end RowSql.Filter

import RowSql.Statement.Basic
import RowSql.Statement.Reader

/-!
# Reading joins

Between the table of a SELECT and its clauses stand any number of joins. The two
columns of a join may be written in either order; the one that belongs to the
joined table goes right.
-/

namespace RowSql.Statement

/-- Whether a qualified column belongs to a table. -/
def belongsTo (table column : Text) : Bool :=
  match Text.cutAt? '.' column with
  | some (owner, _) => owner == table
  | none => false

/-- Puts the two columns of a join in order: the joined table's own goes right.
The second one named is looked at first, and the left one has to be
qualified. -/
def orient? (table first second : Text) : Option (Text × Text) :=
  if belongsTo table second then
    if first.contains '.' then some (first, second) else none
  else if belongsTo table first then
    if second.contains '.' then some (second, first) else none
  else none

/-- How a join opens: its kind, and the cursor before the word JOIN. Any other
word opens none. -/
def joinOpening? (c : Cursor) : Option (JoinKind × Cursor) :=
  let word := upper c.peekWord.1
  if word = "JOIN".toText then some (.inner, c)
  else if word = "INNER".toText then some (.inner, c.popWord.2)
  -- the word OUTER may follow, and makes no difference
  else if word = "LEFT".toText then
    some (.left, (c.popWord.2.consumeWord "OUTER".toText).2)
  else none

/-- Reads a join from its word JOIN on. -/
def readJoin (kind : JoinKind) (c : Cursor) : Except Fault (Join × Cursor) := do
  let c ← passWord "JOIN".toText c
  let (table, c) ← readName false c
  let c ← passWord "ON".toText c
  let (first, c) ← readName true c
  let c ← passText ['='] c
  let (second, c) ← readName true c
  let (left, right) ← required (orient? table first second)
  return (⟨kind, table, left, right⟩, c)

theorem remaining_joinOpening?_le {c d : Cursor} {kind : JoinKind}
    (h : joinOpening? c = some (kind, d)) : d.remaining ≤ c.remaining := by
  simp only [joinOpening?] at h
  split at h
  · cases h; exact Nat.le_refl _
  · split at h
    · cases h; exact c.remaining_popWord_le
    · split at h
      · cases h
        exact Nat.le_trans (Cursor.remaining_consumeWord_le _ _)
          c.remaining_popWord_le
      · cases h

/-- A join uses up some text. -/
theorem remaining_readJoin_lt {c d : Cursor} {kind : JoinKind} {join : Join}
    (h : readJoin kind c = .ok (join, d)) : d.remaining < c.remaining := by
  rw [readJoin] at h
  obtain ⟨c1, h1, h⟩ := bind_eq_ok.1 h
  obtain ⟨⟨table, c2⟩, h2, h⟩ := bind_eq_ok.1 h
  obtain ⟨c3, h3, h⟩ := bind_eq_ok.1 h
  obtain ⟨⟨first, c4⟩, h4, h⟩ := bind_eq_ok.1 h
  obtain ⟨c5, h5, h⟩ := bind_eq_ok.1 h
  obtain ⟨⟨second, c6⟩, h6, h⟩ := bind_eq_ok.1 h
  obtain ⟨⟨left, right⟩, _, h⟩ := bind_eq_ok.1 h
  cases h
  have l1 := remaining_passWord_lt (by decide) h1
  have l2 := remaining_readName_le h2
  have l3 := remaining_passWord_lt (by decide) h3
  have l4 := remaining_readName_le h4
  have l5 := remaining_passText_le h5
  have l6 := remaining_readName_le h6
  omega

/-- Reads joins as long as one opens. The cursor after them has passed the
blanks before the next word. -/
def readJoins (c : Cursor) : Except Fault (List Join × Cursor) :=
  match _h : joinOpening? c with
  | none => .ok ([], c.skipBlanks)
  | some (kind, d) =>
    match _h' : readJoin kind d with
    | .error e => .error e
    | .ok (join, e) => (readJoins e).map fun r => (join :: r.1, r.2)
termination_by c.remaining
decreasing_by
  exact Nat.lt_of_lt_of_le (remaining_readJoin_lt _h')
    (remaining_joinOpening?_le _h)

end RowSql.Statement

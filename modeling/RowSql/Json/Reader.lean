import RowSql.Json.Quoted
import RowSql.Json.Scalar
import RowSql.Record

/-!
# Reading JSON

A text holds one value with space around it. An object that names a member twice
keeps the first place and the last value. What is reported of a text that is not
JSON is the first place, from left to right, where it cannot go on. The readers
of values, items and members call each other at most twice for each character,
which bounds their recursion; values are read as deep as they are nested.
-/

namespace RowSql.Json

mutual

/-- Reads a value from its first character on. -/
def readValue : Nat → Text → Except Fault (Value × Text)
  | 0, t => fail .expectingValue t
  | fuel + 1, t =>
    match t with
    | '"' :: s => (readString (s.length + 1) s).map fun p => (.text p.1, p.2)
    | '[' :: s =>
      match skipSpace s with
      | ']' :: r => .ok (.array [], r)
      | r => (readItems fuel r).map fun p => (.array p.1, p.2)
    | '{' :: s =>
      match skipSpace s with
      | '}' :: r => .ok (.object [], r)
      | r =>
        (readMembers fuel r).map fun p => (.object (Named.setAll [] p.1), p.2)
    | t => readScalar t

/-- Reads the items of an array up to its end. -/
def readItems : Nat → Text → Except Fault (List Value × Text)
  | 0, t => fail .expectingValue t
  | fuel + 1, t =>
    match readValue fuel t with
    | .error e => .error e
    | .ok (item, s) =>
      match skipSpace s with
      | ']' :: r => .ok ([item], r)
      | ',' :: r =>
        (readItems fuel (skipSpace r)).map fun p => (item :: p.1, p.2)
      | r => fail .expectingComma r

/-- Reads the members of an object up to its end. -/
def readMembers : Nat → Text → Except Fault (List (Text × Value) × Text)
  | 0, t => fail .expectingName t
  | fuel + 1, t =>
    match t with
    | '"' :: s =>
      match readString (s.length + 1) s with
      | .error e => .error e
      | .ok (name, s) =>
        match skipSpace s with
        | ':' :: r =>
          match readValue fuel (skipSpace r) with
          | .error e => .error e
          | .ok (item, s) =>
            match skipSpace s with
            | '}' :: r => .ok ([(name, item)], r)
            | ',' :: r =>
              (readMembers fuel (skipSpace r)).map fun p =>
                ((name, item) :: p.1, p.2)
            | r => fail .expectingComma r
        | r => fail .expectingColon r
    | t => fail .expectingName t

end

/-- Reads a text that holds one value. A byte order mark is refused. -/
def read (t : Text) : Except Fault Value :=
  if t.head? = some (.char '\uFEFF') then fail .byteOrderMark t
  else
    match readValue (2 * t.length + 2) (skipSpace t) with
    | .error e => .error e
    | .ok (v, s) =>
      match skipSpace s with
      | [] => .ok v
      | r => fail .extraData r

end RowSql.Json

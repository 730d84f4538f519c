import RowSql.Text.Basic

/-!
# Absolute paths

A path names a file from the root, or from a current directory. Two paths are
taken for the same when they agree after empty and `.` components are left out
and `..` has gone up one component. Exactly two slashes at the beginning are
kept.
-/

namespace RowSql.Shell

/-- Goes through the components of a path, with those passed so far in reverse
order. Above the root there is nothing. -/
def resolve : List Text → List Text → List Text
  | passed, [] => passed.reverse
  | passed, c :: cs =>
    if c = [] ∨ c = ".".toText then resolve passed cs
    else if c = "..".toText then resolve passed.tail cs
    else resolve (c :: passed) cs

/-- The slashes with which an absolute path begins. -/
def rootSlashes : Text → Text
  -- three slashes or more count as one
  | '/' :: '/' :: '/' :: _ => ['/']
  | '/' :: '/' :: _ => ['/', '/']
  | _ => ['/']

/-- A path from a current directory, if it does not begin at the root itself. -/
def fromDirectory (current path : Text) : Text :=
  if path.head? = some (.char '/') then path
  else if current.getLast? = some (.char '/') then current ++ path
  else current ++ .char '/' :: path

/-- The absolute path that a path means in a current directory. -/
def absolutePath (current path : Text) : Text :=
  let full := fromDirectory current path
  rootSlashes full ++ Text.join "/".toText
    (resolve [] (full.splitOn (.char '/')))

end RowSql.Shell

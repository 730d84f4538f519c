import RowSql.Value

/-!
# Records

A record is a list of named values. Its names are distinct and their order
counts: a value set under a name that is there keeps the name's place, and a new
name goes last.
-/

namespace RowSql

/-- Things under names. -/
abbrev Named (α : Type) := List (Text × α)

namespace Named

variable {α : Type}

def names (things : Named α) : List Text :=
  things.map Prod.fst

/-- Sets what is under a name, in its place if it is there and else at the
end. -/
def set (name : Text) (a : α) : Named α → Named α
  | [] => [(name, a)]
  | f :: fs => if f.1 = name then (name, a) :: fs else f :: set name a fs

def get? (name : Text) : Named α → Option α
  | [] => none
  | f :: fs => if f.1 = name then some f.2 else get? name fs

/-- Sets things one after the other: under a repeated name the last one is left,
in the place of the first. -/
def setAll (things more : Named α) : Named α :=
  more.foldl (fun things f => things.set f.1 f.2) things

theorem names_set (name : Text) (a : α) (things : Named α) :
    (things.set name a).names =
      if name ∈ things.names then things.names else things.names ++ [name] := by
  induction things with
  | nil => simp [set, names]
  | cons f fs ih =>
    by_cases h : f.1 = name
    · simp [set, names, h]
    · have h' : ¬ name = f.1 := fun e => h e.symm
      simp only [names] at ih
      simp only [set, names, h, h', if_false, List.map_cons, List.mem_cons,
        false_or, ih]
      split <;> simp [*]

theorem nodup_set {things : Named α} (h : things.names.Nodup) (name : Text)
    (a : α) :
    (things.set name a).names.Nodup := by
  rw [names_set]
  split
  · exact h
  · next hn =>
    rw [List.nodup_append]
    exact ⟨h, by simp, by rintro a ha b hb rfl; simp at hb; exact hn (hb ▸ ha)⟩

theorem nodup_setAll {things : Named α} (h : things.names.Nodup)
    (more : Named α) :
    (things.setAll more).names.Nodup := by
  induction more generalizing things with
  | nil => exact h
  | cons f fs ih => exact ih (nodup_set h f.1 f.2)

end Named

abbrev Fields := Named Value

/-- A list of fields with distinct names. -/
structure Record where
  fields : Fields
  distinct : fields.names.Nodup
deriving DecidableEq

namespace Record

def empty : Record := ⟨[], List.Pairwise.nil⟩

/-- The value under a name, if the record has the name. -/
def get? (r : Record) (name : Text) : Option Value :=
  r.fields.get? name

/-- The value under a name, which is null if the record does not have it. -/
def value (r : Record) (name : Text) : Value :=
  (r.get? name).getD .null

/-- Sets values one after the other. -/
def setAll (r : Record) (fields : Fields) : Record :=
  ⟨r.fields.setAll fields, Named.nodup_setAll r.distinct fields⟩

/-- The record of a list of fields, in which a later value of a name replaces an
earlier one. -/
def ofFields (fields : Fields) : Record :=
  empty.setAll fields

/-- The fields of one record followed by those of another, which wins where both
have a name. -/
def merge (r s : Record) : Record :=
  r.setAll s.fields

/-- A column name qualified by its table. -/
def qualifiedName (table name : Text) : Text :=
  table ++ .char '.' :: name

theorem qualifiedName_inj {table a b : Text}
    (h : qualifiedName table a = qualifiedName table b) :
    a = b := by
  simpa [qualifiedName] using h

/-- Every name qualified by a table. -/
def qualify (r : Record) (table : Text) : Record :=
  ⟨r.fields.map fun f => (qualifiedName table f.1, f.2), by
    have h := r.distinct
    simp only [Named.names, List.map_map, List.Nodup, List.pairwise_map] at h ⊢
    exact h.imp fun hne he => hne (qualifiedName_inj he)⟩

/-- The columns asked for, each once, in the order of their first mention; one
that is not there is null. -/
def project (r : Record) (columns : List Text) : Record :=
  ofFields (columns.map fun name => (name, r.value name))

end Record

end RowSql

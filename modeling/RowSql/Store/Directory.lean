import RowSql.Text.Utf8

/-!
# Directories

A directory holds files under distinct names. The files are kept in the order of
their names, so two directories with the same files are the same directory.
-/

namespace RowSql

/-- Puts a file in its place in a list of files that is ordered by name. -/
def putFile (name : Text) (bytes : Bytes) :
    List (Text × Bytes) → List (Text × Bytes)
  | [] => [(name, bytes)]
  | f :: fs =>
    if f.1 < name then f :: putFile name bytes fs
    else if f.1 = name then (name, bytes) :: fs
    else (name, bytes) :: f :: fs

theorem mem_putFile {name : Text} {bytes : Bytes} {files : List (Text × Bytes)}
    {f : Text × Bytes} (h : f ∈ putFile name bytes files) :
    f = (name, bytes) ∨ f ∈ files := by
  induction files with
  | nil => simpa [putFile] using h
  | cons g gs ih =>
    rw [putFile] at h
    split at h
    · rcases List.mem_cons.1 h with rfl | h
      · exact .inr List.mem_cons_self
      · exact (ih h).imp_right (List.mem_cons_of_mem _)
    · split at h
      · exact (List.mem_cons.1 h).imp_right (List.mem_cons_of_mem _)
      · exact List.mem_cons.1 h

theorem ordered_putFile (name : Text) (bytes : Bytes)
    {files : List (Text × Bytes)} (h : files.Pairwise (·.1 < ·.1)) :
    (putFile name bytes files).Pairwise (·.1 < ·.1) := by
  induction files with
  | nil => exact List.pairwise_singleton _ _
  | cons g gs ih =>
    have hg := List.pairwise_cons.1 h
    rw [putFile]
    split
    · next hlt =>
      refine List.pairwise_cons.2 ⟨fun f hf => ?_, ih hg.2⟩
      rcases mem_putFile hf with rfl | hf
      · exact hlt
      · exact hg.1 f hf
    · next hlt =>
      split
      · next heq =>
          exact List.pairwise_cons.2 ⟨fun f hf => heq ▸ hg.1 f hf, hg.2⟩
      · next hne =>
        have hng : name < g.1 := by
          rcases List.le_iff_lt_or_eq.1 (List.not_lt.1 hlt) with hl | he
          · exact hl
          · exact absurd he.symm hne
        refine List.pairwise_cons.2 ⟨fun f hf => ?_, h⟩
        rcases List.mem_cons.1 hf with rfl | hf
        · exact hng
        · exact List.lt_trans hng (hg.1 f hf)

structure Directory where
  files : List (Text × Bytes)
  ordered : files.Pairwise (·.1 < ·.1)
deriving DecidableEq

namespace Directory

def empty : Directory := ⟨[], List.Pairwise.nil⟩

/-- The contents of the file of a name, if there is one. -/
def read? (dir : Directory) (name : Text) : Option Bytes :=
  dir.files.lookup name

/-- The directory in which the file of a name has new contents. -/
def write (dir : Directory) (name : Text) (bytes : Bytes) : Directory :=
  ⟨putFile name bytes dir.files, ordered_putFile name bytes dir.ordered⟩

/-- The directory in which a file has more at its end; a file that is not there
is begun. -/
def append (dir : Directory) (name : Text) (bytes : Bytes) : Directory :=
  dir.write name ((dir.read? name).getD [] ++ bytes)

/-- The directory without the file of a name. -/
def remove (dir : Directory) (name : Text) : Directory :=
  ⟨dir.files.filter fun f => decide (f.1 ≠ name), dir.ordered.filter _⟩

/-- The directory in which a file has another name, in the place of the file
that had it before. -/
def rename (dir : Directory) (name newName : Text) : Directory :=
  match dir.read? name with
  | some bytes => (dir.remove name).write newName bytes
  | none => dir

def names (dir : Directory) : List Text :=
  dir.files.map Prod.fst

/-- The length of the longest name of a file. -/
def longestName (dir : Directory) : Nat :=
  (dir.names.map List.length).foldr max 0

end Directory

end RowSql

import RowSql.Store.Directory

/-!
# What a directory holds

A directory is known by what is read from it: two of them that answer every name
alike are the same, since the files are kept in the order of their names. So it
is enough to say of each operation what is read afterwards, under the name that
it is about and under any other.
-/

namespace RowSql

variable {files more : List (Text × Bytes)} {name other : Text}

/-! ## Ordered files

A directory keeps its files ordered by name, which makes two directories with
the same files equal. What is looked up behind a greater name is therefore not
there. -/

theorem lookup_eq_none_of_lt (h : ∀ f ∈ files, name < f.1) :
    files.lookup name = none := by
  rw [List.lookup_eq_none_iff]
  intro f hf
  rw [bne_iff_ne]
  rintro rfl
  exact List.lt_irrefl _ (h f hf)

theorem lookup_cons_self (f : Text × Bytes) (fs : List (Text × Bytes)) :
    (f :: fs).lookup f.1 = some f.2 := by
  rw [List.lookup_cons, BEq.rfl]

/-- A name before the first one of files in order is none of theirs. -/
theorem lookup_cons_eq_none {f : Text × Bytes}
    (hfiles : (f :: files).Pairwise (·.1 < ·.1)) (hlt : name < f.1) :
    (f :: files).lookup name = none :=
  lookup_eq_none_of_lt (List.forall_mem_cons.2
    ⟨hlt, fun k hk => List.lt_trans hlt ((List.pairwise_cons.1 hfiles).1 k hk)⟩)

/-- Files in order are determined by what is under each name. -/
theorem eq_of_lookup_eq (hfiles : files.Pairwise (·.1 < ·.1))
    (hmore : more.Pairwise (·.1 < ·.1))
    (h : ∀ name, files.lookup name = more.lookup name) : files = more := by
  induction files generalizing more with
  | nil =>
      cases more with
      | nil => rfl
      | cons g gs =>
          have hg := h g.1
          rw [lookup_cons_self] at hg
          cases hg
  | cons f fs ih =>
      cases more with
      | nil =>
          have hf := h f.1
          rw [lookup_cons_self] at hf
          cases hf
      | cons g gs =>
          -- the first name of either list is a name of the other, and so not
          -- before its first
          have hfg : ¬ f.1 < g.1 := by
            intro hlt
            have hnone := lookup_cons_eq_none hmore hlt
            rw [← h, lookup_cons_self] at hnone
            cases hnone
          have hgf : ¬ g.1 < f.1 := by
            intro hlt
            have hnone := lookup_cons_eq_none hfiles hlt
            rw [h, lookup_cons_self] at hnone
            cases hnone
          obtain ⟨hf, hfs⟩ := List.pairwise_cons.1 hfiles
          obtain ⟨hg, hgs⟩ := List.pairwise_cons.1 hmore
          have hname : f.1 = g.1 :=
            List.le_antisymm (List.not_lt.1 hgf) (List.not_lt.1 hfg)
          have hbytes : f.2 = g.2 := by
            have hsame := h f.1
            rw [lookup_cons_self, hname, lookup_cons_self] at hsame
            exact Option.some.inj hsame
          have htail : fs = gs := by
            refine ih hfs hgs fun name => ?_
            by_cases hn : name = f.1
            · rw [hn, lookup_eq_none_of_lt hf, hname, lookup_eq_none_of_lt hg]
            · have hsame := h name
              rwa [List.lookup_cons, List.lookup_cons, ← hname,
                beq_eq_false_iff_ne.2 hn] at hsame
          rw [Prod.ext hname hbytes, htail]

/-! ## Files put and taken out

The equations of the file operations, each for the name in question and for any
other name. Two directories are equal when reading cannot tell them apart. -/

theorem lookup_putFile (name : Text) (bytes : Bytes)
    (files : List (Text × Bytes)) :
    (putFile name bytes files).lookup name = some bytes := by
  induction files with
  | nil => simp [putFile]
  | cons f fs ih =>
      rw [putFile]
      split
      · next hlt =>
          have hne : (name == f.1) = false := by
            rw [beq_eq_false_iff_ne]
            rintro rfl
            exact List.lt_irrefl f.1 hlt
          rw [List.lookup_cons, hne]
          exact ih
      · split <;> simp

theorem lookup_putFile_of_ne (h : other ≠ name) (bytes : Bytes)
    (files : List (Text × Bytes)) :
    (putFile name bytes files).lookup other = files.lookup other := by
  have hne : (other == name) = false := beq_eq_false_iff_ne.2 h
  induction files with
  | nil => simp [putFile, h]
  | cons f fs ih =>
      rw [putFile]
      split
      · rw [List.lookup_cons, List.lookup_cons, ih]
      · split
        · next heq => rw [List.lookup_cons, List.lookup_cons, heq, hne]
        · rw [List.lookup_cons, hne]

theorem lookup_filter_of_ne (h : other ≠ name) (files : List (Text × Bytes)) :
    (files.filter fun f => decide (f.1 ≠ name)).lookup other =
      files.lookup other := by
  induction files with
  | nil => rfl
  | cons f fs ih =>
      rw [List.filter_cons]
      split
      · rw [List.lookup_cons, List.lookup_cons, ih]
      · next hf =>
          have hname : f.1 = name := by simpa using hf
          rw [List.lookup_cons, hname, beq_eq_false_iff_ne.2 h, ih]

namespace Directory

variable {dir : Directory} {bytes : Bytes}

/-- Directories from which the same is read are the same. -/
theorem ext_read? {a b : Directory} (h : ∀ name, a.read? name = b.read? name) :
    a = b := by
  obtain ⟨files, hfiles⟩ := a
  obtain ⟨more, hmore⟩ := b
  have heq : files = more := eq_of_lookup_eq hfiles hmore h
  subst heq
  rfl

theorem read?_write (dir : Directory) (name : Text) (bytes : Bytes) :
    (dir.write name bytes).read? name = some bytes :=
  lookup_putFile name bytes dir.files

theorem read?_write_of_ne (dir : Directory) (h : other ≠ name) (bytes : Bytes) :
    (dir.write name bytes).read? other = dir.read? other :=
  lookup_putFile_of_ne h bytes dir.files

theorem read?_append (dir : Directory) (name : Text) (bytes : Bytes) :
    (dir.append name bytes).read? name =
      some ((dir.read? name).getD [] ++ bytes) :=
  dir.read?_write name _

theorem read?_append_of_ne (dir : Directory) (h : other ≠ name)
    (bytes : Bytes) :
    (dir.append name bytes).read? other = dir.read? other :=
  dir.read?_write_of_ne h _

theorem read?_remove (dir : Directory) (name : Text) :
    (dir.remove name).read? name = none := by
  rw [read?, remove, List.lookup_eq_none_iff]
  intro f hf
  rw [bne_iff_ne]
  exact fun hn => of_decide_eq_true (List.mem_filter.1 hf).2 hn.symm

theorem read?_remove_of_ne (dir : Directory) (h : other ≠ name) :
    (dir.remove name).read? other = dir.read? other :=
  lookup_filter_of_ne h dir.files

theorem rename_eq {newName : Text} (h : dir.read? name = some bytes) :
    dir.rename name newName = (dir.remove name).write newName bytes := by
  rw [rename, h]

/-! ## Names

A name is listed when there is a file under it. A name longer than all of these
is free. -/

theorem mem_names_iff :
    name ∈ dir.names ↔ ∃ bytes, dir.read? name = some bytes := by
  rw [names, read?]
  induction dir.files with
  | nil => simp
  | cons f fs ih =>
      rw [List.map_cons, List.mem_cons, ih, List.lookup_cons]
      by_cases hn : name = f.1
      · simp [hn]
      · rw [beq_eq_false_iff_ne.2 hn]
        exact or_iff_right hn

theorem le_foldr_max {ks : List Nat} {k : Nat} (h : k ∈ ks) :
    k ≤ ks.foldr max 0 := by
  induction ks with
  | nil => cases h
  | cons n ns ih =>
      rw [List.foldr_cons]
      rcases List.mem_cons.1 h with rfl | h
      · exact Nat.le_max_left _ _
      · exact Nat.le_trans (ih h) (Nat.le_max_right _ _)

/-- No file has a name that is longer than all names. -/
theorem read?_eq_none_of_lt (h : dir.longestName < name.length) :
    dir.read? name = none := by
  cases hread : dir.read? name with
  | none => rfl
  | some bytes =>
      have hmem : name.length ∈ dir.names.map List.length :=
        List.mem_map.2 ⟨name, mem_names_iff.2 ⟨bytes, hread⟩, rfl⟩
      exact absurd (le_foldr_max hmem) (Nat.not_le.2 h)

end Directory

end RowSql

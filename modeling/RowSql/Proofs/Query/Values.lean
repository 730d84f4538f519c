import RowSql.Proofs.Query.Textual

/-!
# What answers are made of

The values in an answer come from the tables that are read, or they are texts of
the statement, or null where a column is missing. Whatever null and all texts
have in common with the values of the tables, the values of the answer have too,
however many tables are joined.
-/

namespace RowSql

variable {p : Value → Prop} {r s : Record}

/-- All values of a record have a property. -/
def Record.Holds (p : Value → Prop) (r : Record) : Prop :=
  ∀ f ∈ r.fields, p f.2

namespace Record

theorem Holds.value (h : r.Holds p) (hnull : p .null) (name : Text) :
    p (r.value name) := by
  rw [Record.value]
  cases hget : r.get? name with
  | none => exact hnull
  | some v => exact h _ (Named.mem_of_get? hget)

theorem holds_ofFields {fields : Fields} (h : ∀ f ∈ fields, p f.2) :
    (ofFields fields).Holds p :=
  fun f hf => h f ((Named.mem_of_mem_setAll hf).resolve_left List.not_mem_nil)

theorem Holds.merge (hr : r.Holds p) (hs : s.Holds p) : (r.merge s).Holds p :=
  fun f hf => (Named.mem_of_mem_setAll hf).elim (hr f) (hs f)

theorem Holds.qualify (h : r.Holds p) (table : Text) :
    (r.qualify table).Holds p :=
  List.forall_mem_map.2 h

theorem Holds.project (h : r.Holds p) (hnull : p .null) (columns : List Text) :
    (r.project columns).Holds p :=
  holds_ofFields (List.forall_mem_map.2 fun name _ => h.value hnull name)

end Record

namespace Query

open Statement

variable {ε : Type} {tables : Tables ε} {rows : List Record}

/-! ## Joins

A row of a join is a row so far, or such a row merged with a qualified row of
the joined table. -/

theorem matching_subset {join : Join} {l : Record} {found : List Record}
    (h : matching join l rows = .ok found) : found ⊆ rows := by
  induction rows generalizing found with
  | nil =>
      cases h
      exact List.Subset.refl []
  | cons r rs ih =>
      obtain ⟨equal, -, h⟩ := bind_eq_ok.1 h
      obtain ⟨others, hothers, h⟩ := bind_eq_ok.1 h
      cases h
      split
      · exact List.cons_subset_cons r (ih hothers)
      · exact List.subset_cons_of_subset r (ih hothers)

theorem holds_extend {kind : JoinKind} {l : Record} (hl : l.Holds p)
    (h : ∀ r ∈ rows, r.Holds p) : ∀ r ∈ extend kind l rows, r.Holds p := by
  cases rows with
  | nil =>
      cases kind with
      | inner => exact nofun
      | left => exact List.forall_mem_singleton.2 hl
  | cons r rs => exact List.forall_mem_map.2 fun s hs => hl.merge (h s hs)

theorem holds_joinRows {join : Join} {right joined : List Record}
    (hright : ∀ r ∈ right, r.Holds p) (hrows : ∀ r ∈ rows, r.Holds p)
    (h : joinRows join right rows = .ok joined) : ∀ r ∈ joined, r.Holds p := by
  induction rows generalizing joined with
  | nil =>
      cases h
      exact nofun
  | cons l ls ih =>
      obtain ⟨hl, hls⟩ := List.forall_mem_cons.1 hrows
      obtain ⟨found, hfound, h⟩ := bind_eq_ok.1 h
      obtain ⟨others, hothers, h⟩ := bind_eq_ok.1 h
      cases h
      exact List.forall_mem_append.2
        ⟨holds_extend hl fun r hr => hright r (matching_subset hfound hr),
          ih hls hothers⟩

theorem holds_qualifyRows (h : ∀ r ∈ rows, r.Holds p) (table : Text) :
    ∀ r ∈ qualifyRows table rows, r.Holds p :=
  List.forall_mem_map.2 fun r hr => (h r hr).qualify table

theorem holds_joinAll
    (htables : ∀ table rows, tables table = .ok rows → ∀ r ∈ rows, r.Holds p)
    {joins : List Join} {joined : List Record} (hrows : ∀ r ∈ rows, r.Holds p)
    (h : joinAll tables joins rows = .ok joined) : ∀ r ∈ joined, r.Holds p := by
  induction joins generalizing rows with
  | nil =>
      cases h
      exact hrows
  | cons join joins ih =>
      obtain ⟨next, hnext, h⟩ := bind_eq_ok.1 h
      obtain ⟨right, hright, hnext⟩ := bind_eq_ok.1 hnext
      have hvalues := htables join.table right (of_mapError_eq_ok hright)
      exact ih (holds_joinRows (holds_qualifyRows hvalues join.table) hrows
        (of_mapError_eq_ok hnext)) h

/-! ## Answers

Filtering, sorting and cutting off only choose among rows, and a projection
takes values from each or fills in null. -/

theorem orderRows_subset {order : Option (Text × Direction)}
    {ordered : List Record} (h : orderRows order rows = .ok ordered) :
    ordered ⊆ rows := by
  cases order with
  | none =>
      cases h
      exact List.Subset.refl rows
  | some order =>
      obtain ⟨_, -, h⟩ := bind_eq_ok.1 h
      cases h
      exact (List.mergeSort_perm rows _).subset

theorem limitRows_subset (limit : Option Int) (rows : List Record) :
    limitRows limit rows ⊆ rows := by
  rw [limitRows.eq_def]
  split
  · exact List.Subset.refl rows
  · exact List.take_subset _ rows
  · exact List.take_subset _ rows

theorem holds_projectRows (hnull : p .null) (columns : List Text)
    (h : ∀ r ∈ rows, r.Holds p) :
    ∀ r ∈ projectRows columns rows, r.Holds p := by
  rw [projectRows]
  split
  · exact h
  · exact List.forall_mem_map.2 fun r hr => (h r hr).project hnull columns

/-- The values in an answer have what the values of the tables, null and all
texts have. -/
theorem holds_of_run (hnull : p .null) (htext : ∀ t, p (.text t))
    (htables : ∀ table rows, tables table = .ok rows → ∀ r ∈ rows, r.Holds p)
    {s : Statement} {o : Outcome} (hrows : ∀ r ∈ rows, r.Holds p)
    (h : run (some tables) s rows = .ok o) :
    ∀ r ∈ o.answer.shown, r.Holds p := by
  cases s with
  | select s =>
      obtain ⟨source, verdicts, ordered, hsource, hverdicts, hordered, rfl⟩ :=
        select_eq_ok_iff.1 h
      have hall : ∀ r ∈ source, r.Holds p := by
        rw [sourceRows.eq_def] at hsource
        split at hsource
        · cases hsource
          exact hrows
        · cases hsource
        · next heq _ =>
            cases heq
            exact holds_joinAll htables
              (holds_qualifyRows hrows s.table) hsource
      refine holds_projectRows hnull s.columns fun r hr => hall r ?_
      exact accepted_subset hverdicts
        (orderRows_subset hordered (limitRows_subset _ _ hr))
  | insert s =>
      cases h
      have hnew :
          ∀ f ∈ (s.columns.zip s.values).map fun f => (f.1, Value.text f.2),
          p f.2 :=
          List.forall_mem_map.2 fun f _ => htext f.2
      exact List.forall_mem_singleton.2 (Record.holds_ofFields hnew)
  | update s =>
      obtain ⟨verdicts, -, h⟩ := bind_eq_ok.1 (of_mapError_eq_ok h)
      cases h
      exact List.forall_mem_nil _
  | delete s =>
      obtain ⟨verdicts, -, h⟩ := bind_eq_ok.1 (of_mapError_eq_ok h)
      cases h
      exact List.forall_mem_nil _

end Query

end RowSql

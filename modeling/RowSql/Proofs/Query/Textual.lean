import RowSql.Proofs.Filter.Leniency
import RowSql.Proofs.Query.Contents

/-!
# Queries on records of texts

Where every record is of texts nothing can go wrong: what is joined, compared or
sorted is a text or is not there, and neither makes a comparison fail.
Qualifying and merging records of texts gives records of texts, so this carries
through any number of joins.
-/

namespace RowSql

/-! ## Records

Setting fields, merging records and qualifying their names make no new values,
so texts are all there is. -/

namespace Record

variable {r s : Record}

theorem IsTextual.setAll (h : r.IsTextual) {fields : Fields}
    (hf : ∀ f ∈ fields, ∃ t, f.2 = .text t) : (r.setAll fields).IsTextual := by
  intro f hmem
  rcases Named.mem_of_mem_setAll hmem with hmem | hmem
  · exact h f hmem
  · exact hf f hmem

theorem IsTextual.merge (hr : r.IsTextual) (hs : s.IsTextual) :
    (r.merge s).IsTextual :=
  hr.setAll hs

theorem IsTextual.qualify (h : r.IsTextual) (table : Text) :
    (r.qualify table).IsTextual := by
  intro f hmem
  obtain ⟨g, hg, rfl⟩ := List.mem_map.1 hmem
  exact h g hg

/-- Values of records of texts can be compared for equality. -/
theorem IsTextual.exists_equal (hr : r.IsTextual) (hs : s.IsTextual)
    (a b : Text) :
    ∃ v, (r.value a).equal (s.value b) = .ok v := by
  rcases hr.value_eq a with ha | ⟨t, ha⟩
  · exact ⟨false, by rw [ha]; rfl⟩
  · rcases hs.value_eq b with hb | ⟨u, hb⟩
    · exact ⟨false, by rw [ha, hb]; rfl⟩
    · rw [ha, hb]
      exact Value.exists_equal_text t u

end Record

namespace Query

variable {ε : Type} {rows : List Record}

/-- Records of texts. -/
def Textual (rows : List Record) : Prop := ∀ r ∈ rows, r.IsTextual

theorem Textual.qualifyRows (h : Textual rows) (table : Text) :
    Textual (qualifyRows table rows) := by
  intro r hr
  obtain ⟨s, hs, rfl⟩ := List.mem_map.1 hr
  exact (h s hs).qualify table

/-! ## Joins

A join asks of values whether they are equal, which never fails for texts, and
its tables are all found. -/

theorem exists_matching (join : Join) {l : Record} (hl : l.IsTextual)
    (h : Textual rows) :
    ∃ found, matching join l rows = .ok found ∧ found ⊆ rows := by
  induction rows with
  | nil => exact ⟨[], rfl, List.Subset.refl _⟩
  | cons r rs ih =>
      obtain ⟨hr, hrs⟩ := List.forall_mem_cons.1 h
      obtain ⟨found, hfound, hsub⟩ := ih hrs
      obtain ⟨v, hv⟩ := hl.exists_equal hr join.leftColumn join.rightColumn
      refine ⟨if v then r :: found
        else found, by rw [matching, hv, hfound]; rfl, ?_⟩
      split
      · exact List.cons_subset_cons r hsub
      · exact List.Subset.trans hsub (List.subset_cons_self r rs)

theorem textual_extend (kind : JoinKind) {l : Record} (hl : l.IsTextual)
    (h : Textual rows) :
    Textual (extend kind l rows) := by
  intro r hr
  cases rows with
  | nil =>
      cases kind with
      | inner => cases hr
      | left => exact List.mem_singleton.1 hr ▸ hl
  | cons s ss =>
      obtain ⟨u, hu, rfl⟩ := List.mem_map.1 hr
      exact hl.merge (h u hu)

theorem exists_joinRows (join : Join) {right : List Record}
    (hright : Textual right) (h : Textual rows) :
    ∃ joined, joinRows join right rows = .ok joined ∧ Textual joined := by
  induction rows with
  | nil => exact ⟨[], rfl, nofun⟩
  | cons l ls ih =>
      obtain ⟨hl, hls⟩ := List.forall_mem_cons.1 h
      obtain ⟨others, hothers, htextual⟩ := ih hls
      obtain ⟨found, hfound, hsub⟩ := exists_matching join hl hright
      refine ⟨extend join.kind l found ++ others,
        by rw [joinRows, hfound, hothers]; rfl, ?_⟩
      have hextend := textual_extend join.kind hl fun r hr => hright r (hsub hr)
      exact List.forall_mem_append.2 ⟨hextend, htextual⟩

variable {lookup : Text → List Record}

theorem exists_joinAll (htables : ∀ table, Textual (lookup table))
    (joins : List Join) (h : Textual rows) :
    ∃ joined, joinAll (ε := ε) (fun table => .ok (lookup table)) joins rows =
      .ok joined ∧
      Textual joined := by
  induction joins generalizing rows with
  | nil => exact ⟨rows, rfl, h⟩
  | cons join joins ih =>
      obtain ⟨next, hnext, htextual⟩ :=
        exists_joinRows join ((htables join.table).qualifyRows join.table) h
      obtain ⟨joined, hjoined, hall⟩ := ih htextual
      refine ⟨joined, ?_, hall⟩
      have hstep :
          joinStep (ε := ε) (fun table => .ok (lookup table)) join rows =
            .ok next := by
        show (joinRows join (qualifyRows join.table (lookup join.table))
          rows).mapError _ = _
        rw [hnext]
        rfl
      rw [joinAll, hstep]
      exact hjoined

theorem exists_sourceRows (htables : ∀ table, Textual (lookup table))
    (s : Select) (h : Textual rows) :
    ∃ source, sourceRows (ε := ε) (some fun table => .ok (lookup table)) s
        rows = .ok source ∧
      Textual source := by
  rw [sourceRows.eq_def]
  cases s.joins with
  | nil => exact ⟨rows, rfl, h⟩
  | cons join joins =>
      exact exists_joinAll htables (join :: joins) (h.qualifyRows s.table)

/-! ## Verdicts and order

Nor does a filter or an order fail on texts. So every statement has an outcome,
and the rows it leaves are texts again. -/

theorem exists_judge (filter : Option Text) (h : Textual rows) :
    ∃ verdicts, judge filter rows = .ok verdicts := by
  induction rows with
  | nil => exact ⟨[], rfl⟩
  | cons r rs ih =>
      obtain ⟨hr, hrs⟩ := List.forall_mem_cons.1 h
      obtain ⟨vs, hvs⟩ := ih hrs
      obtain ⟨v, hv⟩ :
          ∃ v, filter.elim (.ok true) (Filter.holds · r) = .ok v := by
        cases filter with
        | none => exact ⟨true, rfl⟩
        | some f => exact (Filter.holds_eq_ok hr f).imp fun _ hv => hv.1
      exact ⟨(r, v) :: vs, by rw [judge, hv, hvs]; rfl⟩

theorem checkKeys_eq_ok {keys : List Value}
    (h : ∀ v ∈ keys, ∃ x, v.number? = .ok x) :
    checkKeys keys = .ok () := by
  have hall : keys.forM (fun v => do let _ ← v.number?) = Except.ok () := by
    induction keys with
    | nil => rfl
    | cons v vs ih =>
        obtain ⟨⟨x, hx⟩, hvs⟩ := List.forall_mem_cons.1 h
        rw [List.forM, hx]
        exact ih hvs
  rw [checkKeys.eq_def]
  split
  · rfl
  · rfl
  · exact hall

theorem exists_orderRows (order : Option (Text × Direction))
    (h : Textual rows) :
    ∃ ordered, orderRows order rows = .ok ordered := by
  cases order with
  | none => exact ⟨rows, rfl⟩
  | some order =>
      obtain ⟨field, direction⟩ := order
      have hkeys : checkKeys (presentKeys field rows) = .ok () := by
        refine checkKeys_eq_ok fun v hv => ?_
        obtain ⟨r, hr, rfl⟩ := List.mem_map.1 (List.mem_filter.1 hv).1
        rcases (h r hr).value_eq field with hn | ⟨t, ht⟩
        · rw [hn]
          exact ⟨none, rfl⟩
        · rw [ht]
          exact ⟨_, rfl⟩
      exact ⟨_, by rw [orderRows, sortRows, hkeys]; rfl⟩

theorem Textual.of_subset {found : List Record} (h : Textual rows)
    (hs : found ⊆ rows) :
    Textual found :=
  fun r hr => h r (hs hr)

theorem accepted_subset {filter : Option Text} {verdicts : List (Record × Bool)}
    (h : judge filter rows = .ok verdicts) : accepted verdicts ⊆ rows := by
  rw [← map_fst_judge h]
  exact List.map_subset _ List.filter_sublist.subset

/-- A statement runs on records of texts, whatever it is. -/
theorem exists_run (htables : ∀ table, Textual (lookup table)) (s : Statement)
    (h : Textual rows) :
    ∃ o, run (ε := ε) (some fun table => .ok (lookup table)) s rows =
      .ok o := by
  cases s with
  | select s =>
      obtain ⟨source, hsource, htextual⟩ :=
        exists_sourceRows (ε := ε) htables s h
      obtain ⟨verdicts, hverdicts⟩ := exists_judge (selectFilter s) htextual
      obtain ⟨ordered, hordered⟩ :=
        exists_orderRows s.order
          (htextual.of_subset (accepted_subset hverdicts))
      exact ⟨_, select_eq_ok_iff.2 ⟨source, verdicts, ordered, hsource,
        hverdicts, hordered, rfl⟩⟩
  | insert s => exact ⟨_, rfl⟩
  | update s =>
      obtain ⟨verdicts, hverdicts⟩ := exists_judge s.filter h
      exact ⟨_, by rw [run, update, hverdicts]; rfl⟩
  | delete s =>
      obtain ⟨verdicts, hverdicts⟩ := exists_judge s.filter h
      exact ⟨_, by rw [run, delete, hverdicts]; rfl⟩

/-- What a statement accounts for, where it found records of texts, is of
texts. -/
theorem isTextual_of_accounts {s : Statement} (h : Textual rows) {r : Record}
    (hr : Accounts s rows r) : r.IsTextual := by
  intro f hf
  rcases hr f hf with ⟨r', hr', hf'⟩ | ⟨w, _, rfl⟩
  · exact h r' hr' f hf'
  · exact ⟨w.2, rfl⟩

end Query

end RowSql

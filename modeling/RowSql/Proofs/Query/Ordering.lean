import Mathlib.Data.List.Basic
import RowSql.Proofs.Comparison
import RowSql.Proofs.Query.Textual

/-!
# Ordered rows

The rows of a SELECT are sorted by a merge sort, which is right for any
comparison that is a total preorder. Comparing values is none, but it is one on
the values that are there to be sorted when these are of one kind, and what a
sort does depends only on how the members of the list compare. So everything
known of the sort is first carried over to a preorder on members. In either
direction rows that compare equal may stand in either order, which is why they
stay in the order they came in; descending order is the sort by the opposite
comparison and not the ascending order turned round.
-/

namespace RowSql

/-! ## Sorting by a preorder on the members of a list

A merge sort is known to sort by a comparison that is total and transitive on
all values. The comparison of rows is so only on the rows that are there, so the
list is sorted with each member's proof of being one. -/

section

variable {α : Type} {le : α → α → Bool} {l : List α}

/-- A comparison is a total preorder on the members of a list. -/
structure OrdersMembers (le : α → α → Bool) (l : List α) : Prop where
  total : ∀ a ∈ l, ∀ b ∈ l, le a b = true ∨ le b a = true
  trans : ∀ a ∈ l, ∀ b ∈ l, ∀ c ∈ l, le a b = true → le b c = true →
    le a c = true

/-- Sorting looks at the members of the list and at nothing else. -/
theorem map_mergeSort_attach (le : α → α → Bool) (l : List α) :
    (l.attach.mergeSort fun a b => le a.1 b.1).map Subtype.val =
      l.mergeSort le := by
  rw [List.map_mergeSort (s := le) fun _ _ _ _ => rfl,
    List.attach_map_subtype_val]

theorem OrdersMembers.total_attach (h : OrdersMembers le l)
    (a b : { a // a ∈ l }) :
    (le a b || le b a) = true :=
  Bool.or_eq_true_iff.2 (h.total a a.2 b b.2)

theorem OrdersMembers.trans_attach (h : OrdersMembers le l)
    (a b c : { a // a ∈ l }) :
    le a b = true → le b c = true → le a c = true :=
  h.trans a a.2 b b.2 c c.2

theorem OrdersMembers.pairwise_mergeSort (h : OrdersMembers le l) :
    (l.mergeSort le).Pairwise fun a b => le a b = true := by
  rw [← map_mergeSort_attach, List.pairwise_map]
  exact List.pairwise_mergeSort h.trans_attach h.total_attach l.attach

theorem OrdersMembers.sublist_mergeSort (h : OrdersMembers le l) {c : List α}
    (hc : c.Pairwise fun a b => le a b = true) (hsub : c.Sublist l) :
    c.Sublist (l.mergeSort le) := by
  rw [← List.attach_map_subtype_val l] at hsub
  obtain ⟨c', hsub', rfl⟩ := List.sublist_map_iff.1 hsub
  rw [← map_mergeSort_attach]
  exact (List.sublist_mergeSort h.trans_attach h.total_attach
    (List.pairwise_map.1 hc) hsub').map _

/-- Members that may stand in either order are left in the order they are in. -/
theorem OrdersMembers.filter_mergeSort (h : OrdersMembers le l) {p : α → Bool}
    (hp : ∀ a ∈ l, ∀ b ∈ l, p a = true → p b = true → le a b = true) :
    (l.mergeSort le).filter p = l.filter p := by
  have hpair : (l.filter p).Pairwise fun a b => le a b = true := by
    refine List.pairwise_of_forall_mem_list fun a ha b hb => ?_
    rw [List.mem_filter] at ha hb
    exact hp a ha.1 b hb.1 ha.2 hb.2
  have hsub := (h.sublist_mergeSort hpair List.filter_sublist).filter p
  simp only [List.filter_filter, Bool.and_self] at hsub
  have hlength := ((List.mergeSort_perm l le).filter p).length_eq
  exact (hsub.eq_of_length hlength.symm).symm

/-- A list in which nothing of a kind comes behind the rest is that kind and
then the rest. -/
theorem eq_filter_append_filter {p : α → Bool}
    (h : l.Pairwise fun a b => p b = true → p a = true) :
    l = l.filter p ++ l.filter fun a => !p a := by
  induction l with
  | nil => rfl
  | cons a l ih =>
      rw [List.pairwise_cons] at h
      cases hpa : p a with
      | true => simp [hpa, ← ih h.2]
      | false =>
          have hnone : l.filter p = [] := by
            rw [List.filter_eq_nil_iff]
            intro b hb hpb
            rw [h.1 b hb hpb] at hpa
            cases hpa
          have hrest := ih h.2
          rw [hnone, List.nil_append] at hrest
          simp [hpa, hnone, ← hrest]

end

/-! ## Rows

For two rows the comparison is that of their keys, in the direction that was
asked for, and rows without a key are all alike. -/

/-- In a direction one value may stand in front of another. -/
def Direction.Allows (direction : Direction) (a b : Value) : Prop :=
  match direction with
  | .ascending => a.NotAfter b
  | .descending => b.NotAfter a

namespace Query

variable {ε : Type} {field : Text} {direction : Direction}
  {rows ordered : List Record}

/-- Rows that come of others by ordering them. -/
structure IsOrdered (field : Text) (direction : Direction)
    (rows ordered : List Record) : Prop where
  perm : ordered.Perm rows
  sorted :
      ordered.Pairwise fun r s =>
        direction.Allows (r.value field) (s.value field)
  stable : ∀ r ∈ rows,
    ordered.filter
      (fun s => (r.value field).compare (s.value field) = .ok .eq) =
      rows.filter fun s => (r.value field).compare (s.value field) = .ok .eq
  missing : ∃ present : List Record, (∀ r ∈ present, r.value field ≠ .null) ∧
    ordered = match direction with
      | .ascending => present ++ rows.filter fun r => r.value field = .null
      | .descending => (rows.filter fun r => r.value field = .null) ++ present

/-- The value of a row in the field is one of the keys, or null. -/
def IsKey (field : Text) (rows : List Record) (v : Value) : Prop :=
  v ∈ presentKeys field rows ∨ v = .null

theorem isKey_value {r : Record} (h : r ∈ rows) :
    IsKey field rows (r.value field) := by
  cases hpresent : (r.value field).isPresent with
  | true => exact .inl (List.mem_filter.2 ⟨List.mem_map_of_mem h, hpresent⟩)
  | false => exact .inr (Value.isPresent_eq_false_iff.1 hpresent)

theorem preordered_isKey (h : Value.Uniform (presentKeys field rows)) :
    Value.Preordered (IsKey field rows) := by
  refine h.preordered fun v hv => ?_
  rintro rfl
  exact Bool.false_ne_true (List.mem_filter.1 hv).2

theorem inOrder_iff {a b : Value} {o : Ordering} (h : a.compare b = .ok o)
    (h' : b.compare a = .ok o.swap) :
    inOrder direction a b = true ↔ direction.Allows a b := by
  have hnot {a b : Value} {o : Ordering} (h : a.compare b = .ok o) :
      ((a.compare b).toOption != some .gt) = true ↔ a.NotAfter b := by
    rw [Value.NotAfter, h, bne_iff_ne]
    constructor
    · exact fun hne => ⟨o, rfl, fun heq => hne (congrArg some heq)⟩
    · rintro ⟨o', ho', hne⟩ heq
      exact hne (Except.ok.inj ho' ▸ Option.some.inj heq)
  cases direction with
  | ascending => exact hnot h
  | descending => exact hnot h'

theorem inOrder_iff_allows (h : Value.Preordered (IsKey field rows))
    {r s : Record} (hr : r ∈ rows) (hs : s ∈ rows) :
    inOrder direction (r.value field) (s.value field) = true ↔
      direction.Allows (r.value field) (s.value field) := by
  obtain ⟨o, ho, ho'⟩ := h.swap _ _ (isKey_value hr) (isKey_value hs)
  exact inOrder_iff ho ho'

theorem ordersMembers_inOrder (direction : Direction)
    (h : Value.Preordered (IsKey field rows)) :
    OrdersMembers (fun r s => inOrder direction (r.value field) (s.value field))
        rows := by
  constructor
  · intro r hr s hs
    rw [inOrder_iff_allows h hr hs, inOrder_iff_allows h hs hr]
    cases direction with
    | ascending => exact h.total _ _ (isKey_value hr) (isKey_value hs)
    | descending => exact h.total _ _ (isKey_value hs) (isKey_value hr)
  · intro r hr s hs t ht
    rw [inOrder_iff_allows h hr hs, inOrder_iff_allows h hs ht,
      inOrder_iff_allows h hr ht]
    cases direction with
    | ascending =>
        exact h.trans _ _ _ (isKey_value hr) (isKey_value hs) (isKey_value ht)
    | descending =>
        intro hsr hts
        exact h.trans _ _ _ (isKey_value ht) (isKey_value hs)
          (isKey_value hr) hts hsr

/-- A row without a value stands in front of another in descending order
only. -/
theorem value_eq_null_of_allows {r s : Record}
    (h : direction.Allows (r.value field) (s.value field)) :
    match direction with
    | .ascending => r.value field = .null → s.value field = .null
    | .descending => s.value field = .null → r.value field = .null := by
  have hnull {a b : Value} (h : a.NotAfter b) (ha : a = .null) : b = .null := by
    by_contra hb
    obtain ⟨o, ho, hne⟩ := h
    rw [ha, Value.compare_null_left hb] at ho
    exact hne (Except.ok.inj ho).symm
  cases direction with
  | ascending => exact hnull h
  | descending => exact hnull h

/-- Rows in order are those that have a value and those that have none, or the
other way round. -/
theorem exists_present
    (h : ordered.Pairwise fun r s =>
      direction.Allows (r.value field) (s.value field)) :
    ∃ present : List Record, (∀ r ∈ present, r.value field ≠ .null) ∧
      ordered = match direction with
        | .ascending => present ++ ordered.filter fun r => r.value field = .null
        | .descending =>
            (ordered.filter fun r => r.value field = .null) ++ present := by
  refine ⟨ordered.filter fun r => r.value field ≠ .null, fun r hr => ?_, ?_⟩
  · exact of_decide_eq_true (List.mem_filter.1 hr).2
  · cases direction with
    | ascending =>
        have happend :=
          eq_filter_append_filter (p := fun r => r.value field ≠ .null)
            (h.imp ?_)
        · simpa using happend
        · intro r s hrs
          simpa using mt (value_eq_null_of_allows hrs)
    | descending =>
        have happend :=
          eq_filter_append_filter (p := fun r => r.value field = .null)
            (h.imp ?_)
        · simpa using happend
        · intro r s hrs
          simpa using value_eq_null_of_allows hrs

theorem pairwise_mergeSort_inOrder (direction : Direction)
    (h : Value.Preordered (IsKey field rows)) :
    (rows.mergeSort fun r s =>
      inOrder direction (r.value field) (s.value field)).Pairwise
      fun r s => direction.Allows (r.value field) (s.value field) := by
  refine (ordersMembers_inOrder direction h).pairwise_mergeSort.imp_of_mem
    fun hr hs hrs => ?_
  rw [List.mem_mergeSort] at hr hs
  exact (inOrder_iff_allows h hr hs).1 hrs

/-- Rows of which none need come behind another are left in the order they are
in, whatever the direction. -/
theorem filter_mergeSort_inOrder (direction : Direction)
    (h : Value.Preordered (IsKey field rows)) {p : Record → Bool}
    (hp : ∀ r ∈ rows, ∀ s ∈ rows, p r = true → p s = true →
      (r.value field).NotAfter (s.value field)) :
    (rows.mergeSort fun r s =>
      inOrder direction (r.value field) (s.value field)).filter p =
      rows.filter p := by
  refine (ordersMembers_inOrder direction h).filter_mergeSort fun r hr s hs hpr
    hps => ?_
  rw [inOrder_iff_allows h hr hs]
  cases direction with
  | ascending => exact hp r hr s hs hpr hps
  | descending => exact hp s hs r hr hps hpr

theorem isOrdered_mergeSort (direction : Direction)
    (h : Value.Preordered (IsKey field rows)) :
    IsOrdered field direction rows
      (rows.mergeSort fun r s =>
        inOrder direction (r.value field) (s.value field)) where
  perm := List.mergeSort_perm rows _
  sorted := pairwise_mergeSort_inOrder direction h
  stable r hr := by
    refine filter_mergeSort_inOrder direction h fun s hs t ht hrs hrt => ?_
    obtain ⟨o, ho, ho'⟩ := h.swap _ _ (isKey_value hr) (isKey_value hs)
    rw [of_decide_eq_true hrs] at ho
    cases ho
    exact h.trans _ _ _ (isKey_value hs) (isKey_value hr) (isKey_value ht) ⟨.eq,
      ho', nofun⟩
      ⟨.eq, of_decide_eq_true hrt, nofun⟩
  missing := by
    obtain ⟨present, hpresent, happend⟩ :=
      exists_present (pairwise_mergeSort_inOrder direction h)
    rw [filter_mergeSort_inOrder direction h fun r _ s _ hr hs => ?_] at happend
    · exact ⟨present, hpresent, happend⟩
    · rw [of_decide_eq_true hr, of_decide_eq_true hs]
      exact ⟨.eq, rfl, nofun⟩

theorem exists_sortRows (direction : Direction)
    (h : Value.Uniform (presentKeys field rows)) :
    ∃ ordered, sortRows field direction rows = .ok ordered ∧
      IsOrdered field direction rows ordered := by
  have hkeys : checkKeys (presentKeys field rows) = .ok () := by
    refine checkKeys_eq_ok fun v hv => ?_
    rcases h with h | h
    · exact (h v hv).imp' some fun _ hx => hx
    · exact ⟨none, h v hv⟩
  exact ⟨_,
    by
    rw [sortRows, hkeys]; rfl,
      isOrdered_mergeSort direction (preordered_isKey h)⟩

/-! ## Statements

The order is taken of the rows that the filter has left, and the limit and the
projection come behind it. So where the keys are of one kind the result is known
up to these. -/

variable {tables : Option (Tables ε)} {s : Select}

theorem projectRows_take (columns : List Text) (rows : List Record) (n : Nat) :
    projectRows columns (rows.take n) = (projectRows columns rows).take n := by
  rw [projectRows, projectRows]
  split
  · rfl
  · exact List.map_take

/-- A SELECT whose keys are of one kind gives the rows that its filter leaves in
order: the comparison is a total preorder on the keys, rows that compare equal
stay as they were, and rows without a value are last or first. A limit takes the
first of them. -/
theorem run_ordered {filtered : List Record}
    (hfiltered : run tables
      (.select { s with columns := ["*".toText], order := none, limit := none })
          rows =
        .ok ⟨.rows filtered, none⟩)
    (hkeys : Value.Uniform (presentKeys field filtered)) :
    Value.Preordered (IsKey field filtered) ∧
      ∃ ordered, IsOrdered field direction filtered ordered ∧
        run tables (.select { s with
          order := some (field, direction), limit := none }) rows =
          .ok ⟨.rows (projectRows s.columns ordered), none⟩ ∧
        ∀ n : Nat,
          run tables (.select { s with
            order := some (field, direction), limit := some n }) rows =
            .ok ⟨.rows ((projectRows s.columns ordered).take n), none⟩ := by
  obtain ⟨source, verdicts, _, hsource, hverdicts, hnone, ho⟩ :=
    select_eq_ok_iff.1 hfiltered
  cases hnone
  have hrows : filtered = accepted verdicts := by
    injection ho with hanswer
    exact Answer.rows.inj hanswer
  obtain ⟨ordered, hordered, hisOrdered⟩ := exists_sortRows direction hkeys
  rw [hrows] at hordered
  refine ⟨preordered_isKey hkeys, ordered, hisOrdered, ?_, fun n => ?_⟩
  · exact select_eq_ok_iff.2 ⟨source, verdicts, ordered, hsource, hverdicts,
      hordered, rfl⟩
  · rw [← projectRows_take]
    exact select_eq_ok_iff.2 ⟨source, verdicts, ordered, hsource, hverdicts,
      hordered, rfl⟩

/-- A row with a name, and fields besides. -/
def namedRow (name : String) (fields : Fields) : Record :=
  .ofFields (("name".toText, .text name.toText) :: fields)

/-- Rows with numbers of all kinds, two of them equal, and rows without a
number, one of which the filter below leaves out. -/
def unsorted : List Record :=
  [namedRow "a" [("n".toText, .integer 2)],
    namedRow "b" [],
    namedRow "c" [("n".toText, .text "10".toText)],
    namedRow "out" [("n".toText, .text "x".toText)],
    namedRow "d" [("n".toText, .text " 2.0 ".toText)],
    namedRow "e" [("n".toText, .boolean true)],
    namedRow "f" [("n".toText, .null)],
    namedRow "g" [("n".toText, .double (.ofDecimal false 15 (-1)))]]

def sortable : List Record :=
  unsorted.filter fun r => r.value "name".toText ≠ .text "out".toText

/-- The names of the rows with a name of one letter. -/
def oneLetter : Select where
  table := "t".toText
  columns := ["name".toText]
  filter := some "name LIKE _".toText
  order := none
  limit := none
  joins := []

theorem run_ordered_unsorted :
    Value.Preordered (IsKey "n".toText sortable) ∧
      ∃ ordered, IsOrdered "n".toText .descending sortable ordered ∧
        run (ε := Empty) none
            (.select { oneLetter with
              order := some ("n".toText, .descending), limit := none })
            unsorted =
          .ok ⟨.rows (projectRows ["name".toText] ordered), none⟩ ∧
        ∀ n : Nat,
          run (ε := Empty) none
              (.select { oneLetter with
                order := some ("n".toText, .descending), limit := some n })
              unsorted =
            .ok ⟨.rows ((projectRows ["name".toText] ordered).take n), none⟩ :=
  run_ordered (s := oneLetter) (by decide +kernel) (by decide +kernel)

end Query

end RowSql

import RowSql.Proofs.Statement.Printing
import RowSql.Proofs.Statement.Shapes

/-!
# What an accepted SELECT is like

Reading a SELECT takes its text apart: the columns before the first word FROM,
the table, the joins, and what the rest is split into. Whatever has been read in
this way is well formed, and each of its clauses stands in the text with a body
that means it.
-/

namespace RowSql

open Text

theorem mem_of_lookup_eq_some {α β : Type} [BEq α] [LawfulBEq α]
    {l : List (α × β)} {a : α} {b : β} (h : l.lookup a = some b) :
    (a, b) ∈ l := by
  obtain ⟨l₁, l₂, rfl, _⟩ := List.lookup_eq_some_iff.1 h
  simp

namespace Statement

variable {t : Text} {s : Select} {bodies : List (Clause × Text)}

/-- A clause that is there is read from its body, and nothing is read of one
that is not. -/
theorem readClause_eq_ok_iff {α : Type} {clause : Clause}
    {read : Text → Except Fault α} {o : Option α} :
    readClause bodies clause read = .ok o ↔
      (bodies.lookup clause = none ∧ o = none) ∨
        ∃ body a, bodies.lookup clause = some body ∧ read body = .ok a ∧
          o = some a := by
  rw [readClause]
  cases bodies.lookup clause with
  | none => simp [eq_comm]
  | some body =>
      cases hread : read body with
      | error e => simp [Except.map, hread]
      | ok a => simp [Except.map, hread, eq_comm]

theorem readColumns?_eq_some_iff {columns : List Text} :
    readColumns? t = some columns ↔
      columns = (t.splitOn (.char ',')).map trim ∧ [] ∉ columns := by
  simp only [readColumns?, List.contains_eq_mem, decide_eq_true_eq]
  split
  · next h =>
      simp only [reduceCtorEq, false_iff, not_and, not_not]
      exact fun hc => hc ▸ h
  · next h =>
      rw [Option.some.injEq, eq_comm]
      exact ⟨fun hc => ⟨hc, hc ▸ h⟩, And.left⟩

/-- The columns that are read of a text stand before the first word FROM in
it. -/
def ColumnsOf (t : Text) (columns : List Text) : Prop :=
  ∃ cs x r, t = cs ++ (x ++ r) ∧ Clause.source.Unseen .start true (x ++ r) cs ∧
    (Scan.start.run cs).atTop = true ∧ Clause.freeAfter true cs = true ∧
    Clause.source.Spelled x ∧
      readColumns? cs = some columns

/-- The clauses that a SELECT has mean what stands in the bodies of the same
clauses. -/
structure ClausesOf (bodies : List (Clause × Text)) (s : Select) : Prop where
  filter : bodies.lookup .filter = s.filter
  order : (readClause bodies .order fun body => required (readOrder? body)) =
    .ok s.order
  limit : ∃ limit, readClause bodies .limit readLimit = .ok limit ∧
    s.limit = limit.map Int.ofNat

/-- What a text is taken apart into when it is read as a SELECT. -/
structure ReadFrom (t : Text) (s : Select) : Prop where
  columns : ColumnsOf (t.drop Kind.select.word.length) s.columns
  table : IsName s.table
  joins : ∀ j ∈ s.joins, j.IsReadable
  clauses : ∃ u bodies, u <:+ t ∧ FlushLeft u ∧
    Clause.split? selectClauses u = some bodies ∧
    ClausesOf bodies s

theorem readFrom_of_readSelect (h : readSelect t = .ok s) : ReadFrom t s := by
  rw [readSelect] at h
  obtain ⟨⟨start, stop⟩, hfind, h⟩ := bind_eq_ok.1 h
  obtain ⟨columns, hcolumns, h⟩ := bind_eq_ok.1 h
  obtain ⟨⟨table, c⟩, hname, h⟩ := bind_eq_ok.1 h
  obtain ⟨⟨joins, d⟩, hjoins, h⟩ := bind_eq_ok.1 h
  obtain ⟨bodies, hbodies, h⟩ := bind_eq_ok.1 h
  obtain ⟨order, horder, h⟩ := bind_eq_ok.1 h
  obtain ⟨limit, hlimit, h⟩ := bind_eq_ok.1 h
  cases h
  obtain ⟨hreadable, hsuffix, hflush⟩ := isReadable_of_readJoins hjoins
  obtain ⟨cs, x, r, hsplit, hunseen, htop, hfree, hx, _, rfl, _⟩ :=
    Clause.exists_of_find? (required_eq_ok hfind)
  refine ⟨⟨cs, x, r, hsplit, hunseen, htop, hfree, hx, ?_⟩,
    isName_of_readName hname, hreadable,
    d.rest, bodies, ?_, hflush, required_eq_ok hbodies, rfl, horder, limit,
    hlimit, rfl⟩
  · have hread := required_eq_ok hcolumns
    rwa [hsplit, List.take_left] at hread
  · exact hsuffix.trans
      ((readName_suffix hname).trans ((Cursor.rest_advance_suffix _ _).trans
      (List.drop_suffix _ t)))

theorem trimmed_of_split? {clauses : List Clause} {u : Text}
    (h : Clause.split? clauses u = some bodies) :
    ∀ p ∈ bodies, p.2 ≠ [] ∧ Trimmed p.2 := by
  obtain ⟨g, _, hwritten, _⟩ := Clause.split?_eq_some_iff.1 h
  exact hwritten.trimmed

section

variable (hbodies : ∀ p ∈ bodies, p.2 ≠ [] ∧ Trimmed p.2)
  (h : ClausesOf bodies s)

include hbodies h

theorem ClausesOf.isFilter : ∀ w ∈ s.filter, IsFilter w := by
  intro w hw
  obtain ⟨hne, htrim⟩ := hbodies _ (mem_of_lookup_eq_some (h.filter.trans hw))
  exact ⟨hne, htrim⟩

theorem ClausesOf.orders : (bodies.lookup .order = none ∧ s.order = none) ∨
    ∃ body o, bodies.lookup .order = some body ∧ Orders body o ∧
      s.order = some o := by
  rcases readClause_eq_ok_iff.1 h.order with hnone | ⟨body, o, hbody, hread, ho⟩
  · exact .inl hnone
  · have htrim := (hbodies _ (mem_of_lookup_eq_some hbody)).2
    exact .inr ⟨body, o, hbody,
      (readOrder?_eq_some_iff htrim).1 (required_eq_ok hread), ho⟩

theorem ClausesOf.digits : (bodies.lookup .limit = none ∧ s.limit = none) ∨
    ∃ body n, bodies.lookup .limit = some body ∧ Digits body n ∧ body ≠ [] ∧
      body.length ≤ digitLimit ∧ s.limit = some (.ofNat n) := by
  obtain ⟨limit, hlimit, hs⟩ := h.limit
  rcases readClause_eq_ok_iff.1 hlimit with ⟨hnone, rfl⟩ |
    ⟨body, n, hbody, hread, rfl⟩
  · exact .inl ⟨hnone, hs⟩
  · obtain ⟨hdigits, hshort⟩ := readLimit_eq_ok_iff.1 hread
    have hne := (hbodies _ (mem_of_lookup_eq_some hbody)).1
    exact .inr ⟨body, n, hbody, hdigits, hne, hshort, hs⟩

end

/-- A number has no more digits than any of its spellings. -/
theorem Digits.length_le {body : Text} {n : Nat} (h : Digits body n)
    (hne : body ≠ []) :
    (decimalDigits n).length ≤ body.length := by
  obtain ⟨ds, hds, rfl, rfl⟩ := h
  rw [List.length_map]
  refine length_decimalDigits_le (List.length_pos_iff.2 ?_) (ofDigits_lt hds)
  rintro rfl
  exact hne rfl

theorem ReadFrom.isWellFormed (h : ReadFrom t s) : s.IsWellFormed := by
  obtain ⟨u, bodies, _, _, hsplit, hclauses⟩ := h.clauses
  have hbodies := trimmed_of_split? hsplit
  obtain ⟨cs, _, _, _, _, _, _, _, hread⟩ := h.columns
  obtain ⟨hcolumns, hnil⟩ := readColumns?_eq_some_iff.1 hread
  refine ⟨h.table, ?_, fun c hc => ?_, h.joins, hclauses.isFilter hbodies,
    fun o ho => ?_, fun n hn => ?_⟩
  · rw [hcolumns]
    exact fun hn => List.splitOn_ne_nil _ cs (List.map_eq_nil_iff.1 hn)
  · refine ⟨fun hn => hnil (hn ▸ hc), ?_⟩
    rw [hcolumns] at hc
    obtain ⟨p, hp, rfl⟩ := List.mem_map.1 hc
    exact ⟨trimmed_trim p,
      fun hmem => (of_mem_splitOn hp).1 (trim_subset p hmem)⟩
  · rcases hclauses.orders hbodies with ⟨_, hnone⟩ |
      ⟨body, o', _, horders, hsome⟩
    · rw [hnone] at ho
      cases ho
    · rw [hsome] at ho
      cases ho
      exact horders.isField
  · rcases hclauses.digits hbodies with ⟨_, hnone⟩ |
      ⟨body, m, _, hdigits, hne, hshort, hsome⟩
    · rw [hnone] at hn
      cases hn
    · rw [hsome] at hn
      cases hn
      exact ⟨Int.natCast_nonneg m, Nat.le_trans (hdigits.length_le hne) hshort⟩

end Statement

end RowSql

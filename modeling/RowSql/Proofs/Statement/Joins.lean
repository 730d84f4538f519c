import RowSql.Proofs.Statement.Sections
import RowSql.Proofs.Statement.Cursor
import RowSql.Proofs.Text.Items
import RowSql.Statement.JoinReader

/-!
# Reading joins that were written

Joins are written one after the other, each with its own column on the right,
and are read back as long as what stands behind them opens no further one. The
word of a clause opens none.
-/

namespace RowSql

open Text

/-- The word for a kind of join. -/
def JoinKind.word : JoinKind → Text
  | .inner => "INNER".toText
  | .left => "LEFT".toText

/-- A join behind the word for its kind. -/
def Join.body (j : Join) : Text :=
  "JOIN ".toText ++
    (j.table ++
      (" ON ".toText ++ (j.leftColumn ++ (" = ".toText ++ j.rightColumn))))

/-- Joins, each behind a space. -/
def Join.text : List Join → Text
  | [] => []
  | j :: js => .char ' ' :: (j.kind.word ++ (.char ' ' :: (j.body ++ text js)))

/-- A join whose right column is one of its table, and whose left column is one
of any. -/
structure Join.IsReadable (j : Join) : Prop where
  table : Statement.IsName j.table
  left : Statement.IsField j.leftColumn
  qualified : .char '.' ∈ j.leftColumn
  right : ∃ m, j.rightColumn = j.table ++ .char '.' :: m ∧ ∀ c ∈ m,
    isFieldChar c = true

namespace Statement

variable {c d e : Cursor} {j : Join} {js : List Join} {r : Text}

/-! ## One join

A join is read word by word. The two columns may be in either order, and of a
join that was written the right one is its own table's. -/

theorem orient?_of_isReadable (h : j.IsReadable) :
    orient? j.table j.leftColumn j.rightColumn =
      some (j.leftColumn, j.rightColumn) := by
  obtain ⟨m, hm, _⟩ := h.right
  have hdot : CodePoint.char '.' ∉ j.table := fun hmem =>
    absurd (h.table.word _ hmem) (by decide)
  have hbelongs : belongsTo j.table j.rightColumn = true := by
    rw [belongsTo, hm, cutAt?_append hdot]
    exact beq_self_eq_true _
  have hqualified : j.leftColumn.contains '.' = true :=
    List.contains_iff_mem.2 h.qualified
  rw [orient?, if_pos hbelongs, if_pos hqualified]

theorem isField_right (h : j.IsReadable) : IsField j.rightColumn := by
  obtain ⟨m, hm, hfield⟩ := h.right
  rw [hm]
  refine ⟨List.append_ne_nil_of_right_ne_nil _ (List.cons_ne_nil _ _), ?_⟩
  refine List.forall_mem_append.2 ⟨h.table.isField.field,
    List.forall_mem_cons.2 ⟨by decide, hfield⟩⟩

/-- Joins end with a column. -/
theorem flushRight_joins {js : List Join} (h : ∀ j ∈ js, j.IsReadable) :
    FlushRight (Join.text js) := by
  induction js with
  | nil => exact flushRight_nil
  | cons j js ih =>
      rw [List.forall_mem_cons] at h
      have hright := isField_right h.1
      have hsplit :
          Join.text (j :: js) = [.char ' '] ++ (j.kind.word ++ ([.char ' '] ++
            ("JOIN ".toText ++
              (j.table ++
                (" ON ".toText ++ (j.leftColumn ++ " = ".toText)))))) ++
              j.rightColumn ++ Join.text js := by
        rw [Join.text, Join.body]
        simp only [List.append_assoc, List.cons_append, List.nil_append]
      rw [hsplit]
      refine FlushRight.append ?_ (ih h.2)
      exact (flushRight_append hright.ne_nil).2
        (trimmed_of_solid hright.solid).last

/-- A join is read from its word JOIN on. -/
theorem readJoin_of_rest (h : trimLeft c.rest = j.body ++ r) (hj : j.IsReadable)
    (hr : NameEnds r) : ∃ d, readJoin j.kind c = .ok (j, d) ∧ d.rest = r := by
  have hjoin :
      trimLeft c.rest =
        "JOIN".toText ++ (.char ' ' :: (j.table ++ (" ON ".toText ++
        (j.leftColumn ++ (" = ".toText ++ (j.rightColumn ++ r)))))) := by
    rw [h, Join.body]
    simp only [List.append_assoc]
    rfl
  obtain ⟨c1, h1, hrest1⟩ := passWord_of_rest hjoin (by decide) (by decide)
    (not_word_of_bounded (bounded_cons.2 (by decide)))
  obtain ⟨c2, h2, hrest2⟩ := readName_of_blank false hrest1 hj.table
    (nameEnds_of_bounded (bounded_cons.2 (by decide)))
  have hon :
      trimLeft c2.rest =
        "ON".toText ++ (.char ' ' :: (j.leftColumn ++ (" = ".toText ++
        (j.rightColumn ++ r)))) := by
    rw [hrest2]
    rfl
  obtain ⟨c3, h3, hrest3⟩ := passWord_of_rest hon (by decide) (by decide)
    (not_word_of_bounded (bounded_cons.2 (by decide)))
  have hblank {name u : Text} (hname : IsField name) :
      trimLeft (.char ' ' :: (name ++ u)) = name ++ u := by
    rw [trimLeft_cons_blank (by decide)]
    exact ((flushLeft_append hname.ne_nil).2
      (trimmed_of_solid hname.solid).head).trimLeft_eq
  obtain ⟨c4, h4, hrest4⟩ :=
    readName_of_field (r := " = ".toText ++ (j.rightColumn ++ r))
      (by rw [hrest3, hblank hj.left]) hj.left
        (nameEnds_of_bounded (bounded_cons.2 (by decide)))
  have hsign :
      trimLeft c4.rest =
        [.char '='] ++ (.char ' ' :: (j.rightColumn ++ r)) := by
    rw [hrest4]
    rfl
  obtain ⟨c5, h5, hrest5⟩ := passText_of_rest hsign (List.cons_ne_nil _ _)
  obtain ⟨c6, h6, hrest6⟩ :=
    readName_of_field (by rw [hrest5, hblank (isField_right hj)])
      (isField_right hj) hr
  refine ⟨c6, ?_, hrest6⟩
  simp only [readJoin, h1, h2, h3, h4, h5, h6, orient?_of_isReadable hj,
    required, bind, Except.bind, pure, Except.pure]

theorem joinOpening?_of_rest
    (h : c.rest = .char ' ' :: (j.kind.word ++ (.char ' ' :: (j.body ++ r)))) :
    ∃ d, joinOpening? c = some (j.kind, d) ∧ trimLeft d.rest = j.body ++ r := by
  have hword : (∀ a ∈ j.kind.word, isWord a = true) ∧ j.kind.word ≠ [] := by
    cases j.kind <;> decide
  have htrim :
      trimLeft c.rest = j.kind.word ++ (.char ' ' :: (j.body ++ r)) := by
    rw [h, trimLeft_cons_blank (by decide)]
    exact ((flushLeft_append hword.2).2
      (trimmed_of_solid fun a ha =>
        isBlank_of_isWord (hword.1 a ha)).head).trimLeft_eq
  have hspace : Bounded (.char ' ' :: (j.body ++ r)) :=
    bounded_cons.2 (by decide)
  have hpop := popWord_of_rest htrim hword.1 (not_word_of_bounded hspace)
  have hpeek : c.peekWord.1 = j.kind.word := congrArg Prod.fst hpop
  have hrest : c.popWord.2.rest = .char ' ' :: (j.body ++ r) := by
    rw [hpop]
    exact Cursor.rest_advance_of_append ((Cursor.rest_skipBlanks c).trans htrim)
  have hbody : trimLeft (.char ' ' :: (j.body ++ r)) = j.body ++ r := by
    rw [trimLeft_cons_blank (by decide)]
    exact trimLeft_cons (by decide)
  cases hkind : j.kind with
  | inner =>
      refine ⟨c.popWord.2, ?_, by rw [hrest, hbody]⟩
      simp only [joinOpening?, hpeek, hkind]
      rfl
  | left =>
      -- the word OUTER may stand before JOIN, and does not
      have houter :
          (c.popWord.2.consumeWord "OUTER".toText).2 =
            c.popWord.2.skipBlanks := by
        have hjoin :
            trimLeft c.popWord.2.rest =
              "JOIN".toText ++ (.char ' ' :: (j.table ++
              (" ON ".toText ++
                (j.leftColumn ++
                  (" = ".toText ++ (j.rightColumn ++ r)))))) := by
          rw [hrest, hbody, Join.body]
          simp only [List.append_assoc]
          rfl
        have hnext := popWord_of_rest hjoin (by decide)
          (not_word_of_bounded (bounded_cons.2 (by decide)))
        have hnext' : c.popWord.2.peekWord.1 = "JOIN".toText :=
          congrArg Prod.fst hnext
        simp only [Cursor.consumeWord, hnext']
        rfl
      refine ⟨c.popWord.2.skipBlanks, ?_, ?_⟩
      · simp only [joinOpening?, hpeek, hkind, houter]
        rfl
      · rw [Cursor.rest_skipBlanks, hrest, hbody]
        exact trimLeft_cons (by decide)

/-! ## All joins

Reading goes on while a join is opened, with less of the text left each time.
The word of a clause opens none, and neither does the end. -/

theorem readJoins_of_none (h : joinOpening? c = none) :
    readJoins c = .ok ([], c.skipBlanks) := by
  rw [readJoins]
  split
  · rfl
  · next heq =>
      rw [h] at heq
      cases heq

theorem readJoins_of_some {kind : JoinKind}
    (h : joinOpening? c = some (kind, d))
    (hread : readJoin kind d = .ok (j, e)) :
    readJoins c = (readJoins e).map fun r => (j :: r.1, r.2) := by
  rw [readJoins]
  split
  · next heq =>
      rw [h] at heq
      cases heq
  · next heq =>
      rw [h] at heq
      cases heq
      split
      · next heq' =>
          rw [hread] at heq'
          cases heq'
      · next heq' =>
          rw [hread] at heq'
          cases heq'
          rfl

theorem joinOpening?_of_word {x u : Text} (h : trimLeft c.rest = x ++ u)
    (hx : ∀ a ∈ x, isWord a = true) (hu : Bounded u)
    (hne : upper x ∉ ["JOIN".toText, "INNER".toText, "LEFT".toText]) :
    joinOpening? c = none := by
  have hpop := popWord_of_rest h hx (not_word_of_bounded hu)
  have hpeek : c.peekWord.1 = x := congrArg Prod.fst hpop
  simp only [List.mem_cons, List.not_mem_nil, or_false, not_or] at hne
  simp only [joinOpening?, hpeek, if_neg hne.1, if_neg hne.2.1, if_neg hne.2.2]

/-- The end of a statement and the word of a clause open no join. -/
theorem joinOpening?_eq_none {bs : List (Clause × Text)}
    (h : trimLeft c.rest = Clause.text bs) : joinOpening? c = none := by
  cases bs with
  | nil =>
      exact joinOpening?_of_word (x := []) (u := []) h nofun bounded_nil
        (by decide)
  | cons p ps =>
      obtain ⟨clause, b⟩ := p
      have hwords : trimLeft c.rest = clause.firstWord ++ ((clause.words.drop
          clause.firstWord.length) ++
            (Clause.padded b ps ++ Clause.text ps)) := by
        rw [h, Clause.text, ← List.append_assoc]
        cases clause <;> rfl
      refine joinOpening?_of_word hwords ?_ ?_ ?_
      · cases clause <;> decide
      · cases clause with
        | order => exact bounded_cons.2 (by decide)
        | source | filter | limit => exact Clause.bounded_padded b ps _
      · cases clause <;> decide

/-- Joins that were written are read, up to where the clauses begin. -/
theorem readJoins_of_rest (h : c.rest = Join.text js ++ r)
    (hjs : ∀ j ∈ js, j.IsReadable) (hr : NameEnds r)
    (hend : ∀ c, c.rest = r → joinOpening? c = none) :
    ∃ d, readJoins c = .ok (js, d) ∧ d.rest = trimLeft r := by
  induction js generalizing c with
  | nil =>
      refine ⟨c.skipBlanks, readJoins_of_none (hend c h), ?_⟩
      rw [Cursor.rest_skipBlanks, h]
      rfl
  | cons j js ih =>
      rw [List.forall_mem_cons] at hjs
      have hsplit :
          c.rest = .char ' ' :: (j.kind.word ++ (.char ' ' :: (j.body ++
            (Join.text js ++ r)))) := by
        rw [h, Join.text]
        simp only [List.cons_append, List.append_assoc]
      have hnext : NameEnds (Join.text js ++ r) := by
        cases js with
        | nil => exact hr
        | cons k ks => exact nameEnds_of_bounded (bounded_cons.2 (by decide))
      obtain ⟨d, hopening, hd⟩ := joinOpening?_of_rest hsplit
      obtain ⟨e, hread, he⟩ := readJoin_of_rest hd hjs.1 hnext
      obtain ⟨f, hreads, hf⟩ := ih he hjs.2
      exact ⟨f, by rw [readJoins_of_some hopening hread, hreads]; rfl, hf⟩

end Statement

end RowSql

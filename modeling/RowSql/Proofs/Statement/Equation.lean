import RowSql.Proofs.Binding
import RowSql.Proofs.Filter.LeafForm
import RowSql.Proofs.Statement.Clause
import RowSql.Proofs.Statement.Cursor
import RowSql.Proofs.Text.Items
import RowSql.Statement.Parser

/-!
# An equation and its readers

A name, an equals sign and a text in quotes: this is an assignment before the
word WHERE and a test behind it. On its way through a statement it meets the
binder, the search for clauses, the cut at commas, the cut at connectives and
the readers of assignments and of leaves, and here is what each of them makes of
it.

Only the two that know backslashes care what the text ends in. Behind a
backslash at its end they do not see the closing quote, while the others do.
-/

namespace RowSql

open Text Statement

/-- A name and what it is set to, or what it has to be equal to. -/
def equation (name value : Text) : Text :=
  name ++ (" = ".toText ++ value)

/-- What stands for a value that is to be bound. -/
def placeholder : Text := ['?']

/-- An equation whose text is to be bound. -/
def openEquation (x : Text × Text) : Text :=
  equation x.1 placeholder

/-- An equation with its text in quotes. -/
def boundEquation (x : Text × Text) : Text :=
  equation x.1 x.2.quote

variable {a p rest : Text} {q : CodePoint}

theorem equation_append (a v r : Text) :
    equation a v ++ r = a ++ (" = ".toText ++ (v ++ r)) := by
  rw [equation, List.append_assoc, List.append_assoc]

theorem binds_equation (ha : IsName a) (hp : p.Bindable) :
    Binding.Binds (equation a placeholder) [.text p] (equation a p.quote) :=
  (Binding.binds_of_unmarked (unmarked_of_isWord ha.word)).append
    ((Binding.binds_of_unmarked (by decide)).append
      (Binding.binds_placeholder hp))

/-- The texts to bind, as values. -/
def boundValues (xs : List (Text × Text)) : List Value :=
  xs.map fun x => .text x.2

/-- Equations between which a plain separator stands take their texts in
order. -/
theorem binds_equations (separator : Text) (hsep : separator.Unmarked)
    {xs : List (Text × Text)}
    (h : ∀ x ∈ xs, IsName x.1 ∧ x.2.Bindable) :
    Binding.Binds (join separator (xs.map openEquation)) (boundValues xs)
      (join separator (xs.map boundEquation)) :=
  Binding.binds_join hsep fun x hx => binds_equation (h x hx).1 (h x hx).2

/-! ## Its outside

The ends of an equation are a character of a word and a quote, so it is trimmed,
and not empty. -/

theorem trimmed_quoted (hq : isQuote q = true) (p : Text) :
    Trimmed (between q p) :=
  trimmed_between (isBlank_of_isQuote hq) (isBlank_of_isQuote hq)

theorem equation_ne_nil (ha : IsName a) (v : Text) : equation a v ≠ [] :=
  fun hn => ha.ne_nil (List.append_eq_nil_iff.1 hn).1

theorem trimmed_equation (ha : IsName a) (hq : isQuote q = true) (p : Text) :
    Trimmed (equation a (between q p)) := by
  rw [equation, ← List.append_assoc]
  exact ha.trimmed.append ha.ne_nil (trimmed_quoted hq p) (List.cons_ne_nil _ _)

/-- An equation opens with a character of a word. -/
theorem exists_equation_cons (ha : IsName a) (v : Text) :
    ∃ c s, equation a v = c :: s ∧ isWord c = true := by
  obtain ⟨c, s, rfl⟩ := List.exists_cons_of_ne_nil ha.ne_nil
  exact ⟨c, s ++ (" = ".toText ++ v), rfl, ha.word c List.mem_cons_self⟩

/-- What stands behind the name of an equation. -/
theorem bounded_sign (r : Text) : Bounded (" = ".toText ++ r) :=
  bounded_cons.2 (by decide)

/-! ## The scan

A scan passes the name and the sign and then the text in quotes. The closing
quote counts for it unless a backslash stands before it. -/

theorem run_sign (d : Int) :
    (Scan.outside d).run " = ".toText = Scan.outside d :=
  Scan.run_plain (by decide) d

theorem run_name (ha : IsName a) (d : Int) :
    (Scan.outside d).run a = Scan.outside d :=
  Scan.run_plain (fun c hc => Scan.plain_of_isWord (ha.word c hc)) d

/-- An equation leaves the scan where it was, unless its text ends in a
backslash. -/
theorem run_equation (ha : IsName a) (hp : Encloses q p)
    (hend : p.getLast? ≠ some (.char '\\')) (d : Int) :
    (Scan.outside d).run (equation a (between q p)) = Scan.outside d := by
  rw [equation, Scan.run_append, run_name ha, Scan.run_append, run_sign,
    Scan.run_between hp.quote hp.absent hend]

/-- No clause begins in an equation, unless its name does. -/
theorem unseen_equation {clause : Clause} {free : Bool} (ha : IsName a)
    (hp : Encloses q p)
    (hname : ∀ r, clause.after? (a ++ (" = ".toText ++ r)) = none) (d : Int) :
    clause.Unseen (Scan.outside d) free rest (equation a (between q p)) := by
  rw [equation, Clause.unseen_append, Clause.unseen_append, run_name ha,
    run_sign]
  refine ⟨Clause.unseen_of_solid ha.solid ?_,
    Clause.unseen_of_marks (by decide),
    Clause.unseen_between hp.quote hp.absent d⟩
  rw [List.append_assoc]
  exact hname (between q p ++ rest)

/-- A name that is not the word of a clause begins none. -/
theorem after?_name_eq_none {clause : Clause} (ha : IsName a)
    (hne : ¬ Spells clause.firstWord a) (r : Text) :
    clause.after? (a ++ (" = ".toText ++ r)) = none :=
  Clause.after?_eq_none_of_not_spells ha.solid hne (bounded_sign r).apart

/-! ## Cuts

Inside of quotes there is no comma and no connective for those that cut, and
outside of them there is only the sign with its blanks. -/

theorem undivided_equation (ha : IsName a) (hp : Encloses q p) :
    Undivided (· == ',') none (equation a (between q p)) ∧
      quoteRun none (equation a (between q p)) = none := by
  have hname : quoteRun none a = none :=
    quoteRun_of_not_quote fun c hc => isQuote_of_isWord (ha.word c hc)
  have hsign : quoteRun none " = ".toText = none :=
    quoteRun_of_not_quote (by decide)
  have hcomma : ∀ c ∈ a, (c == CodePoint.char ',') = false := fun c hc =>
    beq_eq_false_iff_ne.2 (ne_of_isWord (ha.word c hc) (by decide))
  rw [equation, undivided_append, undivided_append, quoteRun_append,
    quoteRun_append, hname, hsign]
  exact ⟨⟨undivided_of_forall hcomma, undivided_of_forall (by decide),
      undivided_between hp.quote hp.absent⟩,
    quoteRun_between hp.quote hp.absent⟩

theorem isEntry_equation (ha : IsName a) (hp : Encloses q p) :
    IsEntry (equation a (between q p)) :=
  ⟨equation_ne_nil ha _, trimmed_equation ha hp.quote p,
    (undivided_equation ha hp).1, (undivided_equation ha hp).2⟩

/-- No connective begins in an equation. -/
theorem uncut_equation {word : Text} (hw : IsKeyword word) (ha : IsName a)
    (hp : Encloses q p) (d : Int) :
    Filter.Uncut word (Scan.outside d) rest (equation a (between q p)) := by
  have hsign : " = ".toText = [.char ' '] ++ ([.char '='] ++ [.char ' ']) := rfl
  have hmark := Clause.toNat_foldCase_quote hp.quote
  rw [equation, Filter.uncut_append, Filter.uncut_append, run_name ha, run_sign]
  refine ⟨Filter.uncut_of_solid ha.solid, ?_,
    Filter.uncut_between hp.quote hp.absent d⟩
  rw [hsign, Filter.uncut_append, Filter.uncut_append]
  refine ⟨Filter.uncut_blanks_mark hw blanks_space (by decide) (by decide),
    Filter.uncut_mark (by decide), ?_⟩
  exact Filter.uncut_blanks_mark hw blanks_space
    (isBlank_of_isQuote hp.quote) hmark

theorem not_opensWithWord_equation {word : Text} (hw : IsKeyword word)
    (ha : IsName a) (hne : ¬ Spells word a) (v r : Text) :
    ¬ Filter.OpensWithWord word (equation a v ++ r) := by
  rw [equation_append]
  exact Filter.not_opensWithWord_append hw ha.solid hne (bounded_sign _).apart

/-! ## An assignment

An assignment is cut at the first equals sign, and that is its own, since none
can be in a name. -/

/-- An assignment is cut at its first equals sign, whatever follows its name. -/
theorem readAssignment?_equation (ha : IsName a) (v : Text) :
    readAssignment? (equation a v) = some (a, stripQuotes (trim v)) := by
  have hsplit :
      equation a v = (a ++ [.char ' ']) ++ .char '=' :: ([.char ' '] ++ v) := by
    rw [List.append_assoc]
    rfl
  have hsign : CodePoint.char '=' ∉ a ++ [.char ' '] := by
    rw [List.mem_append, not_or]
    exact ⟨fun hmem => absurd (ha.word _ hmem) (by decide), by decide⟩
  have hright : trim ([.char ' '] ++ v) = trim v :=
    trim_append_of_blanks blanks_space
  rw [readAssignment?, hsplit, cutAt?_append hsign, Option.map_some, hright,
    trim_append_blanks blanks_space, ha.trimmed.trim_eq]

/-- The text of an assignment is read as it is in its quotes. -/
theorem readAssignment?_quoted (ha : IsName a) (hq : isQuote q = true)
    (p : Text) :
    readAssignment? (equation a (between q p)) = some (a, p) := by
  rw [readAssignment?_equation ha, (trimmed_quoted hq p).trim_eq,
    stripQuotes_between hq]

/-! ## A test

The reader of leaves takes the name for the field, the sign for the operator and
all the rest for the value. -/

open RowSql.Filter in
theorem Filter.read?_equation (ha : IsName a) (hp : Encloses q p) :
    Leaf.read? (equation a (between q p)) = some ⟨a, ['='], between q p⟩ := by
  have hwritten :
      Written .equal [.char ' '] ['='] ([.char ' '] ++ between q p) :=
      ⟨blanks_space, spells_self _, (fun h => nomatch h), (fun h => nomatch h),
        fun s hs => nomatch (List.cons.inj hs).1⟩
  have htrim : trim ([.char ' '] ++ between q p) = between q p := by
    rw [trim_append_of_blanks blanks_space, (trimmed_quoted hp.quote p).trim_eq]
  have hvalue : isLeafValue (between q p) = true :=
    isLeafValue_between hp.quote hp.absent
  have hread :=
    Leaf.read?_eq ⟨ha.ne_nil, ha.word⟩ hwritten
      (.inl (by rw [htrim]; exact hvalue))
  rw [htrim, if_pos hvalue] at hread
  exact hread

/-- A test asks whether what a record has under a name is equal to a text. -/
theorem Filter.condition_equation (ha : IsName a) (hp : Encloses q p)
    (r : Record) :
    condition (equation a (between q p)) r = (r.value a).equal (.text p) := by
  have hop : Operator.ofWritten? ['='] = some .equal := by decide
  have hjudge :
      Operator.equal.judge (r.value a) (between q p) =
        (r.value a).equal (.text p) := by
    show (r.value a).equal (.text (stripQuotes (between q p))) = _
    rw [stripQuotes_between hp.quote]
  rw [condition, read?_equation ha hp]
  simp only [Leaf.holds, hop, hjudge]
  split
  · rfl
  · next habsent =>
      rw [Bool.not_eq_true] at habsent
      rw [Value.equal, habsent]
      rfl

end RowSql

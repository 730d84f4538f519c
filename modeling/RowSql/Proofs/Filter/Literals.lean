import RowSql.Proofs.Comparison
import RowSql.Proofs.Filter.LeafReading
import RowSql.Proofs.Statement.Insert

/-!
# The literals of an operator

What stands behind an operator is one text, in quotes or bare, or a list of
texts, each in quotes of its own. A text in quotes can be any text that lacks
the quote character: blanks, parentheses and commas in it are not looked at,
because a value is read up to the end of the leaf and a list is cut outside of
quotes only. So of every literal two things are known, that it can be read as a
value, and which texts are read out of it. What a leaf then says of its field is
told by one rule for each operator.
-/

namespace RowSql.Filter

open Text

/-- A way to write a text behind an operator: in quotes that it does not hold,
or bare if it has no blanks and no quote at either end. -/
inductive Writes : Text → Text → Prop
  | quoted {q : CodePoint} {p : Text} (h : Encloses q p) :
      Writes p (between q p)
  | bare {v : Text} (hne : v ≠ []) (hv : ∀ c ∈ v, isBlank c = false)
      (hhead : ∀ c s, v = c :: s → isQuote c = false)
      (hlast : ∀ s c, v = s ++ [c] → isQuote c = false) : Writes v v

/-- Texts in quotes, with commas between them and perhaps blanks around each. -/
inductive WritesAll : List Text → Text → Prop
  | nil {b : Text} (hb : Blanks b) : WritesAll [] b
  | single {q : CodePoint} {p b b' : Text} (hp : Encloses q p) (hb : Blanks b)
      (hb' : Blanks b') :
      WritesAll [p] (b ++ between q p ++ b')
  | cons {q : CodePoint} {p b b' t : Text} {ps : List Text} (hp : Encloses q p)
      (hb : Blanks b)
      (hb' : Blanks b') (hne : ps ≠ []) (ht : WritesAll ps t) :
      WritesAll (p :: ps) (b ++ between q p ++ b' ++ .char ',' :: t)

/-- A way to write a list of texts: in parentheses. -/
def WritesList (ps : List Text) (t : Text) : Prop :=
  ∃ u, WritesAll ps u ∧ t = parenthesise u

/-- The literals of an operator, and what a leaf with such a literal says of the
value of its field. -/
inductive Operator.Literal : Operator → Text → (Value → Prop) → Prop
  | equal {v t : Text} (h : Writes v t) : Literal .equal t fun a =>
      a.equal (.text v) = .ok true
  | greater {v t : Text} (h : Writes v t) :
      Literal .greater t (Value.Compares (· > ·) · v)
  | less {v t : Text} (h : Writes v t) :
      Literal .less t (Value.Compares (· < ·) · v)
  | atLeast {v t : Text} (h : Writes v t) :
      Literal .atLeast t (Value.Compares (· ≥ ·) · v)
  | atMost {v t : Text} (h : Writes v t) :
      Literal .atMost t (Value.Compares (· ≤ ·) · v)
  | like {v t : Text} (h : Writes v t) :
      Literal .like t fun a => (Pattern.ofText v).covers a.toText = true
  | within {ps : List Text} {t : Text} (h : WritesList ps t) :
      Literal .within t fun a => a.toText ∈ ps

/-! ## One text

A text in quotes is a value whatever it holds, and stripping takes the quotes
off again. A bare one has to be without blanks, and without a quote that
stripping would take for one around it. -/

variable {v t u : Text} {ps : List Text}

theorem Writes.trimmed (h : Writes v t) : Trimmed t := by
  cases h with
  | quoted h =>
      exact trimmed_between (isBlank_of_isQuote h.quote)
        (isBlank_of_isQuote h.quote)
  | bare hne hv _ _ => exact trimmed_of_solid hv

theorem Writes.isLeafValue (h : Writes v t) : isLeafValue t = true := by
  cases h with
  | quoted h => exact isLeafValue_between h.quote h.absent
  | bare hne hv _ _ =>
      have hsolid : (v.all fun c => !isBlank c) = true :=
        List.all_eq_true.2 fun c hc => by rw [hv c hc]; rfl
      have hsome : (!v.isEmpty) = true := by
        rw [List.isEmpty_eq_false_iff.2 hne]
        rfl
      rw [Filter.isLeafValue, hsolid, hsome, Bool.and_true, Bool.or_true]

theorem dropQuote_of_not_quote (h : ∀ c s, t = c :: s → isQuote c = false) :
    dropQuote t = t := by
  cases t with
  | nil => rfl
  | cons c s => rw [dropQuote, h c s rfl, if_neg Bool.false_ne_true]

/-- What is written is what is left without quotes. -/
theorem Writes.stripQuotes_eq (h : Writes v t) : stripQuotes t = v := by
  cases h with
  | quoted h => exact stripQuotes_between h.quote v
  | bare _ _ hhead hlast =>
      have hreverse : ∀ c s, v.reverse = c :: s → isQuote c = false :=
        fun c s hc =>
          hlast s.reverse c
            (by rw [← List.reverse_cons, ← hc, List.reverse_reverse])
      rw [stripQuotes, dropQuote_of_not_quote hhead,
        dropQuote_of_not_quote hreverse, List.reverse_reverse]

/-! ## Lists

The items of a list are cut apart at commas outside of quotes. Each text is in
quotes of its own, so the commas between them are the only cuts. -/

/-- Each text is an entry, in its quotes. -/
theorem WritesAll.spread (h : WritesAll ps u) (hne : ps ≠ []) :
    ∃ xs, Spread ',' xs u ∧ (∀ x ∈ xs, IsEntry x) ∧
      xs.map stripQuotes = ps := by
  induction h with
  | nil hb => exact absurd rfl hne
  | @single q p b b' hp hb hb' =>
      refine ⟨[between q p], .last hb hb', ?_,
        congrArg ([·]) (stripQuotes_between hp.quote p)⟩
      exact List.forall_mem_singleton.2 (Statement.isEntry_quoted hp)
  | @cons q p b b' t ps hp hb hb' hps ht ih =>
      obtain ⟨xs, hxs, hentries, hmap⟩ := ih hps
      refine ⟨between q p :: xs, .cons hb hb' hxs, ?_, ?_⟩
      · exact List.forall_mem_cons.2 ⟨Statement.isEntry_quoted hp, hentries⟩
      · rw [List.map_cons, hmap, stripQuotes_between hp.quote]

/-- The texts that are written are the items of the list without their
quotes. -/
theorem WritesAll.items_eq (h : WritesAll ps u) :
    (items u).map stripQuotes = ps := by
  by_cases hne : ps = []
  · subst hne
    cases h with
    | nil hb => rw [items_of_blanks hb, List.map_nil]
  · obtain ⟨xs, hxs, hentries, hmap⟩ := h.spread hne
    rw [items_spread hxs hentries, hmap]

/-- What stands in parentheses can be a value, and is a list of items. -/
theorem isLeafValue_parenthesise (u : Text) :
    isLeafValue (parenthesise u) = true := by
  rw [Filter.isLeafValue, isParenthesised_iff.2 ⟨u, rfl⟩]
  rfl

theorem listItems?_parenthesise (u : Text) :
    listItems? (parenthesise u) = some ((items u).map stripQuotes) := by
  have hinside : (parenthesise u).tail.dropLast = u := List.dropLast_concat
  rw [listItems?, if_pos (isParenthesised_iff.2 ⟨u, rfl⟩), hinside]

theorem WritesList.listItems?_eq (h : WritesList ps t) :
    listItems? t = some ps := by
  obtain ⟨u, hu, rfl⟩ := h
  rw [listItems?_parenthesise, hu.items_eq]

/-! ## Literals

For each operator the verdict on a value in range is put down once, as a
proposition about the value and what is written. The rest of the theory does not
look at the evaluator any more. -/

/-- What the inequalities say of two numbers. -/
theorem judge_of_numbers {a : Value} {x y : Binary64} (ht : Writes v t)
    (hx : a.toNumber = .ok x) (hy : (Value.text v).toNumber = .ok y) :
    Operator.judge .less a t = .ok (x.lt y) ∧
      Operator.judge .greater a t = .ok (y.lt x) ∧
      Operator.judge .atMost a t = .ok (x.le y) ∧
      Operator.judge .atLeast a t = .ok (y.le x) := by
  rw [← ht.stripQuotes_eq] at hy
  simp only [Operator.judge, hx, hy]
  exact ⟨rfl, rfl, rfl, rfl⟩

namespace Operator.Literal

variable {op : Operator} {meant : Value → Prop}

/-- A literal is read whole, as it stands. -/
theorem readable (h : op.Literal t meant) :
    Trimmed t ∧ isLeafValue t = true := by
  cases h with
  | equal h | greater h | less h | atLeast h | atMost h | like h =>
      exact ⟨h.trimmed, h.isLeafValue⟩
  | within h =>
      obtain ⟨u, _, rfl⟩ := h
      exact ⟨trimmed_parenthesise u, isLeafValue_parenthesise u⟩

/-- The operator finds of a value in range what a leaf says of it. -/
theorem judge_eq (h : op.Literal t meant) {a : Value} (ha : a.InRange) :
    ∃ verdict, op.judge a t = .ok verdict ∧ (verdict = true ↔ meant a) := by
  obtain ⟨x, hx⟩ := ha.exists_toNumber
  have hcompares (v : Text) : ∃ y, (Value.text v).toNumber = .ok y ∧
      ∀ related, (∃ i ∈ x.place?, ∃ j ∈ y.place?, related i j) ↔
        a.Compares related v := by
    obtain ⟨y, hy⟩ : ∃ y, (Value.text v).toNumber = .ok y := ⟨_, rfl⟩
    refine ⟨y, hy, fun related => ?_⟩
    rw [Value.Compares, Value.place?_eq hx, Value.place?_eq hy]
  cases h with
  | @equal v t h =>
      obtain ⟨verdict, hverdict⟩ := ha.exists_equal (w := .text v) trivial
      refine ⟨verdict, ?_, ?_⟩
      · rw [judge, h.stripQuotes_eq]
        exact hverdict
      · show _ ↔ a.equal (.text v) = .ok true
        rw [hverdict, Except.ok.injEq]
  | greater h =>
      obtain ⟨y, hy, hiff⟩ := hcompares _
      obtain ⟨_, hjudge, _⟩ := judge_of_numbers h hx hy
      exact ⟨y.lt x, hjudge, Binary64.gt_iff.trans (hiff _)⟩
  | less h =>
      obtain ⟨y, hy, hiff⟩ := hcompares _
      obtain ⟨hjudge, _⟩ := judge_of_numbers h hx hy
      exact ⟨x.lt y, hjudge, Binary64.lt_iff.trans (hiff _)⟩
  | atLeast h =>
      obtain ⟨y, hy, hiff⟩ := hcompares _
      obtain ⟨_, _, _, hjudge⟩ := judge_of_numbers h hx hy
      exact ⟨y.le x, hjudge, Binary64.ge_iff.trans (hiff _)⟩
  | atMost h =>
      obtain ⟨y, hy, hiff⟩ := hcompares _
      obtain ⟨_, _, hjudge, _⟩ := judge_of_numbers h hx hy
      exact ⟨x.le y, hjudge, Binary64.le_iff.trans (hiff _)⟩
  | like h =>
      refine ⟨_, by rw [judge, ha.short.asText_eq]; rfl, ?_⟩
      rw [h.stripQuotes_eq]
  | within h =>
      refine ⟨_, by rw [judge, ha.short.asText_eq]; rfl, ?_⟩
      rw [h.listItems?_eq, Option.getD_some, List.contains_iff_mem]

end Operator.Literal

end RowSql.Filter

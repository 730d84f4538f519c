import RowSql.Proofs.Filter.Expression

/-!
# Where leniency finds too much

A text that was printed from a tree holds of a record of which the tree is false
in one case, and it is named here exactly: some branch holds in which a list has
overrun. Every other text that is mangled by unwrapping is no leaf, and so is
false.
-/

namespace RowSql.Filter

open Text

/-! ## Nothing fails on records of texts

Only a number beyond the doubles makes a leaf fail, and a record of texts has
none. So a filter has a verdict on such a record, and the sections below argue
about verdicts alone. -/

theorem Operator.judge_eq_ok (op : Operator) (actual written : Text) :
    ∃ b, op.judge (.text actual) written = .ok b := by
  cases op with
  | equal => exact Value.exists_equal_text actual (stripQuotes written)
  | atLeast | atMost | greater | less | like | within => exact ⟨_, rfl⟩

theorem condition_eq_ok {r : Record} (hr : r.IsTextual) (t : Text) :
    ∃ b, condition t r = .ok b := by
  rw [condition]
  cases Leaf.read? t with
  | none => exact ⟨false, rfl⟩
  | some leaf =>
      show ∃ b, leaf.holds r = .ok b
      rw [Leaf.holds]
      split
      · next hp =>
          cases Operator.ofWritten? leaf.operator with
          | none => exact ⟨false, rfl⟩
          | some op =>
              rcases hr.value_eq leaf.field with hv | ⟨s, hv⟩
              · rw [hv] at hp
                cases hp
              · rw [hv]
                exact op.judge_eq_ok s leaf.value
      · exact ⟨false, rfl⟩

theorem branchHolds_eq_ok {r : Record} (hr : r.IsTextual) (u : Text) :
    ∃ b, branchHolds u r = .ok b ∧
      (b = true ↔ ∀ l ∈ leaves u, condition l r = .ok true) :=
  allHold_eq_ok fun l _ => condition_eq_ok hr l

theorem holds_eq_ok {r : Record} (hr : r.IsTextual) (t : Text) :
    ∃ b, holds t r = .ok b ∧
      (b = true ↔ ∃ u ∈ branches t, branchHolds u r = .ok true) :=
  anyHolds_eq_ok fun u _ => (branchHolds_eq_ok hr u).imp fun _ h => h.1

/-! ## The leaves of a branch

A branch is cut into pieces, trimmed, without those that are blank. What is
known of all pieces of a chain is to be known of what is left of them. -/

theorem mem_trimPieces {ps : List Text} {p : Text} (hp : p ∈ ps)
    (hb : ¬ Blanks p) :
    trim p ∈ trimPieces ps := by
  have hne : trim p ≠ [] := by
    intro hn
    obtain ⟨b, hbl, hleft⟩ := exists_eq_append_trimLeft p
    obtain ⟨b', hb', hright⟩ := exists_eq_trimRight_append (trimLeft p)
    have htrim : trimRight (trimLeft p) = [] := hn
    rw [htrim, List.nil_append] at hright
    rw [hright] at hleft
    exact hb (hleft ▸ blanks_append.2 ⟨hbl, hb'⟩)
  induction ps with
  | nil => cases hp
  | cons q ps ih =>
      cases ps with
      | nil =>
          rw [List.mem_singleton] at hp
          subst hp
          rw [trimPieces, if_neg hne]
          exact List.mem_cons_self
      | cons q' ps =>
          rw [trimPieces]
          rcases List.mem_cons.1 hp with rfl | hp
          · exact List.mem_cons_self
          · exact List.mem_cons_of_mem _ (ih hp)

/-- Every piece of a branch that is not blank becomes a leaf of it. -/
theorem mem_leaves {u p : Text}
    (hp : p ∈ cutAtWord "AND".toText .start (unwrapParens u))
    (hb : ¬ Blanks p) : unwrapParens p ∈ leaves u := by
  have hmem := mem_trimPieces hp hb
  have hup : upper "AND".toText = "AND".toText := by decide
  rw [leaves, splitLogical, hup]
  cases hps : trimPieces (cutAtWord "AND".toText .start (unwrapParens u)) with
  | nil =>
      rw [hps] at hmem
      cases hmem
  | cons q qs =>
      rw [hps] at hmem
      exact List.mem_map.2 ⟨trim p, hmem, unwrapParens_trim p⟩

/-! ## Branches

A branch that holds is a tight text all pieces of which hold. Either a list
overruns in one of them, or they are the leaves of the tree and all of them
hold, and with them the tree. -/

/-- A tight text that holds, and in which no list overruns, has a true tree. -/
theorem Prints.holds_of_branchHolds {e : Expr} {u : Text} {r : Record}
    {all : List Text} (h : Prints true e u) (hsub : ∀ l ∈ e.leafTexts, l ∈ all)
    (hr : r.IsTextual) (hu : branchHolds u r = .ok true)
    (hover : ∀ l ∈ leaves u, ¬ Overruns all l) : e.Holds r := by
  obtain ⟨b, hb, hiff⟩ := branchHolds_eq_ok hr u
  rw [hu, Except.ok.injEq] at hb
  have hall := hiff.1 hb.symm
  obtain ⟨hchain, hrun⟩ := h.chain.weaken.unwrapParens
  -- the text is balanced, so it leaves the scan at the start
  obtain ⟨k, hk⟩ := h.chain.exists_run_eq
  have hstate : Scan.start.run u = .outside (0 + k) := hk 0
  have hclosed := h.balanced.closed
  rw [hstate, Scan.atTop_outside] at hclosed
  rw [hstate, hclosed] at hrun
  obtain ⟨hws, hls⟩ := hchain.all_hold hsub hrun fun p hp hb =>
    ⟨hall _ (mem_leaves hp hb), hover _ (mem_leaves hp hb)⟩
  exact Expr.holds_of_leaves hws hls

/-- Some branch holds in which the list of one of the tree's leaves is read on
to the end of the text of others. -/
def Caught (e : Expr) (t : Text) (r : Record) : Prop :=
  ∃ u ∈ branches t, branchHolds u r = .ok true ∧ ∃ l ∈ leaves u,
  Overruns e.leafTexts l

/-- What holds of a record has a true tree or was caught. -/
theorem Prints.holds_or_caught {e : Expr} {t : Text} {r : Record}
    (ht : Prints false e t) (hr : r.IsTextual) (h : holds t r = .ok true) :
    e.Holds r ∨ Caught e t r := by
  obtain ⟨bs, hbs⟩ := ht.exists_branches
  have hsplit : branches t = bs.map Prod.snd := by
    refine splitLogical_joined isKeyword_or (by decide) hbs.joined ?_
    rw [List.forall_mem_map]
    exact fun b hb => (hbs.prints b hb).operand rfl
  obtain ⟨v, hv, hiff⟩ := holds_eq_ok hr t
  rw [h, Except.ok.injEq] at hv
  obtain ⟨u, hu, htrue⟩ := hiff.1 hv.symm
  by_cases hover : ∃ l ∈ leaves u, Overruns e.leafTexts l
  · exact .inr ⟨u, hu, htrue, hover⟩
  · left
    have hnone : ∀ l ∈ leaves u, ¬ Overruns e.leafTexts l :=
      fun l hl ho => hover ⟨l, hl, ho⟩
    rw [hsplit] at hu
    obtain ⟨b, hb, rfl⟩ := List.mem_map.1 hu
    exact (hbs.holds_iff r).2 ⟨b, hb,
      (hbs.prints b hb).holds_of_branchHolds (hbs.leaves b hb) hr htrue hnone⟩

theorem holds_of_caught {e : Expr} {t : Text} {r : Record} (hr : r.IsTextual)
    (h : Caught e t r) : holds t r = .ok true := by
  obtain ⟨u, hu, htrue, _⟩ := h
  obtain ⟨v, hv, hiff⟩ := holds_eq_ok hr t
  rw [hv, hiff.2 ⟨u, hu, htrue⟩]

/-- A filter without lists holds only of records of which its tree is true. -/
theorem Prints.holds_of_no_list {e : Expr} {t : Text} {r : Record}
    (ht : Prints false e t) (hr : r.IsTextual)
    (hl : ∀ l ∈ e.leafTexts, ¬ IsListLeaf l) (h : holds t r = .ok true) :
    e.Holds r := by
  rcases ht.holds_or_caught hr h with h | ⟨_, _, _, _, _, l, hmem, hlist, _⟩
  · exact h
  · exact absurd hlist (hl l hmem)

/-- The text of a tree holds only where the tree is true, exactly when the tree
is true where a list was caught. -/
theorem holds_sound_iff {e : Expr} {t : Text} {r : Record}
    (ht : Prints false e t) (hr : r.IsTextual) :
    (holds t r = .ok true → e.Holds r) ↔ (Caught e t r → e.Holds r) := by
  constructor
  · intro h hcaught
    exact h (holds_of_caught hr hcaught)
  · intro h htrue
    exact (ht.holds_or_caught hr htrue).elim id h

/-! ## Two groups with lists

The smallest filter that is caught: two groups of one list each. Unwrapping
takes the first and the last parenthesis, and the first list is then read on to
the end of the second. -/

/-- A word as an item. -/
theorem isItem_word {v : Text}
    (h : v ≠ [] ∧ (∀ c ∈ v, isWord c = true) ∧ NoConnective v) :
    IsItem v :=
  .word h.1 h.2.1 h.2.2

/-- A field and IN with a space on either side of it. -/
def withinStem (field : Text)
    (h : field ≠ [] ∧ (∀ c ∈ field, isWord c = true) ∧ NoConnective field) :
    Stem where
  field := field
  before := " ".toText
  op := .within
  written := "IN".toText
  after := " ".toText
  field_ne_nil := h.1
  field_word := h.2.1
  noConnective := h.2.2
  blanks_before := by decide
  spells := by decide
  blanks_after := by decide
  before_ne_nil := by decide

/-- Two lists, each in a group of its own. -/
def groupedLists : Expr :=
  .and (.leaf "a IN (1, 2)".toText) (.leaf "b IN (3, 4)".toText)

theorem prints_groupedLists :
    Prints false groupedLists "(a IN (1, 2)) AND (b IN (3, 4))".toText := by
  have hand : IsConnective "AND".toText " AND ".toText :=
    ⟨" ".toText, "AND".toText, " ".toText, rfl,
      by decide, by decide, by decide, by decide, by decide⟩
  have ha : IsLeaf "a IN (1, 2)".toText :=
    .inr ⟨withinStem "a".toText (by decide), "(1, 2)".toText, rfl, rfl, [],
      "1, 2".toText, [], rfl, blanks_nil,
      .cons (isItem_word (v := "1".toText) (by decide)) blanks_nil blanks_space
        (.single (isItem_word (v := "2".toText) (by decide))), blanks_nil⟩
  have hb : IsLeaf "b IN (3, 4)".toText :=
    .inr ⟨withinStem "b".toText (by decide), "(3, 4)".toText, rfl, rfl, [],
      "3, 4".toText, [], rfl, blanks_nil,
      .cons (isItem_word (v := "3".toText) (by decide)) blanks_nil blanks_space
        (.single (isItem_word (v := "4".toText) (by decide))), blanks_nil⟩
  have hprints {l : Text} (hl : IsLeaf l) : Prints true (.leaf l) l := .leaf hl
  exact .and (.wrap (hprints ha) blanks_nil blanks_nil) hand
    (.wrap (hprints hb) blanks_nil blanks_nil)

/-- A record that is in the first list only. -/
def inFirstList : Record :=
  .ofFields [("a".toText, .text "1".toText), ("b".toText, .text "9".toText)]

theorem holds_groupedLists :
    holds "(a IN (1, 2)) AND (b IN (3, 4))".toText inFirstList = .ok true := by
  obtain ⟨v, hv, _⟩ := holds_eq_ok (show inFirstList.IsTextual by decide)
    "(a IN (1, 2)) AND (b IN (3, 4))".toText
  have htrue :
      (holds "(a IN (1, 2)) AND (b IN (3, 4))".toText inFirstList).toOption =
        some true := by
    decide +kernel
  rw [hv] at htrue ⊢
  rw [Option.some.inj htrue]

theorem condition_secondList :
    condition "b IN (3, 4)".toText inFirstList = .ok false := rfl

theorem holds_of_false_tree :
    Prints false groupedLists "(a IN (1, 2)) AND (b IN (3, 4))".toText ∧
      inFirstList.IsTextual ∧
      holds "(a IN (1, 2)) AND (b IN (3, 4))".toText inFirstList = .ok true ∧
      ¬ groupedLists.Holds inFirstList := by
  refine ⟨prints_groupedLists, by decide, holds_groupedLists, ?_⟩
  rintro ⟨_, hb⟩
  rw [Expr.Holds, condition_secondList] at hb
  cases hb

/-- The first list was caught. -/
theorem caught_groupedLists :
    Caught groupedLists "(a IN (1, 2)) AND (b IN (3, 4))".toText
        inFirstList := by
  by_cases hcaught :
      Caught groupedLists "(a IN (1, 2)) AND (b IN (3, 4))".toText inFirstList
  · exact hcaught
  · have hsound :=
      (holds_sound_iff prints_groupedLists (by decide)).2 fun h =>
        absurd h hcaught
    have hb := (hsound holds_groupedLists).2
    rw [Expr.Holds, condition_secondList] at hb
    cases hb

end RowSql.Filter

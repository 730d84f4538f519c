import RowSql.Proofs.Filter.Disjunction
import RowSql.Proofs.Filter.Pieces
import RowSql.Proofs.Record

/-!
# Filters printed from expression trees

A tree of AND and OR over leaves is printed with parentheses where precedence
asks for them, and around any other part one likes. The evaluator does not parse
such a text: below the top OR it only unwraps and cuts. What it makes of nested
groups is mostly text that is no leaf, which is false, so a tree that is true
can be missed. The other way round it errs in one case only: where the list of
an IN leaf is read on to a parenthesis that closes something else, and the value
happens to be an item of what was read.
-/

namespace RowSql.Filter

open Text

/-- A tree of leaves, which are given by their texts. -/
inductive Expr where
  | leaf (t : Text)
  | and (a b : Expr)
  | or (a b : Expr)

namespace Expr

/-- The usual meaning of a tree. -/
def Holds (r : Record) : Expr → Prop
  | leaf t => condition t r = .ok true
  | and a b => a.Holds r ∧ b.Holds r
  | or a b => a.Holds r ∨ b.Holds r

/-- The leaves from left to right. -/
def leafTexts : Expr → List Text
  | leaf t => [t]
  | and a b | or a b => a.leafTexts ++ b.leafTexts

/-- The connectives from left to right. -/
def connectiveWords : Expr → List Text
  | leaf _ => []
  | and a b => a.connectiveWords ++ "AND".toText :: b.connectiveWords
  | or a b => a.connectiveWords ++ "OR".toText :: b.connectiveWords

/-- Without OR, a tree whose leaves hold holds. -/
theorem holds_of_leaves {e : Expr} {r : Record}
    (hws : ∀ word ∈ e.connectiveWords, word = "AND".toText)
    (hls : ∀ l ∈ e.leafTexts, condition l r = .ok true) : e.Holds r := by
  induction e with
  | leaf t => exact hls t List.mem_cons_self
  | and a b iha ihb =>
      rw [connectiveWords, List.forall_mem_append, List.forall_mem_cons] at hws
      rw [leafTexts, List.forall_mem_append] at hls
      exact ⟨iha hws.1 hls.1, ihb hws.2.2 hls.2⟩
  | or a b iha ihb =>
      rw [connectiveWords, List.forall_mem_append, List.forall_mem_cons] at hws
      exact absurd hws.2.1 (by decide)

end Expr

/-- A text of a tree. A `tight` one can stand on either side of AND: it is no OR
without parentheses. -/
inductive Prints : Bool → Expr → Text → Prop
  | leaf {tight : Bool} {t : Text} (ht : IsLeaf t) : Prints tight (.leaf t) t
  | wrap {tight inner : Bool} {e : Expr} {b t b' : Text} (ht : Prints inner e t)
      (hb : Blanks b)
      (hb' : Blanks b') : Prints tight e (parenthesise (b ++ t ++ b'))
  | and {tight : Bool} {a b : Expr} {s c t : Text} (hs : Prints true a s)
      (hc : IsConnective "AND".toText c) (ht : Prints true b t) :
      Prints tight (.and a b) (s ++ c ++ t)
  | or {first second : Bool} {a b : Expr} {s c t : Text} (hs : Prints first a s)
      (hc : IsConnective "OR".toText c) (ht : Prints second b t) :
      Prints false (.or a b) (s ++ c ++ t)

theorem and_mem_connectives : "AND".toText ∈ connectives := List.mem_cons_self

theorem or_mem_connectives : "OR".toText ∈ connectives :=
  List.mem_cons_of_mem _ List.mem_cons_self

/-! ## Printed texts as operands

A printed text is trimmed and balanced and holds no word of a connective outside
of parentheses other than those of its own tree. So a tight one is an operand of
OR, whatever its tree. -/

theorem Prints.ne_nil {tight : Bool} {e : Expr} {t : Text}
    (h : Prints tight e t) : t ≠ [] := by
  induction h with
  | leaf ht => exact ht.seamless.ne_nil
  | wrap _ _ _ _ => exact parenthesise_ne_nil _
  | and _ _ _ ihs _ | or _ _ _ ihs _ =>
      intro hn
      rw [List.append_assoc] at hn
      exact ihs (List.append_eq_nil_iff.1 hn).1

theorem Prints.trimmed {tight : Bool} {e : Expr} {t : Text}
    (h : Prints tight e t) : Trimmed t := by
  induction h with
  | leaf ht => exact ht.seamless.trimmed
  | wrap _ _ _ _ => exact trimmed_parenthesise _
  | and hs _ ht ihs iht | or hs _ ht ihs iht =>
      exact ihs.append hs.ne_nil iht ht.ne_nil

theorem Prints.balanced {tight : Bool} {e : Expr} {t : Text}
    (h : Prints tight e t) :
    Scan.Balanced t := by
  induction h with
  | leaf ht => exact ht.balanced
  | wrap _ hb hb' ih =>
      exact (ih.pad hb hb').parenthesise
  | and _ hc _ ihs iht => exact hc.balanced_append isKeyword_and ihs iht
  | or _ hc _ ihs iht => exact hc.balanced_append isKeyword_or ihs iht

/-- No connective's word stands on its own in a seamless text. -/
theorem Seamless.not_holdsWord {k : Int} {t word : Text} (ht : Seamless k t)
    (hword : word ∈ connectives) : ¬ HoldsWord word t := by
  have hw := isKeyword_of_mem_connectives hword
  have hspace : Apart " ".toText := apart_cons.2 (by decide)
  rintro ⟨s, x, r, hsplit, hx, htop, hs, hr⟩
  -- the text is followed by a space, so that a word at its end is followed by
  -- one too
  have hafter : Bounded (r ++ " ".toText) :=
    hr.append (bounded_cons.2 (by decide))
  obtain ⟨b, hb, hrest⟩ := exists_eq_append_trimLeft (r ++ " ".toText)
  have hbne : b ≠ [] := by
    rintro rfl
    rw [List.nil_append] at hrest
    have hnil := hafter.eq_nil (hrest ▸ flushLeft_trimLeft _)
    exact absurd (List.append_eq_nil_iff.1 hnil).2 (by decide)
  rcases List.eq_nil_or_concat s with rfl | ⟨s, c, rfl⟩
  · obtain ⟨d, b, rfl⟩ := List.exists_cons_of_ne_nil hbne
    refine ht.opens word hword _ hspace ⟨x, d, b ++ trimLeft (r ++ " ".toText),
      ?_, hx, (blanks_cons.1 hb).1⟩
    rw [hsplit, List.nil_append, List.append_assoc]
    exact congrArg (x ++ ·) hrest
  · rw [List.concat_eq_append] at hsplit htop hs
    rw [List.reverse_append] at hs
    have hc : isBlank c = true := bounded_cons.1 hs
    have hcut := ht.uncut word hword 0 _ hspace
    have hassoc : t = s ++ (c :: (x ++ r)) := by
      rw [hsplit]
      simp
    rw [hassoc, uncut_append] at hcut
    have hsome : afterConnective? word (c :: (x ++ r) ++ " ".toText) =
        some (trimLeft (r ++ " ".toText)) := by
      refine (afterConnective?_eq_some_iff hw).2 ⟨[c] ++ x ++ b,
        ⟨[c], x, b, rfl, blanks_cons.2 ⟨hc, blanks_nil⟩, List.cons_ne_nil c [],
          hx, hb, hbne⟩, ?_, flushLeft_trimLeft _⟩
      rw [List.append_assoc, ← hrest]
      simp
    rw [Scan.run_append] at htop
    rw [hcut.2.1 htop] at hsome
    cases hsome

theorem Prints.operand {tight : Bool} {e : Expr} {t : Text}
    (h : Prints tight e t) (htight : tight = true) : Operand "OR".toText t := by
  refine ⟨h.ne_nil, h.trimmed, h.balanced, ?_⟩
  induction h with
  | leaf ht => exact ht.seamless.not_holdsWord or_mem_connectives
  | wrap ht hb hb' _ =>
      exact not_holdsWord_parenthesise isKeyword_or (ht.balanced.pad hb hb')
  | and hs hc ht ihs iht =>
      exact hc.not_holdsWord_append isKeyword_or isKeyword_and
        (by decide) hs.balanced.closed
        (ihs rfl) (iht rfl)
  | or _ _ _ _ _ => cases htight

/-! ## The branches of a printed text

Around the whole there may be parentheses, which unwrapping takes off; below
them the text is a disjunction of tight texts. Only this top level of a tree is
parsed. -/

theorem Joined.append {word c s t : Text} {us vs : List Text}
    (hs : Joined word us s) (hc : IsConnective word c) (ht : Joined word vs t) :
    Joined word (us ++ vs) (s ++ c ++ t) := by
  induction hs with
  | single u => exact .cons hc ht
  | @cons u c' r us hc' _ ih =>
      have hassoc : u ++ c' ++ r ++ c ++ t = u ++ c' ++ (r ++ c ++ t) := by simp
      rw [hassoc]
      exact .cons hc' ih

/-- The trees of a disjunction, with their texts. -/
structure IsDisjunction (bs : List (Expr × Text)) (e : Expr) (t : Text) :
    Prop where
  prints : ∀ b ∈ bs, Prints true b.1 b.2
  joined : Joined "OR".toText (bs.map Prod.snd) t
  leaves : ∀ b ∈ bs, ∀ l ∈ b.1.leafTexts, l ∈ e.leafTexts
  holds_iff : ∀ r, e.Holds r ↔ ∃ b ∈ bs, b.1.Holds r

/-- A printed text is tight texts joined by OR, and its tree is the disjunction
of theirs. -/
theorem Prints.exists_branches {tight : Bool} {e : Expr} {t : Text}
    (h : Prints tight e t) :
    ∃ bs, IsDisjunction bs e t := by
  have hone : ∀ {e t}, Prints true e t → ∃ bs, IsDisjunction bs e t := by
    intro e t h
    exact ⟨[(e, t)], List.forall_mem_singleton.2 h, .single t,
      List.forall_mem_singleton.2 fun _ hl => hl, fun r => by simp⟩
  induction h with
  | leaf ht => exact hone (.leaf ht)
  | wrap ht hb hb' _ => exact hone (.wrap ht hb hb')
  | and hs hc ht _ _ => exact hone (.and hs hc ht)
  | or hs hc ht ihs iht =>
      obtain ⟨bs, hbs⟩ := ihs
      obtain ⟨cs, hcs⟩ := iht
      refine ⟨bs ++ cs, List.forall_mem_append.2 ⟨hbs.prints, hcs.prints⟩, ?_,
        ?_, fun r => ?_⟩
      · rw [List.map_append]
        exact hbs.joined.append hc hcs.joined
      · rw [List.forall_mem_append]
        exact ⟨fun b hb l hl => List.mem_append_left _ (hbs.leaves b hb l hl),
          fun b hb l hl => List.mem_append_right _ (hcs.leaves b hb l hl)⟩
      · rw [Expr.Holds, hbs.holds_iff, hcs.holds_iff]
        simp [or_and_right, exists_or]

/-! ## Printed texts as chains

Below the top the nesting is forgotten. A printed text is a chain of its leaves
and connectives, and parentheses around a chain are more parentheses at its
ends. -/

theorem Chain.prepend {short : Bool} {ls ws : List Text} {o t : Text}
    (h : Chain short ls ws t) (ho : Openers o) :
    Chain short ls ws (o ++ t) := by
  cases h with
  | last ho' hl hz =>
      rw [← List.append_assoc]
      exact .last (openers_append.2 ⟨ho, ho'⟩) hl hz
  | stump ho' hl hb =>
      rw [← List.append_assoc]
      exact .stump (openers_append.2 ⟨ho, ho'⟩) hl hb
  | cons ho' hl hz hlast hword hc hfirst ht =>
      rw [← List.append_assoc]
      exact .cons (openers_append.2 ⟨ho, ho'⟩) hl hz hlast hword hc hfirst ht

/-- A chain that has lost nothing can be closed. -/
theorem Chain.append_closers {short : Bool} {ls ws : List Text} {t z : Text}
    (h : Chain short ls ws t) (hshort : short = false) (hz : Closers z) :
    Chain false ls ws (t ++ z) := by
  induction h with
  | last ho hl hz' =>
      rw [List.append_assoc, List.append_assoc]
      exact .last ho hl (closers_append.2 ⟨hz', hz⟩)
  | stump _ _ _ => cases hshort
  | cons ho hl hz' hlast hword hc hfirst ht ih =>
      simp only [List.append_assoc]
      exact .cons ho hl hz' hlast hword hc
        ((flushLeft_append ht.ne_nil).2 hfirst) (ih hshort)

/-- A chain that has lost nothing can be continued. -/
theorem Chain.append {short : Bool} {ls ws ls' ws' : List Text}
    {s word c t : Text} (h : Chain short ls ws s) (hshort : short = false)
    (hlast : FlushRight s) (hword : word ∈ connectives)
    (hc : IsConnective word c) (hfirst : FlushLeft t)
    (ht : Chain false ls' ws' t) :
    Chain false (ls ++ ls') (ws ++ word :: ws') (s ++ c ++ t) := by
  induction h with
  | last ho hl hz =>
      simp only [List.append_assoc]
      exact .cons ho hl hz hlast.of_append.of_append hword hc hfirst ht
  | stump _ _ _ => cases hshort
  | cons ho hl hz hlast' hword' hc' hfirst' ht' ih =>
      have htail := ih hshort hlast.of_append.of_append.of_append.of_append
      simp only [List.append_assoc] at htail ⊢
      exact .cons ho hl hz hlast' hword' hc'
        ((flushLeft_append ht'.ne_nil).2 hfirst') htail

theorem Prints.chain {tight : Bool} {e : Expr} {t : Text}
    (h : Prints tight e t) :
    Chain false e.leafTexts e.connectiveWords t := by
  induction h with
  | leaf ht =>
      have hlast : Chain false _ [] ([] ++ (_ ++ [])) :=
        .last openers_nil ht closers_nil
      rwa [List.append_nil] at hlast
  | @wrap tight inner e b t b' _ hb hb' ih =>
      have hsplit :
          parenthesise (b ++ t ++ b') =
            (.char '(' :: b) ++ (t ++ (b' ++ [.char ')'])) := by
        simp [parenthesise]
      rw [hsplit]
      refine (ih.append_closers rfl ?_).prepend ?_
      · exact closers_append.2 ⟨closers_of_blanks hb',
          closers_cons.2 ⟨.inl rfl, closers_nil⟩⟩
      · exact openers_cons.2 ⟨.inl rfl, openers_of_blanks hb⟩
  | and hs hc ht ihs iht =>
      exact ihs.append rfl hs.trimmed.last and_mem_connectives hc
        ht.trimmed.head iht
  | or hs hc ht ihs iht =>
      exact ihs.append rfl hs.trimmed.last or_mem_connectives hc
        ht.trimmed.head iht

end RowSql.Filter

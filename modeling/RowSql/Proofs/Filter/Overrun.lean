import RowSql.Proofs.Filter.LeafForm

/-!
# Leaves with something behind them

Unwrapping and cutting can leave a leaf with more text behind it, which began
with a blank or a closing parenthesis and has a blank somewhere. Such a text is
no leaf, because no literal reads on into it, with one exception: a list is read
up to the last parenthesis of the text, and what it overran becomes items of it.
-/

namespace RowSql.Filter

open Text

/-- One of the leaves has a list, and behind it stands more text that ends in a
parenthesis. -/
def Overruns (ls : List Text) (t : Text) : Prop :=
  ∃ l ∈ ls, IsListLeaf l ∧ ∃ rest, t = l ++ rest ∧ rest ≠ [] ∧
    rest.getLast? = some (.char ')')

/-! ## Values

A value with a blank in it stands in quotes or in parentheses, so its first mark
is also at its end. More text behind a literal therefore makes it no value,
unless it is a list and the text ends in a parenthesis. -/

/-- A value with a blank in it is in parentheses or in quotes. -/
theorem of_isLeafValue {t : Text} {c : CodePoint} (h : isLeafValue t = true)
    (hc : c ∈ t) (hb : isBlank c = true) :
    (∃ u, t = parenthesise u) ∨ ∃ q p, isQuote q = true ∧ t = between q p ∧
    q ∉ p := by
  rw [isLeafValue, Bool.or_eq_true, Bool.or_eq_true, Bool.or_eq_true,
    isParenthesised_iff, isQuotedBy_iff, isQuotedBy_iff, Bool.and_eq_true,
    List.all_eq_true] at h
  rcases h with ((h | ⟨p, hp, hq⟩) | ⟨p, hp, hq⟩) | h
  · exact .inl h
  · exact .inr ⟨'"', p, rfl, hp, hq⟩
  · exact .inr ⟨'\'', p, rfl, hp, hq⟩
  · have hn := h.2 c hc
    rw [hb] at hn
    cases hn

/-- The literals of a leaf with more text behind them. -/
theorem not_isLeafValue_append {v rest : Text} (hv : IsItem v) (hne : rest ≠ [])
    {c : CodePoint} (hc : c ∈ rest) (hb : isBlank c = true) :
    isLeafValue (v ++ rest) = false := by
  cases hval : isLeafValue (v ++ rest) with
  | false => rfl
  | true =>
      exfalso
      rcases of_isLeafValue hval (List.mem_append_right v hc) hb with
        ⟨u, hu⟩ | ⟨q, p, hq, hp, hqp⟩
      · cases hv with
        | @quoted q p hq hp =>
            have hhead := congrArg List.head? hu
            rw [between, List.cons_append, List.cons_append, List.head?_cons]
              at hhead
            cases hhead
            cases hq
        | word hvne hword hn =>
            obtain ⟨d, v, rfl⟩ := List.exists_cons_of_ne_nil hvne
            have hhead := congrArg List.head? hu
            rw [List.cons_append, List.head?_cons] at hhead
            have hd := hword d List.mem_cons_self
            cases hhead
            exact absurd hd (by decide)
      · cases hv with
        | @quoted q' p' hq' hp' =>
            -- the quote that closes the item would stand inside of the value
            rw [between, between, List.cons_append, List.cons_append,
              List.cons_append, List.cons.injEq] at hp
            obtain ⟨rfl, hp⟩ := hp
            obtain ⟨rest, d, rfl⟩ :=
              (List.eq_nil_or_concat rest).resolve_left hne
            rw [List.concat_eq_append, ← List.append_assoc] at hp
            refine hqp ((List.append_singleton_inj.1 hp).1 ▸ ?_)
            simp
        | word hvne hword hn =>
            obtain ⟨d, v, rfl⟩ := List.exists_cons_of_ne_nil hvne
            have hd := hword d List.mem_cons_self
            rw [between, List.cons_append, List.cons_append, List.cons.injEq]
              at hp
            have hn := isQuote_of_isWord hd
            rw [hp.1, hq] at hn
            cases hn

/-- A list with more text behind it, which does not end like a list. -/
theorem not_isLeafValue_parenthesise_append {t rest : Text} (hne : rest ≠ [])
    (hlast : rest.getLast? ≠ some (.char ')')) {c : CodePoint} (hc : c ∈ rest)
    (hb : isBlank c = true) : isLeafValue (parenthesise t ++ rest) = false := by
  cases hval : isLeafValue (parenthesise t ++ rest) with
  | false => rfl
  | true =>
      exfalso
      rcases of_isLeafValue hval (List.mem_append_right _ hc) hb with ⟨u, hu⟩ |
        ⟨q, p, hq, hp, _⟩
      · have hend := congrArg List.getLast? hu
        rw [List.getLast?_append, List.getLast?_eq_some_getLast hne,
          Option.some_or, ← List.getLast?_eq_some_getLast hne, parenthesise,
          List.getLast?_concat] at hend
        exact hlast hend
      · rw [parenthesise, between, List.cons_append, List.cons_append,
          List.cons_append, List.cons.injEq] at hp
        rw [← hp.1] at hq
        cases hq

/-! ## Leaves

What begins like a leaf is read like that leaf or not at all. So more behind
a leaf means that nothing is read and nothing holds, or that its list is
read on. -/

/-- A literal cannot begin with a sign. -/
theorem Stem.written_append (s : Stem) {v rest : Text} (hv : v ≠ [])
    (hacc : s.Accepts v) (heq : ∀ r, v ≠ .char '=' :: r) :
    Written s.op s.before s.written (s.after ++ (v ++ rest)) := by
  obtain ⟨c, v, rfl⟩ := List.exists_cons_of_ne_nil hv
  refine ⟨s.blanks_before, s.spells, s.before_ne_nil, ?_, ?_⟩
  · intro hop
    cases ha : s.after with
    | nil => exact hacc hop ha
    | cons d a =>
        have hd := s.blanks_after
        rw [ha] at hd
        rw [List.cons_append, beginsWithWord]
        cases hw : isWord d with
        | false => rfl
        | true =>
            have hb := isBlank_of_isWord hw
            rw [(blanks_cons.1 hd).1] at hb
            cases hb
  · intro r hr
    cases ha : s.after with
    | nil =>
        rw [ha, List.nil_append, List.cons_append, List.cons.injEq] at hr
        exact heq v (by rw [hr.1])
    | cons d a =>
        have hd := s.blanks_after
        rw [ha] at hd hr
        rw [List.cons_append, List.cons.injEq] at hr
        have hb := (blanks_cons.1 hd).1
        rw [hr.1] at hb
        exact absurd hb (by decide)

/-- A text that begins like a leaf is none when what would be its value is
none. -/
theorem Stem.read?_eq_none (s : Stem) {v rest : Text} (hv : v ≠ [])
    (hflush : FlushLeft v) (hacc : s.Accepts v) (heq : ∀ r, v ≠ .char '=' :: r)
    (hlast : FlushRight (v ++ rest)) {c : CodePoint} (hc : c ∈ rest)
    (hb : isBlank c = true) (hval : isLeafValue (v ++ rest) = false) :
    Leaf.read? (s.text ++ (v ++ rest)) = none := by
  have hne : v ++ rest ≠ [] := fun hn => hv (List.append_eq_nil_iff.1 hn).1
  have htrimmed : Trimmed (v ++ rest) := ⟨(flushLeft_append hv).2 hflush, hlast⟩
  have htrim : trim (s.after ++ (v ++ rest)) = v ++ rest := by
    have h := trim_blanks_append (t := v ++ rest) s.blanks_after blanks_nil
    rwa [List.append_nil, htrimmed.trim_eq] at h
  have hsigned :
      isLeafValue (trim (.char '=' :: (s.after ++ (v ++ rest)))) = false := by
    have hflat : Trimmed (.char '=' :: (s.after ++ (v ++ rest))) := by
      refine ⟨flushLeft_cons.2 (by decide), ?_⟩
      rw [← List.cons_append]
      exact (flushRight_append hne).2 hlast
    rw [hflat.trim_eq]
    cases hval' : isLeafValue (.char '=' :: (s.after ++ (v ++ rest))) with
    | false => rfl
    | true =>
        exfalso
        have hmem : c ∈ .char '=' :: (s.after ++ (v ++ rest)) :=
          List.mem_cons_of_mem _
            (List.mem_append_right _ (List.mem_append_right v hc))
        rcases of_isLeafValue hval' hmem hb with ⟨u, hu⟩ | ⟨q, p, hq, hp, _⟩
        · rw [parenthesise, List.cons_append, List.cons.injEq] at hu
          exact absurd hu.1 (by decide)
        · rw [between, List.cons_append, List.cons.injEq] at hp
          rw [← hp.1] at hq
          cases hq
  have hread := Leaf.read?_eq ⟨s.field_ne_nil, s.field_word⟩
    (s.written_append hv hacc heq) (.inr hsigned)
  rw [htrim, hval] at hread
  rw [Stem.text, List.append_assoc, List.append_assoc, List.append_assoc, hread]
  rfl

theorem condition_eq_of_none {t : Text} {r : Record} (h : Leaf.read? t = none) :
    condition t r = .ok false := by
  rw [condition, h]
  rfl

/-- A leaf with more behind it holds of nothing, unless its list overruns. -/
theorem overruns_of_condition {ls : List Text} {l rest : Text} {r : Record}
    (hl : IsLeaf l) (hmem : l ∈ ls) (hne : rest ≠ [])
    (hlast : FlushRight (l ++ rest)) {c : CodePoint} (hc : c ∈ rest)
    (hb : isBlank c = true) (h : condition (l ++ rest) r = .ok true) :
    Overruns ls (l ++ rest) := by
  have hnone : ∀ {t : Text}, Leaf.read? t = none →
      condition t r ≠ .ok true := by
    intro t ht htrue
    rw [condition_eq_of_none ht] at htrue
    cases htrue
  rcases hl with ⟨s, v, rfl, hacc, hv⟩ | ⟨s, v, rfl, hop, hv⟩
  · exfalso
    have hseam := hv.seamless
    have heq : ∀ u, v ≠ .char '=' :: u := by
      rintro u rfl
      cases hv with
      | quoted hq hp => cases hq
      | word _ hword _ => exact absurd (hword _ List.mem_cons_self) (by decide)
    rw [List.append_assoc] at h hlast
    exact hnone (s.read?_eq_none hseam.ne_nil hseam.trimmed.head hacc heq
      hlast.of_append hc hb (not_isLeafValue_append hv hne hc hb)) h
  · by_cases hrest : rest.getLast? = some (.char ')')
    · exact ⟨s.text ++ v, hmem, ⟨s, v, rfl, hop, hv⟩, rest, rfl, hne, hrest⟩
    · exfalso
      have hseam := hv.seamless
      obtain ⟨b, t, b', rfl, _⟩ := hv
      rw [List.append_assoc] at h hlast
      refine hnone (s.read?_eq_none hseam.ne_nil hseam.trimmed.head
        (fun _ _ => rfl) ?_ hlast.of_append hc hb
          (not_isLeafValue_parenthesise_append hne hrest hc hb)) h
      intro u hu
      rw [parenthesise, List.cons_append, List.cons.injEq] at hu
      exact absurd hu.1 (by decide)

end RowSql.Filter

import RowSql.Filter.Basic
import RowSql.Proofs.Filter.Overrun

/-!
# Chains

However a filter is nested, its text is a chain: a leaf with opening parentheses
before it and closing ones behind it, a connective, the next leaf with its
parentheses, and so on to the end. Unwrapping takes parentheses from the two
ends of a chain, without asking whether they belong together, and so leaves a
chain, of which the last leaf may have lost the parenthesis that its own list
ended with.

When such a chain is cut at AND, a piece either is one leaf with as many opening
as closing parentheses, or has a connective inside, and then it is no leaf any
more unless a list overruns. So if every piece holds and none overruns, every
leaf holds and AND is the only connective.
-/

namespace RowSql.Filter

open Text

/-- The leaves and the connectives of a text. When `short` is set, the last leaf
may have lost the parenthesis at its end. -/
inductive Chain : Bool → List Text → List Text → Text → Prop
  | last {short : Bool} {o l z : Text} (ho : Openers o) (hl : IsLeaf l)
      (hz : Closers z) :
      Chain short [l] [] (o ++ (l ++ z))
  | stump {o l b t : Text} (ho : Openers o) (hl : IsStump l) (hb : Blanks b) :
      Chain true [t] [] (o ++ (l ++ b))
  | cons {short : Bool} {o l z word c t : Text} {ls ws : List Text}
      (ho : Openers o)
      (hl : IsLeaf l) (hz : Closers z) (hlast : FlushRight z)
        (hword : word ∈ connectives)
      (hc : IsConnective word c) (hfirst : FlushLeft t)
        (ht : Chain short ls ws t) :
      Chain short (l :: ls) (word :: ws) (o ++ (l ++ (z ++ (c ++ t))))

/-! ## The ends of a chain

Unwrapping takes a character from either end. At the head that is a parenthesis
or a blank before the first leaf, at the end one behind the last leaf, or else
the parenthesis of that leaf's own list, and then the chain is a short one. -/

theorem Chain.ne_nil {short : Bool} {ls ws : List Text} {t : Text}
    (h : Chain short ls ws t) :
    t ≠ [] := by
  have hleaf : ∀ {o l r : Text}, OpensWord l → o ++ (l ++ r) ≠ [] :=
    fun {o} _ r hl =>
      List.append_ne_nil_of_right_ne_nil o (hl.append r).ne_nil
  cases h with
  | last _ hl _ => exact hleaf hl.opensWord
  | stump _ hl _ => exact hleaf hl.opensWord
  | cons _ hl _ _ _ _ _ _ => exact hleaf hl.opensWord

/-- A chain that has lost nothing is one that may have. -/
theorem Chain.weaken {short : Bool} {ls ws : List Text} {t : Text}
    (h : Chain short ls ws t) :
    Chain true ls ws t := by
  induction h with
  | last ho hl hz => exact .last ho hl hz
  | stump ho hl hb => exact .stump ho hl hb
  | cons ho hl hz hlast hword hc hfirst _ ih =>
      exact .cons ho hl hz hlast hword hc hfirst ih

theorem isBlank_or_closing_of_isWord {c : CodePoint} (hw : isWord c = true) :
    ¬ (c = .char '(' ∨ isBlank c = true) := by
  rintro (rfl | hb)
  · exact absurd hw (by decide)
  · rw [isBlank_of_isWord hw] at hb
    cases hb

/-- A parenthesis or a blank can be taken from the head of a chain. -/
theorem Chain.dropHead {short : Bool} {ls ws : List Text} {c : CodePoint}
    {t : Text} (h : Chain short ls ws (c :: t))
    (hc : c = .char '(' ∨ isBlank c = true) :
    Chain short ls ws t := by
  have hopen : ∀ {o l r : Text}, OpensWord l → o ++ (l ++ r) = c :: t →
      ∃ o', o = c :: o' ∧ t = o' ++ (l ++ r) := by
    rintro o _ r ⟨d, s, rfl, hd⟩ heq
    cases o with
    | nil =>
        rw [List.nil_append, List.cons_append, List.cons.injEq] at heq
        exact absurd hc (heq.1 ▸ isBlank_or_closing_of_isWord hd)
    | cons e o =>
        rw [List.cons_append, List.cons.injEq] at heq
        exact ⟨o, by rw [heq.1], heq.2.symm⟩
  generalize hs : c :: t = s at h
  cases h with
  | last ho hl hz =>
      obtain ⟨o', rfl, rfl⟩ := hopen hl.opensWord hs.symm
      exact .last (openers_cons.1 ho).2 hl hz
  | stump ho hl hb =>
      obtain ⟨o', rfl, rfl⟩ := hopen hl.opensWord hs.symm
      exact .stump (openers_cons.1 ho).2 hl hb
  | cons ho hl hz hlast hword hc' hfirst ht =>
      obtain ⟨o', rfl, rfl⟩ := hopen hl.opensWord hs.symm
      exact .cons (openers_cons.1 ho).2 hl hz hlast hword hc' hfirst ht

/-- What ends in a parenthesis is a leaf with a list, and loses it. -/
theorem IsLeaf.dropLast {l : Text} (h : IsLeaf (l ++ [.char ')'])) :
    ∃ l' b, l = l' ++ b ∧ IsStump l' ∧ Blanks b := by
  rcases h with ⟨s, v, hl, _, hv⟩ | ⟨s, v, hl, hop, b, t, b', rfl, hb, ht, hb'⟩
  · obtain ⟨u, d, rfl, _, hd⟩ := hv.exists_concat
    rw [← List.append_assoc] at hl
    exact absurd (List.append_singleton_inj.1 hl).2.symm hd
  · rw [parenthesise, ← List.append_assoc] at hl
    refine ⟨s.text ++ (.char '(' :: (b ++ t)), b', ?_,
      ⟨s, b, t, rfl, hop, hb, ht⟩, hb'⟩
    rw [(List.append_singleton_inj.1 hl).1]
    simp

theorem IsStump.exists_concat {l : Text} (h : IsStump l) :
    ∃ u d, l = u ++ [d] ∧ isBlank d = false ∧ d ≠ ')' := by
  obtain ⟨s, b, t, rfl, _, _, ht⟩ := h
  obtain ⟨u, d, rfl, hd⟩ := ht.exists_concat
  refine ⟨s.text ++ (.char '(' :: (b ++ u)), d, ?_, hd⟩
  simp

/-- A parenthesis or a blank can be taken from the end of a chain. -/
theorem Chain.dropLast {short : Bool} {ls ws : List Text} {t : Text}
    {c : CodePoint} (h : Chain short ls ws (t ++ [c]))
    (hc : c = .char ')' ∨ isBlank c = true) :
    Chain true ls ws t := by
  generalize hs : t ++ [c] = s at h
  induction h generalizing t with
  | @last short o l z ho hl hz =>
      rcases List.eq_nil_or_concat z with rfl | ⟨z, d, rfl⟩
      · obtain ⟨u, d, rfl⟩ :=
          (List.eq_nil_or_concat l).resolve_left hl.seamless.ne_nil
        rw [List.concat_eq_append] at hl hs
        rw [List.append_nil, ← List.append_assoc] at hs
        obtain ⟨rfl, rfl⟩ := List.append_singleton_inj.1 hs
        rcases hc with rfl | hb
        · obtain ⟨l', b, rfl, hl', hb⟩ := hl.dropLast
          exact .stump ho hl' hb
        · rw [flushRight_concat.1 hl.seamless.trimmed.last] at hb
          cases hb
      · rw [List.concat_eq_append] at hz hs
        rw [← List.append_assoc, ← List.append_assoc] at hs
        obtain ⟨rfl, _⟩ := List.append_singleton_inj.1 hs
        rw [List.append_assoc]
        exact .last ho hl (closers_append.1 hz).1
  | @stump o l b t' ho hl hb =>
      rcases List.eq_nil_or_concat b with rfl | ⟨b, d, rfl⟩
      · obtain ⟨u, d, rfl, hblank, hne⟩ := hl.exists_concat
        rw [List.append_nil, ← List.append_assoc] at hs
        rw [(List.append_singleton_inj.1 hs).2] at hc
        rcases hc with hc | hc
        · exact absurd hc hne
        · rw [hblank] at hc
          cases hc
      · rw [List.concat_eq_append] at hb hs
        rw [← List.append_assoc, ← List.append_assoc] at hs
        obtain ⟨rfl, _⟩ := List.append_singleton_inj.1 hs
        rw [List.append_assoc]
        exact .stump ho hl (blanks_append.1 hb).1
  | @cons short o l z word c' t' ls ws ho hl hz hlast hword hc' hfirst ht ih =>
      obtain ⟨u, d, rfl⟩ := (List.eq_nil_or_concat t').resolve_left ht.ne_nil
      rw [List.concat_eq_append] at hs ht hfirst ih
      have hsplit :
          o ++ (l ++ (z ++ (c' ++ (u ++ [d])))) =
            o ++ (l ++ (z ++ (c' ++ u))) ++ [d] := by
        simp
      rw [hsplit] at hs
      obtain ⟨rfl, rfl⟩ := List.append_singleton_inj.1 hs
      have hu := ih rfl
      exact .cons ho hl hz hlast hword hc'
        ((flushLeft_append hu.ne_nil).1 hfirst) hu

/-! ## Unwrapping

What is taken off at both ends is as much opening as closing, so a scan of what
is left comes to the state that it comes to behind the whole. Only the states in
between are lower. -/

theorem run_openers {o : Text} (ho : Openers o) (d : Int) :
    (Scan.outside d).run o = Scan.outside (d + o.count (.char '(')) := by
  induction o generalizing d with
  | nil => rw [List.count_nil, Int.natCast_zero, Int.add_zero, Scan.run_nil]
  | cons c o ih =>
      rw [openers_cons] at ho
      rw [Scan.run_cons]
      rcases ho.1 with rfl | hc
      · rw [Scan.outside, Scan.step_opening, ih ho.2, List.count_cons_self]
        exact congrArg Scan.outside (by omega)
      · rw [Scan.outside, Scan.step_plain (Scan.plain_of_isBlank hc), ih ho.2,
          List.count_cons_of_ne (by rintro rfl; exact absurd hc (by decide))]

theorem run_closers {z : Text} (hz : Closers z) (d : Int) :
    (Scan.outside d).run z = Scan.outside (d - z.count (.char ')')) := by
  induction z generalizing d with
  | nil => rw [List.count_nil, Int.natCast_zero, Int.sub_zero, Scan.run_nil]
  | cons c z ih =>
      rw [closers_cons] at hz
      rw [Scan.run_cons]
      rcases hz.1 with rfl | hc
      · rw [Scan.outside, Scan.step_closing, ih hz.2, List.count_cons_self]
        exact congrArg Scan.outside (by omega)
      · rw [Scan.outside, Scan.step_plain (Scan.plain_of_isBlank hc), ih hz.2,
          List.count_cons_of_ne (by rintro rfl; exact absurd hc (by decide))]

/-- The state behind a leaf and the parentheses around it. -/
theorem run_cell {k : Int} {o l z : Text} (ho : Openers o) (hl : Seamless k l)
    (hz : Closers z) (d : Int) : (Scan.outside d).run (o ++ (l ++ z)) =
      Scan.outside (d + (o.count (.char '(') + k - z.count (.char ')'))) := by
  rw [Scan.run_append, run_openers ho, Scan.run_append, hl.run, run_closers hz]
  exact congrArg Scan.outside (by omega)

theorem IsConnective.run_outside {word c : Text} (hword : word ∈ connectives)
    (hc : IsConnective word c) (d : Int) :
    (Scan.outside d).run c = Scan.outside d :=
  Scan.run_plain (hc.plain (isKeyword_of_mem_connectives hword)) d

/-- A chain closes its quotes. -/
theorem Chain.exists_run_eq {short : Bool} {ls ws : List Text} {t : Text}
    (h : Chain short ls ws t) :
    ∃ k, ∀ d, (Scan.outside d).run t = Scan.outside (d + k) := by
  induction h with
  | last ho hl hz => exact ⟨_, fun d => run_cell ho hl.seamless hz d⟩
  | stump ho hl hb =>
      exact ⟨_, fun d => run_cell ho hl.seamless (closers_of_blanks hb) d⟩
  | @cons short o l z word c t ls ws ho hl hz _ hword hc _ _ ih =>
      obtain ⟨k, hk⟩ := ih
      have hcell := run_cell ho hl.seamless hz
      refine ⟨o.count (.char '(') + 0 - z.count (.char ')') + k, fun d => ?_⟩
      have hsplit : o ++ (l ++ (z ++ (c ++ t))) = o ++ (l ++ z) ++ (c ++ t) :=
        by simp
      rw [hsplit, Scan.run_append, hcell, Scan.run_append,
        hc.run_outside hword, hk]
      exact congrArg Scan.outside (by omega)

theorem Chain.dropBlanksHead {short : Bool} {ls ws : List Text} {b t : Text}
    (h : Chain short ls ws (b ++ t)) (hb : Blanks b) : Chain short ls ws t := by
  induction b with
  | nil => exact h
  | cons c b ih =>
      rw [blanks_cons] at hb
      exact ih (h.dropHead (.inr hb.1)) hb.2

theorem Chain.dropBlanksLast {ls ws : List Text} {t b : Text}
    (h : Chain true ls ws (t ++ b)) (hb : Blanks b) : Chain true ls ws t := by
  induction b generalizing t with
  | nil => rwa [List.append_nil] at h
  | cons c b ih =>
      rw [blanks_cons] at hb
      rw [← List.singleton_append, ← List.append_assoc] at h
      exact (ih h hb.2).dropLast (.inr hb.1)

/-- Trimming a chain changes nothing that counts. -/
theorem Chain.trim {ls ws : List Text} {t : Text} (h : Chain true ls ws t) :
    Chain true ls ws (Text.trim t) ∧
    Scan.start.run (Text.trim t) = Scan.start.run t := by
  obtain ⟨b, hb, hleft⟩ := exists_eq_append_trimLeft t
  obtain ⟨b', hb', hright⟩ := exists_eq_trimRight_append (trimLeft t)
  have hl : Chain true ls ws (trimLeft t) := by
    rw [hleft] at h
    exact h.dropBlanksHead hb
  have hr : Chain true ls ws (Text.trim t) := by
    rw [hright] at hl
    exact hl.dropBlanksLast hb'
  refine ⟨hr, ?_⟩
  obtain ⟨k, hk⟩ := hr.exists_run_eq
  have hhead : (Scan.outside 0).run t = (Scan.outside 0).run (trimLeft t) := by
    have hsplit := congrArg (Scan.run (.outside 0)) hleft
    rwa [Scan.run_append, Scan.run_blanks hb] at hsplit
  have hlast :
      (Scan.outside 0).run (trimLeft t) =
        (Scan.outside 0).run (Text.trim t) := by
    have hsplit := congrArg (Scan.run (.outside 0)) hright
    rw [Scan.run_append] at hsplit
    exact hsplit.trans ((congrArg (Scan.run · b') (hk 0)).trans
      ((Scan.run_blanks hb' _).trans (hk 0).symm))
  exact (hhead.trans hlast).symm

/-- Unwrapping a chain leaves a chain of the same leaves and connectives, and a
scan comes out of both in the same state. -/
theorem Chain.unwrapParens {ls ws : List Text} {t : Text}
    (h : Chain true ls ws t) :
    Chain true ls ws (Filter.unwrapParens t) ∧
      Scan.start.run (Filter.unwrapParens t) = Scan.start.run t := by
  induction hn : t.length using Nat.strongRecOn generalizing t with
  | ind n ih =>
  subst hn
  obtain ⟨htrim, hrun⟩ := h.trim
  rw [Filter.unwrapParens]
  split
  · next u hu =>
      have hlen := Nat.lt_of_lt_of_le (length_of_inside? hu) (length_trim_le t)
      rw [inside?_eq_some_iff] at hu
      rw [hu, parenthesise, List.cons_append] at htrim
      have hin : Chain true ls ws u :=
        (htrim.dropHead (.inl rfl)).dropLast (.inl rfl)
      obtain ⟨hchain, hstate⟩ := ih u.length hlen hin rfl
      refine ⟨hchain, ?_⟩
      obtain ⟨k, hk⟩ := hin.exists_run_eq
      have hopen : Scan.start.run (.char '(' :: u) = Scan.outside (1 + k) := by
        rw [Scan.run_cons]
        exact (hk (0 + 1)).trans (congrArg Scan.outside (by omega))
      rw [hstate, ← hrun, hu, parenthesise, Scan.run_append, hopen]
      show (Scan.outside 0).run u = (Scan.outside (1 + k)).step ')'
      rw [hk, Scan.outside, Scan.outside, Scan.step_closing]
      exact congrArg Scan.outside (by omega)
  · exact ⟨htrim, hrun⟩

end RowSql.Filter

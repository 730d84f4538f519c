import RowSql.Proofs.Filter.Chain

/-!
# The pieces of a chain

A chain that is balanced as a whole is cut at the AND connectives that stand at
depth zero. The piece before the first connective is a leaf in matching
parentheses if there is a cut at that connective, and otherwise a piece with the
connective inside, which is no leaf unless its list overruns. By induction along
the chain the first case is the only one when all pieces hold and none overruns.
-/

namespace RowSql.Filter

open Text

/-! ## Cells are uncut

A leaf in parentheses is uncut at every depth, and so is a connective unless its
word is AND and it stands at depth zero. The depth in front of each is that of
the chain so far. -/

/-- The first thing that is not blank, in a text of blanks and one mark. -/
theorem exists_trimLeft_eq {a : CodePoint} {t : Text}
    (h : ∀ c ∈ t, c = a ∨ isBlank c = true) (ha : isBlank a = false)
    (hb : ¬ Blanks t) : ∃ u, trimLeft t = a :: u := by
  induction t with
  | nil => exact absurd blanks_nil hb
  | cons c t ih =>
      rw [List.forall_mem_cons] at h
      cases hc : isBlank c with
      | true =>
          rw [trimLeft_cons_blank hc]
          exact ih h.2 fun hbt => hb (blanks_cons.2 ⟨hc, hbt⟩)
      | false =>
          rcases h.1 with rfl | hc'
          · exact ⟨t, trimLeft_cons ha⟩
          · rw [hc] at hc'
            cases hc'

theorem uncut_openers {word o rest : Text} {st : Scan} (hw : IsKeyword word)
    (ho : Openers o) (hflush : FlushLeft rest)
    (hrest : ¬ OpensWithWord word rest) : Uncut word st rest o := by
  induction o generalizing st with
  | nil => trivial
  | cons c o ih =>
      refine ⟨fun _ => afterConnective?_eq_none hw ?_, ih (openers_cons.1 ho).2⟩
      by_cases hb : Blanks (c :: o)
      · rwa [trimLeft_append_blanks hb, hflush.trimLeft_eq]
      · obtain ⟨u, hu⟩ := exists_trimLeft_eq ho (by decide) hb
        rw [trimLeft_append hb, hu]
        exact not_opensWithWord_of_apart hw (apart_cons.2 (by decide))

theorem uncut_closers {word z rest : Text} {st : Scan} (hw : IsKeyword word)
    (hz : Closers z) (hlast : FlushRight z ∨ rest = []) :
    Uncut word st rest z := by
  induction z generalizing st with
  | nil => trivial
  | cons c z ih =>
      have htail : FlushRight z ∨ rest = [] :=
        hlast.imp_left fun h => FlushRight.of_append (s := [c]) h
      refine ⟨fun _ => afterConnective?_eq_none hw ?_,
        ih (closers_cons.1 hz).2 htail⟩
      by_cases hb : Blanks (c :: z)
      · rcases hlast with hlast | rfl
        · exact absurd hb (hlast.not_blanks (List.cons_ne_nil c z))
        · rw [List.append_nil, trimLeft_eq_nil_iff.2 hb]
          exact not_opensWithWord_of_apart hw apart_nil
      · obtain ⟨u, hu⟩ := exists_trimLeft_eq hz (by decide) hb
        rw [trimLeft_append hb, hu]
        exact not_opensWithWord_of_apart hw (apart_cons.2 (by decide))

theorem Closers.apart_append {z rest : Text} (hz : Closers z)
    (hrest : Apart rest) :
    Apart (z ++ rest) := by
  cases z with
  | nil => exact hrest
  | cons c z =>
      rcases (closers_cons.1 hz).1 with rfl | hc
      · exact apart_cons.2 (by decide)
      · exact (bounded_cons.2 hc).apart

section

variable {word : Text} (hword : word ∈ connectives)
include hword

/-- A leaf with the parentheses around it is uncut at every depth. -/
theorem uncut_cell {k : Int} {o l z rest : Text} (ho : Openers o)
    (hl : Seamless k l) (hz : Closers z) (hrest : Apart rest)
    (hlast : FlushRight z ∨ rest = []) (d : Int) :
    Uncut word (Scan.outside d) rest (o ++ (l ++ z)) := by
  have hw := isKeyword_of_mem_connectives hword
  have hzrest := hz.apart_append hrest
  rw [uncut_append, run_openers ho, uncut_append]
  refine ⟨?_, hl.uncut word hword _ _ hzrest, uncut_closers hw hz hlast⟩
  rw [List.append_assoc]
  exact uncut_openers hw ho ((flushLeft_append hl.ne_nil).2 hl.trimmed.head)
    (hl.opens word hword _ hzrest)

/-- A chain does not begin with a connective's word. -/
theorem Chain.not_opensWithWord {short : Bool} {ls ws : List Text} {t : Text}
    (h : Chain short ls ws t) (hflush : FlushLeft t) :
    ¬ OpensWithWord word t := by
  have hw := isKeyword_of_mem_connectives hword
  have hcell : ∀ {k : Int} {o l r : Text}, Openers o → Seamless k l → Apart r →
      FlushLeft (o ++ (l ++ r)) → ¬ OpensWithWord word (o ++ (l ++ r)) := by
    intro k o l r ho hl hr hf
    cases o with
    | nil => exact hl.opens word hword r hr
    | cons c o =>
        rcases (openers_cons.1 ho).1 with rfl | hc
        · exact not_opensWithWord_of_apart hw (apart_cons.2 (by decide))
        · rw [flushLeft_cons.1 hf] at hc
          cases hc
  cases h with
  | @last short o l z ho hl hz =>
      have hz' := hz.apart_append apart_nil
      rw [List.append_nil] at hz'
      exact hcell ho hl.seamless hz' hflush
  | @stump o l b _ ho hl hb =>
      have hb' := (closers_of_blanks hb).apart_append apart_nil
      rw [List.append_nil] at hb'
      exact hcell ho hl.seamless hb' hflush
  | cons ho hl hz hlast hword' hc hfirst ht =>
      exact hcell ho hl.seamless (hz.apart_append hc.bounded.apart) hflush

/-- A connective of another word is uncut. -/
theorem uncut_connective_of_ne {other c t : Text} (hother : other ∈ connectives)
    (hne : ¬ Spells word other) (hc : IsConnective other c)
    (hflush : FlushLeft t)
    (ht : ¬ OpensWithWord word t) {st : Scan} : Uncut word st t c := by
  have hw := isKeyword_of_mem_connectives hword
  have ho := isKeyword_of_mem_connectives hother
  obtain ⟨b, x, b', rfl, hb, _, hx, hb', hb'ne⟩ := hc
  have hsolid : ∀ c ∈ x, isBlank c = false :=
    fun c hc => ho.isBlank_of_mem hx hc
  rw [List.append_assoc, uncut_append, uncut_append]
  refine ⟨?_, uncut_of_solid hsolid, uncut_of_blanks hw hb' hflush ht⟩
  rw [List.append_assoc]
  exact uncut_of_blanks hw hb (ho.flushLeft hx _)
    (not_opensWithWord_append hw hsolid (fun h => hne (hx.symm.trans h))
      (hb'.bounded hb'ne).apart)

omit hword in
/-- A connective off the top is uncut. -/
theorem uncut_connective_of_depth {other c t : Text}
    (hother : other ∈ connectives) (hc : IsConnective other c) {d : Int}
    (hd : d ≠ 0) : Uncut word (Scan.outside d) t c := by
  refine uncut_of_forall fun u a v hs htop => ?_
  have hplain := hc.plain (isKeyword_of_mem_connectives hother)
  have hrun : (Scan.outside d).run (u ++ [a]) = Scan.outside d := by
    refine Scan.run_plain (fun e he => hplain e ?_) d
    rw [hs, ← List.singleton_append, ← List.append_assoc]
    exact List.mem_append_left v he
  rw [hrun, Scan.atTop_outside] at htop
  exact absurd htop hd

end

/-! ## Pieces with a connective inside

Behind the leaf that such a piece begins with stand closing parentheses and a
connective. It begins with a blank or a parenthesis, so the piece overruns or
holds of nothing. -/

/-- The last character that is neither blank nor a closing parenthesis. -/
theorem exists_closers_split {y : Text} (h : ¬ Closers y) :
    ∃ u d z, y = u ++ d :: z ∧ isBlank d = false ∧ d ≠ ')' ∧ Closers z := by
  induction y with
  | nil => exact absurd closers_nil h
  | cons c y ih =>
      by_cases hy : Closers y
      · refine ⟨[], c, y, rfl, ?_, ?_, hy⟩
        · exact Bool.eq_false_iff.2 fun hc => h (closers_cons.2 ⟨.inr hc, hy⟩)
        · exact fun hc => h (closers_cons.2 ⟨.inl hc, hy⟩)
      · obtain ⟨u, d, z, rfl, hd⟩ := ih hy
        exact ⟨c :: u, d, z, rfl, hd⟩

theorem read?_opening (t : Text) : Leaf.read? (.char '(' :: t) = none := by
  rw [Leaf.read?, trimLeft_cons (by decide), Leaf.readField?]
  rfl

/-- A piece with a connective inside holds of nothing, unless a list
overruns. -/
theorem overruns_of_mangled {ls : List Text} {word o l z c x : Text}
    {r : Record} (ho : Openers o) (hl : IsLeaf l) (hmem : l ∈ ls)
    (hword : word ∈ connectives) (hc : IsConnective word c)
    (h : condition (unwrapParens (o ++ (l ++ (z ++ (c ++ x))))) r = .ok true) :
    Overruns ls (unwrapParens (o ++ (l ++ (z ++ (c ++ x))))) := by
  have hw := isKeyword_of_mem_connectives hword
  obtain ⟨b, w, b', rfl, hb, hbne, hspell, hb', _⟩ := hc
  -- the word of the connective is left standing by everything that is taken off
  -- at the end
  have hnot : ¬ Closers (w ++ b' ++ x) := by
    obtain ⟨d, w, rfl⟩ := List.exists_cons_of_ne_nil (hw.spelling_ne_nil hspell)
    intro hclose
    rcases (closers_cons.1 hclose).1 with hd | hd
    · exact hw.ne_of_mem hspell List.mem_cons_self (by decide) hd
    · rw [hw.isBlank_of_mem hspell List.mem_cons_self] at hd
      cases hd
  obtain ⟨u, d, zz, hy, hdb, hdp, hzz⟩ := exists_closers_split hnot
  have hseam := hl.seamless
  have hsplit : o ++ (l ++ (z ++ (b ++ w ++ b' ++ x))) =
      o ++ ((l ++ (z ++ (b ++ u)) ++ [d]) ++ zz) := by
    simp only [List.append_assoc, List.singleton_append] at hy ⊢
    rw [hy]
  have htrimmed : Trimmed (l ++ (z ++ (b ++ u)) ++ [d]) := by
    refine ⟨?_, flushRight_concat.2 hdb⟩
    rw [List.append_assoc, flushLeft_append hseam.ne_nil]
    exact hseam.trimmed.head
  have hhead : OpensWord (l ++ (z ++ (b ++ u)) ++ [d]) :=
    (hl.opensWord.append _).append _
  rw [hsplit] at h ⊢
  obtain ⟨o', z', heq, _, ho'⟩ :=
    exists_unwrapParens_eq htrimmed hhead.ne_opening hhead.ne_nil
      (fun v hv => hdp (List.append_singleton_inj.1 hv).2) ho hzz
  have hflush :=
    (trimmed_unwrapParens (o ++ ((l ++ (z ++ (b ++ u)) ++ [d]) ++ zz))).last
  rw [heq] at h hflush ⊢
  rcases ho' with rfl | ⟨v, rfl⟩
  · have hassoc :
        [] ++ (l ++ (z ++ (b ++ u)) ++ [d] ++ z') =
          l ++ (z ++ (b ++ (u ++ ([d] ++ z')))) := by
      simp
    rw [hassoc] at h hflush ⊢
    obtain ⟨e, b, rfl⟩ := List.exists_cons_of_ne_nil hbne
    refine overruns_of_condition hl hmem (by simp) hflush (c := e) ?_
      (blanks_cons.1 hb).1 h
    exact List.mem_append_right z (List.mem_append_left _ List.mem_cons_self)
  · rw [List.cons_append, condition_eq_of_none (read?_opening _)] at h
    cases h

/-! ## A whole chain

The induction is along the chain, with the depth behind the cells so far. If the
parentheses of the first leaf match there is a cut behind it, and the rest is a
chain that begins at depth zero. -/

/-- A leaf whose parentheses match is the piece that it stands in. -/
theorem condition_of_matched {o l z : Text} {r : Record} (ho : Openers o)
    (hl : IsLeaf l) (hz : Closers z)
    (hcount : o.count (.char '(') = z.count (.char ')'))
    (h : condition (unwrapParens (o ++ (l ++ z))) r = .ok true) :
    condition l r = .ok true := by
  rwa [unwrapParens_matched hl.seamless.trimmed hl.opensWord.ne_opening ho hz
    hcount] at h

/-- A connective that is not AND, or that stands off the top, is uncut. -/
theorem uncut_connective {word c t : Text} {d : Int}
    (hword : word ∈ connectives) (hc : IsConnective word c)
    (hcut : ¬ (word = "AND".toText ∧ d = 0)) (hflush : FlushLeft t)
    (ht : ¬ OpensWithWord "AND".toText t) :
    Uncut "AND".toText (Scan.outside d) t c := by
  by_cases hand : word = "AND".toText
  · exact uncut_connective_of_depth hword hc fun hd => hcut ⟨hand, hd⟩
  · have hother :
        ∀ word ∈ connectives, word ≠ "AND".toText →
          ¬ Spells "AND".toText word := by
      decide
    exact uncut_connective_of_ne List.mem_cons_self hword
      (hother word hword hand) hc hflush ht

/-- When every piece of a balanced chain holds and none overruns, all its leaves
hold and nothing but AND is between them. -/
theorem Chain.all_hold {short : Bool} {ls ws all : List Text} {t : Text}
    {r : Record} (h : Chain short ls ws t) (hsub : ∀ l ∈ ls, l ∈ all)
    (hrun : Scan.start.run t = .start)
    (hps : ∀ p ∈ cutAtWord "AND".toText .start t, ¬ Blanks p →
      condition (Filter.unwrapParens p) r = .ok true ∧ ¬ Overruns all
      (Filter.unwrapParens p)) :
    (∀ word ∈ ws, word = "AND".toText) ∧ ∀ l ∈ ls,
    condition l r = .ok true := by
  have hand : "AND".toText ∈ connectives := List.mem_cons_self
  have hw := isKeyword_of_mem_connectives hand
  induction h with
  | @last short o l z ho hl hz =>
      have hstate := (run_cell ho hl.seamless hz 0).symm.trans hrun
      have hdepth :
          0 + (o.count (.char '(') + 0 - z.count (.char ')') : Int) = 0 :=
          congrArg Scan.depth hstate
      have huncut : Uncut "AND".toText .start [] (o ++ (l ++ z)) :=
        uncut_cell hand ho hl.seamless hz apart_nil (.inr rfl) 0
      rw [cutAtWord_of_uncut huncut, List.forall_mem_singleton] at hps
      refine ⟨(fun _ hmem => nomatch hmem), List.forall_mem_singleton.2 ?_⟩
      exact condition_of_matched ho hl hz (by omega)
        (hps (hl.opensWord.not_blanks o z)).1
  | @stump o l b _ ho hl hb =>
      have hstate :=
        (run_cell ho hl.seamless (closers_of_blanks hb) 0).symm.trans hrun
      have hdepth :
          0 + (o.count (.char '(') + 1 - b.count (.char ')') : Int) = 0 :=
          congrArg Scan.depth hstate
      have hzero : b.count (.char ')') = 0 := by
        refine List.count_eq_zero.2 fun hmem => ?_
        exact absurd (hb _ hmem) (by decide)
      omega
  | @cons short o l z word c t ls ws ho hl hz hlast hword hc hfirst ht ih =>
      rw [List.forall_mem_cons] at hsub
      have hstate : Scan.start.run (o ++ (l ++ z)) = _ :=
        run_cell ho hl.seamless hz 0
      have huncut : Uncut "AND".toText .start (c ++ t) (o ++ (l ++ z)) :=
        uncut_cell hand ho hl.seamless hz hc.bounded.apart (.inl hlast) 0
      have hsplit : o ++ (l ++ (z ++ (c ++ t))) = o ++ (l ++ z) ++ c ++ t := by
        simp
      rw [hsplit] at hps hrun
      by_cases hcut : word = "AND".toText ∧
          0 + (o.count (.char '(') + 0 - z.count (.char ')') : Int) = 0
      · obtain ⟨rfl, hdepth⟩ := hcut
        rw [hdepth] at hstate
        rw [cutAtWord_append_connective hw hc hfirst huncut
          (by rw [hstate]; rfl), List.forall_mem_cons] at hps
        have htail : Scan.start.run t = .start := by
          rw [Scan.run_append, Scan.run_append, hstate, hc.run_outside hand]
            at hrun
          exact hrun
        obtain ⟨hws, hls⟩ := ih hsub.2 htail hps.2
        have hleaf :=
          condition_of_matched ho hl hz (by omega)
            (hps.1 (hl.opensWord.not_blanks o z)).1
        exact ⟨List.forall_mem_cons.2 ⟨rfl, hws⟩,
          List.forall_mem_cons.2 ⟨hleaf, hls⟩⟩
      · -- the piece goes on behind the connective, and then it holds of nothing
        have hconnective :=
          uncut_connective hword hc hcut hfirst
            (ht.not_opensWithWord hand hfirst)
        rw [← hstate] at hconnective
        obtain ⟨p, hp⟩ :=
          exists_mem_of_uncut (uncut_append.2 ⟨huncut, hconnective⟩)
        have hassoc : o ++ (l ++ z) ++ c ++ p = o ++ (l ++ (z ++ (c ++ p))) :=
          by simp
        rw [hassoc] at hp
        obtain ⟨hcond, hover⟩ := hps _ hp (hl.opensWord.not_blanks o _)
        exact absurd (overruns_of_mangled ho hl hsub.1 hword hc hcond) hover

end RowSql.Filter

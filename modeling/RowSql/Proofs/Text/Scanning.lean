import RowSql.Text.Scan
import RowSql.Proofs.Text.Letters

/-!
# What a scan knows after a text

A scan is run over texts that are put together from parts, so what is wanted of
it is compositional: the state after a part, from any state that the part can be
met in. Three kinds of part cover nearly everything that is written in a
statement. A plain part, of blanks and words and operators, leaves the scan
where it was; a quoted part does too, unless its last character is a backslash,
which takes the closing quote away; and a part that is read at another depth is
read in the same way, only deeper.
-/

namespace RowSql.Scan

theorem run_nil (st : Scan) : st.run [] = st := rfl

theorem run_cons (st : Scan) (c : CodePoint) (t : Text) :
    st.run (c :: t) = (st.step c).run t :=
  rfl

theorem run_append (st : Scan) (s t : Text) :
    st.run (s ++ t) = (st.run s).run t :=
  List.foldl_append

theorem atTop_iff {st : Scan} :
    st.atTop = true ↔ st.quote = none ∧ st.depth = 0 := by
  rw [atTop, Bool.and_eq_true, Option.isNone_iff_eq_none, decide_eq_true_eq]

/-- Outside of quotes at a depth, and not behind a backslash. -/
def outside (d : Int) : Scan := ⟨none, d, false⟩

theorem atTop_outside {d : Int} : (outside d).atTop = true ↔ d = 0 := by
  rw [atTop_iff]
  exact ⟨And.right, fun h => ⟨rfl, h⟩⟩

/-! ## Plain characters

A character that is no quote and no parenthesis changes nothing but what is
remembered of a backslash. -/

/-- A character that means nothing to a scan. -/
structure Plain (c : CodePoint) : Prop where
  quote : isQuote c = false
  opening : c ≠ '('
  closing : c ≠ ')'
  backslash : c ≠ '\\'

instance (c : CodePoint) : Decidable (Plain c) :=
  decidable_of_iff (isQuote c = false ∧ c ≠ '(' ∧ c ≠ ')' ∧ c ≠ '\\')
    ⟨fun h => ⟨h.1, h.2.1, h.2.2.1, h.2.2.2⟩, fun h => ⟨h.1, h.2, h.3, h.4⟩⟩

theorem plain_of_isBlank {c : CodePoint} (h : isBlank c = true) : Plain c := by
  have hne : ∀ a : CodePoint, isBlank a = false → c ≠ a := by
    rintro a ha rfl
    rw [h] at ha
    cases ha
  refine ⟨?_, hne _ (by decide), hne _ (by decide), hne _ (by decide)⟩
  cases hq : isQuote c with
  | false => rfl
  | true => exact absurd h (by rw [isBlank_of_isQuote hq]; decide)

theorem plain_of_blanks {b : Text} (hb : Text.Blanks b) : ∀ c ∈ b, Plain c :=
  fun c hc => plain_of_isBlank (hb c hc)

theorem plain_of_isWord {c : CodePoint} (h : isWord c = true) : Plain c :=
  ⟨isQuote_of_isWord h, ne_of_isWord h (by decide), ne_of_isWord h (by decide),
    ne_of_isWord h (by decide)⟩

theorem plain_of_spells {word x : Text} (hw : IsKeyword word)
    (hx : Spells word x) {c : CodePoint} (hc : c ∈ x) : Plain c := by
  refine ⟨?_, hw.ne_of_mem hx hc (by decide), hw.ne_of_mem hx hc (by decide),
    hw.ne_of_mem hx hc (by decide)⟩
  rw [isQuote, Bool.or_eq_false_iff]
  exact ⟨beq_eq_false_iff_ne.2 (hw.ne_of_mem hx hc (by decide)),
    beq_eq_false_iff_ne.2 (hw.ne_of_mem hx hc (by decide))⟩

theorem step_plain {c : CodePoint} (h : Plain c) (d : Int) (e : Bool) :
    (⟨none, d, e⟩ : Scan).step c = outside d := by
  have hb : (c == CodePoint.char '\\') = false :=
    beq_eq_false_iff_ne.2 h.backslash
  simp only [step, h.quote, Bool.false_eq_true, if_false, if_neg h.opening,
    if_neg h.closing, hb]
  rfl

/-- Whether the last character was a backslash is known in every state. -/
theorem step_escaped (st : Scan) (c : CodePoint) :
    (st.step c).escaped = (c == '\\') := by
  simp only [step]
  repeat' split
  all_goals rfl

/-- A plain character behind which a scan is at the top leaves no other
trace. -/
theorem step_eq_of_atTop {st : Scan} {c : CodePoint} (hc : Plain c)
    (ht : (st.step c).atTop = true) : st.step c = outside 0 := by
  obtain ⟨hq, hd⟩ := atTop_iff.1 ht
  have he := st.step_escaped c
  rw [beq_eq_false_iff_ne.2 hc.backslash] at he
  rw [outside, ← hq, ← hd, ← he]

theorem run_plain {t : Text} (h : ∀ c ∈ t, Plain c) (d : Int) :
    (outside d).run t = outside d := by
  induction t with
  | nil => rfl
  | cons c s ih =>
      rw [List.forall_mem_cons] at h
      rw [run_cons, outside, step_plain h.1]
      exact ih h.2

/-- A plain part that is not empty also ends what a backslash began. -/
theorem run_blanks {b : Text} (hb : Text.Blanks b) (d : Int) :
    (outside d).run b = outside d :=
  run_plain (plain_of_blanks hb) d

theorem run_plain_of_ne_nil {t : Text} (h : ∀ c ∈ t, Plain c) (hne : t ≠ [])
    (d : Int) (e : Bool) :
    (⟨none, d, e⟩ : Scan).run t = outside d := by
  cases t with
  | nil => exact absurd rfl hne
  | cons c s =>
      rw [List.forall_mem_cons] at h
      rw [run_cons, step_plain h.1]
      exact run_plain h.2 d

/-- Behind a scan that is at the top it leaves a scan at the start. -/
theorem run_plain_of_atTop {st : Scan} {t : Text} (hst : st.atTop = true)
    (h : ∀ c ∈ t, Plain c) (hne : t ≠ []) : st.run t = outside 0 := by
  obtain ⟨quote, depth, escaped⟩ := st
  obtain ⟨rfl, rfl⟩ := atTop_iff.1 hst
  exact run_plain_of_ne_nil h hne 0 escaped

/-! ## Blanks

At a blank all scans are outside of an escape. So behind blanks the scan is the
same as without them, up to a backslash in front of them. -/

/-- A quote that is open is a quote character. -/
def Sound (st : Scan) : Prop := ∀ q ∈ st.quote, isQuote q = true

theorem sound_start : start.Sound := nofun

theorem Sound.step {st : Scan} (h : st.Sound) (c : CodePoint) :
    (st.step c).Sound := by
  intro q hq
  obtain ⟨quote, depth, escaped⟩ := st
  cases quote with
  | none =>
      -- only a quote character opens a quote
      simp only [Scan.step] at hq
      split at hq
      · next hc =>
          split at hq
          · cases hq
          · cases hq
            exact hc
      · repeat' split at hq
        all_goals cases hq
  | some q' =>
      simp only [Scan.step] at hq
      split at hq
      · cases hq
      · exact h q hq

theorem Sound.run {st : Scan} (h : st.Sound) (t : Text) : (st.run t).Sound := by
  induction t generalizing st with
  | nil => exact h
  | cons c s ih => exact ih (h.step c)

/-- The same state, not behind a backslash. -/
def settled (st : Scan) : Scan := { st with escaped := false }

theorem atTop_settled (st : Scan) : st.settled.atTop = st.atTop := rfl

/-- A plain character counts for nothing, but that it is no backslash. -/
theorem step_eq_settled {st : Scan} {c : CodePoint} (h : st.Sound)
    (hc : Plain c) :
    st.step c = st.settled := by
  obtain ⟨quote, depth, escaped⟩ := st
  have hb : (c == CodePoint.char '\\') = false :=
    beq_eq_false_iff_ne.2 hc.backslash
  cases quote with
  | none => exact step_plain hc depth escaped
  | some q =>
      have hne : ¬ (c = q ∧ escaped = false) := by
        rintro ⟨rfl, _⟩
        exact absurd (h c rfl) (by simp [hc.quote])
      simp only [step, if_neg hne, hb, settled]

theorem run_eq_settled {st : Scan} {b : Text} (h : st.Sound)
    (hb : ∀ c ∈ b, Plain c) (hne : b ≠ []) : st.run b = st.settled := by
  induction b generalizing st with
  | nil => exact absurd rfl hne
  | cons c b ih =>
      rw [List.forall_mem_cons] at hb
      rw [run_cons, step_eq_settled h hb.1]
      cases b with
      | nil => rfl
      | cons d b => exact ih h hb.2 (List.cons_ne_nil d b)

theorem atTop_run_blanks {st : Scan} {b : Text} (h : st.Sound)
    (hb : Text.Blanks b) :
    (st.run b).atTop = st.atTop := by
  cases b with
  | nil => rfl
  | cons c b =>
      rw [run_eq_settled h (plain_of_blanks hb) (List.cons_ne_nil c b),
        atTop_settled]

theorem step_opening (d : Int) (e : Bool) :
    (⟨none, d, e⟩ : Scan).step '(' = outside (d + 1) := rfl

theorem step_closing (d : Int) (e : Bool) :
    (⟨none, d, e⟩ : Scan).step ')' = outside (d - 1) := rfl

/-! ## Quoted parts

Inside of quotes only the closing one counts, and it counts unless a backslash
stands before it. -/

theorem step_quote {q : CodePoint} (hq : isQuote q = true) (d : Int) :
    (outside d).step q = ⟨some q, d, false⟩ := by
  rcases isQuote_eq_true_iff.1 hq with rfl | rfl <;> rfl

theorem step_inside {q c : CodePoint} (hc : c ≠ q) (d : Int) (e : Bool) :
    (⟨some q, d, e⟩ : Scan).step c = ⟨some q, d, c == '\\'⟩ := by
  simp only [step, if_neg (fun h : c = q ∧ e = false => hc h.1)]

/-- Inside of quotes nothing counts but the quote character. -/
theorem run_inside {q : CodePoint} {p : Text} (hp : q ∉ p) (d : Int)
    (e : Bool) :
    ∃ e', (⟨some q, d, e⟩ : Scan).run p = ⟨some q, d, e'⟩ := by
  induction p generalizing e with
  | nil => exact ⟨e, rfl⟩
  | cons c s ih =>
      rw [List.mem_cons, not_or] at hp
      rw [run_cons, step_inside (Ne.symm hp.1)]
      exact ih hp.2 _

/-- The closing quote is seen unless a backslash stands before it. -/
theorem run_inside_of_getLast? {q : CodePoint} {p : Text} (hp : q ∉ p)
    (hb : p.getLast? ≠ some (.char '\\')) (d : Int) :
    (⟨some q, d, false⟩ : Scan).run p = ⟨some q, d, false⟩ := by
  rcases List.eq_nil_or_concat p with rfl | ⟨s, c, rfl⟩
  · rfl
  · rw [List.concat_eq_append] at hp hb ⊢
    rw [List.mem_append, List.mem_singleton, not_or] at hp
    rw [List.getLast?_append, List.getLast?_singleton, Option.some_or] at hb
    obtain ⟨e, hrun⟩ := run_inside hp.1 d false
    have hc : (c == CodePoint.char '\\') = false :=
      beq_eq_false_iff_ne.2 fun h => hb (congrArg some h)
    rw [run_append, hrun, run_cons, step_inside (Ne.symm hp.2), hc, run_nil]

/-- A quoted part leaves the scan where it was, unless it ends in a
backslash. -/
theorem run_between {q : CodePoint} {p : Text} (hq : isQuote q = true)
    (hp : q ∉ p) (hb : p.getLast? ≠ some (.char '\\')) (d : Int) :
    (outside d).run (Text.between q p) = outside d := by
  have hclose : (⟨some q, d, false⟩ : Scan).step q = outside d := by
    rcases isQuote_eq_true_iff.1 hq with rfl | rfl <;> rfl
  rw [Text.between, List.cons_append, run_cons, step_quote hq, run_append,
    run_inside_of_getLast? hp hb, run_cons, hclose, run_nil]

/-- Parts that leave the scan where it was, with such a part between
neighbours. -/
theorem run_join {separator : Text} {ts : List Text} {d : Int}
    (hsep : (outside d).run separator = outside d)
    (h : ∀ t ∈ ts, (outside d).run t = outside d) :
    (outside d).run (Text.join separator ts) = outside d := by
  induction ts with
  | nil => rfl
  | cons t ts ih =>
      rw [List.forall_mem_cons] at h
      cases ts with
      | nil => exact h.1
      | cons u us => rw [Text.join, run_append, run_append, h.1, hsep, ih h.2]

/-! ## Depth

A scan at a greater depth does the same and stays deeper by as much. So what is
known at the top is known at every depth. -/

/-- The same state, deeper. -/
def raise (k : Int) (st : Scan) : Scan := { st with depth := st.depth + k }

theorem step_raise (st : Scan) (k : Int) (c : CodePoint) :
    (st.raise k).step c = (st.step c).raise k := by
  obtain ⟨quote, depth, escaped⟩ := st
  show (⟨quote, depth + k, escaped⟩ : Scan).step c =
    ((⟨quote, depth, escaped⟩ : Scan).step c).raise k
  cases quote with
  | none =>
      simp only [step]
      by_cases hq : isQuote c = true
      · rw [if_pos hq, if_pos hq]
        rfl
      · rw [if_neg hq, if_neg hq]
        by_cases ho : c = '('
        · rw [if_pos ho, if_pos ho, raise, Int.add_right_comm]
        · rw [if_neg ho, if_neg ho]
          by_cases hc : c = ')'
          · rw [if_pos hc, if_pos hc, raise]
            exact congrArg (Scan.mk none · _)
              (Int.sub_eq_add_neg ▸ Int.add_right_comm depth k (-1))
          · rw [if_neg hc, if_neg hc]
            rfl
  | some q =>
      simp only [step]
      by_cases hc : c = q ∧ escaped = false
      · rw [if_pos hc, if_pos hc]
        rfl
      · rw [if_neg hc, if_neg hc]
        rfl

theorem run_raise (st : Scan) (k : Int) (t : Text) :
    (st.raise k).run t = (st.run t).raise k := by
  induction t generalizing st with
  | nil => rfl
  | cons c s ih => rw [run_cons, run_cons, step_raise, ih]

/-- Reading at a depth is reading from the start, deeper. -/
theorem run_outside (d : Int) (t : Text) :
    (outside d).run t = (start.run t).raise d := by
  rw [← run_raise]
  exact congrArg (·.run t)
    (congrArg (Scan.mk none · false) (Int.zero_add d).symm)

/-! ## Balanced parts

A balanced part closes what it opens and goes below the top at no place. Such
parts are put together and wrapped in parentheses freely. -/

/-- A part that closes what it opens, and closes nothing else. -/
structure Balanced (t : Text) : Prop where
  nested : ∀ s r, t = s ++ r → 0 ≤ (start.run s).depth
  closed : (start.run t).atTop = true

instance (t : Text) : Decidable (Balanced t) :=
  decidable_of_iff ((∀ n ≤ t.length, 0 ≤ (start.run (t.take n)).depth) ∧
      (start.run t).atTop = true)
    ⟨fun h => ⟨fun s r hs => by
        have hn := h.1 s.length (by rw [hs, List.length_append]; omega)
        rwa [hs, List.take_left] at hn, h.2⟩,
      fun h => ⟨fun n _ => h.nested _ _ (List.take_append_drop n t).symm,
        h.closed⟩⟩

theorem balanced_of_plain {t : Text} (h : ∀ c ∈ t, Plain c) : Balanced t := by
  have hrun : ∀ s, (∀ c ∈ s, Plain c) → start.run s = outside 0 :=
    fun s hs => run_plain hs 0
  constructor
  · rintro s r rfl
    rw [hrun s fun c hc => h c (List.mem_append_left r hc)]
    exact Int.le_refl 0
  · rw [hrun t h]
    rfl

/-- A text between two characters is cut in front of the first, behind a part of
the text, or behind the second. -/
theorem cut_enclosed {c d : CodePoint} {t u v : Text}
    (h : c :: t ++ [d] = u ++ v) :
    u = [] ∨ (∃ s, s <+: t ∧ u = c :: s) ∨ u = c :: t ++ [d] := by
  cases u with
  | nil => exact .inl rfl
  | cons a u =>
      rw [List.cons_append, List.cons_append, List.cons.injEq] at h
      obtain ⟨rfl, h⟩ := h
      rcases List.append_eq_append_iff.1 h with ⟨w, rfl, hw⟩ | ⟨w, rfl, hw⟩
      · rcases List.append_eq_singleton_iff.1 hw.symm with ⟨rfl, rfl⟩ |
          ⟨rfl, rfl⟩
        · rw [List.append_nil]
          exact .inr (.inl ⟨t, List.prefix_rfl, rfl⟩)
        · exact .inr (.inr rfl)
      · exact .inr (.inl ⟨u, List.prefix_append u w, rfl⟩)

/-- A quoted part opens no parenthesis. -/
theorem balanced_between {q : CodePoint} {p : Text} (hq : isQuote q = true)
    (hp : q ∉ p) (hb : p.getLast? ≠ some (.char '\\')) :
    Balanced (Text.between q p) := by
  have hclosed : start.run (Text.between q p) = start := run_between hq hp hb 0
  constructor
  · intro u v huv
    rcases cut_enclosed huv with rfl | ⟨s, hs, rfl⟩ | rfl
    · exact Int.le_refl 0
    · have hs' : q ∉ s := fun hmem => hp (hs.subset hmem)
      obtain ⟨e, hrun⟩ := run_inside hs' 0 false
      have hdepth : (((outside 0).step q).run s).depth = 0 := by
        rw [step_quote hq, hrun]
      rw [run_cons]
      exact Int.le_of_eq hdepth.symm
    · exact Int.le_of_eq (congrArg Scan.depth hclosed).symm
  · rw [hclosed]
    rfl

/-- A plain character behind a closed part brings the scan back to the start. -/
theorem run_append_plain {a r : Text} {c : CodePoint}
    (ha : (start.run a).atTop = true) (hc : Plain c) :
    start.run (a ++ c :: r) = start.run r := by
  rw [run_append, run_cons]
  generalize start.run a = st at ha
  obtain ⟨quote, depth, escaped⟩ := st
  obtain ⟨rfl, rfl⟩ := atTop_iff.1 ha
  rw [step_plain hc]
  rfl

/-- Two balanced parts with a plain character between them. -/
theorem Balanced.append {a r : Text} {c : CodePoint} (ha : Balanced a)
    (hc : Plain c) (hr : Balanced r) : Balanced (a ++ c :: r) := by
  constructor
  · intro u v huv
    rcases List.append_eq_append_iff.1 huv with ⟨w, rfl, hw⟩ | ⟨w, rfl, hw⟩
    · cases w with
      | nil =>
          rw [List.append_nil]
          exact ha.nested a [] (List.append_nil a).symm
      | cons d w =>
          rw [List.cons_append, List.cons.injEq] at hw
          obtain ⟨rfl, rfl⟩ := hw
          rw [run_append_plain ha.closed hc]
          exact hr.nested w v rfl
    · exact ha.nested u w rfl
  · rw [run_append_plain ha.closed hc]
    exact hr.closed

/-- Plain characters before a balanced part. -/
theorem Balanced.plain_append {b t : Text} (hb : ∀ c ∈ b, Plain c)
    (ht : Balanced t) :
    Balanced (b ++ t) := by
  rcases List.eq_nil_or_concat b with rfl | ⟨b, c, rfl⟩
  · exact ht
  · rw [List.concat_eq_append] at hb ⊢
    have hc := hb c (List.mem_append_right b List.mem_cons_self)
    rw [List.append_assoc]
    exact (balanced_of_plain fun d hd =>
      hb d (List.mem_append_left [c] hd)).append hc ht

/-- Plain characters behind a balanced part. -/
theorem Balanced.append_plain {t b : Text} (ht : Balanced t)
    (hb : ∀ c ∈ b, Plain c) :
    Balanced (t ++ b) := by
  cases b with
  | nil => rwa [List.append_nil]
  | cons c b =>
      rw [List.forall_mem_cons] at hb
      exact ht.append hb.1 (balanced_of_plain hb.2)

theorem Balanced.pad {b t b' : Text} (hb : Text.Blanks b) (ht : Balanced t)
    (hb' : Text.Blanks b') :
    Balanced (b ++ t ++ b') :=
  (ht.plain_append (plain_of_blanks hb)).append_plain (plain_of_blanks hb')

/-- Everything inside of a pair of parentheses is read below the top. -/
theorem Balanced.depth_pos {t s r : Text} (ht : Balanced t) (hs : t = s ++ r) :
    0 < (start.run ('(' :: s)).depth := by
  have hn := ht.nested s r hs
  have hrun : start.run ('(' :: s) = (start.run s).raise 1 := run_outside 1 s
  rw [hrun]
  show 0 < (start.run s).depth + 1
  omega

theorem run_parenthesise {t : Text} (ht : (start.run t).atTop = true) :
    start.run (Text.parenthesise t) = start := by
  have hrun : start.run ('(' :: t) = (start.run t).raise 1 := run_outside 1 t
  rw [Text.parenthesise, run_append, hrun]
  generalize start.run t = st at ht
  obtain ⟨quote, depth, escaped⟩ := st
  obtain ⟨rfl, rfl⟩ := atTop_iff.1 ht
  rfl

theorem Balanced.parenthesise {t : Text} (ht : Balanced t) :
    Balanced (Text.parenthesise t) := by
  constructor
  · intro u v huv
    rcases cut_enclosed huv with rfl | ⟨s, ⟨w, hs⟩, rfl⟩ | rfl
    · exact Int.le_refl 0
    · exact Int.le_of_lt (ht.depth_pos hs.symm)
    · exact Int.le_of_eq
        (congrArg Scan.depth (run_parenthesise ht.closed)).symm
  · rw [run_parenthesise ht.closed]
    rfl

end RowSql.Scan

import RowSql.Filter.Connective
import RowSql.Proofs.Text.Scanning

/-!
# Where a filter is cut

The scanner that cuts a filter looks, at every character, for a connective that
begins there, and goes on behind it when it finds one. What it sees depends on
the text to its right, so the statements here are about a part of a text
together with the rest that follows it.

Two of them carry everything else. A part is *uncut* when no connective begins
at any of its characters in the state the scanner has there; an uncut part goes
over to the first piece as it stands. And a connective behind an uncut part that
has closed its quotes and parentheses is a cut, behind which the scanner starts
anew.
-/

namespace RowSql.Filter

open Text

/-! ## Reading a connective

A connective is blanks, its word and blanks. Reading it is greedy at both ends,
which does not matter for whether it is there: it is read whatever follows its
last blank. -/

/-- A connective as it is written: blanks, the word in any letter case, and
blanks. -/
def IsConnective (word c : Text) : Prop :=
  ∃ b x b', c = b ++ x ++ b' ∧ Blanks b ∧ b ≠ [] ∧ Spells word x ∧
    Blanks b' ∧ b' ≠ []

/-- The word begins a text, before a blank. -/
def OpensWithWord (word t : Text) : Prop :=
  ∃ x c u, t = x ++ c :: u ∧ Spells word x ∧ isBlank c = true

/-- Where no letter stands, no word begins. -/
theorem not_opensWithWord_of_apart {word t : Text} (hw : IsKeyword word)
    (ht : Apart t) :
    ¬ OpensWithWord word t := by
  rintro ⟨x, c, u, rfl, hx, _⟩
  exact hw.not_apart hx (c :: u) ht

/-- A text without blanks that is not the word, and that ends there, does not
begin with the word. -/
theorem not_opensWithWord_append {word v rest : Text} (hw : IsKeyword word)
    (hv : ∀ c ∈ v, isBlank c = false) (hne : ¬ Spells word v)
    (hrest : Apart rest) :
    ¬ OpensWithWord word (v ++ rest) := by
  rintro ⟨x, c, u, h, hx, hc⟩
  exact hne (hw.eq_of_append hx hv hrest (bounded_cons.2 hc) h ▸ hx)

theorem afterBlanks?_eq_some_iff {t rest : Text} :
    afterBlanks? t = some rest ↔
      ∃ b, Blanks b ∧ b ≠ [] ∧ t = b ++ rest ∧ FlushLeft rest := by
  cases t with
  | nil =>
      constructor
      · intro h
        cases h
      · rintro ⟨b, _, hne, h, _⟩
        exact absurd (List.append_eq_nil_iff.1 h.symm).1 hne
  | cons c s =>
      rw [afterBlanks?]
      constructor
      · intro h
        split at h
        · next hc =>
            cases h
            obtain ⟨b, hb, hs⟩ := exists_eq_append_trimLeft s
            refine ⟨c :: b, blanks_cons.2 ⟨hc, hb⟩, List.cons_ne_nil c b, ?_,
              flushLeft_trimLeft s⟩
            rw [List.cons_append, ← hs]
        · cases h
      · rintro ⟨b, hb, hne, h, hr⟩
        cases b with
        | nil => exact absurd rfl hne
        | cons d b =>
            rw [List.cons_append, List.cons.injEq] at h
            obtain ⟨rfl, rfl⟩ := h
            rw [blanks_cons] at hb
            rw [if_pos hb.1, trimLeft_append_blanks hb.2, hr.trimLeft_eq]

/-- A connective is read as far as it goes, and its blanks with it. -/
theorem afterConnective?_eq_some_iff {word t rest : Text}
    (hw : IsKeyword word) :
    afterConnective? word t = some rest ↔
      ∃ c, IsConnective word c ∧ t = c ++ rest ∧ FlushLeft rest := by
  induction t with
  | nil =>
      constructor
      · intro h
        cases h
      · rintro ⟨c, ⟨b, x, b', rfl, _, hne, _⟩, h, _⟩
        simp only [List.append_assoc] at h
        exact absurd (List.append_eq_nil_iff.1 h.symm).1 hne
  | cons a s ih =>
      rw [afterConnective?]
      constructor
      · intro h
        split at h
        · next ha =>
            split at h
            · next r hr =>
                cases h
                obtain ⟨_, ⟨b, x, b', rfl, hb, _, hx, hb', hne'⟩, rfl, hf⟩ :=
                  ih.1 hr
                exact ⟨a :: b ++ x ++ b',
                  ⟨a :: b, x, b', rfl, blanks_cons.2 ⟨ha, hb⟩,
                  List.cons_ne_nil a b, hx, hb', hne'⟩, by simp, hf⟩
            · next hn =>
                obtain ⟨u, hu, hr⟩ := Option.bind_eq_some_iff.1 h
                obtain ⟨x, hx, rfl⟩ := afterWord?_eq_some_iff.1 hu
                obtain ⟨b', hb', hne', rfl, hf⟩ := afterBlanks?_eq_some_iff.1 hr
                exact ⟨[a] ++ x ++ b',
                  ⟨[a], x, b', rfl, blanks_cons.2 ⟨ha, blanks_nil⟩,
                  List.cons_ne_nil a [], hx, hb', hne'⟩, by simp, hf⟩
        · cases h
      · rintro ⟨c, ⟨b, x, b', rfl, hb, hne, hx, hb', hne'⟩, h, hf⟩
        cases b with
        | nil => exact absurd rfl hne
        | cons d b =>
            simp only [List.cons_append, List.append_assoc, List.cons.injEq]
              at h
            obtain ⟨rfl, rfl⟩ := h
            rw [blanks_cons] at hb
            rw [if_pos hb.1]
            rcases Classical.em (b = []) with rfl | hbne
            · -- the word follows at once, so no connective begins behind this
              -- blank
              obtain ⟨e, x, rfl⟩ :=
                List.exists_cons_of_ne_nil (hw.spelling_ne_nil hx)
              have he := hw.isBlank_of_mem hx List.mem_cons_self
              have hnone :
                  afterConnective? word (e :: x ++ (b' ++ rest)) = none := by
                rw [List.cons_append, afterConnective?, he]
                rfl
              rw [List.nil_append, hnone]
              show (afterWord? word (e :: x ++ (b' ++ rest))).bind
                afterBlanks? = some rest
              rw [afterWord?_eq_some_iff.2 ⟨e :: x, hx, rfl⟩, Option.bind_some]
              exact afterBlanks?_eq_some_iff.2 ⟨b', hb', hne', rfl, hf⟩
            · rw [ih.2 ⟨b ++ x ++ b',
                ⟨b, x, b', rfl, hb.2, hbne, hx, hb', hne'⟩, by simp, hf⟩]

/-- A connective is read whatever follows it, and the blanks that follow are
read with it. -/
theorem afterConnective?_ne_none {word c : Text} (hw : IsKeyword word)
    (hc : IsConnective word c) (r : Text) :
    afterConnective? word (c ++ r) ≠ none := by
  obtain ⟨b, x, b', rfl, hb, hne, hx, hb', hne'⟩ := hc
  obtain ⟨b'', hb'', hr⟩ := exists_eq_append_trimLeft r
  have heq : b ++ x ++ b' ++ r = b ++ x ++ (b' ++ b'') ++ trimLeft r := by
    simp only [List.append_assoc]
    rw [← hr]
  have hread : afterConnective? word (b ++ x ++ b' ++ r) = some (trimLeft r) :=
    (afterConnective?_eq_some_iff hw).2 ⟨_, ⟨b, x, b' ++ b'', rfl, hb, hne, hx,
      blanks_append.2 ⟨hb', hb''⟩, List.append_ne_nil_of_left_ne_nil hne' b''⟩,
      heq, flushLeft_trimLeft r⟩
  rw [hread]
  exact Option.some_ne_none _

theorem IsConnective.ne_nil {word c : Text} (h : IsConnective word c) :
    c ≠ [] := by
  obtain ⟨b, x, b', rfl, _, hne, _⟩ := h
  intro hn
  simp only [List.append_assoc] at hn
  exact hne (List.append_eq_nil_iff.1 hn).1

theorem IsConnective.bounded {word c t : Text} (h : IsConnective word c) :
    Bounded (c ++ t) := by
  obtain ⟨b, x, b', rfl, hb, hne, _⟩ := h
  simp only [List.append_assoc]
  exact hb.bounded hne

/-- What a connective begins in a flush part, it leaves inside of that part. -/
theorem exists_of_connective_append {word a rest c r : Text}
    (hw : IsKeyword word) (ha : FlushRight a) (hne : a ≠ [])
    (hrest : Bounded rest) (hc : IsConnective word c) (h : a ++ rest = c ++ r) :
    ∃ b x s, a = b ++ x ++ s ∧ Blanks b ∧ b ≠ [] ∧ Spells word x ∧
      Bounded s := by
  obtain ⟨b, x, b', rfl, hb, hbne, hx, hb', hb'ne⟩ := hc
  simp only [List.append_assoc] at h
  rcases List.append_eq_append_iff.1 h with ⟨u, hbu, _⟩ | ⟨a1, rfl, h1⟩
  · -- the blanks cannot reach past the end of the part
    exact absurd (blanks_append.1 (hbu ▸ hb)).1 (ha.not_blanks hne)
  · -- nor the word
    obtain ⟨s, rfl, hs⟩ := hw.exists_of_append hx hrest.apart h1.symm
    have hbounded : Bounded (s ++ rest) := hs ▸ hb'.bounded hb'ne
    exact ⟨b, x, s, (List.append_assoc b x s).symm, hb, hbne, hx,
      hbounded.of_append⟩

/-! ## Cutting

The equations of the scanner: at a character it goes on behind a connective that
begins there, or else passes the character. -/

theorem cutAtWord_of_connective {word s rest : Text} {st : Scan} {c : CodePoint}
    (ht : (st.step c).atTop = true)
    (h : afterConnective? word (c :: s) = some rest) :
    cutAtWord word st (c :: s) = [] :: cutAtWord word (st.step c) rest := by
  rw [cutAtWord]
  split
  · next r hr =>
      rw [if_pos ht, h] at hr
      cases hr
      rfl
  · next hr =>
      rw [if_pos ht, h] at hr
      cases hr

theorem cutAtWord_of_none {word s : Text} {st : Scan} {c : CodePoint}
    (h : (st.step c).atTop = true → afterConnective? word (c :: s) = none) :
    cutAtWord word st (c :: s) = consHead c (cutAtWord word (st.step c) s) := by
  rw [cutAtWord]
  split
  · next r hr =>
      split at hr
      · next ht =>
          rw [h ht] at hr
          cases hr
      · cases hr
  · rfl

theorem cutAtWord_nil (word : Text) (st : Scan) :
    cutAtWord word st [] = [[]] := by
  rw [cutAtWord]

theorem cutAtWord_ne_nil (word : Text) (st : Scan) (t : Text) :
    cutAtWord word st t ≠ [] := by
  cases t with
  | nil =>
      rw [cutAtWord_nil]
      exact List.cons_ne_nil _ _
  | cons c s =>
      rw [cutAtWord]
      split
      · exact List.cons_ne_nil _ _
      · cases cutAtWord word (st.step c) s <;> exact List.cons_ne_nil _ _

/-! ## Uncut parts

A part is uncut together with the state it is read in and the rest that follows
it. This composes: two parts one behind the other are uncut if each is so in its
place, which is how every longer text is treated. -/

/-- No connective begins at any character of a part that is read in a state and
followed by a rest. -/
def Uncut (word : Text) (st : Scan) (rest : Text) : Text → Prop
  | [] => True
  | c :: s =>
      ((st.step c).atTop = true →
        afterConnective? word (c :: s ++ rest) = none) ∧
        Uncut word (st.step c) rest s

theorem uncut_append {word : Text} {st : Scan} {rest s t : Text} :
    Uncut word st rest (s ++ t) ↔
      Uncut word st (t ++ rest) s ∧ Uncut word (st.run s) rest t := by
  induction s generalizing st with
  | nil => simp only [List.nil_append, Scan.run_nil, Uncut, true_and]
  | cons c s ih =>
      simp only [List.cons_append, Uncut, Scan.run_cons, ih, and_assoc,
        List.append_assoc]

/-- An uncut part goes over to the first piece. -/
theorem cutAtWord_append {word : Text} {st : Scan} {rest s : Text}
    (h : Uncut word st rest s) :
    cutAtWord word st (s ++ rest) =
      (cutAtWord word (st.run s) rest).modifyHead (s ++ ·) := by
  induction s generalizing st with
  | nil =>
      show cutAtWord word st rest = (cutAtWord word st rest).modifyHead id
      rw [List.modifyHead_id]
      rfl
  | cons c s ih =>
      obtain ⟨hc, hs⟩ := h
      have hc' : (st.step c).atTop = true →
          afterConnective? word (c :: (s ++ rest)) = none := hc
      rw [List.cons_append, cutAtWord_of_none hc', ih hs, Scan.run_cons]
      cases hps : cutAtWord word ((st.step c).run s) rest with
      | nil => exact absurd hps (cutAtWord_ne_nil _ _ _)
      | cons p ps => rfl

/-- The piece that an uncut part goes over to. -/
theorem exists_mem_of_uncut {word : Text} {st : Scan} {rest s : Text}
    (h : Uncut word st rest s) :
    ∃ p, s ++ p ∈ cutAtWord word st (s ++ rest) := by
  obtain ⟨p, ps, hp⟩ :=
    List.exists_cons_of_ne_nil (cutAtWord_ne_nil word (st.run s) rest)
  rw [cutAtWord_append h, hp]
  exact ⟨p, List.mem_cons_self⟩

theorem cutAtWord_of_uncut {word : Text} {st : Scan} {s : Text}
    (h : Uncut word st [] s) :
    cutAtWord word st s = [s] := by
  have hcut := cutAtWord_append h
  rw [List.append_nil, cutAtWord_nil] at hcut
  rw [hcut, List.modifyHead_cons, List.append_nil]

/-- No connective begins at a character that is not blank. -/
theorem uncut_of_solid {word : Text} {st : Scan} {rest s : Text}
    (h : ∀ c ∈ s, isBlank c = false) : Uncut word st rest s := by
  induction s generalizing st with
  | nil => trivial
  | cons c s ih =>
      rw [List.forall_mem_cons] at h
      refine ⟨fun _ => ?_, ih h.2⟩
      rw [List.cons_append, afterConnective?, h.1]
      rfl

/-- A connective begins only where its word is the first thing that is not
blank. -/
theorem afterConnective?_eq_none {word t : Text} (hw : IsKeyword word)
    (h : ¬ OpensWithWord word (trimLeft t)) :
    afterConnective? word t = none := by
  cases hr : afterConnective? word t with
  | none => rfl
  | some r =>
      obtain ⟨_, ⟨b, x, b', rfl, hb, hbne, hx, hb', hb'ne⟩, rfl, _⟩ :=
        (afterConnective?_eq_some_iff hw).1 hr
      obtain ⟨d, b', rfl⟩ := List.exists_cons_of_ne_nil hb'ne
      refine absurd ⟨x, d, b' ++ r, ?_, hx, (blanks_cons.1 hb').1⟩ h
      rw [List.append_assoc, List.append_assoc, trimLeft_append_blanks hb,
        (hw.flushLeft hx _).trimLeft_eq, List.cons_append]

/-- Blanks begin no connective when what follows them does not begin with its
word. -/
theorem uncut_of_blanks {word : Text} {st : Scan} {rest b : Text}
    (hw : IsKeyword word) (hb : Blanks b) (hf : FlushLeft rest)
    (hrest : ¬ OpensWithWord word rest) :
    Uncut word st rest b := by
  induction b generalizing st with
  | nil => trivial
  | cons c b ih =>
      refine ⟨fun _ => afterConnective?_eq_none hw ?_, ih (blanks_cons.1 hb).2⟩
      rwa [trimLeft_append_blanks hb, hf.trimLeft_eq]

/-- A part is uncut when no connective begins where the scan is at the top. -/
theorem uncut_of_forall {word : Text} {st : Scan} {rest s : Text}
    (h : ∀ u c v, s = u ++ c :: v → (st.run (u ++ [c])).atTop = true →
      afterConnective? word (c :: v ++ rest) = none) :
    Uncut word st rest s := by
  induction s generalizing st with
  | nil => trivial
  | cons c s ih =>
      refine ⟨h [] c s rfl, ih fun u d v hs ht => ?_⟩
      refine h (c :: u) d v (by rw [hs, List.cons_append]) ?_
      rwa [List.cons_append, Scan.run_cons]

/-! ## Cutting at a connective

An uncut part is what the first piece is, up to the connective behind it. There
the scanner is at the top and starts anew. -/

theorem IsConnective.plain {word c : Text} (hw : IsKeyword word)
    (hc : IsConnective word c) :
    ∀ a ∈ c, Scan.Plain a := by
  obtain ⟨b, x, b', rfl, hb, _, hx, hb', _⟩ := hc
  intro a ha
  rw [List.mem_append, List.mem_append] at ha
  rcases ha with (ha | ha) | ha
  · exact Scan.plain_of_isBlank (hb a ha)
  · exact Scan.plain_of_spells hw hx ha
  · exact Scan.plain_of_isBlank (hb' a ha)

theorem cutAtWord_connective {word c rest : Text} {st : Scan}
    (hw : IsKeyword word) (hc : IsConnective word c) (hrest : FlushLeft rest)
    (ht : st.atTop = true) :
    cutAtWord word st (c ++ rest) = [] :: cutAtWord word .start rest := by
  have hafter : afterConnective? word (c ++ rest) = some rest :=
    (afterConnective?_eq_some_iff hw).2 ⟨c, hc, rfl, hrest⟩
  obtain ⟨b, x, b', rfl, hb, hne, _⟩ := hc
  obtain ⟨a, b, rfl⟩ := List.exists_cons_of_ne_nil hne
  obtain ⟨quote, depth, escaped⟩ := st
  obtain ⟨rfl, rfl⟩ := Scan.atTop_iff.1 ht
  have hstep : (⟨none, 0, escaped⟩ : Scan).step a = .start :=
    Scan.step_plain (Scan.plain_of_isBlank (blanks_cons.1 hb).1) 0 escaped
  simp only [List.cons_append] at hafter ⊢
  rw [cutAtWord_of_connective (by rw [hstep]; rfl) hafter, hstep]

/-- A connective behind an uncut part that is closed is a cut. -/
theorem cutAtWord_append_connective {word a c rest : Text} {st : Scan}
    (hw : IsKeyword word) (hc : IsConnective word c) (hrest : FlushLeft rest)
    (ha : Uncut word st (c ++ rest) a) (ht : (st.run a).atTop = true) :
    cutAtWord word st (a ++ c ++ rest) = a :: cutAtWord word .start rest := by
  rw [List.append_assoc, cutAtWord_append ha,
    cutAtWord_connective hw hc hrest ht, List.modifyHead_cons, List.append_nil]

end RowSql.Filter

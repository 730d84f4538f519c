import RowSql.Text.CaseFold
import RowSql.Text.Quoted
import RowSql.Text.Upper
import RowSql.Text.Word
import RowSql.Proofs.Text.Trim

/-!
# Words in any letter case

Operators and clause words are recognised by comparing letters up to case, and
everything that is proved about finding them rests on a few facts about the
classes of characters: a blank is a letter of no word, a character of a word is
neither blank nor a mark, and no mark is a letter in another case. The tables
are closed lists, so these are decided once, here, over the tables; nothing
below looks into them again.
-/

namespace RowSql

/-! ## Numbers of code points

A code point and its number determine each other, within the range that there
are. -/

theorem CodePoint.toNat_lt (c : CodePoint) : c.toNat < 0x110000 := by
  cases c with
  | char c =>
      have hv : c.toNat < 0xD800 ∨ 0xDFFF < c.toNat ∧ c.toNat < 0x110000 :=
        c.valid
      show c.toNat < 0x110000
      omega
  | surrogate k =>
      show 0xD800 + (k : Nat) < 0x110000
      omega

theorem CodePoint.toNat_ofNat {n : Nat} (h : n < 0x110000) :
    (CodePoint.ofNat n).toNat = n := by
  rw [CodePoint.ofNat]
  split
  · next hs =>
      show 0xD800 + (n - 0xD800) = n
      omega
  · next hs =>
      have hv : n.isValidChar := by
        simp only [Nat.isValidChar]
        omega
      show (Char.ofNat n).toNat = n
      rw [Char.ofNat, dif_pos hv]
      rfl

@[simp] theorem CodePoint.ofNat_toNat (c : CodePoint) :
    CodePoint.ofNat c.toNat = c :=
  CodePoint.toNat_inj (CodePoint.toNat_ofNat c.toNat_lt)

/-! ## Ranges

Classes of characters are given by ranges. Two classes are apart if their ranges
are, which is decided once for each pair and used by name. -/

/-- Whether no range of one list meets a range of another. -/
def apart (rs ss : List (Nat × Nat)) : Bool :=
  rs.all fun r => ss.all fun s => decide (r.2 < s.1) || decide (s.2 < r.1)

theorem inRanges_of_apart {rs ss : List (Nat × Nat)} {n : Nat}
    (h : apart rs ss = true) (hr : inRanges rs n = true) :
    inRanges ss n = false := by
  rw [inRanges, List.any_eq_true] at hr
  obtain ⟨r, hr, hn⟩ := hr
  rw [inRanges, List.any_eq_false]
  intro s hs
  have hrs := List.all_eq_true.1 (List.all_eq_true.1 h r hr) s hs
  simp only [Bool.and_eq_true, Bool.or_eq_true, decide_eq_true_eq] at hn hrs ⊢
  omega

/-- A character of a word is not blank. -/
theorem isBlank_of_isWord {c : CodePoint} (h : isWord c = true) :
    isBlank c = false := by
  rw [isWord, Bool.or_eq_true, beq_iff_eq] at h
  rcases h with rfl | h
  · decide
  · rw [isAlphanumeric] at h
    rw [isBlank]
    split at h
    · exact inRanges_of_apart (by decide) h
    · exact inRanges_of_apart (by decide +kernel) h

/-- No surrogate stands in a word. -/
theorem exists_char_of_isWord {c : CodePoint} (h : isWord c = true) :
    ∃ a, c = .char a := by
  cases c with
  | char a => exact ⟨a, rfl⟩
  | surrogate k =>
      have hsurrogate : inRanges [(0xD800, 0xDFFF)] (0xD800 + k) = true := by
        have hle : (k : Nat) ≤ 0x7FF := Nat.le_of_lt_succ k.isLt
        simp only [inRanges, List.any_cons, List.any_nil, Bool.or_false,
          Bool.and_eq_true,
          decide_eq_true_eq]
        omega
      have hword : inRanges alphanumericRanges (0xD800 + k) = true := by
        have hlarge : ¬ (CodePoint.surrogate k).toNat < 128 := by
          show ¬ 0xD800 + (k : Nat) < 128
          omega
        rw [isWord, Bool.or_eq_true, beq_iff_eq, isAlphanumeric, if_neg hlarge]
          at h
        exact h.resolve_left nofun
      rw [inRanges_of_apart (by decide +kernel) hword] at hsurrogate
      cases hsurrogate

/-- A character of a word is no mark. -/
theorem ne_of_isWord {c a : CodePoint} (h : isWord c = true)
    (ha : isWord a = false) :
    c ≠ a := by
  rintro rfl
  rw [h] at ha
  cases ha

theorem isQuote_of_isWord {c : CodePoint} (h : isWord c = true) :
    isQuote c = false := by
  rw [isQuote, Bool.or_eq_false_iff]
  exact ⟨beq_eq_false_iff_ne.2 (ne_of_isWord h (by decide)),
    beq_eq_false_iff_ne.2 (ne_of_isWord h (by decide))⟩

theorem isQuote_eq_true_iff {c : CodePoint} :
    isQuote c = true ↔ c = '"' ∨ c = '\'' := by
  rw [isQuote, Bool.or_eq_true, beq_iff_eq, beq_iff_eq]

theorem isBlank_of_isQuote {c : CodePoint} (h : isQuote c = true) :
    isBlank c = false := by
  rcases isQuote_eq_true_iff.1 h with rfl | rfl <;> decide

/-- A text can stand in quotes that it does not hold. -/
structure Encloses (q : CodePoint) (p : Text) : Prop where
  quote : isQuote q = true
  absent : q ∉ p

instance (q : CodePoint) (p : Text) : Decidable (Encloses q p) :=
  decidable_of_iff (isQuote q = true ∧ q ∉ p) ⟨fun h => ⟨h.1, h.2⟩,
    fun h => ⟨h.1, h.2⟩⟩

/-! ## Letter case

Two letters are the same up to case when they fold to the same one. Folding
keeps the classes apart, so a mark is never the same as a letter. -/

/-- A blank has no other case. -/
theorem foldCase_of_isBlank {c : CodePoint} (h : isBlank c = true) :
    foldCase c = c := by
  by_cases hc : c.toNat < 128
  · have hall : ∀ n < 128, inRanges blankRanges n = true →
        foldCase (.ofNat n) = .ofNat n := by decide
    have hn := hall c.toNat hc h
    rwa [CodePoint.ofNat_toNat] at hn
  · have hruns :
        apart blankRanges (foldRuns.map fun r => (r.first, r.last)) = true := by
      decide +kernel
    have hn := inRanges_of_apart hruns h
    have hfind : foldRuns.find? (·.covers c.toNat) = none := by
      rw [List.find?_eq_none]
      intro r hr hcov
      rw [inRanges, List.any_eq_false] at hn
      have hout := hn (r.first, r.last) (List.mem_map.2 ⟨r, hr, rfl⟩)
      simp only [CaseRun.covers, Bool.and_eq_true, decide_eq_true_eq]
        at hcov hout
      exact hout hcov.1
    rw [foldCase, if_neg hc, applyRuns, hfind]

/-- The characters beyond ASCII that are a letter of ASCII in another case: the
dotted and the dotless i, the long s and the sign of the kelvin. -/
theorem mem_of_foldCase_ascii {c : CodePoint} (hc : ¬ c.toNat < 128)
    (h : (foldCase c).toNat < 128) :
    c ∈ [CodePoint.ofNat 0x130, .ofNat 0x131, .ofNat 0x17F, .ofNat 0x212A] := by
  rw [foldCase, if_neg hc, applyRuns] at h
  split at h
  · next r hr =>
      have hmem := List.mem_of_find?_eq_some hr
      have hcov := List.find?_some hr
      have hall : ∀ r ∈ foldRuns,
          r.first = r.last ∧ r.first ∈ [0x130, 0x131, 0x17F, 0x212A] ∨
          128 ≤ r.first + r.shift ∧ r.last + r.shift < 0x110000 := by
        decide +kernel
      simp only [CaseRun.covers, Bool.and_eq_true, decide_eq_true_eq] at hcov
      rcases hall r hmem with ⟨heq, hfirst⟩ | ⟨hge, hlt⟩
      · have hto : c.toNat = r.first := by omega
        rw [← CodePoint.ofNat_toNat c, hto]
        exact List.mem_map_of_mem (f := CodePoint.ofNat) hfirst
      · rw [CodePoint.toNat_ofNat (by omega)] at h
        omega
  · exact absurd h hc

/-- A mark is no letter in another case. -/
theorem eq_of_foldCase_eq {c a : CodePoint}
    (ha : a.toNat < 65 ∨ 90 < a.toNat ∧ a.toNat < 128) (h : foldCase c = a) :
    c = a := by
  by_cases hc : c.toNat < 128
  · have hall : ∀ n < 128, foldCase (.ofNat n) = .ofNat n ∨
        65 ≤ (foldCase (.ofNat n)).toNat ∧ (foldCase (.ofNat n)).toNat ≤ 90 :=
        by decide
    have hn := hall c.toNat hc
    rw [CodePoint.ofNat_toNat] at hn
    rcases hn with hn | hn
    · exact hn.symm.trans h
    · rw [h] at hn
      omega
  · have hall :
        ∀ d ∈ [CodePoint.ofNat 0x130, .ofNat 0x131, .ofNat 0x17F,
          .ofNat 0x212A], 65 ≤ (foldCase d).toNat ∧ (foldCase d).toNat ≤ 90 :=
          by decide +kernel
    have hletter := hall c (mem_of_foldCase_ascii hc (by rw [h]; omega))
    rw [h] at hletter
    omega

/-- A letter of ASCII in any case is a character of a word, and so is the
capital one, which is its own least one. -/
theorem isWord_of_letter {c : CodePoint}
    (h : 65 ≤ (foldCase c).toNat ∧ (foldCase c).toNat ≤ 90) :
    isWord c = true ∧ isWord (foldCase c) = true ∧
    foldCase (foldCase c) = foldCase c := by
  have hcapital : ∀ n < 128, 65 ≤ n ∧ n ≤ 90 →
      isWord (.ofNat n) = true ∧ foldCase (.ofNat n) = .ofNat n := by decide
  have hn := hcapital (foldCase c).toNat (by omega) h
  rw [CodePoint.ofNat_toNat] at hn
  refine ⟨?_, hn⟩
  by_cases hc : c.toNat < 128
  · have hall : ∀ n < 128, 65 ≤ (foldCase (.ofNat n)).toNat ∧
        (foldCase (.ofNat n)).toNat ≤ 90 →
        isWord (.ofNat n) = true := by decide
    have hword := hall c.toNat hc
    rw [CodePoint.ofNat_toNat] at hword
    exact hword h
  · have hall :
        ∀ d ∈ [CodePoint.ofNat 0x130, .ofNat 0x131, .ofNat 0x17F,
          .ofNat 0x212A], isWord d = true := by decide +kernel
    exact hall c (mem_of_foldCase_ascii hc (by omega))

/-- The capitals beyond ASCII that are a letter of it up to case: the dotted I
and the sign of the kelvin. -/
def IsForeignCapital (c : CodePoint) : Prop :=
  c = .ofNat 0x130 ∨ c = .ofNat 0x212A

instance (c : CodePoint) : Decidable (IsForeignCapital c) :=
  inferInstanceAs (Decidable (_ ∨ _))

theorem IsForeignCapital.foldCase_mem {c : CodePoint} (h : IsForeignCapital c) :
    foldCase c ∈ [CodePoint.char 'I', .char 'K'] := by
  rcases h with rfl | rfl <;> decide +kernel

theorem IsForeignCapital.not_ascii {c : CodePoint} (h : IsForeignCapital c) :
    ¬ c.toNat < 128 := by
  rcases h with rfl | rfl <;> decide

/-- A foreign capital is in upper case already. -/
theorem IsForeignCapital.upperChar_eq {c : CodePoint} (h : IsForeignCapital c) :
    upperChar c = [c] := by
  rcases h with rfl | rfl <;> decide +kernel

/-- The upper case of any other letter is the letter of ASCII. -/
theorem upperChar_of_not_foreign {c : CodePoint}
    (h : 65 ≤ (foldCase c).toNat ∧ (foldCase c).toNat ≤ 90)
    (hc : ¬ IsForeignCapital c) :
    upperChar c = [foldCase c] := by
  by_cases hascii : c.toNat < 128
  · rw [upperChar, foldCase, if_pos hascii, if_pos hascii]
  · have hall :
        ∀ d ∈ [CodePoint.ofNat 0x130, .ofNat 0x131, .ofNat 0x17F,
          .ofNat 0x212A], ¬ IsForeignCapital d → upperChar d = [foldCase d] :=
          by decide +kernel
    exact hall c (mem_of_foldCase_ascii hascii (by omega)) hc

/-- Upper case keeps a letter what it is. -/
theorem exists_upperChar_of_letter {c : CodePoint}
    (h : 65 ≤ (foldCase c).toNat ∧ (foldCase c).toNat ≤ 90) :
    ∃ d, upperChar c = [d] ∧ foldCase d = foldCase c := by
  by_cases hc : IsForeignCapital c
  · exact ⟨c, hc.upperChar_eq, rfl⟩
  · exact ⟨foldCase c, upperChar_of_not_foreign h hc, (isWord_of_letter h).2.2⟩

/-! ## Spelling

A keyword is spelled by letters, so a spelling has no blanks and no marks in it.
Where it ends is told by what follows it. -/

/-- A text spells a word when it differs from it in letter case at most. -/
def Spells (word t : Text) : Prop :=
  t.map foldCase = word.map foldCase

instance (word t : Text) : Decidable (Spells word t) :=
  inferInstanceAs (Decidable (_ = _))

theorem Spells.length_eq {word t : Text} (h : Spells word t) :
    t.length = word.length := by
  have hl := congrArg List.length h
  rwa [List.length_map, List.length_map] at hl

theorem spells_self (word : Text) : Spells word word := rfl

theorem spells_cons {w c : CodePoint} {ws s : Text} :
    Spells (w :: ws) (c :: s) ↔ sameLetter w c = true ∧ Spells ws s := by
  rw [Spells, List.map_cons, List.map_cons, List.cons.injEq, sameLetter,
    beq_iff_eq]
  exact and_congr_left' eq_comm

/-- Marks are spelled in one way. -/
theorem Spells.eq_of_marks {word x : Text}
    (hm : ∀ w ∈ word, w.toNat < 65 ∧ foldCase w = w) (h : Spells word x) :
    x = word := by
  induction word generalizing x with
  | nil => exact List.length_eq_zero_iff.1 h.length_eq
  | cons w ws ih =>
      rw [List.forall_mem_cons] at hm
      cases x with
      | nil => exact absurd h.length_eq (by simp)
      | cons c s =>
          obtain ⟨hc, hs⟩ := spells_cons.1 h
          rw [sameLetter, beq_iff_eq, hm.1.2] at hc
          rw [eq_of_foldCase_eq (.inl hm.1.1) hc.symm, ih hm.2 hs]

/-- What follows a word is what is left behind some spelling of it. -/
theorem afterWord?_eq_some_iff {word t rest : Text} :
    afterWord? word t = some rest ↔ ∃ x, Spells word x ∧ t = x ++ rest := by
  induction word generalizing t with
  | nil =>
      constructor
      · intro h
        cases h
        exact ⟨[], rfl, rfl⟩
      · rintro ⟨x, hx, rfl⟩
        have hn := hx.length_eq
        rw [List.length_nil, List.length_eq_zero_iff] at hn
        rw [hn]
        rfl
  | cons w ws ih =>
      cases t with
      | nil =>
          constructor
          · intro h
            cases h
          · rintro ⟨x, hx, h⟩
            rw [(List.append_eq_nil_iff.1 h.symm).1] at hx
            exact absurd hx.length_eq (by simp)
      | cons c s =>
          rw [afterWord?]
          constructor
          · intro h
            split at h
            · next hw =>
                obtain ⟨x, hx, rfl⟩ := ih.1 h
                exact ⟨c :: x, spells_cons.2 ⟨hw, hx⟩, rfl⟩
            · cases h
          · rintro ⟨x, hx, h⟩
            cases x with
            | nil => exact absurd hx.length_eq (by simp)
            | cons d x =>
                rw [List.cons_append, List.cons.injEq] at h
                obtain ⟨rfl, rfl⟩ := h
                obtain ⟨hw, hx⟩ := spells_cons.1 hx
                rw [if_pos hw]
                exact ih.2 ⟨x, hx, rfl⟩

/-- A word of letters, at least one. -/
structure IsKeyword (word : Text) : Prop where
  ne_nil : word ≠ []
  letters : ∀ w ∈ word, 65 ≤ (foldCase w).toNat ∧ (foldCase w).toNat ≤ 90

instance (word : Text) : Decidable (IsKeyword word) :=
  decidable_of_iff (word ≠ [] ∧ ∀ w ∈ word, 65 ≤ (foldCase w).toNat ∧
    (foldCase w).toNat ≤ 90)
    ⟨fun h => ⟨h.1, h.2⟩, fun h => ⟨h.1, h.2⟩⟩

/-- Every character of a spelling is a letter. -/
theorem IsKeyword.letter_of_mem {word x : Text} (hw : IsKeyword word)
    (hx : Spells word x) {c : CodePoint} (hc : c ∈ x) :
    65 ≤ (foldCase c).toNat ∧ (foldCase c).toNat ≤ 90 := by
  have hm : foldCase c ∈ word.map foldCase := hx ▸ List.mem_map.2 ⟨c, hc, rfl⟩
  obtain ⟨w, hw', he⟩ := List.mem_map.1 hm
  exact he ▸ hw.letters w hw'

/-- No letter of a keyword is at the head. -/
def Apart (t : Text) : Prop :=
  ∀ c s, t = c :: s → (foldCase c).toNat < 65 ∨ 90 < (foldCase c).toNat

theorem apart_nil : Apart [] := by
  intro c s h
  cases h

theorem apart_cons {c : CodePoint} {s : Text} :
    Apart (c :: s) ↔ (foldCase c).toNat < 65 ∨ 90 < (foldCase c).toNat :=
  ⟨fun h => h c s rfl, fun h _ _ he => (List.cons.inj he).1 ▸ h⟩

theorem Text.Bounded.apart {t : Text} (h : Text.Bounded t) : Apart t := by
  intro c s hc
  have hb := h c s hc
  rw [foldCase_of_isBlank hb]
  rw [isBlank, inRanges, List.any_eq_true] at hb
  obtain ⟨r, hr, hn⟩ := hb
  have hout : ∀ r ∈ blankRanges, r.2 < 65 ∨ 90 < r.1 := by decide
  have hr := hout r hr
  simp only [Bool.and_eq_true, decide_eq_true_eq] at hn
  omega

/-- No blank stands in a spelling of a keyword. -/
theorem IsKeyword.isBlank_of_mem {word x : Text} (hw : IsKeyword word)
    (hx : Spells word x) {c : CodePoint} (hc : c ∈ x) : isBlank c = false := by
  cases hb : isBlank c with
  | false => rfl
  | true =>
      have hl := hw.letter_of_mem hx hc
      have hn := (Text.bounded_cons (s := []).2 hb).apart c [] rfl
      omega

/-- No mark stands in a spelling of a keyword. -/
theorem IsKeyword.ne_of_mem {word x : Text} (hw : IsKeyword word)
    (hx : Spells word x) {c a : CodePoint} (hc : c ∈ x)
    (ha : (foldCase a).toNat < 65 ∨ 90 < (foldCase a).toNat) :
    c ≠ a := by
  rintro rfl
  have hl := hw.letter_of_mem hx hc
  omega

theorem IsKeyword.spelling_ne_nil {word x : Text} (hw : IsKeyword word)
    (hx : Spells word x) :
    x ≠ [] := by
  rintro rfl
  have hl := hx.length_eq
  exact hw.ne_nil (List.length_eq_zero_iff.1 hl.symm)

theorem IsKeyword.flushLeft {word x : Text} (hw : IsKeyword word)
    (hx : Spells word x) (r : Text) :
    Text.FlushLeft (x ++ r) := by
  rw [Text.flushLeft_append (hw.spelling_ne_nil hx)]
  intro c s he
  exact hw.isBlank_of_mem hx (he ▸ List.mem_cons_self)

/-- A word is not spelled where no letter stands. -/
theorem IsKeyword.not_apart {word x : Text} (hw : IsKeyword word)
    (hx : Spells word x) (r : Text) :
    ¬ Apart (x ++ r) := by
  obtain ⟨c, x, rfl⟩ := List.exists_cons_of_ne_nil (hw.spelling_ne_nil hx)
  intro h
  have hc := hw.letter_of_mem hx List.mem_cons_self
  have hn := h c (x ++ r) rfl
  omega

/-- A word that begins in a text ends in it if no letter follows the text. -/
theorem IsKeyword.exists_of_append {word x s r u : Text} (hw : IsKeyword word)
    (hx : Spells word x) (hr : Apart r) (h : s ++ r = x ++ u) :
    ∃ v, s = x ++ v ∧ u = v ++ r := by
  rcases List.append_eq_append_iff.1 h with ⟨w, rfl, hrw⟩ | ⟨w, rfl, rfl⟩
  · cases w with
    | nil =>
        rw [List.append_nil]
        exact ⟨[], (List.append_nil s).symm, hrw.symm⟩
    | cons c w =>
        have hc :=
          hw.letter_of_mem hx (List.mem_append_right s List.mem_cons_self)
        have hn := hr c (w ++ u) hrw
        omega
  · exact ⟨w, rfl, rfl⟩

/-- A word that begins in a part without blanks and stands alone is the whole of
the part. -/
theorem IsKeyword.eq_of_append {word x s r u : Text} (hw : IsKeyword word)
    (hx : Spells word x) (hs : ∀ c ∈ s, isBlank c = false) (hr : Apart r)
    (hu : Text.Bounded u) (h : s ++ r = x ++ u) :
    s = x := by
  obtain ⟨v, rfl, rfl⟩ := hw.exists_of_append hx hr h
  have hv := Text.trimmed_of_solid fun c hc => hs c (List.mem_append_right x hc)
  rw [hu.of_append.eq_nil hv.head, List.append_nil]

/-! ## Words in upper case

Upper case and folding do the same to a spelling of an ASCII word, unless a
foreign capital stands in it. -/

namespace IsKeyword

variable {word x : Text} (hw : IsKeyword word) (hx : Spells word x)

include hw hx

theorem isWord_of_mem {c : CodePoint} (hc : c ∈ x) : isWord c = true :=
  (isWord_of_letter (hw.letter_of_mem hx hc)).1

/-- A word in any letter case, in upper case, is that word in some letter
case. -/
theorem spells_upper : Spells word (upper x) := by
  have hletter := fun c hc => hw.letter_of_mem hx (c := c) hc
  suffices hmap : (upper x).map foldCase = x.map foldCase from hmap.trans hx
  clear hx
  induction x with
  | nil => rfl
  | cons c x ih =>
      rw [List.forall_mem_cons] at hletter
      obtain ⟨d, hd, hfold⟩ := exists_upperChar_of_letter hletter.1
      rw [upper, List.flatMap_cons, hd, List.map_append, List.map_cons,
        List.map_cons, ← hfold]
      exact congrArg _ (ih hletter.2)

/-- Without a foreign capital the upper case of a word is its letters. -/
theorem upper_eq_map (hforeign : ∀ c ∈ x, ¬ IsForeignCapital c) :
    upper x = word.map foldCase := by
  have hletter : ∀ c ∈ x, upperChar c = [foldCase c] := fun c hc =>
    upperChar_of_not_foreign (hw.letter_of_mem hx hc) (hforeign c hc)
  rw [upper, List.flatMap_def, List.map_congr_left hletter, ← List.flatMap_def,
    ← List.map_eq_flatMap]
  exact hx

/-- Nearly every word, in any letter case, has one upper case only. -/
theorem upper_eq
    (hfold : ∀ c ∈ word, foldCase c = c ∧ c ∉ [CodePoint.char 'I', .char 'K']) :
    upper x = word := by
  have hself : word.map foldCase = word :=
    (List.map_congr_left fun c hc => (hfold c hc).1).trans (List.map_id word)
  rw [hw.upper_eq_map hx, hself]
  intro c hc hforeign
  have hmem : foldCase c ∈ word := by
    rw [← hself, ← hx]
    exact List.mem_map_of_mem hc
  exact (hfold _ hmem).2 hforeign.foldCase_mem

end IsKeyword

end RowSql

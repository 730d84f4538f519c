import RowSql.Json.Quoted
import RowSql.Proofs.Text.Utf8

/-!
# Strings, written and read

A string is read back a character at a time: what a character is written as is
read as that character, whatever stands behind it. The one exception is a
surrogate of the first kind with one of the second kind behind it, since the two
are read as a single character. A text in which that does not happen is whole,
and every string that is read is one.
-/

namespace RowSql

namespace Json

/-! ## Code units

A unit is four hexadecimal digits. Whether a second one is read behind it
depends on what follows, which is why strings are read from the right here. -/

theorem hexDigit?_hexDigit {d : Nat} (h : d < 16) :
    hexDigit? (Text.hexDigit d) = some d := by
  have hall : ∀ d < 16, hexDigit? (Text.hexDigit d) = some d := by decide
  exact hall d h

theorem readHex4?_hex4 {n : Nat} (h : n < 0x10000) (s : Text) :
    readHex4? (hex4 n ++ s) = some (n, s) := by
  have hdigit (k : Nat) : hexDigit? (Text.hexDigit (k % 16)) = some (k % 16) :=
    hexDigit?_hexDigit (Nat.mod_lt k (by decide))
  have hvalue :
      ((n / 4096 % 16 * 16 + n / 256 % 16) * 16 + n / 16 % 16) * 16 + n % 16 =
        n := by
    omega
  simp only [hex4, List.cons_append, List.nil_append, readHex4?, hdigit, hvalue]

theorem length_hex4 (n : Nat) : (hex4 n).length = 4 := rfl

theorem not_length_hex4_append_le (n : Nat) {s : Text} (hs : s ≠ []) :
    ¬ (hex4 n ++ s).length ≤ 4 := by
  have hlen := List.length_pos_iff.2 hs
  rw [List.length_append, length_hex4]
  omega

/-- What does not go on with the second half of a pair. -/
def NoSecondUnit (s : Text) : Prop :=
  readSecondUnit? s = .ok none ∨
    ∃ m r, readSecondUnit? s = .ok (some (m, r)) ∧ ¬ (0xDC00 ≤ m ∧ m ≤ 0xDFFF)

theorem readSecondUnit?_unitEscape {n : Nat} (h : n < 0x10000) {s : Text}
    (hs : s ≠ []) :
    readSecondUnit? (unitEscape n ++ s) = .ok (some (n, s)) := by
  rw [unitEscape, List.cons_append, List.cons_append, readSecondUnit?,
    if_neg (not_length_hex4_append_le n hs), readHex4?_hex4 h]

theorem readUnits_hex4 {n : Nat} (h : n < 0x10000) {s : Text} (hs : s ≠ [])
    (hsingle : 0xD800 ≤ n ∧ n ≤ 0xDBFF → NoSecondUnit s) :
    readUnits (hex4 n ++ s) = .ok (.ofNat n, s) := by
  rw [readUnits, if_neg (not_length_hex4_append_le n hs), readHex4?_hex4 h]
  by_cases hhigh : 0xD800 ≤ n ∧ n ≤ 0xDBFF
  · rcases hsingle hhigh with hnone | ⟨m, r, hsome, hm⟩
    · simp only [hnone, if_pos hhigh]
    · simp only [hsome, if_pos hhigh, if_neg hm]
  · simp only [if_neg hhigh]

theorem pairedUnits_eq {n : Nat} (h : 0x10000 ≤ n) :
    pairedUnits (0xD800 + (n - 0x10000) / 0x400)
        (0xDC00 + (n - 0x10000) % 0x400) = .ofNat n := by
  have hsum : 0x10000 + (0xD800 + (n - 0x10000) / 0x400 - 0xD800) * 0x400 +
      (0xDC00 + (n - 0x10000) % 0x400 - 0xDC00) = n := by omega
  rw [pairedUnits, hsum]

/-- The two units of a pair are read as its character. -/
theorem readUnits_pair {n m : Nat} (hn : 0xD800 ≤ n ∧ n ≤ 0xDBFF)
    (hm : 0xDC00 ≤ m ∧ m ≤ 0xDFFF) {s : Text} (hs : s ≠ []) :
    readUnits (hex4 n ++ (unitEscape m ++ s)) = .ok (pairedUnits n m, s) := by
  have hne : unitEscape m ++ s ≠ [] := List.append_ne_nil_of_right_ne_nil _ hs
  rw [readUnits, if_neg (not_length_hex4_append_le n hne),
    readHex4?_hex4 (by omega)]
  simp only [if_pos hn,
    readSecondUnit?_unitEscape (show m < 0x10000 by omega) hs, if_pos hm]

/-! ## Characters

Each character is written in one of four ways, and read back whatever follows,
unless it is a high surrogate in front of a low one. -/

theorem unescape?_of_shortEscape? {c e : CodePoint}
    (h : shortEscape? c = some e) :
    unescape? e = some c ∧ e ≠ 'u' := by
  rw [shortEscape?.eq_def] at h
  split at h <;> first | cases h; exact ⟨rfl, by decide⟩ | cases h

theorem ne_of_shortEscape?_eq_none {c : CodePoint} (h : shortEscape? c = none) :
    c ≠ '"' ∧ c ≠ '\\' := by
  constructor
  · rintro rfl
    cases h
  · rintro rfl
    cases h

theorem readString_of_escape {opening : Nat} {s r : Text} {c : CodePoint}
    (h : readEscape opening s = .ok (c, r)) :
    readString opening (.char '\\' :: s) =
      (readString opening r).map fun p => (c :: p.1, p.2) := by
  rw [readString, if_neg (by decide), if_pos rfl]
  split
  · next hs => rw [h] at hs; cases hs
  · next hs => rw [h] at hs; cases hs; rfl

/-- What a character is written as is read as that character. -/
theorem readString_writeChar {c : CodePoint} {s : Text} (hs : s ≠ [])
    (hc : c.IsHigh → NoSecondUnit s) (opening : Nat) :
    readString opening (writeChar c ++ s) =
      (readString opening s).map fun p => (c :: p.1, p.2) := by
  have hlt := c.toNat_lt
  rw [writeChar]
  cases hshort : shortEscape? c with
  | some e =>
      obtain ⟨hback, hu⟩ := unescape?_of_shortEscape? hshort
      rw [List.cons_append, List.cons_append, List.nil_append]
      refine readString_of_escape ?_
      rw [readEscape, if_neg hu, hback]
  | none =>
      obtain ⟨hquote, hback⟩ := ne_of_shortEscape?_eq_none hshort
      simp only
      split
      · next hprint =>
          have hspace : ¬ c.toNat ≤ 0x1F := Nat.not_le.2 hprint.1
          rw [List.singleton_append, readString, if_neg hquote, if_neg hback,
            if_neg hspace]
      · split
        · next hbmp =>
            rw [unitEscape, List.cons_append, List.cons_append]
            refine readString_of_escape ?_
            rw [readEscape, if_pos rfl, readUnits_hex4 hbmp hs hc,
              CodePoint.ofNat_toNat]
        · next hbmp =>
            rw [unitEscape, List.append_assoc, List.cons_append,
              List.cons_append]
            refine readString_of_escape ?_
            rw [readEscape, if_pos rfl, readUnits_pair (by omega) (by omega) hs,
              pairedUnits_eq (by omega), CodePoint.ofNat_toNat]

/-! ## Strings

In a whole text there is no such place. So its characters are read back one by
one. -/

/-- Only a surrogate of the second kind is written as the second half of a
pair. -/
theorem noSecondUnit_writeChar {c : CodePoint} (hc : ¬ c.IsLow) {s : Text}
    (hs : s ≠ []) :
    NoSecondUnit (writeChar c ++ s) := by
  have hlt := c.toNat_lt
  rw [writeChar]
  cases hshort : shortEscape? c with
  | some e =>
      obtain ⟨_, hu⟩ := unescape?_of_shortEscape? hshort
      left
      rw [List.cons_append, List.cons_append, List.nil_append,
        readSecondUnit?.eq_def]
      split
      · next heq =>
          rw [List.cons.injEq, List.cons.injEq] at heq
          exact absurd heq.2.1 hu
      · rfl
  | none =>
      obtain ⟨_, hback⟩ := ne_of_shortEscape?_eq_none hshort
      simp only
      split
      · left
        rw [List.singleton_append, readSecondUnit?.eq_def]
        split
        · next heq =>
            rw [List.cons.injEq] at heq
            exact absurd heq.1 hback
        · rfl
      · split
        · next hbmp => exact .inr ⟨_, _, readSecondUnit?_unitEscape hbmp hs, hc⟩
        · next hbmp =>
            rw [List.append_assoc]
            exact .inr ⟨_, _, readSecondUnit?_unitEscape (by omega)
              (List.append_ne_nil_of_right_ne_nil _ hs), by omega⟩

theorem noSecondUnit_written {t : Text} (h : t.NoLow) (rest : Text) :
    NoSecondUnit (t.flatMap writeChar ++ .char '"' :: rest) := by
  cases t with
  | nil => exact .inl rfl
  | cons c t =>
      rw [List.flatMap_cons, List.append_assoc]
      exact noSecondUnit_writeChar h
        (List.append_ne_nil_of_right_ne_nil _ (List.cons_ne_nil _ rest))

/-- A whole text is read back from the characters it is written as. -/
theorem readString_written {t : Text} (h : t.Whole) (opening : Nat)
    (rest : Text) :
    readString opening (t.flatMap writeChar ++ .char '"' :: rest) =
      .ok (t, rest) := by
  induction t with
  | nil =>
      rw [List.flatMap_nil, List.nil_append, readString]
      exact if_pos rfl
  | cons c t ih =>
      rw [List.flatMap_cons, List.append_assoc, readString_writeChar
        (List.append_ne_nil_of_right_ne_nil _ (List.cons_ne_nil _ rest))
        (fun hhigh => noSecondUnit_written (h.1 hhigh) rest), ih h.2]
      rfl

/-! ## Reading whole strings

The other way round: whatever is read as a string is whole, since two units that
make a pair are read as the character they stand for. -/

theorem isSuffix_of_readHex4? {t s : Text} {n : Nat}
    (h : readHex4? t = some (n, s)) :
    s <:+ t ∧ n < 0x10000 := by
  have hdigit (c : CodePoint) (d : Nat) (hd : hexDigit? c = some d) :
      d < 16 := by
    rw [hexDigit?] at hd
    split at hd
    · next hc =>
        have hhigh : c.toNat ≤ 57 := hc.2
        cases hd
        omega
    · split at hd
      · next hc =>
          have hhigh : c.toNat ≤ 102 := hc.2
          cases hd
          omega
      · split at hd
        · next hc =>
            have hhigh : c.toNat ≤ 70 := hc.2
            cases hd
            omega
        · cases hd
  match t with
  | [] | [_] | [_, _] | [_, _, _] => cases h
  | a :: b :: c :: d :: r =>
      rw [readHex4?] at h
      split at h
      · next ha hb hc hd =>
          have := hdigit _ _ ha
          have := hdigit _ _ hb
          have := hdigit _ _ hc
          have := hdigit _ _ hd
          cases h
          exact ⟨List.suffix_append [a, b, c, d] s, by omega⟩
      · cases h

theorem isSuffix_of_readSecondUnit? {t s : Text} {n : Nat}
    (h : readSecondUnit? t = .ok (some (n, s))) : s <:+ t := by
  rw [readSecondUnit?.eq_def] at h
  split at h
  · split at h
    · cases h
    · split at h
      · next hr =>
          cases h
          exact (isSuffix_of_readHex4? hr).1.trans
            (List.suffix_append [CodePoint.char '\\', .char 'u'] _)
      · cases h
  · cases h

/-- The units of a pair are read as one character, and any other unit as one of
its own. -/
theorem readUnits_cases {t r : Text} {c : CodePoint}
    (h : readUnits t = .ok (c, r)) :
    ∃ n s, 4 < t.length ∧ readHex4? t = some (n, s) ∧
      ((∃ m, (0xD800 ≤ n ∧ n ≤ 0xDBFF) ∧ (0xDC00 ≤ m ∧ m ≤ 0xDFFF) ∧
          readSecondUnit? s = .ok (some (m, r)) ∧ c = pairedUnits n m) ∨
        (c = .ofNat n ∧ r = s ∧
          (0xD800 ≤ n ∧ n ≤ 0xDBFF → NoSecondUnit s))) := by
  rw [readUnits] at h
  split at h
  · cases h
  next hlong =>
  rw [Nat.not_le] at hlong
  cases hr : readHex4? t with
  | none =>
      rw [hr] at h
      cases h
  | some p =>
      obtain ⟨n, s⟩ := p
      rw [hr] at h
      simp only at h
      refine ⟨n, s, hlong, rfl, ?_⟩
      split at h
      · next hhigh =>
          split at h
          · cases h
          · next m u hu =>
              split at h
              · next hlow =>
                  rw [Except.ok.injEq, Prod.mk.injEq] at h
                  exact .inl ⟨m, hhigh, hlow, h.2 ▸ hu, h.1.symm⟩
              · next hlow =>
                  cases h
                  exact .inr ⟨rfl, rfl, fun _ => .inr ⟨m, u, hu, hlow⟩⟩
          · next hu =>
              cases h
              exact .inr ⟨rfl, rfl, fun _ => .inl hu⟩
      · next hhigh =>
          cases h
          exact .inr ⟨rfl, rfl, fun hc => absurd hc hhigh⟩

/-- A surrogate is read only where it cannot be half of a pair. -/
theorem readUnits_eq_ok {t r : Text} {c : CodePoint}
    (h : readUnits t = .ok (c, r)) :
    r <:+ t ∧ (c.IsHigh → NoSecondUnit r) ∧
      (c.IsLow → ¬ NoSecondUnit (.char '\\' :: .char 'u' :: t)) := by
  obtain ⟨n, s, hlong, hread, hcases⟩ := readUnits_cases h
  obtain ⟨hsuffix, hn⟩ := isSuffix_of_readHex4? hread
  rcases hcases with ⟨m, hhigh, hlow, hu, hc⟩ | ⟨rfl, rfl, hsingle⟩
  · have hpair : 0x10000 ≤ c.toNat := by
      rw [hc, pairedUnits, CodePoint.toNat_ofNat (by omega)]
      omega
    refine ⟨(isSuffix_of_readSecondUnit? hu).trans hsuffix, fun hc => ?_,
      fun hc => ?_⟩
    · rw [CodePoint.IsHigh] at hc
      omega
    · rw [CodePoint.IsLow] at hc
      omega
  · have hcode : (CodePoint.ofNat n).toNat = n :=
      CodePoint.toNat_ofNat (by omega)
    rw [CodePoint.IsHigh, CodePoint.IsLow, hcode]
    refine ⟨hsuffix, hsingle, fun hlow hnone => ?_⟩
    have hunit :
        readSecondUnit? (.char '\\' :: .char 'u' :: t) = .ok (some (n, r)) := by
      rw [readSecondUnit?, if_neg (Nat.not_le.2 hlong), hread]
    rcases hnone with hnone | ⟨m, u, hsome, hm⟩
    · rw [hunit] at hnone
      cases hnone
    · rw [hunit] at hsome
      cases hsome
      exact hm hlow

theorem unescape?_ascii {e c : CodePoint} (h : unescape? e = some c) :
    c.toNat < 128 := by
  rw [unescape?.eq_def] at h
  split at h <;> first | cases h; decide | cases h

theorem readEscape_eq_ok {opening : Nat} {t r : Text} {c : CodePoint}
    (h : readEscape opening t = .ok (c, r)) :
    r <:+ t ∧ (c.IsHigh → NoSecondUnit r) ∧
      (c.IsLow → ¬ NoSecondUnit (.char '\\' :: t)) := by
  cases t with
  | nil => cases h
  | cons e s =>
      rw [readEscape] at h
      split at h
      · next hu =>
          subst hu
          obtain ⟨hsuffix, hrest⟩ := readUnits_eq_ok h
          exact ⟨hsuffix.trans (List.suffix_cons _ s), hrest⟩
      · split at h
        · next d hd =>
            cases h
            have hascii := unescape?_ascii hd
            refine ⟨List.suffix_cons e _, fun hc => ?_, fun hc => ?_⟩
            · rw [CodePoint.IsHigh] at hc
              omega
            · rw [CodePoint.IsLow] at hc
              omega
        · cases h

/-- Every string that is read is whole. -/
theorem readString_eq_ok {opening : Nat} {t s r : Text} (ht : t.OfChars)
    (h : readString opening t = .ok (s, r)) :
    r <:+ t ∧ s.Whole ∧ (NoSecondUnit t → s.NoLow) := by
  fun_induction readString opening t generalizing s r with
  | case1 => cases h
  | case2 =>
      cases h
      exact ⟨List.suffix_cons _ _, trivial, fun _ => trivial⟩
  | case3 => cases h
  | case4 t d u hu _ ih =>
      obtain ⟨hsuffix, hhigh, hlow⟩ := readEscape_eq_ok hu
      obtain ⟨⟨s', r'⟩, hread, heq⟩ := map_eq_ok h
      cases heq
      obtain ⟨hr, hwhole, hfirst⟩ := ih (ht.of_isSuffix
        (hsuffix.trans (List.suffix_cons _ t))) hread
      exact ⟨(hr.trans hsuffix).trans (List.suffix_cons _ t),
        ⟨fun hc => hfirst (hhigh hc), hwhole⟩, fun hnone hc => hlow hc hnone⟩
  | case5 => cases h
  | case6 c t _ _ _ ih =>
      obtain ⟨⟨s', r'⟩, hread, heq⟩ := map_eq_ok h
      cases heq
      obtain ⟨hr, hwhole, _⟩ := ih (ht.of_isSuffix (List.suffix_cons c t)) hread
      obtain ⟨a, rfl⟩ := ht c List.mem_cons_self
      exact ⟨hr.trans (List.suffix_cons _ t),
        ⟨fun hhigh => absurd hhigh (CodePoint.not_isHigh_char a), hwhole⟩,
        fun _ => CodePoint.not_isLow_char a⟩

end Json

end RowSql

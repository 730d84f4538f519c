import RowSql.Proofs.Text.Letters
import RowSql.Text.Utf8

/-!
# Texts in files

Bytes that are decoded are a text of characters, without surrogates. An ASCII
text without carriage returns is read from a file as it was written.
-/

namespace RowSql

/-! ## Surrogates

A text is whole when no high surrogate stands directly before a low one. Texts
of characters have no surrogates at all. -/

namespace CodePoint

/-- A surrogate of the first kind. -/
def IsHigh (c : CodePoint) : Prop := 0xD800 ≤ c.toNat ∧ c.toNat ≤ 0xDBFF

/-- A surrogate of the second kind. -/
def IsLow (c : CodePoint) : Prop := 0xDC00 ≤ c.toNat ∧ c.toNat ≤ 0xDFFF

instance (c : CodePoint) : Decidable c.IsHigh :=
  inferInstanceAs (Decidable (_ ∧ _))

instance (c : CodePoint) : Decidable c.IsLow :=
  inferInstanceAs (Decidable (_ ∧ _))

end CodePoint

namespace Text

/-- A text that does not open with a surrogate of the second kind. -/
def NoLow : Text → Prop
  | [] => True
  | c :: _ => ¬ c.IsLow

/-- A text in which no two surrogates make up a pair. -/
def Whole : Text → Prop
  | [] => True
  | c :: s => (c.IsHigh → NoLow s) ∧ Whole s

instance decidableNoLow : (t : Text) → Decidable (NoLow t)
  | [] => isTrue trivial
  | c :: _ => inferInstanceAs (Decidable (¬ c.IsLow))

instance decidableWhole : (t : Text) → Decidable (Whole t)
  | [] => isTrue trivial
  | c :: s =>
    have := decidableWhole s
    inferInstanceAs (Decidable ((c.IsHigh → NoLow s) ∧ Whole s))

theorem OfChars.of_isSuffix {s t : Text} (h : OfChars t) (hs : s <:+ t) :
    OfChars s :=
  fun c hc => h c (hs.subset hc)

end Text

namespace CodePoint

theorem not_isHigh_char (a : Char) : ¬ (char a).IsHigh := by
  have hv : a.toNat < 0xD800 ∨ 0xDFFF < a.toNat ∧ a.toNat < 0x110000 := a.valid
  intro h
  have hrange : 0xD800 ≤ a.toNat ∧ a.toNat ≤ 0xDBFF := h
  omega

theorem not_isLow_char (a : Char) : ¬ (char a).IsLow := by
  have hv : a.toNat < 0xD800 ∨ 0xDFFF < a.toNat ∧ a.toNat < 0x110000 := a.valid
  intro h
  have hrange : 0xDC00 ≤ a.toNat ∧ a.toNat ≤ 0xDFFF := h
  omega

end CodePoint


/-! ## Decoding

What is decoded is characters. Taking carriage returns out of line ends leaves a
part of them. -/

theorem map_eq_ok {ε α β : Type} {x : Except ε α} {f : α → β} {b : β}
    (h : x.map f = .ok b) :
    ∃ a, x = .ok a ∧ f a = b := by
  cases x with
  | error e => cases h
  | ok a => exact ⟨a, rfl, Except.ok.inj h⟩

namespace Utf8

theorem ofChars_of_map {c : Char} {x : Except Fault Text} {t : Text}
    (h : x.map (CodePoint.char c :: ·) = .ok t)
    (ih : ∀ s, x = .ok s → s.OfChars) :
    t.OfChars := by
  obtain ⟨s, hs, rfl⟩ := map_eq_ok h
  exact List.forall_mem_cons.2 ⟨⟨c, rfl⟩, ih s hs⟩

theorem ofChars_of_decodeFrom {pos : Nat} {p : Option Pending} {bytes : Bytes}
    {t : Text} (h : decodeFrom pos p bytes = .ok t) : t.OfChars := by
  fun_induction decodeFrom pos p bytes generalizing t with
  | case1 =>
      cases h
      exact fun c hc => nomatch hc
  | case2 => cases h
  | case3 _ _ _ _ ih => exact ofChars_of_map h fun s hs => ih hs
  | case4 _ _ _ _ _ _ ih => exact ih h
  | case5 => cases h
  | case6 =>
      rename_i ih
      exact ofChars_of_map h fun s hs => ih hs
  | case7 =>
      rename_i ih
      exact ih h
  | case8 => cases h

/-- Decoded bytes are a text of characters. -/
theorem ofChars_of_decode {bytes : Bytes} {t : Text}
    (h : decode bytes = .ok t) : t.OfChars :=
  ofChars_of_decodeFrom h

end Utf8

namespace Text

theorem mem_of_mem_unifyLines {t : Text} {c : CodePoint}
    (h : c ∈ unifyLines t) :
    c ∈ t ∨ c = '\n' := by
  fun_induction unifyLines t with
  | case1 => cases h
  | case2 s ih =>
      rcases List.mem_cons.1 h with rfl | h
      · exact .inr rfl
      · exact (ih h).imp_left fun h =>
          List.mem_cons_of_mem _ (List.mem_cons_of_mem _ h)
  | case3 s _ ih =>
      rcases List.mem_cons.1 h with rfl | h
      · exact .inr rfl
      · exact (ih h).imp_left fun h => List.mem_cons_of_mem _ h
  | case4 d s _ _ ih =>
      rcases List.mem_cons.1 h with rfl | h
      · exact .inl List.mem_cons_self
      · exact (ih h).imp_left fun h => List.mem_cons_of_mem _ h

theorem OfChars.unifyLines {t : Text} (h : t.OfChars) :
    t.unifyLines.OfChars := by
  intro c hc
  rcases mem_of_mem_unifyLines hc with hc | rfl
  · exact h c hc
  · exact ⟨'\n', rfl⟩

/-! ## Texts that are read as they are written

A file that the encoder writes is of ASCII, without carriage returns, so its
bytes are its characters and its lines stay as they are. -/

/-- An ASCII text without carriage returns. -/
def Ascii (t : Text) : Prop :=
  ∀ c ∈ t, c.toNat < 128 ∧ c ≠ '\r'

instance (t : Text) : Decidable (Ascii t) :=
  inferInstanceAs (Decidable (∀ c ∈ t, _))

theorem ascii_append {s t : Text} : Ascii (s ++ t) ↔ Ascii s ∧ Ascii t :=
  List.forall_mem_append

theorem ascii_cons {c : CodePoint} {t : Text} :
    Ascii (c :: t) ↔ (c.toNat < 128 ∧ c ≠ '\r') ∧ Ascii t :=
  List.forall_mem_cons

theorem Ascii.unifyLines_eq {t : Text} (h : t.Ascii) : t.unifyLines = t := by
  induction t with
  | nil => rfl
  | cons c s ih =>
      obtain ⟨hc, hs⟩ := ascii_cons.1 h
      rw [unifyLines, ih hs]
      · rintro r rfl
        exact absurd rfl hc.2
      · exact hc.2

end Text

/-- An ASCII text is decoded from its bytes. -/
theorem Utf8.decode_encode {t : Text} (h : t.Ascii) :
    decode (encode t) = .ok t := by
  have hfrom (pos : Nat) : decodeFrom pos none (encode t) = .ok t := by
    induction t generalizing pos with
    | nil => rfl
    | cons c s ih =>
        obtain ⟨hc, hs⟩ := Text.ascii_cons.1 h
        cases c with
        | surrogate k =>
            have hlt : 0xD800 + (k : Nat) < 128 := hc.1
            omega
        | char a =>
            have hlt : a.toNat < 128 := hc.1
            have hbyte : encode (.char a :: s) = a.val.toUInt8 :: encode s := by
              have hle : a.val ≤ 0x7f :=
                UInt32.le_iff_toNat_le.2 (Nat.lt_succ_iff.1 hlt)
              have hsize : a.utf8Size = 1 := if_pos hle
              rw [encode, List.flatMap_cons, CodePoint.toChar,
                String.utf8EncodeChar_eq_singleton hsize]
              rfl
            have hnat : a.val.toUInt8.toNat = a.toNat := by
              rw [UInt32.toNat_toUInt8]
              exact Nat.mod_eq_of_lt (Nat.lt_trans hlt (by decide))
            have hsmall : a.val.toUInt8 < 0x80 := by
              rw [UInt8.lt_iff_toNat_lt, hnat]
              exact hlt
            rw [hbyte, decodeFrom, if_pos hsmall, ih hs, hnat, Char.ofNat_toNat]
            rfl
  exact hfrom 0

end RowSql

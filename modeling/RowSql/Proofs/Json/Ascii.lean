import RowSql.Json.Rows
import RowSql.Proofs.Value
import RowSql.Proofs.Number.Written
import RowSql.Proofs.Text.Trim
import RowSql.Proofs.Text.Utf8

/-!
# Files are ASCII

Whatever the rows hold, they are written in ASCII and without carriage returns:
what is not ASCII in a text is escaped, and numbers consist of digits, points
and signs.
-/

namespace RowSql

namespace Text

variable {s t : Text}

theorem ascii_nil : Ascii [] := by
  intro c hc
  cases hc

theorem Ascii.of_subset (h : Ascii t) (hs : ∀ c ∈ s, c ∈ t) : Ascii s :=
  fun c hc => h c (hs c hc)

theorem ascii_replicate {c : CodePoint} (hc : c.toNat < 128 ∧ c ≠ '\r')
    (n : Nat) :
    Ascii (replicate n c) := by
  intro a ha
  rw [List.eq_of_mem_replicate ha]
  exact hc

theorem ascii_flatMap {f : CodePoint → Text} (h : ∀ c, Ascii (f c)) (t : Text) :
    Ascii (t.flatMap f) := by
  intro c hc
  obtain ⟨a, _, ha⟩ := List.mem_flatMap.1 hc
  exact h a c ha

theorem ascii_join {separator : Text} (hs : Ascii separator) {ts : List Text}
    (h : ∀ t ∈ ts, Ascii t) : Ascii (join separator ts) :=
  forall_mem_join hs h

/-! ## Numbers

Digits and the few signs and letters of a number. -/

theorem ascii_of_number (h : t ⊆ numberCharacters) : Ascii t := by
  have hall : Ascii numberCharacters := by decide
  exact hall.of_subset h

theorem ascii_ofInt (n : Int) : Ascii (ofInt n) :=
  ascii_of_number (ofInt_subset_numberCharacters n)

end Text

open Text

variable {t : Text}

namespace Json

theorem ascii_writeDouble (x : Binary64) : Ascii (writeDouble x) := by
  cases x with
  | nan => decide
  | infinite negative => cases negative <;> decide
  | finite negative units fits =>
      rw [writeDouble]
      · exact ascii_of_number (Binary64.toText_subset_numberCharacters _)
      · exact nofun
      · exact nofun

/-! ## Texts

What is not of ASCII is written by its code units, as hexadecimal digits. -/

theorem ascii_unitEscape (n : Nat) : Ascii (unitEscape n) := by
  have hall : ∀ d < 16, (hexDigit d).toNat < 128 ∧ hexDigit d ≠ '\r' := by
    decide
  have hdigit (k : Nat) := hall (k % 16) (Nat.mod_lt k (by decide))
  simp only [unitEscape, hex4, ascii_cons]
  exact ⟨by decide, by decide, hdigit _, hdigit _, hdigit _, hdigit _,
    ascii_nil⟩

theorem ascii_writeChar (c : CodePoint) : Ascii (writeChar c) := by
  rw [writeChar]
  cases hshort : shortEscape? c with
  | some e =>
      refine ascii_cons.2 ⟨by decide, ascii_cons.2 ⟨?_, ascii_nil⟩⟩
      rw [shortEscape?.eq_def] at hshort
      split at hshort <;> first | cases hshort; decide | cases hshort
  | none =>
      simp only
      split
      · next hprint =>
          have hlow : 32 ≤ c.toNat := hprint.1
          have hhigh : c.toNat ≤ 126 := hprint.2
          refine ascii_cons.2 ⟨⟨by omega, ?_⟩, ascii_nil⟩
          rintro rfl
          exact absurd hlow (by decide)
      · split
        · exact ascii_unitEscape _
        · exact ascii_append.2 ⟨ascii_unitEscape _, ascii_unitEscape _⟩

theorem ascii_writeString (t : Text) : Ascii (writeString t) :=
  ascii_append.2 ⟨ascii_cons.2 ⟨by decide, ascii_flatMap ascii_writeChar t⟩,
    by decide⟩

/-! ## Values

What is written for an array or an object is a block of what is written for its
parts, so the induction is on what is inside of a value. -/

theorem ascii_writeBlock {opening closing : CodePoint}
    (ho : opening.toNat < 128 ∧ opening ≠ '\r')
    (hc : closing.toNat < 128 ∧ closing ≠ '\r') (indent : Nat)
    {parts : List Text} (h : ∀ p ∈ parts, Ascii p) :
    Ascii (writeBlock opening closing indent parts) := by
  have hline (k : Nat) : Ascii (.char '\n' :: replicate k ' ') :=
    ascii_cons.2 ⟨by decide, ascii_replicate (by decide) k⟩
  rw [writeBlock.eq_def]
  split
  · exact ascii_cons.2 ⟨ho, ascii_cons.2 ⟨hc, ascii_nil⟩⟩
  · refine ascii_append.2
      ⟨ascii_append.2 ⟨ascii_append.2 ⟨ascii_cons.2 ⟨ho, hline _⟩, ?_⟩,
      hline _⟩, ascii_cons.2 ⟨hc, ascii_nil⟩⟩
    exact ascii_join (ascii_cons.2 ⟨by decide, hline _⟩) h

/-- What a list is mapped to where nothing fails is what its members are mapped
to. -/
theorem exists_of_mapM_eq_ok {ε α β : Type} {f : α → Except ε β} {xs : List α}
    {ys : List β} (h : xs.mapM f = .ok ys) :
    ∀ y ∈ ys, ∃ x ∈ xs, f x = .ok y := by
  induction xs generalizing ys with
  | nil =>
      cases h
      exact fun y hy => nomatch hy
  | cons x xs ih =>
      rw [List.mapM_cons] at h
      cases hx : f x with
      | error e =>
          rw [hx] at h
          cases h
      | ok z =>
          cases hxs : xs.mapM f with
          | error e =>
              rw [hx, hxs] at h
              cases h
          | ok zs =>
              rw [hx, hxs] at h
              cases h
              refine List.forall_mem_cons.2 ⟨⟨x, List.mem_cons_self, hx⟩,
                fun y hy => ?_⟩
              obtain ⟨a, ha, hay⟩ := ih hxs y hy
              exact ⟨a, List.mem_cons_of_mem x ha, hay⟩

theorem writeItems_eq (indent : Nat) (vs : List Value) :
    writeItems indent vs = vs.mapM (writeValue indent) := by
  induction vs with
  | nil => rfl
  | cons v vs ih => rw [writeItems, ih, List.mapM_cons]

theorem writeMembers_eq (indent : Nat) (ms : List (Text × Value)) :
    writeMembers indent ms =
      ms.mapM fun m => (writeValue indent m.2).map (member m.1) := by
  induction ms with
  | nil => rfl
  | cons m ms ih =>
      rw [writeMembers, ih, List.mapM_cons]
      cases writeValue indent m.2 <;> rfl

theorem ascii_of_writeValue {v : Value} :
    ∀ {indent : Nat} {t : Text}, writeValue indent v = .ok t → Ascii t := by
  induction v using Value.of_parts with
  | h v ih =>
      intro indent t h
      cases v with
      | null => cases h; decide
      | boolean b => cases h; cases b <;> decide
      | integer n =>
          rw [writeValue, writeInteger] at h
          split at h <;> cases h
          exact ascii_ofInt n
      | double x => cases h; exact ascii_writeDouble x
      | decimal _ => cases h
      | text s => cases h; exact ascii_writeString s
      | array items =>
          rw [writeValue, writeItems_eq] at h
          obtain ⟨ts, hts, rfl⟩ := map_eq_ok h
          refine ascii_writeBlock (by decide) (by decide) indent fun p hp => ?_
          obtain ⟨w, hw, hwrite⟩ := exists_of_mapM_eq_ok hts p hp
          exact ih w hw hwrite
      | object members =>
          rw [writeValue, writeMembers_eq] at h
          obtain ⟨ts, hts, rfl⟩ := map_eq_ok h
          refine ascii_writeBlock (by decide) (by decide) indent fun p hp => ?_
          obtain ⟨m, hm, hwrite⟩ := exists_of_mapM_eq_ok hts p hp
          obtain ⟨u, hu, rfl⟩ := map_eq_ok hwrite
          exact ascii_append.2 ⟨ascii_append.2 ⟨ascii_writeString _, by decide⟩,
            ih m.2 (List.mem_map_of_mem hm) hu⟩

/-- Written rows are ASCII. -/
theorem ascii_of_writeRows {rows : List Record} (h : writeRows rows = .ok t) :
    Ascii t := by
  obtain ⟨ts, hts, rfl⟩ := map_eq_ok h
  refine ascii_writeBlock (by decide) (by decide) 0 fun p hp => ?_
  obtain ⟨r, _, hr⟩ := exists_of_mapM_eq_ok hts p hp
  exact ascii_of_writeValue hr

end Json

end RowSql

import RowSql.Number.Shortest
import RowSql.Proofs.Number.Digits

/-!
# What written numbers consist of

However a number is laid out, it is written with digits, signs, a point, the
mark of a power of ten and the letters of `inf` and `nan`. So it has no quote
character and no question mark in it, and it is ASCII.
-/

namespace RowSql

/-- The characters that numbers are written with. -/
def numberCharacters : Text := "0123456789+-.einaf".toText

variable {t : Text}

theorem replicate_subset_numberCharacters {c : CodePoint}
    (hc : c ∈ numberCharacters) (n : Nat) :
    Text.replicate n c ⊆ numberCharacters := by
  intro a ha
  rw [List.eq_of_mem_replicate ha]
  exact hc

theorem ofNat_subset_numberCharacters (n : Nat) :
    Text.ofNat n ⊆ numberCharacters :=
  fun c hc => forall_mem_ofNat (by decide) n c hc

theorem ofInt_subset_numberCharacters (n : Int) :
    Text.ofInt n ⊆ numberCharacters := by
  rw [Text.ofInt]
  split
  · exact List.cons_subset.2 ⟨by decide, ofNat_subset_numberCharacters _⟩
  · exact ofNat_subset_numberCharacters _

theorem dropTrailing_subset (c : CodePoint) (t : Text) :
    Text.dropTrailing c t ⊆ t := by
  obtain ⟨k, hk⟩ := exists_eq_dropTrailing_append c t
  intro a ha
  rw [hk]
  exact List.mem_append_left _ ha

theorem aroundPoint_subset_numberCharacters (h : t ⊆ numberCharacters)
    (point : Int) :
    aroundPoint t point ⊆ numberCharacters := by
  have hzeros (k : Nat) : Text.replicate k '0' ⊆ numberCharacters :=
    replicate_subset_numberCharacters (by decide) k
  rw [aroundPoint]
  split
  · exact List.append_subset.2 ⟨List.append_subset.2 ⟨by decide, hzeros _⟩, h⟩
  · split
    · exact List.append_subset.2 ⟨List.Subset.trans (List.take_subset _ _) h,
        List.cons_subset.2
          ⟨by decide, List.Subset.trans (List.drop_subset _ _) h⟩⟩
    · exact List.append_subset.2 ⟨List.append_subset.2 ⟨h, hzeros _⟩, by decide⟩

theorem mantissa_subset_numberCharacters (h : t ⊆ numberCharacters) :
    mantissa t ⊆ numberCharacters := by
  rw [mantissa.eq_def]
  split
  · simp only [List.cons_subset] at h ⊢
    exact ⟨h.1, by decide, h.2⟩
  · exact h

theorem powerText_subset_numberCharacters (exponent : Int) :
    powerText exponent ⊆ numberCharacters := by
  refine List.append_subset.2 ⟨List.append_subset.2 ⟨?_, ?_⟩,
    ofNat_subset_numberCharacters _⟩
  · split <;> decide
  · exact replicate_subset_numberCharacters (by decide) _

theorem layOut_subset_numberCharacters (h : t ⊆ numberCharacters)
    (point : Int) :
    layOut t point ⊆ numberCharacters := by
  rw [layOut]
  split
  · exact aroundPoint_subset_numberCharacters h point
  · exact List.append_subset.2
      ⟨mantissa_subset_numberCharacters h, powerText_subset_numberCharacters _⟩

theorem magnitudeText_subset_numberCharacters (units : Nat) :
    magnitudeText units ⊆ numberCharacters := by
  rw [magnitudeText]
  split
  · decide
  · exact layOut_subset_numberCharacters
      (List.Subset.trans (dropTrailing_subset _ _)
        (ofNat_subset_numberCharacters _)) _

theorem Binary64.toText_subset_numberCharacters (x : Binary64) :
    x.toText ⊆ numberCharacters := by
  cases x with
  | nan => decide
  | infinite negative => cases negative <;> decide
  | finite negative units fits =>
      refine List.append_subset.2 ⟨?_,
        magnitudeText_subset_numberCharacters units⟩
      cases negative <;> decide

end RowSql

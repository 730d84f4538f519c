import RowSql.Proofs.Number.Written
import RowSql.Proofs.Text.Trim
import RowSql.Proofs.Value
import RowSql.Text.Repr

/-!
# What is shown inside of other data is printable

A text that stands in an array or in an object is spelled with printable
characters only: what is not printable in it is shown by its number, in
hexadecimal digits. So a property of all printable characters is one of
everything that is shown there, except for decimals, which are shown as they
are. Line feeds and surrogates are not printable, and are never shown.
-/

namespace RowSql

namespace CodePoint

/-- One of the ranges that are not printable has all the surrogates in it. -/
theorem not_isPrintable_surrogate (k : Fin 0x800) :
    isPrintable (.surrogate k) = false := by
  have hrange : (0xD7FC, 0xF8FF) ∈ unprintableRanges := by decide +kernel
  have hin : inRanges unprintableRanges (0xD800 + (k : Nat)) = true :=
    List.any_eq_true.2 ⟨_, hrange,
      by simp only [Bool.and_eq_true, decide_eq_true_eq]; omega⟩
  rw [isPrintable, if_neg (by simp only [toNat]; omega)]
  show (!inRanges unprintableRanges (0xD800 + (k : Nat))) = false
  rw [hin]
  rfl

theorem exists_char_of_isPrintable {c : CodePoint} (h : isPrintable c = true) :
    ∃ a, c = .char a := by
  cases c with
  | char a => exact ⟨a, rfl⟩
  | surrogate k =>
      rw [not_isPrintable_surrogate] at h
      exact absurd h Bool.false_ne_true

end CodePoint

/-! ## Texts

An escape is a backslash, a letter and hexadecimal digits. A character that is
shown as itself has been found printable, or is the quote or the backslash. -/

namespace Text

/-- All characters of a text are printable. -/
def Printable (t : Text) : Prop :=
  ∀ c ∈ t, isPrintable c = true

instance (t : Text) : Decidable t.Printable :=
  inferInstanceAs (Decidable (∀ c ∈ t, isPrintable c = true))

variable {s t : Text}

theorem printable_append : Printable (s ++ t) ↔ Printable s ∧ Printable t :=
  List.forall_mem_append

theorem printable_cons {c : CodePoint} :
    Printable (c :: t) ↔ isPrintable c = true ∧ Printable t :=
  List.forall_mem_cons

theorem printable_hexDigits (count n : Nat) :
    (hexDigits count n).Printable := by
  have hdigit : ∀ d < 16, isPrintable (hexDigit d) = true := by decide
  induction count generalizing n with
  | zero => exact nofun
  | succ count ih =>
      exact printable_append.2
        ⟨ih _, printable_cons.2 ⟨hdigit _ (Nat.mod_lt n (by decide)), nofun⟩⟩

theorem printable_escapedNumber (c : CodePoint) :
    (escapedNumber c).Printable := by
  rw [escapedNumber]
  split
  · exact printable_append.2 ⟨by decide, printable_hexDigits _ _⟩
  · split <;> exact printable_append.2 ⟨by decide, printable_hexDigits _ _⟩

theorem printable_escapedIn {quote : CodePoint}
    (hquote : isPrintable quote = true) (c : CodePoint) :
    (escapedIn quote c).Printable := by
  rw [escapedIn]
  split
  · next hc =>
      have hprint : isPrintable c = true := by
        rcases hc with rfl | rfl
        · exact hquote
        · decide
      exact printable_cons.2 ⟨by decide, printable_cons.2 ⟨hprint, nofun⟩⟩
  · repeat' split
    · decide
    · decide
    · decide
    · next hprint => exact printable_cons.2 ⟨hprint, nofun⟩
    · exact printable_escapedNumber c

/-- Whatever a text holds, it is shown inside of other data in printable
characters. -/
theorem printable_repr (t : Text) : t.repr.Printable := by
  have hinside {quote : CodePoint} (hquote : isPrintable quote = true) :
      (between quote (t.flatMap (escapedIn quote))).Printable := by
    refine printable_cons.2 ⟨hquote, printable_append.2 ⟨fun c hc => ?_,
      printable_cons.2 ⟨hquote, nofun⟩⟩⟩
    obtain ⟨d, _, hd⟩ := List.mem_flatMap.1 hc
    exact printable_escapedIn hquote d c hd
  rw [Text.repr]
  split <;> exact hinside (by decide)

theorem printable_of_number (h : t ⊆ numberCharacters) : t.Printable := by
  have hall : numberCharacters.Printable := by decide
  exact fun c hc => hall c (h hc)

end Text

/-! ## Values

What holds of the printable characters holds of all that is shown for an array
or an object, if it holds of the decimals in it. -/

namespace Value

/-- A decimal of which all characters have a property, or any other value. -/
def DecimalOf (property : CodePoint → Prop) : Value → Prop
  | .decimal t => ∀ c ∈ t, property c
  | _ => True

theorem forall_mem_repr {property : CodePoint → Prop}
    (hprint : ∀ c, isPrintable c = true → property c) {v : Value} :
    v.Every (DecimalOf property) → ∀ c ∈ v.repr, property c := by
  have hprintable {t : Text} (h : t.Printable) : ∀ c ∈ t, property c :=
    fun c hc => hprint c (h c hc)
  have hbrackets {a b : CodePoint} {parts : List Text}
      (ha : isPrintable a = true)
      (hb : isPrintable b = true) (h : ∀ t ∈ parts, ∀ c ∈ t, property c) :
      ∀ c ∈ a :: Text.join ", ".toText parts ++ [b], property c := by
    refine List.forall_mem_append.2 ⟨List.forall_mem_cons.2 ⟨hprint a ha, ?_⟩,
      List.forall_mem_singleton.2 (hprint b hb)⟩
    exact Text.forall_mem_join (hprintable (by decide)) h
  induction v using of_parts with
  | h v ih =>
      intro h
      obtain ⟨hv, hparts⟩ := every_iff.1 h
      cases v with
      | null => exact hprintable (by decide)
      | boolean b => exact hprintable (by cases b <;> decide)
      | integer n =>
          exact hprintable
            (Text.printable_of_number (ofInt_subset_numberCharacters n))
      | double x =>
          exact hprintable
            (Text.printable_of_number x.toText_subset_numberCharacters)
      | decimal t =>
          exact List.forall_mem_append.2 ⟨List.forall_mem_append.2
            ⟨hprintable (by decide), hv⟩, hprintable (by decide)⟩
      | text t => exact hprintable t.printable_repr
      | array items =>
          rw [repr, reprItems_eq_map]
          refine hbrackets (by decide) (by decide)
            (List.forall_mem_map.2 fun w hw => ?_)
          exact ih w hw (hparts w hw)
      | object members =>
          rw [repr, reprMembers_eq_map]
          refine hbrackets (by decide) (by decide)
            (List.forall_mem_map.2 fun m hm => ?_)
          have hmem : m.2 ∈ parts (.object members) := List.mem_map_of_mem hm
          exact List.forall_mem_append.2 ⟨List.forall_mem_append.2
            ⟨hprintable m.1.printable_repr, hprintable (by decide)⟩,
            ih m.2 hmem (hparts m.2 hmem)⟩

end Value

end RowSql

import RowSql.Text.Repr

/-!
# Displays

What the shell shows is encoded for a display. A text is encoded as a whole or
not at all, so a display is known by what it answers to a text: nothing, or a
message that says why the text is refused. Every display takes the texts of
characters, and its messages are of characters. Surrogates are where displays
differ: one that is written to in UTF-8 has no form for them, while one that
only collects what it is given takes any text.
-/

namespace RowSql

namespace Text

variable {s t : Text}

theorem ofChars_nil : OfChars [] := nofun

theorem ofChars_cons {c : CodePoint} :
    OfChars (c :: t) ↔ (∃ a, c = .char a) ∧ OfChars t :=
  List.forall_mem_cons

theorem ofChars_append : OfChars (s ++ t) ↔ OfChars s ∧ OfChars t :=
  List.forall_mem_append

theorem ofChars_toText (s : String) : s.toText.OfChars :=
  List.forall_mem_map.2 fun a _ => ⟨a, rfl⟩

theorem ofChars_ofNat (n : Nat) : (ofNat n).OfChars := by
  fun_induction ofNat n with
  | case1 n => exact ofChars_cons.2 ⟨⟨_, rfl⟩, ofChars_nil⟩
  | case2 n _ ih =>
    exact ofChars_append.2 ⟨ih, ofChars_cons.2 ⟨⟨_, rfl⟩, ofChars_nil⟩⟩

theorem ofChars_hexDigits (count n : Nat) : (hexDigits count n).OfChars := by
  induction count generalizing n with
  | zero => exact ofChars_nil
  | succ count ih =>
    exact ofChars_append.2 ⟨ih _, ofChars_cons.2 ⟨⟨_, rfl⟩, ofChars_nil⟩⟩

theorem ofChars_escapedNumber (c : CodePoint) : (escapedNumber c).OfChars := by
  rw [escapedNumber]
  split
  · exact ofChars_append.2 ⟨ofChars_toText _, ofChars_hexDigits _ _⟩
  · split <;> exact ofChars_append.2 ⟨ofChars_toText _, ofChars_hexDigits _ _⟩

end Text

namespace Shell

/-- A display, by the messages with which it refuses texts. -/
structure Display where
  refusal? : Text → Option Text
  takes_ofChars : ∀ t, t.OfChars → refusal? t = none
  message_ofChars : ∀ t m, refusal? t = some m → m.OfChars

namespace Display

/-- A text can be shown. -/
def Takes (display : Display) (t : Text) : Prop :=
  display.refusal? t = none

instance (display : Display) (t : Text) : Decidable (display.Takes t) :=
  inferInstanceAs (Decidable (display.refusal? t = none))

/-- A display that takes every text. -/
def collecting : Display where
  refusal? _ := none
  takes_ofChars _ _ := rfl
  message_ofChars _ _ h := nomatch h

/-! ## UTF-8

A text with a surrogate has no encoding. The message names the first of them and
its place, or the places of the first few that stand together. -/

def isSurrogate : CodePoint → Bool
  | .char _ => false
  | .surrogate _ => true

/-- What is said of surrogates that stand together from a place on. -/
def unencodable (place : Nat) (run : Text) : Text :=
  "'utf-8' codec can't encode ".toText
    ++ (match run with
        | [c] =>
          "character '".toText ++ Text.escapedNumber c ++
            "' in position ".toText ++ Text.ofNat place
        | _ =>
          "characters in position ".toText ++ Text.ofNat place ++ "-".toText
            ++ Text.ofNat (place + run.length - 1))
    ++ ": surrogates not allowed".toText

def utf8Refusal? (t : Text) : Option Text :=
  (t.findIdx? isSurrogate).map fun place =>
    unencodable place ((t.drop place).takeWhile isSurrogate)

theorem utf8Refusal?_of_ofChars {t : Text} (h : t.OfChars) :
    utf8Refusal? t = none := by
  rw [utf8Refusal?, Option.map_eq_none_iff, List.findIdx?_eq_none_iff]
  intro c hc
  obtain ⟨a, rfl⟩ := h c hc
  rfl

theorem ofChars_unencodable (place : Nat) (run : Text) :
    (unencodable place run).OfChars := by
  simp only [unencodable, Text.ofChars_append, Text.ofChars_toText, true_and,
    and_true]
  split <;>
    simp only [Text.ofChars_append, Text.ofChars_toText, Text.ofChars_ofNat,
    Text.ofChars_escapedNumber, and_self]

/-- A display that is written to in UTF-8. -/
def utf8 : Display where
  refusal? := utf8Refusal?
  takes_ofChars _ := utf8Refusal?_of_ofChars
  message_ofChars t m h := by
    obtain ⟨place, -, rfl⟩ := Option.map_eq_some_iff.1 h
    exact ofChars_unencodable place _

end Display

end Shell

end RowSql

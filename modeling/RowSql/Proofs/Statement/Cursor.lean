import RowSql.Proofs.Text.Letters
import RowSql.Statement.Reader

/-!
# Reading what is there

What a reader finds depends on the text behind its cursor alone, and all that is
asked of the cursor it leaves behind is again the text behind that. So a reader
is described by what stands there, blanks left out: a name, a word or a text,
and what follows it.
-/

namespace RowSql

open Text

namespace Cursor

theorem rest_advance (c : Cursor) (n : Nat) :
    (c.advance n).rest = c.rest.drop n :=
  (List.drop_drop ..).symm

/-- The end of a part that stands at a cursor. -/
theorem rest_advance_of_append {c : Cursor} {s r : Text} (h : c.rest = s ++ r) :
    (c.advance s.length).rest = r := by
  rw [rest_advance, h, List.drop_left]

theorem rest_skipBlanks (c : Cursor) : c.skipBlanks.rest = trimLeft c.rest :=
  rest_advance_of_append (c.rest.takeWhile_append_dropWhile).symm

/-- A cursor behind which something stands has not left its text. -/
theorem pos_le_of_rest_ne_nil {c : Cursor} (h : c.rest ≠ []) :
    c.pos ≤ c.text.length := by
  rcases Nat.le_total c.pos c.text.length with hle | hle
  · exact hle
  · exact absurd (List.drop_eq_nil_of_le hle) h

end Cursor

/-- A part all of whose characters have a property, before one that has it
not. -/
theorem takeWhile_append_of_ends {property : CodePoint → Bool} {s r : Text}
    (hs : ∀ a ∈ s, property a = true)
    (hr : ∀ a u, r = a :: u → property a = false) :
    (s ++ r).takeWhile property = s := by
  rw [List.takeWhile_append_of_pos hs]
  cases r with
  | nil => exact List.append_nil s
  | cons a u =>
      rw [List.takeWhile_cons_of_neg
        (by rw [hr a u rfl]; exact Bool.false_ne_true)]
      exact List.append_nil s

namespace Statement

/-- Something that is not empty and is made of characters of words. -/
structure IsName (t : Text) : Prop where
  ne_nil : t ≠ []
  word : ∀ c ∈ t, isWord c = true

instance (t : Text) : Decidable (IsName t) :=
  decidable_of_iff (t ≠ [] ∧ ∀ c ∈ t, isWord c = true) ⟨fun h => ⟨h.1, h.2⟩,
    fun h => ⟨h.1, h.2⟩⟩

theorem IsName.solid {t : Text} (ht : IsName t) : ∀ c ∈ t, isBlank c = false :=
  fun c hc => isBlank_of_isWord (ht.word c hc)

/-- A name that may hold points. -/
structure IsField (t : Text) : Prop where
  ne_nil : t ≠ []
  field : ∀ c ∈ t, isFieldChar c = true

instance (t : Text) : Decidable (IsField t) :=
  decidable_of_iff (t ≠ [] ∧ ∀ c ∈ t, isFieldChar c = true)
    ⟨fun h => ⟨h.1, h.2⟩, fun h => ⟨h.1, h.2⟩⟩

theorem IsName.isField {t : Text} (h : IsName t) : IsField t :=
  ⟨h.ne_nil, fun c hc => by rw [isFieldChar, h.word c hc, Bool.or_true]⟩

theorem isFieldChar_cases {c : CodePoint} (h : isFieldChar c = true) :
    c = '.' ∨ isWord c = true := by
  rwa [isFieldChar, Bool.or_eq_true, beq_iff_eq] at h

theorem isBlank_of_isFieldChar {c : CodePoint} (h : isFieldChar c = true) :
    isBlank c = false := by
  rcases isFieldChar_cases h with rfl | h
  · decide
  · exact isBlank_of_isWord h

theorem IsField.solid {t : Text} (h : IsField t) : ∀ c ∈ t, isBlank c = false :=
  fun c hc => isBlank_of_isFieldChar (h.field c hc)

theorem IsName.trimmed {t : Text} (ht : IsName t) : Trimmed t :=
  trimmed_of_solid ht.solid

/-- No character of a name stands at the head. -/
def NameEnds (r : Text) : Prop := ∀ a u, r = a :: u → isFieldChar a = false

/-- No word goes on where a blank stands. -/
theorem not_word_of_bounded {r : Text} (h : Bounded r) :
    ∀ a u, r = a :: u → isWord a = false := by
  intro a u he
  cases hw : isWord a with
  | false => rfl
  | true =>
      exact absurd (h a u he)
        (by rw [isBlank_of_isWord hw]; exact Bool.false_ne_true)

theorem nameEnds_of_bounded {r : Text} (h : Bounded r) : NameEnds r := by
  intro a u he
  have ha := h a u he
  have hdot : (a == CodePoint.char '.') = false := by
    rw [beq_eq_false_iff_ne]
    rintro rfl
    exact absurd ha (by decide)
  rw [isFieldChar, hdot, not_word_of_bounded h a u he]
  rfl

theorem isWord_of_nameEnds {r : Text} (h : NameEnds r) {a : CodePoint}
    {u : Text} (he : r = a :: u) : isWord a = false :=
  (Bool.or_eq_false_iff.1 (h a u he)).2

variable {c : Cursor} {r : Text}

/-- The identifier that stands at a cursor. -/
theorem identifier_of_rest {qualified : Bool} {name : Text}
    (h : trimLeft c.rest = name ++ r) (hne : name ≠ [])
    (hname : ∀ a ∈ name, (isWord a || qualified && a == '.') = true)
    (hr : NameEnds r) :
    ∃ d, c.identifier qualified = (some name, d) ∧ d.rest = r := by
  have htake :
      (name ++ r).takeWhile (fun a => isWord a || qualified && a == '.') =
        name := by
    refine takeWhile_append_of_ends hname ?_
    intro a u he
    rw [isWord_of_nameEnds hr he, (Bool.or_eq_false_iff.1 (hr a u he)).1,
      Bool.and_false]
    rfl
  refine ⟨c.skipBlanks.advance name.length, ?_, ?_⟩
  · rw [Cursor.identifier]
    simp only [Cursor.rest_skipBlanks, h, htake, if_neg hne]
  · exact Cursor.rest_advance_of_append ((Cursor.rest_skipBlanks c).trans h)

theorem identifier_of_field {name : Text} (h : trimLeft c.rest = name ++ r)
    (hname : IsField name) (hr : NameEnds r) :
    ∃ d, c.identifier true = (some name, d) ∧ d.rest = r :=
  identifier_of_rest h hname.ne_nil
    (fun a ha => by rw [Bool.true_and, Bool.or_comm]; exact hname.field a ha) hr

theorem readName_of_rest {name : Text} (qualified : Bool)
    (h : trimLeft c.rest = name ++ r) (hname : IsName name) (hr : NameEnds r) :
    ∃ d, readName qualified c = .ok (name, d) ∧ d.rest = r := by
  obtain ⟨d, hd, hrest⟩ := identifier_of_rest h hname.ne_nil
    (fun a ha => by rw [hname.word a ha, Bool.true_or]) hr
  exact ⟨d, by rw [readName, hd], hrest⟩

theorem readName_of_field {name : Text} (h : trimLeft c.rest = name ++ r)
    (hname : IsField name) (hr : NameEnds r) :
    ∃ d, readName true c = .ok (name, d) ∧ d.rest = r := by
  obtain ⟨d, hd, hrest⟩ := identifier_of_field h hname hr
  exact ⟨d, by rw [readName, hd], hrest⟩

/-- A name behind one space. -/
theorem readName_of_blank {name : Text} (qualified : Bool)
    (h : c.rest = .char ' ' :: (name ++ r)) (hname : IsName name)
    (hr : NameEnds r) :
    ∃ d, readName qualified c = .ok (name, d) ∧ d.rest = r := by
  refine readName_of_rest qualified ?_ hname hr
  rw [h, trimLeft_cons_blank (by decide)]
  exact ((flushLeft_append hname.ne_nil).2 hname.trimmed.head).trimLeft_eq

/-- The word that stands at a cursor. -/
theorem popWord_of_rest {x : Text} (h : trimLeft c.rest = x ++ r)
    (hx : ∀ a ∈ x, isWord a = true)
    (hr : ∀ a u, r = a :: u → isWord a = false) :
    c.popWord = (x, c.skipBlanks.advance x.length) := by
  simp only [Cursor.popWord, Cursor.peekWord, Cursor.rest_skipBlanks, h,
    takeWhile_append_of_ends hx hr]

theorem passWord_of_rest {word : Text} (h : trimLeft c.rest = word ++ r)
    (hword : ∀ a ∈ word, isWord a = true) (hupper : upper word = word)
    (hr : ∀ a u, r = a :: u → isWord a = false) :
    ∃ d, passWord word c = .ok d ∧ d.rest = r := by
  refine ⟨c.skipBlanks.advance word.length, ?_, ?_⟩
  · simp only [passWord, Cursor.expectWord, popWord_of_rest h hword hr, hupper,
      BEq.rfl]
  · exact Cursor.rest_advance_of_append ((Cursor.rest_skipBlanks c).trans h)

theorem passText_of_rest {t : Text} (h : trimLeft c.rest = t ++ r)
    (hne : t ≠ []) :
    ∃ d, passText t c = .ok d ∧ d.rest = r := by
  have hrest := (Cursor.rest_skipBlanks c).trans h
  have hpos : c.skipBlanks.pos ≤ c.skipBlanks.text.length :=
    Cursor.pos_le_of_rest_ne_nil
      (hrest ▸ fun hn => hne (List.append_eq_nil_iff.1 hn).1)
  have hprefix : t.isPrefixOf c.skipBlanks.rest = true := by
    rw [hrest, List.isPrefixOf_iff_prefix]
    exact List.prefix_append t r
  refine ⟨c.skipBlanks.advance t.length, ?_,
    Cursor.rest_advance_of_append hrest⟩
  have hexpect : c.expectText t = (true, c.skipBlanks.advance t.length) := by
    simp only [Cursor.expectText, hpos, hprefix, decide_true, Bool.and_self,
      if_true]
  rw [passText, hexpect]

end Statement

end RowSql

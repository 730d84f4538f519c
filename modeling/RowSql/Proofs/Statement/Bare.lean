import RowSql.Proofs.Statement.Cursor
import RowSql.Statement.Parser

/-!
# What stands around a statement

Blanks and one semicolon are taken off a text, and what remains is read as its
first word says. A text from which nothing is to be taken is bare, and any
trimmed text can be closed with a semicolon: then it does not matter what its
own last character is.
-/

namespace RowSql.Statement

open Text

/-- Nothing has to be taken off a statement. -/
structure IsBare (t : Text) : Prop where
  trimmed : Trimmed t
  last : t.getLast? ≠ some (.char ';')

theorem IsBare.bare_eq {t : Text} (h : IsBare t) : bare t = t := by
  rw [bare, h.trimmed.trim_eq, dropTerminator, if_neg h.last]

/-- A statement that ends in a mark other than a semicolon is bare. -/
theorem isBare_append {kind : Kind} {m : Text} {z : CodePoint}
    (hz : isBlank z = false) (hz' : z ≠ ';') :
    IsBare (kind.word ++ (m ++ [z])) := by
  obtain ⟨c, w, hw, hc⟩ : ∃ c w, kind.word = c :: w ∧ isBlank c = false := by
    cases kind <;> exact ⟨_, _, rfl, by decide⟩
  have hsplit : kind.word ++ (m ++ [z]) = c :: (w ++ m) ++ [z] := by
    rw [hw, List.cons_append, List.cons_append, List.append_assoc]
  rw [hsplit]
  refine ⟨trimmed_between hc hz, ?_⟩
  rw [List.getLast?_concat]
  exact fun h => hz' (Option.some.inj h)

theorem isBare_append_quote {kind : Kind} {m : Text} {q : CodePoint}
    (hq : isQuote q = true) :
    IsBare (kind.word ++ (m ++ [q])) := by
  refine isBare_append (isBlank_of_isQuote hq) ?_
  rintro rfl
  exact absurd hq (by decide)

/-- One semicolon is taken off, whatever stands before it. -/
theorem bare_closed {t : Text} (h : Trimmed t) (hne : t ≠ []) :
    bare (t ++ [.char ';']) = t := by
  have htrimmed : Trimmed (t ++ [.char ';']) :=
    ⟨(flushLeft_append hne).2 h.head, flushRight_concat.2 (by decide)⟩
  have hlast : (t ++ [CodePoint.char ';']).getLast? = some (.char ';') :=
    List.getLast?_concat
  have hright : trimRight t = t := by
    have htrim := h.trim_eq
    rwa [trim, h.head.trimLeft_eq] at htrim
  rw [bare, htrimmed.trim_eq, dropTerminator, if_pos hlast,
    List.dropLast_concat, hright]

/-- How a statement may be closed: with a semicolon, or with nothing if it does
not end in one itself. -/
inductive Closed (t : Text) : Text → Prop
  | semicolon : Closed t (t ++ [.char ';'])
  | plain (h : t.getLast? ≠ some (.char ';')) : Closed t t

theorem Closed.bare_eq {t u : Text} (h : Closed t u) (ht : Trimmed t)
    (hne : t ≠ []) :
    bare u = t := by
  cases h with
  | semicolon => exact bare_closed ht hne
  | plain hlast => exact IsBare.bare_eq ⟨ht, hlast⟩

/-- A statement is read as its first word says. -/
theorem parse_of_leadingWord (kind : Kind) {t : Text} (hne : bare t ≠ [])
    (hword : leadingWord (bare t) = kind.word) :
    parse t =
      (readAs kind (bare t)).mapError (Fault.toError kind.word (bare t)) := by
  have hkind : Kind.ofWord? kind.word = some kind := by
    cases kind <;> decide
  rw [parse, if_neg hne, hword, hkind]

/-- The first word ends at a blank. -/
theorem leadingWord_append {x r : Text} (hx : ∀ c ∈ x, isBlank c = false)
    (hr : Bounded r) :
    leadingWord (x ++ r) = upper x := by
  rw [leadingWord, takeWhile_append_of_ends]
  · exact fun c hc => by rw [hx c hc]; rfl
  · exact fun a u he => by rw [hr a u he]; rfl

theorem parse_eq (kind : Kind) {t rest : Text}
    (hbare : bare t = kind.word ++ .char ' ' :: rest) :
    parse t = (readAs kind (kind.word ++ .char ' ' :: rest)).mapError
      (Fault.toError kind.word (kind.word ++ .char ' ' :: rest)) := by
  rw [← hbare]
  refine parse_of_leadingWord kind ?_ ?_
  · rw [hbare]
    exact List.append_ne_nil_of_right_ne_nil _ (List.cons_ne_nil _ _)
  · rw [hbare, leadingWord_append (by cases kind <;> decide)
      (bounded_cons.2 (by decide))]
    cases kind <;> rfl

theorem parse_of_readAs (kind : Kind) {t rest : Text} {s : Statement}
    (hbare : bare t = kind.word ++ .char ' ' :: rest)
    (h : readAs kind (kind.word ++ .char ' ' :: rest) = .ok s) :
    parse t = .ok s := by
  rw [parse_eq kind hbare, h]
  rfl

end RowSql.Statement

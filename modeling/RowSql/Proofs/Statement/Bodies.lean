import RowSql.Proofs.Number.Digits
import RowSql.Proofs.Statement.Equation
import RowSql.Proofs.Statement.Sections

/-!
# Bodies of clauses

A filter may be any text in which, taken for itself, no later clause is found:
no clause can begin in it and end in what follows it, since a blank follows. The
bodies of an order and of a limit are words and digits, and what can be found in
them is known.
-/

namespace RowSql

open Text

/-! ## Words at the end of a text

Words that are found where a closing follows have ended before it. So what is
seen in a text in front of a closing is seen in the text alone. -/

/-- A word that is found where a blank follows ends before it. -/
theorem exists_of_afterWord?_append {word s r u : Text} (hw : IsKeyword word)
    (hr : Bounded r) (h : afterWord? word (s ++ r) = some u) :
    ∃ v, afterWord? word s = some v ∧ u = v ++ r := by
  obtain ⟨x, hx, heq⟩ := afterWord?_eq_some_iff.1 h
  obtain ⟨v, rfl, rfl⟩ := hw.exists_of_append hx hr.apart heq
  exact ⟨v, afterWord?_eq_some_iff.2 ⟨x, hx, rfl⟩, rfl⟩

namespace Clause

variable {clause : Clause} {st : Scan} {free : Bool} {s r u w : Text}

/-- The other words of a clause that are found where a closing follows end
before it. -/
theorem exists_of_afterOtherWords?_append (hs : FlushRight s) (hr : Closing r)
    (h : afterOtherWords? clause.otherWords (s ++ r) = some u) :
    ∃ v, afterOtherWords? clause.otherWords s = some v ∧ u = v ++ r := by
  cases clause with
  | order =>
      have hby : IsKeyword "BY".toText := by decide
      rw [otherWords, afterOtherWords?] at h ⊢
      have hne : s ≠ [] := by
        -- what closes the text does not begin with BY, so BY has to begin in
        -- the text
        rintro rfl
        rw [List.nil_append, hr.noBy, ite_self] at h
        cases h
      have hhead : (s ++ r).head? = s.head? := by
        obtain ⟨c, s, rfl⟩ := List.exists_cons_of_ne_nil hne
        rfl
      rw [hhead, trimLeft_append (hs.not_blanks hne)] at h
      split at h
      · next hblank =>
          rw [if_pos hblank]
          split at h
          · next rest hrest =>
              obtain ⟨v, hv, rfl⟩ :=
                exists_of_afterWord?_append hby hr.bounded hrest
              cases h
              rw [hv]
              exact ⟨v, rfl, rfl⟩
          · cases h
      · cases h
  | source | filter | limit =>
      cases h
      exact ⟨s, rfl, rfl⟩

/-- The words of a clause that are found where a closing follows end before
it. -/
theorem exists_of_after?_append (hs : FlushRight s) (hr : Closing r)
    (h : clause.after? (s ++ r) = some u) :
    ∃ v, clause.after? s = some v ∧ u = v ++ r := by
  rw [after?] at h
  split at h
  · next rest hrest =>
      split at h
      · next hfree =>
          cases h
          obtain ⟨t, ht, hother⟩ := Option.bind_eq_some_iff.1 hrest
          obtain ⟨v, hv, rfl⟩ :=
            exists_of_afterWord?_append clause.isKeyword_firstWord hr.bounded ht
          have hflush : FlushRight v := by
            obtain ⟨x, _, rfl⟩ := afterWord?_eq_some_iff.1 hv
            exact hs.of_append
          obtain ⟨w, hw, rfl⟩ :=
            exists_of_afterOtherWords?_append hflush hr hother
          refine ⟨w, ?_, rfl⟩
          rw [after?, hv, Option.bind_some, hw]
          exact if_pos (opensFree_iff.2 (opensFree_iff.1 hfree).of_append)
      · cases h
  · cases h

/-- No clause begins in a text, and so none begins in it with what closes it. -/
theorem Unseen.of_closing (hw : FlushRight w) (hr : Closing r)
    (h : clause.Unseen st free [] w) : clause.Unseen st free r w := by
  refine h.of_suffixes fun t ht hnone => ?_
  rw [List.append_nil, Option.eq_none_iff_forall_ne_some] at hnone
  obtain ⟨s, rfl⟩ := ht
  rw [Option.eq_none_iff_forall_ne_some]
  intro u hu
  obtain ⟨v, hv, _⟩ := exists_of_after?_append hw.of_append hr hu
  exact hnone v hv

/-! ## Filters

Whatever a filter is made of, it is enough that no later clause is found in it
when it is taken for itself. Of an equation only the name could be one. -/

theorem unseen_blank_cons (h : clause.Unseen .start true r w) :
    clause.Unseen (Scan.outside 0) free r (.char ' ' :: w) :=
  ⟨fun _ _ => after?_eq_none_of_apart (apart_cons.2 (by decide)), h⟩

/-- A trimmed text in which no clause is found is silent about it. -/
theorem silent_of_unseen (hw : Trimmed w) (h : clause.Unseen .start true [] w) :
    clause.Silent w :=
  fun _ _ hr => unseen_blank_cons (h.of_closing hw.last hr)

/-- An equation is silent about later clauses if its name is not the word
LIMIT. -/
theorem silent_equation {a p : Text} {q : CodePoint} (ha : Statement.IsName a)
    (hp : Encloses q p) (hne : ¬ Spells "LIMIT".toText a) :
    ∀ c ∈ [Clause.order, .limit], Silent c (equation a (between q p)) := by
  have hsign (r : Text) : Apart (trimLeft (" = ".toText ++ r)) := by
    show Apart (.char '=' :: (.char ' ' :: r))
    exact apart_cons.2 (by decide)
  have horder (r : Text) :
      Clause.order.after? (a ++ (" = ".toText ++ r)) = none :=
      after?_order_eq_none ha.solid (bounded_sign r) (hsign r)
  have hword : ¬ Spells Clause.limit.firstWord a := hne
  have hlimit (r : Text) :
      Clause.limit.after? (a ++ (" = ".toText ++ r)) = none :=
      after?_name_eq_none ha hword r
  intro c hc free r _
  rcases List.mem_cons.1 hc with rfl | hc
  · exact unseen_blank_cons (unseen_equation ha hp horder 0)
  · rw [List.mem_singleton.1 hc]
    exact unseen_blank_cons (unseen_equation ha hp hlimit 0)

end Clause

/-! ## Orders

The body of an order is two words at most. The second is none of a clause, so
what can be found in the body is its field. -/

open Statement

theorem Statement.plain_of_isFieldChar {c : CodePoint}
    (h : isFieldChar c = true) :
    Scan.Plain c := by
  rcases isFieldChar_cases h with rfl | h
  · decide
  · exact Scan.plain_of_isWord h

/-- The word for a direction. -/
def Direction.word : Direction → Text
  | .ascending => "ASC".toText
  | .descending => "DESC".toText

/-- The body of an order. -/
def orderBody (field : Text) (direction : Direction) : Text :=
  field ++ (.char ' ' :: direction.word)

section

variable {field : Text} {direction : Direction}

theorem orderBody_ne_nil (h : IsField field) (direction : Direction) :
    orderBody field direction ≠ [] :=
  List.append_ne_nil_of_left_ne_nil h.ne_nil _

theorem trimmed_orderBody (h : IsField field) (direction : Direction) :
    Trimmed (orderBody field direction) := by
  have hword : Trimmed direction.word ∧ direction.word ≠ [] := by
    cases direction <;> decide
  rw [orderBody, ← List.singleton_append, ← List.append_assoc]
  exact (trimmed_of_solid h.solid).append h.ne_nil hword.1 hword.2

theorem plain_orderBody (h : IsField field) (direction : Direction) :
    ∀ c ∈ .char ' ' :: orderBody field direction, Scan.Plain c := by
  have hword : ∀ c ∈ .char ' ' :: direction.word, Scan.Plain c := by
    cases direction <;> decide
  refine List.forall_mem_cons.2
    ⟨by decide, List.forall_mem_append.2 ⟨fun c hc => ?_, hword⟩⟩
  exact plain_of_isFieldChar (h.field c hc)

theorem closes_orderBody (h : IsField field) (direction : Direction) :
    Clause.Closes (orderBody field direction) := by
  rw [Clause.Closes, Scan.run_plain (plain_orderBody h direction)]
  rfl

/-- An order is silent about a clause whose word is not its field. -/
theorem silent_orderBody {clause : Clause} (h : IsField field)
    (hne : ¬ Spells clause.firstWord field) :
    clause.Silent (orderBody field direction) := by
  intro free r hr
  have hword : (∀ c ∈ direction.word, isBlank c = false) ∧
      ¬ Spells clause.firstWord direction.word := by
    cases clause <;> cases direction <;> decide
  refine Clause.unseen_blank_cons ?_
  rw [orderBody, Clause.unseen_append]
  refine ⟨Clause.unseen_of_solid h.solid
    (Clause.after?_eq_none_of_not_spells h.solid hne ?_),
    fun _ _ => Clause.after?_eq_none_of_apart (apart_cons.2 (by decide)),
    Clause.unseen_of_solid hword.1
      (Clause.after?_eq_none_of_not_spells hword.1 hword.2
      hr.bounded.apart)⟩
  exact (bounded_cons (s := direction.word ++ r).2 (by decide)).apart

end

namespace Statement

/-- A text is an order: a field, and perhaps a word for a direction. -/
inductive Orders : Text → Text × Direction → Prop
  | field {field : Text} (h : IsField field) : Orders field (field, .ascending)
  | word {field b x : Text} {direction : Direction} (h : IsField field)
      (hb : Blanks b)
      (hne : b ≠ []) (hx : IsName x) (hupper : upper x = direction.word) :
      Orders (field ++ (b ++ x)) (field, direction)

theorem Orders.isField {o : Text × Direction} (h : Orders body o) :
    IsField o.1 := by
  cases h <;> assumption

/-- The body of an order is read as what it says. -/
theorem Orders.readOrder?_eq {o : Text × Direction} (h : Orders body o) :
    readOrder? body = some o := by
  cases h with
  | field h =>
      obtain ⟨c, hc, hrest⟩ := identifier_of_field (c := ⟨body, 0⟩) (r := [])
        (by
          rw [List.append_nil]
          exact (trimmed_of_solid h.solid).head.trimLeft_eq)
        h nofun
      have hend : c.atEnd.1 = true := by
        rw [Cursor.atEnd, Cursor.rest_skipBlanks, hrest]
        rfl
      rw [readOrder?, hc]
      simp only [hend, if_true]
  | @word field b x direction h hb hne hx hupper =>
      have hbounded : Bounded (b ++ x) := hb.bounded hne
      have hhead :
          trimLeft (⟨field ++ (b ++ x), 0⟩ : Cursor).rest = field ++ (b ++ x) :=
          ((flushLeft_append h.ne_nil).2
            (trimmed_of_solid h.solid).head).trimLeft_eq
      obtain ⟨c, hc, hrest⟩ :=
        identifier_of_field hhead h (nameEnds_of_bounded hbounded)
      have hbehind : trimLeft c.rest = x ++ [] := by
        rw [hrest, trimLeft_append_blanks hb, List.append_nil]
        exact hx.trimmed.head.trimLeft_eq
      have hmore : c.atEnd.1 = false := by
        rw [Cursor.atEnd, Cursor.rest_skipBlanks, hbehind, List.append_nil]
        exact List.isEmpty_eq_false_iff.2 hx.ne_nil
      have hpop := popWord_of_rest hbehind hx.word nofun
      have hlast : (c.skipBlanks.advance x.length).rest = [] :=
        Cursor.rest_advance_of_append ((Cursor.rest_skipBlanks c).trans hbehind)
      have hend : (c.skipBlanks.advance x.length).atEnd.1 = true := by
        rw [Cursor.atEnd, Cursor.rest_skipBlanks, hlast]
        rfl
      rw [readOrder?, hc]
      simp only [hmore, hpop, hend, hupper]
      cases direction <;> rfl

end Statement

theorem readOrder?_orderBody {field : Text} {direction : Direction}
    (h : IsField field) :
    readOrder? (orderBody field direction) = some (field, direction) := by
  have hword : direction.word ≠ [] ∧ (∀ c ∈ direction.word, isWord c = true) ∧
      upper direction.word = direction.word := by
    cases direction <;> decide
  exact (Orders.word h blanks_space (List.cons_ne_nil _ _) ⟨hword.1,
    hword.2.1⟩ hword.2.2).readOrder?_eq

/-! ## Limits

Digits are marks for the scan and begin no word. A number that was printed
has no zeros before it, so its digits are as few as can be, and those are
counted. -/

theorem mark_of_mem_ofNat {n : Nat} {c : CodePoint} (h : c ∈ Text.ofNat n) :
    isBlank c = false ∧
    ((foldCase c).toNat < 65 ∨ 90 < (foldCase c).toNat) := by
  have hmark : ∀ c ∈ Text.ofNat n, isBlank c = false ∧
      ((foldCase c).toNat < 65 ∨ 90 < (foldCase c).toNat) :=
      forall_mem_ofNat (by decide) n
  exact hmark c h

theorem silent_ofNat (clause : Clause) (n : Nat) :
    clause.Silent (Text.ofNat n) :=
  fun _ _ _ =>
    Clause.unseen_blank_cons
      (Clause.unseen_of_marks fun _ hc => (mark_of_mem_ofNat hc).2)

theorem mapM_asciiDigit? {ds : List Nat} (h : ∀ d ∈ ds, d < 10) :
    (ds.map digitChar).mapM asciiDigit? = some ds := by
  induction ds with
  | nil => rfl
  | cons d ds ih =>
      rw [List.forall_mem_cons] at h
      rw [List.map_cons, List.mapM_cons, asciiDigit?_digitChar h.1, ih h.2]
      rfl

/-- A number of no more digits than are allowed is read as a limit. -/
theorem readLimit_ofNat {n : Nat} (h : (decimalDigits n).length ≤ digitLimit) :
    readLimit (Text.ofNat n) = .ok n := by
  have hdigits : readDigits? (Text.ofNat n) = some n := by
    rw [readDigits?, ofNat_eq_map,
      mapM_asciiDigit? fun d hd => lt_ten_of_mem_decimalDigits hd,
      Option.map_some, ofDigits_decimalDigits]
  have hlength : (Text.ofNat n).length = (decimalDigits n).length := by
    rw [ofNat_eq_map, List.length_map]
  rw [readLimit, hdigits]
  exact if_neg (by omega)

end RowSql

import RowSql.Binding
import RowSql.Proofs.Text.Letters

/-!
# What binding writes

A text with placeholders is bound part by part: a part takes the values of its
own placeholders and leaves the others to what follows it. So it is enough to
know a plain part, which is copied, and a placeholder, in whose place a text
stands in quotes that it does not hold.
-/

namespace RowSql

namespace Text

/-- A text that lacks one of the two quote characters. -/
def Bindable (p : Text) : Prop := .char '"' ∉ p ∨ .char '\'' ∉ p

instance (p : Text) : Decidable p.Bindable :=
  inferInstanceAs (Decidable (_ ∨ _))

/-- The quotes that a text is bound in: double ones, unless it holds one. -/
def quoteOf (p : Text) : CodePoint :=
  if .char '"' ∈ p then '\'' else '"'

/-- A text in the quotes that it is bound in. -/
def quote (p : Text) : Text :=
  between p.quoteOf p

theorem isQuote_quoteOf (p : Text) : isQuote p.quoteOf = true := by
  rw [quoteOf]
  split <;> rfl

/-- No text closes its own quotes. -/
theorem Bindable.encloses {p : Text} (h : p.Bindable) :
    Encloses p.quoteOf p := by
  refine ⟨isQuote_quoteOf p, ?_⟩
  rw [quoteOf]
  split
  · next hd => exact h.resolve_left fun hn => hn hd
  · next hd => exact hd

/-- A text without quotes and placeholders. -/
def Unmarked (t : Text) : Prop := ∀ c ∈ t, isQuote c = false ∧ c ≠ '?'

instance (t : Text) : Decidable t.Unmarked :=
  inferInstanceAs (Decidable (∀ c ∈ t, isQuote c = false ∧ c ≠ '?'))

theorem unmarked_of_isWord {t : Text} (h : ∀ c ∈ t, isWord c = true) :
    t.Unmarked :=
  fun c hc => ⟨isQuote_of_isWord (h c hc), ne_of_isWord (h c hc) (by decide)⟩

end Text

namespace Binding

open Text

variable {t s u v : Text} {values more : List Value}

theorem quoted_eq_ok {p : Text} (h : p.Bindable) : quoted p = .ok p.quote := by
  rw [quoted, Text.quote, quoteOf]
  by_cases hd : CodePoint.char '"' ∈ p
  · have hs : CodePoint.char '\'' ∉ p := h.resolve_left fun hn => hn hd
    simp [hd, hs]
  · simp [hd]

theorem literal_text {p : Text} (h : p.Bindable) :
    literal (.text p) = .ok p.quote :=
  quoted_eq_ok h

theorem bindFrom_cons {q : Option CodePoint} {c : CodePoint}
    (h : ¬ (q = none ∧ c = '?')) :
    bindFrom q (c :: s) values =
      (bindFrom (quoteStep q c) s values).map (c :: ·) := by
  rw [bindFrom.eq_def]
  exact if_neg h

theorem bindFrom_placeholder (s : Text) (v : Value) (values : List Value) :
    bindFrom none ('?' :: s) (v :: values) =
      (literal v).bind fun w => (bindFrom none s values).map (w ++ ·) := by
  rw [bindFrom.eq_def]
  show (do
    let written ← literal v
    let rest ← bindFrom none s values
    return written ++ rest) = _
  cases literal v with
  | error e => rfl
  | ok w => cases bindFrom none s values <;> rfl

/-- A text that, with the values of its placeholders, is bound to another one,
whatever follows. -/
def Binds (t : Text) (values : List Value) (u : Text) : Prop :=
  ∀ rest more, bindFrom none (t ++ rest) (values ++ more) =
    (bindFrom none rest more).map (u ++ ·)

theorem Binds.bind_eq (h : Binds t values u) : bind t values = .ok u := by
  have hend := h [] []
  rw [List.append_nil, List.append_nil] at hend
  rw [bind, hend]
  show Except.ok (u ++ []) = .ok u
  rw [List.append_nil]

theorem Binds.append (ht : Binds t values u) (hs : Binds s more v) :
    Binds (t ++ s) (values ++ more) (u ++ v) := by
  intro rest others
  rw [List.append_assoc, List.append_assoc, ht, hs]
  cases bindFrom none rest others with
  | error e => rfl
  | ok w => exact congrArg Except.ok (List.append_assoc u v w).symm

/-- A plain part is copied. -/
theorem binds_of_unmarked (h : t.Unmarked) : Binds t [] t := by
  intro rest more
  induction t with
  | nil =>
      show bindFrom none rest more = (bindFrom none rest more).map id
      cases bindFrom none rest more <;> rfl
  | cons c s ih =>
      have hc := h c List.mem_cons_self
      have hstep : quoteStep none c = none := by
        rw [quoteStep, hc.1]
        rfl
      rw [List.cons_append, List.nil_append, bindFrom_cons fun hq => hc.2 hq.2,
        hstep]
      have hs := ih fun d hd => h d (List.mem_cons_of_mem c hd)
      rw [List.nil_append] at hs
      rw [hs]
      cases bindFrom none rest more <;> rfl

/-- A placeholder takes a text in its quotes. -/
theorem binds_placeholder {p : Text} (h : p.Bindable) :
    Binds ['?'] [.text p] p.quote := by
  intro rest more
  rw [List.singleton_append, List.singleton_append, bindFrom_placeholder,
    literal_text h]
  rfl

/-- Parts with a plain separator between them. -/
theorem binds_join {α : Type} {separator : Text} (hsep : separator.Unmarked)
    {slot bound : α → Text} {value : α → Value} {xs : List α}
    (h : ∀ x ∈ xs, Binds (slot x) [value x] (bound x)) :
    Binds (join separator (xs.map slot)) (xs.map value)
        (join separator (xs.map bound)) := by
  induction xs with
  | nil => exact binds_of_unmarked (fun c hc => nomatch hc)
  | cons x xs ih =>
      rw [List.forall_mem_cons] at h
      cases xs with
      | nil => exact h.1
      | cons y xs => exact (h.1.append (binds_of_unmarked hsep)).append (ih h.2)

end Binding

end RowSql

import Mathlib.Data.List.Induction
import RowSql.Proofs.Text.Scanning

/-!
# Where a text is outside of quotes

What a scan knows of a text can be said of the text itself. A quote character
counts unless a backslash stands right before it. A text that has closed its
quotes is made of single characters and of quoted spans, where a span runs to
the next quote of its own kind that counts, and the depth behind it is how many
parentheses it has opened less how many it has closed, those within the spans
left out.

That a scan sees nothing else takes one induction over the text, a character
more each time. A text with an open quote is carried along in it, as a text with
closed quotes, the quote, and what has followed without closing it.
-/

namespace RowSql.Text

/-- A quote character right behind the text does not count. -/
def EndsInBackslash (s : Text) : Prop := s.getLast? = some (.char '\\')

/-- What follows an opening quote does not close it: the same quote stands there
right behind backslashes only. -/
def KeepsOpen (q : CodePoint) (p : Text) : Prop :=
  ∀ s r, p = s ++ q :: r → EndsInBackslash s

/-- A text that ends outside of quotes, with a number of parentheses open.
Characters other than parentheses and quotes count for nothing, and neither do
escaped quotes. -/
inductive EndsOutside : Int → Text → Prop
  | nil : EndsOutside 0 []
  | opening {d : Int} {s : Text} (hs : EndsOutside d s) :
      EndsOutside (d + 1) (s ++ [.char '('])
  | closing {d : Int} {s : Text} (hs : EndsOutside d s) :
      EndsOutside (d - 1) (s ++ [.char ')'])
  | other {d : Int} {s : Text} {c : CodePoint} (hs : EndsOutside d s)
      (hopening : c ≠ '(')
      (hclosing : c ≠ ')') (hquote : isQuote c = true → EndsInBackslash s) :
      EndsOutside d (s ++ [c])
  | span {d : Int} {s p : Text} {q : CodePoint} (hs : EndsOutside d s)
      (hq : isQuote q = true)
      (hcounts : ¬ EndsInBackslash s) (hp : KeepsOpen q p)
        (hcloses : ¬ EndsInBackslash p) :
      EndsOutside d (s ++ between q p)

variable {d : Int} {q : CodePoint} {p s t : Text}

theorem endsInBackslash_concat {c : CodePoint} :
    EndsInBackslash (s ++ [c]) ↔ c = '\\' := by
  rw [EndsInBackslash, List.getLast?_append, List.getLast?_singleton,
    Option.some_or, Option.some.injEq]

theorem not_endsInBackslash_nil : ¬ EndsInBackslash [] := nofun

/-- The last character that a scan has read is the last one of the text. -/
theorem escaped_run (t : Text) : (Scan.start.run t).escaped = true ↔
    EndsInBackslash t := by
  induction t using List.reverseRecOn with
  | nil => exact ⟨nofun, nofun⟩
  | append_singleton s c _ =>
      rw [Scan.run_append, Scan.run_cons, Scan.run_nil, Scan.step_escaped,
        beq_iff_eq, endsInBackslash_concat]

theorem keepsOpen_concat {c : CodePoint} :
    KeepsOpen q (p ++ [c]) ↔ KeepsOpen q p ∧ (c = q → EndsInBackslash p) := by
  constructor
  · intro h
    refine ⟨fun s r hs => h s (r ++ [c]) (by rw [hs]; simp), ?_⟩
    rintro rfl
    exact h p [] rfl
  · rintro ⟨hp, hc⟩ s r hs
    rcases List.eq_nil_or_concat r with rfl | ⟨r, b, rfl⟩
    · obtain ⟨rfl, heq⟩ := List.append_singleton_inj.1 hs
      exact hc heq
    · rw [List.concat_eq_append, ← List.cons_append, ← List.append_assoc] at hs
      exact hp s r (List.append_singleton_inj.1 hs).1

/-! ## What a scan knows

A scan remembers the quote that is open, the depth, and whether a backslash came
last. The declarative reading knows the whole text; the two are led side by
side, character by character. -/

/-- Within a span the quote stays open. -/
theorem run_keepsOpen (hp : KeepsOpen q p) :
    ∃ e, (⟨some q, d, false⟩ : Scan).run p = ⟨some q, d, e⟩ ∧
      (e = true ↔ EndsInBackslash p) := by
  induction p using List.reverseRecOn with
  | nil => exact ⟨false, rfl, nofun, nofun⟩
  | append_singleton p c ih =>
      obtain ⟨hp, hc⟩ := keepsOpen_concat.1 hp
      obtain ⟨e, hrun, he⟩ := ih hp
      have hopen : ¬ (c = q ∧ e = false) := by
        rintro ⟨hcq, hfalse⟩
        rw [he.2 (hc hcq)] at hfalse
        cases hfalse
      refine ⟨c == '\\', ?_, ?_⟩
      · rw [Scan.run_append, hrun, Scan.run_cons, Scan.run_nil]
        simp only [Scan.step, if_neg hopen]
      · rw [beq_iff_eq, endsInBackslash_concat]

/-- Behind a span that is closed the scan is where it was before it. -/
theorem run_span (hq : isQuote q = true) (hp : KeepsOpen q p)
    (hcloses : ¬ EndsInBackslash p) :
    (Scan.outside d).run (between q p) = ⟨none, d, q == '\\'⟩ := by
  obtain ⟨e, hrun, he⟩ := run_keepsOpen (d := d) hp
  have hfalse : e = false :=
    Bool.eq_false_iff.2 fun htrue => hcloses (he.1 htrue)
  rw [between, List.cons_append, Scan.run_cons, Scan.step_quote hq,
    Scan.run_append, hrun, hfalse, Scan.run_cons, Scan.run_nil]
  simp only [Scan.step, and_self, if_true]

theorem EndsOutside.run (h : EndsOutside d t) :
    ∃ e, Scan.start.run t = ⟨none, d, e⟩ := by
  induction h with
  | nil => exact ⟨false, rfl⟩
  | opening _ ih =>
      obtain ⟨e, hrun⟩ := ih
      refine ⟨false, ?_⟩
      rw [Scan.run_append, hrun]
      exact Scan.step_opening _ e
  | closing _ ih =>
      obtain ⟨e, hrun⟩ := ih
      refine ⟨false, ?_⟩
      rw [Scan.run_append, hrun]
      exact Scan.step_closing _ e
  | @other d s c _ hopening hclosing hquote ih =>
      obtain ⟨e, hrun⟩ := ih
      have he : isQuote c = true → e = true := by
        intro hc
        have hescaped := (escaped_run s).2 (hquote hc)
        rwa [hrun] at hescaped
      refine ⟨c == '\\', ?_⟩
      rw [Scan.run_append, hrun, Scan.run_cons, Scan.run_nil]
      simp only [Scan.step, if_neg hopening, if_neg hclosing]
      split
      · next hc => rw [he hc, if_pos rfl]
      · rfl
  | @span d s p q _ hq hcounts hp hcloses ih =>
      obtain ⟨e, hrun⟩ := ih
      have hfalse : e = false := by
        have hescaped := escaped_run s
        rw [hrun] at hescaped
        exact Bool.eq_false_iff.2 fun htrue => hcounts (hescaped.1 htrue)
      refine ⟨q == '\\', ?_⟩
      rw [Scan.run_append, hrun, hfalse]
      exact run_span hq hp hcloses

/-- A text ends outside of quotes, or behind a quote that counts and has not
been closed. -/
inductive Scanned (t : Text) : Scan → Prop
  | outside {d : Int} {e : Bool} (h : EndsOutside d t) : Scanned t ⟨none, d, e⟩
  | inside {d : Int} {e : Bool} {s p : Text} {q : CodePoint}
      (hs : EndsOutside d s)
      (hq : isQuote q = true) (hcounts : ¬ EndsInBackslash s)
        (hp : KeepsOpen q p)
      (ht : t = s ++ q :: p) : Scanned t ⟨some q, d, e⟩

theorem endsInBackslash_append_quote (hq : isQuote q = true) :
    EndsInBackslash (s ++ q :: p) ↔ EndsInBackslash p := by
  rcases List.eq_nil_or_concat p with rfl | ⟨p, c, rfl⟩
  · rw [endsInBackslash_concat]
    refine ⟨fun h => ?_, fun h => absurd h not_endsInBackslash_nil⟩
    rw [h] at hq
    cases hq
  · rw [List.concat_eq_append, ← List.cons_append, ← List.append_assoc,
      endsInBackslash_concat, endsInBackslash_concat]

theorem Scanned.step_outside {e : Bool} (h : EndsOutside d t)
    (he : e = true ↔ EndsInBackslash t) (c : CodePoint) :
    Scanned (t ++ [c]) ((⟨none, d, e⟩ : Scan).step c) := by
  cases hq : isQuote c with
  | true =>
      have hne : ∀ a : CodePoint, isQuote a = false → c ≠ a := by
        rintro a ha rfl
        rw [hq] at ha
        cases ha
      simp only [Scan.step, hq, if_true]
      split
      · next hescaped =>
          exact .outside
            (.other h (hne _ (by decide)) (hne _ (by decide)) fun _ =>
              he.1 hescaped)
      · next hescaped =>
          exact .inside h hq (fun hn => hescaped (he.2 hn))
            (by simp [KeepsOpen]) rfl
  | false =>
      simp only [Scan.step, hq, Bool.false_eq_true, if_false]
      split
      · next hopening =>
          rw [hopening]
          exact .outside (.opening h)
      · next hopening =>
          split
          · next hclosing =>
              rw [hclosing]
              exact .outside (.closing h)
          · next hclosing =>
              exact .outside (.other h hopening hclosing fun hn =>
                absurd hn (Bool.eq_false_iff.1 hq))

theorem Scanned.step_inside {e : Bool} (hs : EndsOutside d s)
    (hq : isQuote q = true) (hcounts : ¬ EndsInBackslash s) (hp : KeepsOpen q p)
    (he : e = true ↔ EndsInBackslash p) (c : CodePoint) :
    Scanned (s ++ q :: p ++ [c]) ((⟨some q, d, e⟩ : Scan).step c) := by
  rw [List.append_assoc, List.cons_append]
  simp only [Scan.step]
  split
  · next hclose =>
      obtain ⟨rfl, hfalse⟩ := hclose
      refine .outside (.span hs hq hcounts hp fun hn => ?_)
      rw [he.2 hn] at hfalse
      cases hfalse
  · next hopen =>
      refine .inside hs hq hcounts (keepsOpen_concat.2 ⟨hp, fun hc => ?_⟩) rfl
      rw [← he, ← Bool.not_eq_false]
      exact fun hfalse => hopen ⟨hc, hfalse⟩

theorem scanned_run (t : Text) : Scanned t (Scan.start.run t) := by
  induction t using List.reverseRecOn with
  | nil => exact .outside .nil
  | append_singleton t c ih =>
      have hescaped := escaped_run t
      rw [Scan.run_append, Scan.run_cons, Scan.run_nil]
      generalize Scan.start.run t = st at ih hescaped
      cases ih with
      | outside h => exact .step_outside h hescaped c
      | inside hs hq hcounts hp ht =>
          subst ht
          exact .step_inside hs hq hcounts hp
            (hescaped.trans (endsInBackslash_append_quote hq)) c

theorem endsOutside_iff :
    EndsOutside d t ↔
      (Scan.start.run t).quote = none ∧ (Scan.start.run t).depth = d := by
  constructor
  · intro h
    obtain ⟨e, hrun⟩ := h.run
    rw [hrun]
    exact ⟨rfl, rfl⟩
  · rintro ⟨hquote, rfl⟩
    have hscanned := scanned_run t
    generalize Scan.start.run t = st at hscanned hquote
    cases hscanned with
    | outside h => exact h
    | inside => cases hquote

theorem endsOutside_zero_iff :
    EndsOutside 0 t ↔ (Scan.start.run t).atTop = true :=
  endsOutside_iff.trans Scan.atTop_iff.symm

end RowSql.Text

import RowSql.Text.Basic

/-!
# Trimming, piece by piece

A text is trimmed when no blank stands at either end of it, and this file says
so in a form that can be used on a text put together from parts: what trimming
does depends on the first and on the last character only, and blanks put around
a trimmed text are what trimming takes off again.
-/

namespace RowSql.Text

/-- Nothing but blanks. -/
def Blanks (t : Text) : Prop := ∀ c ∈ t, isBlank c = true

theorem blanks_nil : Blanks [] := by
  intro c hc
  cases hc

theorem blanks_cons {c : CodePoint} {t : Text} :
    Blanks (c :: t) ↔ isBlank c = true ∧ Blanks t :=
  List.forall_mem_cons

theorem blanks_append {s t : Text} : Blanks (s ++ t) ↔ Blanks s ∧ Blanks t :=
  List.forall_mem_append

theorem Blanks.reverse {t : Text} (h : Blanks t) : Blanks t.reverse :=
  fun c hc => h c (List.mem_reverse.1 hc)

/-- One space is a run of blanks. -/
theorem blanks_space : Blanks [.char ' '] := by
  intro c hc
  rw [List.mem_singleton.1 hc]
  decide

/-! ## The head

Trimming the head takes blanks away until something else stands there. -/

theorem trimLeft_cons_blank {c : CodePoint} {s : Text} (h : isBlank c = true) :
    trimLeft (c :: s) = trimLeft s :=
  List.dropWhile_cons_of_pos h

theorem trimLeft_cons {c : CodePoint} {s : Text} (h : isBlank c = false) :
    trimLeft (c :: s) = c :: s :=
  List.dropWhile_cons_of_neg (by rw [h]; exact Bool.false_ne_true)

theorem trimLeft_append_blanks {b t : Text} (hb : Blanks b) :
    trimLeft (b ++ t) = trimLeft t := by
  induction b with
  | nil => rfl
  | cons c b ih =>
      rw [blanks_cons] at hb
      rw [List.cons_append, trimLeft_cons_blank hb.1, ih hb.2]

theorem trimLeft_eq_nil_iff {t : Text} : trimLeft t = [] ↔ Blanks t := by
  induction t with
  | nil => exact ⟨fun _ => blanks_nil, fun _ => rfl⟩
  | cons c s ih =>
      rw [blanks_cons]
      cases hc : isBlank c with
      | true => rw [trimLeft_cons_blank hc, ih]; simp
      | false => rw [trimLeft_cons hc]; simp

/-- A text is blanks and then what trimming leaves of it at the head. -/
theorem exists_eq_append_trimLeft (t : Text) :
    ∃ b, Blanks b ∧ t = b ++ trimLeft t := by
  induction t with
  | nil => exact ⟨[], blanks_nil, rfl⟩
  | cons c s ih =>
      cases hc : isBlank c with
      | true =>
          obtain ⟨b, hb, hs⟩ := ih
          refine ⟨c :: b, blanks_cons.2 ⟨hc, hb⟩, ?_⟩
          rw [trimLeft_cons_blank hc, List.cons_append, ← hs]
      | false => exact ⟨[], blanks_nil, by rw [trimLeft_cons hc]; rfl⟩

theorem trimLeft_append {s t : Text} (hs : ¬ Blanks s) :
    trimLeft (s ++ t) = trimLeft s ++ t := by
  induction s with
  | nil => exact absurd blanks_nil hs
  | cons c s ih =>
      cases hc : isBlank c with
      | true =>
          have hs' : ¬ Blanks s := fun h => hs (blanks_cons.2 ⟨hc, h⟩)
          rw [List.cons_append, trimLeft_cons_blank hc, trimLeft_cons_blank hc,
            ih hs']
      | false =>
          rw [List.cons_append, trimLeft_cons hc, trimLeft_cons hc,
            List.cons_append]

/-! ## The end

The end of a text is the head of its reversal. -/

theorem trimRight_concat {s : Text} {c : CodePoint} (h : isBlank c = false) :
    trimRight (s ++ [c]) = s ++ [c] := by
  have hr : (s ++ [c]).reverse = c :: s.reverse := by
    rw [List.reverse_append, List.reverse_singleton, List.singleton_append]
  rw [trimRight, hr]
  show (trimLeft (c :: s.reverse)).reverse = s ++ [c]
  rw [trimLeft_cons h, List.reverse_cons, List.reverse_reverse]

theorem trimRight_append_blanks {t b : Text} (hb : Blanks b) :
    trimRight (t ++ b) = trimRight t := by
  rw [trimRight, trimRight, List.reverse_append]
  show (trimLeft (b.reverse ++ t.reverse)).reverse = _
  rw [trimLeft_append_blanks hb.reverse]
  rfl

/-- A text is what trimming leaves of it at the end, and then blanks. -/
theorem exists_eq_trimRight_append (t : Text) :
    ∃ b, Blanks b ∧ t = trimRight t ++ b := by
  obtain ⟨b, hb, ht⟩ := exists_eq_append_trimLeft t.reverse
  refine ⟨b.reverse, hb.reverse, ?_⟩
  have h := congrArg List.reverse ht
  rwa [List.reverse_reverse, List.reverse_append] at h

/-! ## Both ends

A text is flush at an end where no blank stands. Of two texts one behind the
other only the outer ends count, if neither is empty. -/

/-- No blank stands at the head. -/
def FlushLeft (t : Text) : Prop := ∀ c s, t = c :: s → isBlank c = false

/-- No blank stands at the end. -/
def FlushRight (t : Text) : Prop := ∀ s c, t = s ++ [c] → isBlank c = false

/-- Nothing stands there, or a blank does. -/
def Bounded (t : Text) : Prop := ∀ c s, t = c :: s → isBlank c = true

/-- No blank stands at either end. -/
structure Trimmed (t : Text) : Prop where
  head : FlushLeft t
  last : FlushRight t

theorem flushLeft_cons {c : CodePoint} {s : Text} :
    FlushLeft (c :: s) ↔ isBlank c = false :=
  ⟨fun h => h c s rfl, fun h _ _ he => (List.cons.inj he).1 ▸ h⟩

theorem flushLeft_append {s t : Text} (hs : s ≠ []) :
    FlushLeft (s ++ t) ↔ FlushLeft s := by
  cases s with
  | nil => exact absurd rfl hs
  | cons c s => rw [List.cons_append, flushLeft_cons, flushLeft_cons]

/-- The head of a text is flush when the whole of it is. -/
theorem FlushLeft.append {s t : Text} (hs : FlushLeft s) (ht : FlushLeft t) :
    FlushLeft (s ++ t) := by
  cases s with
  | nil => exact ht
  | cons c s => exact flushLeft_cons.2 (flushLeft_cons.1 hs)

/-- Trimming leaves alone a head without blanks. -/
theorem FlushLeft.trimLeft_eq {t : Text} (h : FlushLeft t) :
    trimLeft t = t := by
  cases t with
  | nil => rfl
  | cons c s => exact trimLeft_cons (flushLeft_cons.1 h)

/-- Trimming leaves a head without blanks. -/
theorem flushLeft_trimLeft (t : Text) : FlushLeft (trimLeft t) := by
  induction t with
  | nil =>
      intro c s h
      cases h
  | cons c s ih =>
      cases hc : isBlank c with
      | true =>
          rw [trimLeft_cons_blank hc]
          exact ih
      | false =>
          rw [trimLeft_cons hc]
          exact flushLeft_cons.2 hc

theorem flushRight_concat {s : Text} {c : CodePoint} :
    FlushRight (s ++ [c]) ↔ isBlank c = false := by
  constructor
  · intro h
    exact h s c rfl
  · intro h r d he
    exact (List.append_singleton_inj.1 he).2 ▸ h

theorem flushRight_nil : FlushRight [] := by
  intro s c h
  exact absurd h.symm
    (List.append_ne_nil_of_right_ne_nil s (List.cons_ne_nil c []))

theorem flushRight_append {s t : Text} (ht : t ≠ []) :
    FlushRight (s ++ t) ↔ FlushRight t := by
  rcases List.eq_nil_or_concat t with rfl | ⟨u, d, rfl⟩
  · exact absurd rfl ht
  · rw [List.concat_eq_append, ← List.append_assoc, flushRight_concat,
      flushRight_concat]

/-- The end of a text is flush when the whole of it is. -/
theorem FlushRight.append {s t : Text} (hs : FlushRight s) (ht : FlushRight t) :
    FlushRight (s ++ t) := by
  cases t with
  | nil => rwa [List.append_nil]
  | cons c t => exact (flushRight_append (List.cons_ne_nil c t)).2 ht

theorem FlushRight.of_append {s t : Text} (h : FlushRight (s ++ t)) :
    FlushRight t := by
  rcases Classical.em (t = []) with rfl | ht
  · exact flushRight_nil
  · exact (flushRight_append ht).1 h

theorem FlushRight.not_blanks {t : Text} (h : FlushRight t) (hne : t ≠ []) :
    ¬ Blanks t := by
  intro hb
  rcases List.eq_nil_or_concat t with rfl | ⟨s, c, rfl⟩
  · exact hne rfl
  · rw [List.concat_eq_append] at h hb
    have hc := hb c (List.mem_append_right s List.mem_cons_self)
    rw [flushRight_concat.1 h] at hc
    cases hc

/-- Trimming leaves an end without blanks. -/
theorem flushRight_trimRight (t : Text) : FlushRight (trimRight t) := by
  intro s c h
  have hreverse : trimLeft t.reverse = c :: s.reverse := by
    have h' := congrArg List.reverse h
    rwa [trimRight, List.reverse_reverse, List.reverse_append,
      List.reverse_singleton] at h'
  exact flushLeft_trimLeft t.reverse c s.reverse hreverse

theorem bounded_nil : Bounded [] := by
  intro c s h
  cases h

theorem bounded_cons {c : CodePoint} {s : Text} :
    Bounded (c :: s) ↔ isBlank c = true :=
  ⟨fun h => h c s rfl, fun h _ _ he => (List.cons.inj he).1 ▸ h⟩

theorem Bounded.of_append {s t : Text} (h : Bounded (s ++ t)) : Bounded s := by
  cases s with
  | nil => exact bounded_nil
  | cons c s => exact bounded_cons.2 (bounded_cons.1 h)

/-- A head is not both a blank and none. -/
theorem Bounded.eq_nil {t : Text} (h : Bounded t) (hflush : FlushLeft t) :
    t = [] := by
  cases t with
  | nil => rfl
  | cons c s =>
      have hc := bounded_cons.1 h
      rw [flushLeft_cons.1 hflush] at hc
      cases hc

/-- Of what stands behind a text, only whether a blank does counts. -/
theorem Bounded.append_of_imp {s t u : Text} (h : Bounded (s ++ t))
    (htu : Bounded t → Bounded u) :
    Bounded (s ++ u) := by
  cases s with
  | nil => exact htu h
  | cons c s => exact bounded_cons.2 (bounded_cons.1 h)

theorem Bounded.append {s t : Text} (hs : Bounded s) (ht : Bounded t) :
    Bounded (s ++ t) := by
  rw [← List.append_nil s] at hs
  exact hs.append_of_imp fun _ => ht

theorem Blanks.bounded {b t : Text} (hb : Blanks b) (hne : b ≠ []) :
    Bounded (b ++ t) := by
  cases b with
  | nil => exact absurd rfl hne
  | cons c b => exact bounded_cons.2 (blanks_cons.1 hb).1

theorem trimmed_of_solid {t : Text} (h : ∀ c ∈ t, isBlank c = false) :
    Trimmed t :=
  ⟨fun _ _ hc => h _ (hc ▸ List.mem_cons_self),
    fun s _ hc => h _ (hc ▸ List.mem_append_right s List.mem_cons_self)⟩

/-- A trimmed text is left alone by trimming. -/
theorem Trimmed.trim_eq {t : Text} (h : Trimmed t) : trim t = t := by
  rcases List.eq_nil_or_concat t with rfl | ⟨s, c, ht⟩
  · rfl
  · rw [List.concat_eq_append] at ht
    have hl : trimLeft t = t := by
      cases t with
      | nil => rfl
      | cons d r => exact trimLeft_cons (h.head d r rfl)
    rw [trim, hl, ht]
    exact trimRight_concat (h.last s c ht)

theorem trimmed_trimRight {t : Text} (h : FlushLeft t) :
    Trimmed (trimRight t) := by
  obtain ⟨b, hb, ht⟩ := exists_eq_trimRight_append t
  constructor
  · intro c s hc
    rw [hc] at ht
    exact h c (s ++ b) ht
  · intro s c hc
    cases hbc : isBlank c with
    | false => rfl
    | true =>
        -- a blank at the end would have been taken off with the others
        have hsame : trimRight t = trimRight s := by
          rw [ht, trimRight_append_blanks hb, hc]
          have :=
            trimRight_append_blanks (t := s) (b := [c])
              (blanks_cons.2 ⟨hbc, blanks_nil⟩)
          exact this
        obtain ⟨b', _, hs⟩ := exists_eq_trimRight_append s
        have hlen := congrArg List.length (hsame.symm.trans hc)
        have hle := congrArg List.length hs
        simp only [List.length_append, List.length_singleton] at hlen hle
        omega

/-- What is left after trimming is trimmed. -/
theorem trimmed_trim (t : Text) : Trimmed (trim t) :=
  trimmed_trimRight (flushLeft_trimLeft t)

/-- Being left alone by trimming is being trimmed. -/
theorem trim_eq_self_iff {t : Text} : trim t = t ↔ Trimmed t :=
  ⟨fun h => h ▸ trimmed_trim t, Trimmed.trim_eq⟩

theorem trim_eq_nil_iff {t : Text} : trim t = [] ↔ Blanks t := by
  constructor
  · intro h
    obtain ⟨b, hb, ht⟩ := exists_eq_append_trimLeft t
    obtain ⟨b', hb', hl⟩ := exists_eq_trimRight_append (trimLeft t)
    rw [show trimRight (trimLeft t) = [] from h, List.nil_append] at hl
    rw [ht, hl]
    exact blanks_append.2 ⟨hb, hb'⟩
  · intro h
    rw [trim, trimLeft_eq_nil_iff.2 h]
    rfl

/-- Blanks around a text count for nothing. -/
theorem trim_blanks_append {b t b' : Text} (hb : Blanks b) (hb' : Blanks b') :
    trim (b ++ t ++ b') = trim t := by
  rw [trim, List.append_assoc, trimLeft_append_blanks hb]
  rcases Classical.em (Blanks t) with ht | ht
  · rw [trimLeft_eq_nil_iff.2 (blanks_append.2 ⟨ht, hb'⟩), trim,
      trimLeft_eq_nil_iff.2 ht]
  · rw [trimLeft_append ht, trimRight_append_blanks hb', trim]

theorem trim_append_blanks {t b : Text} (hb : Blanks b) :
    trim (t ++ b) = trim t := by
  have h := trim_blanks_append (b := []) (t := t) blanks_nil hb
  rwa [List.nil_append] at h

theorem trim_append_of_blanks {b t : Text} (hb : Blanks b) :
    trim (b ++ t) = trim t := by
  rw [trim, trimLeft_append_blanks hb, ← trim]

/-- A text is what trimming leaves of it, between blanks. -/
theorem exists_eq_trim (t : Text) :
    ∃ b b', Blanks b ∧ Blanks b' ∧ t = b ++ (trim t ++ b') := by
  obtain ⟨b, hb, ht⟩ := exists_eq_append_trimLeft t
  obtain ⟨b', hb', hl⟩ := exists_eq_trimRight_append (trimLeft t)
  exact ⟨b, b', hb, hb', by rw [trim, ← hl, ← ht]⟩

/-- A trimmed text followed by a trimmed one is trimmed, whatever stands
between. -/
theorem Trimmed.append {s m t : Text} (hs : Trimmed s) (hs' : s ≠ [])
    (ht : Trimmed t) (ht' : t ≠ []) : Trimmed (s ++ m ++ t) := by
  constructor
  · rw [List.append_assoc, flushLeft_append hs']
    exact hs.head
  · rw [flushRight_append ht']
    exact ht.last

/-- A text between two characters that are no blanks is trimmed. -/
theorem trimmed_between {a z : CodePoint} {m : Text} (ha : isBlank a = false)
    (hz : isBlank z = false) : Trimmed (a :: m ++ [z]) :=
  ⟨flushLeft_cons.2 ha, flushRight_concat.2 hz⟩

/-! ## Joined texts

What is joined begins with the first text and ends with the last. -/

/-- What all characters of the texts and of the separator are, those of joined
texts are. -/
theorem forall_mem_join {property : CodePoint → Prop} {separator : Text}
    {ts : List Text} (hs : ∀ c ∈ separator, property c)
    (h : ∀ t ∈ ts, ∀ c ∈ t, property c) :
    ∀ c ∈ join separator ts, property c := by
  induction ts with
  | nil => exact fun c hc => absurd hc List.not_mem_nil
  | cons t ts ih =>
      rw [List.forall_mem_cons] at h
      cases ts with
      | nil => exact h.1
      | cons u us =>
          rw [join, List.forall_mem_append, List.forall_mem_append]
          exact ⟨⟨h.1, hs⟩, ih h.2⟩

/-- Joined texts open with the first of them. -/
theorem exists_join_cons (separator t : Text) (ts : List Text) :
    ∃ s, join separator (t :: ts) = t ++ s := by
  cases ts with
  | nil => exact ⟨[], (List.append_nil t).symm⟩
  | cons u us =>
      exact ⟨separator ++ join separator (u :: us), List.append_assoc _ _ _⟩

/-- Joined texts end with one of them. -/
theorem exists_join_eq_append (separator : Text) {ts : List Text}
    (h : ts ≠ []) :
    ∃ s, ∃ t ∈ ts, join separator ts = s ++ t := by
  induction ts with
  | nil => exact absurd rfl h
  | cons t ts ih =>
      cases ts with
      | nil => exact ⟨[], t, List.mem_cons_self, rfl⟩
      | cons u us =>
          obtain ⟨s, v, hv, hs⟩ := ih (List.cons_ne_nil u us)
          refine ⟨t ++ separator ++ s, v, List.mem_cons_of_mem t hv, ?_⟩
          rw [join, hs, ← List.append_assoc]

instance (t : Text) : Decidable (Blanks t) :=
  inferInstanceAs (Decidable (∀ c ∈ t, isBlank c = true))

instance (t : Text) : Decidable (Bounded t) :=
  decidable_of_iff (t.head?.all isBlank = true) <| by
    cases t with
    | nil => exact ⟨fun _ => bounded_nil, fun _ => rfl⟩
    | cons c s => rw [bounded_cons, List.head?_cons, Option.all_some]

instance (t : Text) : Decidable (Trimmed t) :=
  decidable_of_iff (trim t = t) trim_eq_self_iff

/-- A text in one pair of parentheses. -/
def parenthesise (t : Text) : Text := .char '(' :: t ++ [.char ')']

theorem parenthesise_ne_nil (t : Text) : parenthesise t ≠ [] :=
  List.cons_ne_nil _ _

theorem trimmed_parenthesise (t : Text) : Trimmed (parenthesise t) :=
  trimmed_between (by decide) (by decide)

end RowSql.Text

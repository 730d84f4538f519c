import RowSql.Proofs.Text.Items

/-!
# Delimiters outside of quotes

Which delimiters of a text count is told without a scan: those before which
every quote that was opened has been closed, where a span ends at the next quote
of its own kind and nothing, a backslash least of all, keeps it open. The state
that is carried from character to character is exactly this knowledge of the
text read so far, and from it both directions follow. A text is cut at the
delimiters that count and at no other, and texts between which delimiters are
put are what is cut out again, unless one of them has a delimiter of its own
that counts, or leaves a quote open, or is empty at the end.
-/

namespace RowSql.Text

/-- A text that closes every quote it opens: the next quote of the same kind
ends a span. -/
inductive ClosesQuotes : Text → Prop
  | nil : ClosesQuotes []
  | plain {c : CodePoint} {t : Text} (hc : isQuote c = false)
      (ht : ClosesQuotes t) :
      ClosesQuotes (c :: t)
  | span {q : CodePoint} {p t : Text} (hp : Encloses q p)
      (ht : ClosesQuotes t) :
      ClosesQuotes (between q p ++ t)

/-- No delimiter stands outside of quotes. -/
def NoneOutside (d : CodePoint) (t : Text) : Prop :=
  ∀ s r, t = s ++ d :: r → ¬ ClosesQuotes s

/-- What can be joined by a delimiter and found again. -/
structure Joinable (d : CodePoint) (t : Text) : Prop where
  trimmed : Trimmed t
  closes : ClosesQuotes t
  noneOutside : NoneOutside d t

/-- Two of the joined pieces meet behind `s`. -/
def MeetAt (d : CodePoint) (ps : List Text) (s : Text) : Prop :=
  ∃ us vs, us ≠ [] ∧ vs ≠ [] ∧ ps = us ++ vs ∧ join [d] us = s

/-- The pieces of a text between the delimiters outside of quotes: joined they
are the text, and two of them meet at a delimiter exactly when every quote
opened before it is closed. -/
structure IsCutOutside (d : CodePoint) (t : Text) (ps : List Text) : Prop where
  ne_nil : ps ≠ []
  joined : join [d] ps = t
  exactly : ∀ s r, t = s ++ d :: r → (MeetAt d ps s ↔ ClosesQuotes s)

/-! ## The open quote

Whether a text closes its quotes is a matter of which quote is open at its end.
Spans are the declarative form, and a scan of single characters the computable
one. -/

theorem quoteRun_cons (quote : Option CodePoint) (c : CodePoint) (t : Text) :
    quoteRun quote (c :: t) = quoteRun (quoteStep quote c) t := rfl

/-- An open quote that is closed again is closed by the next one of its kind. -/
theorem exists_of_quoteRun_some {q : CodePoint} {t : Text}
    (h : quoteRun (some q) t = none) :
    ∃ p r, t = p ++ q :: r ∧ q ∉ p ∧ quoteRun none r = none := by
  induction t with
  | nil => cases h
  | cons c s ih =>
      rw [quoteRun_cons, quoteStep] at h
      split at h
      · next hc =>
          exact ⟨[], s, by rw [hc, List.nil_append], List.not_mem_nil, h⟩
      · next hc =>
          obtain ⟨p, r, rfl, hp, hr⟩ := ih h
          refine ⟨c :: p, r, rfl, ?_, hr⟩
          rw [List.mem_cons, not_or]
          exact ⟨Ne.symm hc, hp⟩

theorem ClosesQuotes.quoteRun_eq {t : Text} (h : ClosesQuotes t) :
    quoteRun none t = none := by
  induction h with
  | nil => rfl
  | plain hc _ ih => rwa [quoteRun_cons, quoteStep_of_not_quote hc]
  | span hp _ ih => rwa [quoteRun_append, quoteRun_between hp.quote hp.absent]

/-- What is carried from character to character is whether the text so far
closes its quotes. -/
theorem closesQuotes_iff {t : Text} :
    ClosesQuotes t ↔ quoteRun none t = none := by
  refine ⟨ClosesQuotes.quoteRun_eq, fun h => ?_⟩
  induction hn : t.length using Nat.strongRecOn generalizing t with
  | ind n ih =>
  subst hn
  cases t with
  | nil => exact .nil
  | cons c s =>
      rw [quoteRun_cons] at h
      cases hc : isQuote c with
      | false =>
          rw [quoteStep_of_not_quote hc] at h
          exact .plain hc (ih s.length (Nat.lt_succ_self _) h rfl)
      | true =>
          rw [quoteStep_quote hc] at h
          obtain ⟨p, r, rfl, hp, hr⟩ := exists_of_quoteRun_some h
          have hlen : r.length < (c :: (p ++ c :: r)).length := by
            simp only [List.length_cons, List.length_append]
            omega
          have hspan := ClosesQuotes.span ⟨hc, hp⟩ (ih r.length hlen hr rfl)
          rwa [between, List.append_assoc, List.singleton_append] at hspan

instance (t : Text) : Decidable (ClosesQuotes t) :=
  decidable_of_iff _ closesQuotes_iff.symm

instance (d : CodePoint) (t : Text) : Decidable (NoneOutside d t) :=
  decidable_of_iff (∀ n < t.length, (t.drop n).head? = some d →
    ¬ ClosesQuotes (t.take n)) <| by
    constructor
    · rintro h s r rfl
      have hs := h s.length (by simp) (by rw [List.drop_left, List.head?_cons])
      rwa [List.take_left] at hs
    · intro h n _ hd
      obtain ⟨r, hr⟩ := List.head?_eq_some_iff.1 hd
      exact h _ r (by rw [← hr, List.take_append_drop])

instance (d : CodePoint) (t : Text) : Decidable (Joinable d t) :=
  decidable_of_iff (Trimmed t ∧ ClosesQuotes t ∧ NoneOutside d t)
    ⟨fun h => ⟨h.1, h.2.1, h.2.2⟩, fun h => ⟨h.1, h.2, h.3⟩⟩

theorem undivided_iff {d : CodePoint} (hq : isQuote d = false)
    {quote : Option CodePoint} {t : Text} :
    Undivided (· == d) quote t ↔ ∀ s r, t = s ++ d :: r →
    quoteRun quote s ≠ none := by
  induction t generalizing quote with
  | nil => exact ⟨fun _ s r hs => by simp at hs, fun _ => trivial⟩
  | cons c t ih =>
      rw [Undivided, ih]
      constructor
      · rintro ⟨hc, ht⟩ s r hs
        cases s with
        | nil =>
            rw [List.nil_append, List.cons.injEq] at hs
            obtain ⟨rfl, rfl⟩ := hs
            intro hquote
            simpa using hc hquote hq
        | cons e s =>
            rw [List.cons_append, List.cons.injEq] at hs
            obtain ⟨rfl, rfl⟩ := hs
            exact ht s r rfl
      · intro h
        refine ⟨fun hquote _ => beq_eq_false_iff_ne.2 ?_, fun s r hs => ?_⟩
        · rintro rfl
          exact h [] t rfl hquote
        · exact h (c :: s) r (by rw [hs, List.cons_append])

theorem NoneOutside.undivided {d : CodePoint} (hq : isQuote d = false)
    {t : Text} (h : NoneOutside d t) : Undivided (· == d) none t :=
  (undivided_iff hq).2 fun s r hs hn => h s r hs (closesQuotes_iff.2 hn)

/-! ## Where the pieces meet

Joining puts a delimiter back where the cut was. So the pieces of a text
meet at exactly the delimiters it was cut at, and those are the ones outside
of quotes. -/

section

variable {d c : CodePoint} {p s t : Text} {ps : List Text}

theorem join_nil_cons (h : ps ≠ []) :
    join [d] ([] :: ps) = d :: join [d] ps := by
  obtain ⟨q, qs, rfl⟩ := List.exists_cons_of_ne_nil h
  rfl

theorem join_cons_cons (c : CodePoint) (p : Text) (ps : List Text) :
    join [d] ((c :: p) :: ps) = c :: join [d] (p :: ps) := by
  cases ps with
  | nil => rfl
  | cons q qs => rfl

theorem meetAt_nil (h : ps ≠ []) : MeetAt d ([] :: ps) [] :=
  ⟨[[]], ps, List.cons_ne_nil _ _, h, rfl, rfl⟩

/-- Where pieces meet, the first of them is one of those before. -/
theorem meetAt_cons : MeetAt d (p :: ps) s ↔
    ∃ us vs, vs ≠ [] ∧ ps = us ++ vs ∧ join [d] (p :: us) = s := by
  constructor
  · rintro ⟨us, vs, hus, hvs, heq, hjoin⟩
    obtain ⟨u, us, rfl⟩ := List.exists_cons_of_ne_nil hus
    rw [List.cons_append, List.cons.injEq] at heq
    obtain ⟨rfl, rfl⟩ := heq
    exact ⟨us, vs, hvs, rfl, hjoin⟩
  · rintro ⟨us, vs, hvs, rfl, hjoin⟩
    exact ⟨p :: us, vs, List.cons_ne_nil p us, hvs, rfl, hjoin⟩

theorem meetAt_nil_cons : MeetAt d ([] :: ps) (d :: s) ↔ MeetAt d ps s := by
  rw [meetAt_cons]
  constructor
  · rintro ⟨us, vs, hvs, rfl, hjoin⟩
    have hus : us ≠ [] := by
      rintro rfl
      cases hjoin
    rw [join_nil_cons hus, List.cons.injEq] at hjoin
    exact ⟨us, vs, hus, hvs, rfl, hjoin.2⟩
  · rintro ⟨us, vs, hus, hvs, rfl, hjoin⟩
    exact ⟨us, vs, hvs, rfl, by rw [join_nil_cons hus, hjoin]⟩

theorem not_meetAt_nil : ¬ MeetAt d ((c :: p) :: ps) [] := by
  rw [meetAt_cons]
  rintro ⟨us, _, _, _, hjoin⟩
  rw [join_cons_cons] at hjoin
  cases hjoin

theorem meetAt_cons_cons : MeetAt d ((c :: p) :: ps) (c :: s) ↔
    MeetAt d (p :: ps) s := by
  simp only [meetAt_cons, join_cons_cons, List.cons.injEq, true_and]

/-- Joining the pieces undoes the cuts. -/
theorem join_cutOutside (quote : Option CodePoint) (t : Text) :
    join [d] (cutOutside (· == d) quote t) = t := by
  induction t generalizing quote with
  | nil => rfl
  | cons c t ih =>
      rw [cutOutside]
      split
      · next hc =>
          rw [join_nil_cons (cutOutside_ne_nil _ _ _), ih, beq_iff_eq.1 hc.2.2]
      · obtain ⟨p, ps, hps⟩ :=
          List.exists_cons_of_ne_nil
            (cutOutside_ne_nil (· == d) (quoteStep quote c) t)
        have ht := ih (quoteStep quote c)
        rw [hps] at ht ⊢
        rw [consHead, join_cons_cons, ht]

/-- The pieces meet where no quote is open. -/
theorem meetAt_cutOutside (hq : isQuote d = false) {quote : Option CodePoint}
    {r : Text} (ht : t = s ++ d :: r) :
    MeetAt d (cutOutside (· == d) quote t) s ↔ quoteRun quote s = none := by
  subst ht
  induction s generalizing quote with
  | nil =>
      rw [List.nil_append, cutOutside]
      split
      · next hc =>
          exact ⟨fun _ => hc.1, fun _ => meetAt_nil (cutOutside_ne_nil _ _ _)⟩
      · next hc =>
          obtain ⟨p, ps, hps⟩ :=
            List.exists_cons_of_ne_nil
              (cutOutside_ne_nil (· == d) (quoteStep quote d) r)
          rw [hps]
          refine ⟨fun h => absurd h not_meetAt_nil,
            fun h => absurd ⟨h, hq, ?_⟩ hc⟩
          exact beq_self_eq_true d
  | cons c s ih =>
      rw [List.cons_append, cutOutside, quoteRun_cons]
      split
      · next hc =>
          obtain ⟨rfl, hquote, heq⟩ := hc
          rw [quoteStep_of_not_quote hquote, beq_iff_eq.1 heq,
            meetAt_nil_cons, ih]
      · obtain ⟨p, ps, hps⟩ :=
          List.exists_cons_of_ne_nil
            (cutOutside_ne_nil (· == d) (quoteStep quote c) (s ++ d :: r))
        have hs :
            MeetAt d (cutOutside (· == d) (quoteStep quote c) (s ++ d :: r)) s ↔
              quoteRun (quoteStep quote c) s = none := ih
        rw [hps] at hs ⊢
        rw [consHead, meetAt_cons_cons, hs]

theorem isCutOutside_cutOutside (hq : isQuote d = false) (t : Text) :
    IsCutOutside d t (cutOutside (· == d) none t) :=
  ⟨cutOutside_ne_nil _ _ _, join_cutOutside none t, fun _ _ hs =>
    (meetAt_cutOutside hq hs).trans closesQuotes_iff.symm⟩

end

/-- Splitting undoes joining, with whatever blanks around the texts, and of any
text it gives the trimmed pieces between the delimiters outside of quotes,
without an empty one at the end. -/
theorem splitOutside_undoes_join {d : CodePoint} (hd : isBlank d = false)
    (hq : isQuote d = false) :
    (∀ xs t, Spread d xs t → (∀ x ∈ xs, Joinable d x) → xs.getLast? ≠ some [] →
      splitOutside (· == d) t = xs) ∧
    ∀ t, ∃ ps p, IsCutOutside d t (ps ++ [p]) ∧
      splitOutside (· == d) t =
        ps.map trim ++ if trim p = [] then [] else [trim p] := by
  constructor
  · intro xs t ht hxs hlast
    refine splitOutside_spread hd hq ht (fun x hx => ?_) hlast
    obtain ⟨htrimmed, hcloses, hnone⟩ := hxs x hx
    exact ⟨htrimmed, hnone.undivided hq, hcloses.quoteRun_eq⟩
  · intro t
    have hcut := isCutOutside_cutOutside hq t
    obtain ⟨ps, p, hps⟩ := (List.eq_nil_or_concat _).resolve_left hcut.ne_nil
    rw [List.concat_eq_append] at hps
    rw [hps] at hcut
    exact ⟨ps, p, hcut, by rw [splitOutside, hps, trimPieces_append]⟩

/-- A span that ends at a quote behind a backslash, an empty text, and a quote
within the other kind; and a text whose last quote stays open. -/
theorem splitOutside_undoes_join_backslash :
    splitOutside (· == ';') " \"x;\\\" ; ;\tb'\"'\n".toText =
        ["\"x;\\\"".toText, [], "b'\"'".toText] ∧
      ∃ ps p, IsCutOutside ';' "a;\"b; c".toText (ps ++ [p]) ∧
        splitOutside (· == ';') "a;\"b; c".toText =
          ps.map trim ++ if trim p = [] then [] else [trim p] := by
  have htext : Spread ';' ["\"x;\\\"".toText, [], "b'\"'".toText]
      (" ".toText ++ "\"x;\\\"".toText ++ " ".toText ++ .char ';' ::
        (" ".toText ++ [] ++ [] ++ .char ';' ::
          ("\t".toText ++ "b'\"'".toText ++ "\n".toText))) :=
    .cons (by decide) (by decide)
      (.cons (by decide) (by decide) (.last (by decide) (by decide)))
  obtain ⟨hjoined, hcut⟩ :=
    splitOutside_undoes_join (d := ';') (by decide) (by decide)
  exact ⟨hjoined _ _ htext (by decide) (by decide), hcut _⟩

end RowSql.Text

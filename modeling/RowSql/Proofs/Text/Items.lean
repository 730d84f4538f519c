import RowSql.Proofs.Text.Letters

/-!
# Lists cut into their items

A list is cut at the commas outside of quotes. Whether a comma counts is known
from the quote that is open before it, so a part of a list is described by two
things: that nothing in it is a cut, and the quote that is open behind it. Items
that are cut nowhere and close their quotes are cut apart into exactly
themselves.
-/

namespace RowSql.Text

/-- The open quote after a text. -/
def quoteRun (quote : Option CodePoint) (t : Text) : Option CodePoint :=
  t.foldl quoteStep quote

theorem quoteRun_append (quote : Option CodePoint) (s t : Text) :
    quoteRun quote (s ++ t) = quoteRun (quoteRun quote s) t :=
  List.foldl_append

theorem quoteStep_of_not_quote {c : CodePoint} (h : isQuote c = false) :
    quoteStep none c = none := by
  rw [quoteStep, h]
  rfl

theorem quoteRun_of_not_quote {t : Text} (h : ∀ c ∈ t, isQuote c = false) :
    quoteRun none t = none := by
  induction t with
  | nil => rfl
  | cons c s ih =>
      rw [List.forall_mem_cons] at h
      rw [quoteRun, List.foldl_cons, quoteStep_of_not_quote h.1]
      exact ih h.2

/-- Inside of quotes nothing counts but the quote character. -/
theorem quoteRun_inside {q : CodePoint} {p : Text} (hp : q ∉ p) :
    quoteRun (some q) p = some q := by
  induction p with
  | nil => rfl
  | cons c s ih =>
      rw [List.mem_cons, not_or] at hp
      rw [quoteRun, List.foldl_cons, quoteStep, if_neg (Ne.symm hp.1)]
      exact ih hp.2

theorem quoteStep_quote {q : CodePoint} (hq : isQuote q = true) :
    quoteStep none q = some q := by
  rw [quoteStep, hq]
  rfl

/-- A quoted text closes its quotes, whatever it ends in. -/
theorem quoteRun_between {q : CodePoint} {p : Text} (hq : isQuote q = true)
    (hp : q ∉ p) :
    quoteRun none (between q p) = none := by
  rw [between, List.cons_append, quoteRun, List.foldl_cons, quoteStep_quote hq,
    ← quoteRun, quoteRun_append, quoteRun_inside hp, quoteRun, List.foldl_cons,
    quoteStep, if_pos rfl]
  rfl

/-! ## Undivided parts

A part with no delimiter outside of quotes goes over to one piece, in the quotes
it is read in. It is the counterpart of an uncut part, for the scanner that
knows only quotes. -/

section

variable {isDelimiter : CodePoint → Bool} {quote : Option CodePoint}
  {s t : Text}

/-- No delimiter stands outside of quotes in a text before which a quote is
open. -/
def Undivided (isDelimiter : CodePoint → Bool) : Option CodePoint → Text → Prop
  | _, [] => True
  | quote, c :: s =>
      (quote = none → isQuote c = false → isDelimiter c = false) ∧
        Undivided isDelimiter (quoteStep quote c) s

theorem undivided_append :
    Undivided isDelimiter quote (s ++ t) ↔
      Undivided isDelimiter quote s ∧
      Undivided isDelimiter (quoteRun quote s) t := by
  induction s generalizing quote with
  | nil => exact ⟨fun h => ⟨trivial, h⟩, And.right⟩
  | cons c s ih =>
      simp only [List.cons_append, Undivided, ih, and_assoc, quoteRun,
        List.foldl_cons]

theorem undivided_of_forall (h : ∀ c ∈ t, isDelimiter c = false) :
    Undivided isDelimiter quote t := by
  induction t generalizing quote with
  | nil => trivial
  | cons c s ih =>
      rw [List.forall_mem_cons] at h
      exact ⟨fun _ _ => h.1, ih h.2⟩

theorem undivided_inside {q : CodePoint} {p : Text} (hp : q ∉ p) :
    Undivided isDelimiter (some q) p := by
  induction p with
  | nil => trivial
  | cons c s ih =>
      rw [List.mem_cons, not_or] at hp
      refine ⟨(fun hn => nomatch hn), ?_⟩
      rw [quoteStep, if_neg (Ne.symm hp.1)]
      exact ih hp.2

/-- Nothing is cut inside of quotes. -/
theorem undivided_between {q : CodePoint} {p : Text} (hq : isQuote q = true)
    (hp : q ∉ p) :
    Undivided isDelimiter none (between q p) := by
  rw [between, List.cons_append]
  refine ⟨fun _ hn => ?_, ?_⟩
  · rw [hq] at hn
    cases hn
  · rw [quoteStep_quote hq, undivided_append, quoteRun_inside hp]
    exact ⟨undivided_inside hp, (fun hn => nomatch hn), trivial⟩

theorem cutOutside_ne_nil (isDelimiter : CodePoint → Bool)
    (quote : Option CodePoint) (t : Text) :
    cutOutside isDelimiter quote t ≠ [] := by
  cases t with
  | nil => exact List.cons_ne_nil _ _
  | cons c s =>
      rw [cutOutside]
      split
      · exact List.cons_ne_nil _ _
      · cases cutOutside isDelimiter (quoteStep quote c) s <;>
          exact List.cons_ne_nil _ _

/-- An undivided part goes over to the first piece. -/
theorem cutOutside_append (h : Undivided isDelimiter quote s) :
    cutOutside isDelimiter quote (s ++ t) =
      (cutOutside isDelimiter (quoteRun quote s) t).modifyHead (s ++ ·) := by
  induction s generalizing quote with
  | nil =>
      show cutOutside isDelimiter quote t =
        (cutOutside isDelimiter quote t).modifyHead id
      rw [List.modifyHead_id]
      rfl
  | cons c s ih =>
      have hc :
          ¬ (quote = none ∧ isQuote c = false ∧ isDelimiter c = true) := by
        rintro ⟨hn, hq, hd⟩
        rw [h.1 hn hq] at hd
        cases hd
      rw [List.cons_append, cutOutside, if_neg hc, ih h.2, quoteRun, quoteRun,
        List.foldl_cons]
      cases hps :
          cutOutside isDelimiter (s.foldl quoteStep (quoteStep quote c)) t with
      | nil => exact absurd hps (cutOutside_ne_nil _ _ _)
      | cons p ps => rfl

theorem cutOutside_of_undivided (h : Undivided isDelimiter quote s) :
    cutOutside isDelimiter quote s = [s] := by
  have hcut := cutOutside_append (t := []) h
  rw [List.append_nil] at hcut
  rw [hcut]
  exact congrArg ([·]) (List.append_nil s)

/-- A delimiter behind a part that closes its quotes is a cut. -/
theorem cutOutside_append_delimiter {c : CodePoint}
    (h : Undivided isDelimiter quote s) (hs : quoteRun quote s = none)
    (hc : isDelimiter c = true) (hq : isQuote c = false) :
    cutOutside isDelimiter quote (s ++ c :: t) =
      s :: cutOutside isDelimiter none t := by
  rw [cutOutside_append h, hs, cutOutside, if_pos ⟨rfl, hq, hc⟩,
    List.modifyHead_cons, List.append_nil]

end

/-! ## Items

An entry is trimmed, not empty and undivided from the start. Entries with
delimiters between them are cut apart into themselves, with any blanks
around. -/

/-- What can stand between two commas. -/
structure IsEntry (t : Text) : Prop where
  ne_nil : t ≠ []
  trimmed : Trimmed t
  undivided : Undivided (· == ',') none t
  closed : quoteRun none t = none

theorem trimPieces_cons {p : Text} {ps : List Text} (h : ps ≠ []) :
    trimPieces (p :: ps) = trim p :: trimPieces ps := by
  obtain ⟨q, qs, rfl⟩ := List.exists_cons_of_ne_nil h
  rfl

/-- Each piece is trimmed, and the last one counts only if something is left of
it. -/
theorem trimPieces_append (ps : List Text) (p : Text) :
    trimPieces (ps ++ [p]) = ps.map trim ++ if trim p = [] then
    [] else [trim p] := by
  induction ps with
  | nil => rfl
  | cons q qs ih =>
      rw [List.cons_append, trimPieces_cons (by simp), ih, List.map_cons,
        List.cons_append]

theorem not_isQuote_of_blanks {b : Text} (hb : Blanks b) :
    ∀ c ∈ b, isQuote c = false := by
  intro c hc
  cases hq : isQuote c with
  | false => rfl
  | true =>
      exact absurd (hb c hc)
        (by rw [isBlank_of_isQuote hq]; exact Bool.false_ne_true)

theorem undivided_blanks {d : CodePoint} (hd : isBlank d = false) {b : Text}
    (hb : Blanks b) :
    Undivided (· == d) none b := by
  refine undivided_of_forall fun c hc => beq_eq_false_iff_ne.2 ?_
  rintro rfl
  rw [hb _ hc] at hd
  cases hd

theorem undivided_blanks_append {d : CodePoint} (hd : isBlank d = false)
    {b t : Text} (hb : Blanks b) : Undivided (· == d) none (b ++ t) ↔
      Undivided (· == d) none t := by
  rw [undivided_append, quoteRun_of_not_quote (not_isQuote_of_blanks hb)]
  exact and_iff_right (undivided_blanks hd hb)

/-- Texts with a delimiter between neighbours, and perhaps blanks around
each. -/
inductive Spread (d : CodePoint) : List Text → Text → Prop
  | last {b x b' : Text} (hb : Blanks b) (hb' : Blanks b') :
      Spread d [x] (b ++ x ++ b')
  | cons {b x b' t : Text} {xs : List Text} (hb : Blanks b) (hb' : Blanks b')
      (h : Spread d xs t) : Spread d (x :: xs) (b ++ x ++ b' ++ d :: t)

section

variable {d : CodePoint} (hd : isBlank d = false) (hq : isQuote d = false)
include hd

/-- Blanks around a text add no cut and open no quote. -/
theorem undivided_padded {b x b' : Text} (hb : Blanks b) (hb' : Blanks b')
    (hx : Undivided (· == d) none x) (hclosed : quoteRun none x = none) :
    Undivided (· == d) none (b ++ x ++ b') ∧
    quoteRun none (b ++ x ++ b') = none := by
  rw [List.append_assoc, undivided_blanks_append hd hb, undivided_append,
    quoteRun_append, quoteRun_of_not_quote (not_isQuote_of_blanks hb),
    quoteRun_append, hclosed]
  exact ⟨⟨hx, undivided_blanks hd hb'⟩,
    quoteRun_of_not_quote (not_isQuote_of_blanks hb')⟩

include hq

/-- Texts that are cut nowhere and close their quotes are cut apart into
themselves. Only at the end an empty one would be lost. -/
theorem splitOutside_spread {xs : List Text} {t : Text} (h : Spread d xs t)
    (hxs : ∀ x ∈ xs, Trimmed x ∧ Undivided (· == d) none x ∧
      quoteRun none x = none)
    (hlast : xs.getLast? ≠ some []) : splitOutside (· == d) t = xs := by
  rw [splitOutside]
  induction h with
  | @last b x b' hb hb' =>
      obtain ⟨htrimmed, hx, hclosed⟩ := hxs x List.mem_cons_self
      have hne : x ≠ [] := fun hn => hlast (congrArg some hn)
      rw [cutOutside_of_undivided (undivided_padded hd hb hb' hx hclosed).1,
        trimPieces, trim_blanks_append hb hb', htrimmed.trim_eq, if_neg hne]
  | @cons b x b' t xs hb hb' ht ih =>
      rw [List.forall_mem_cons] at hxs
      obtain ⟨⟨htrimmed, hx, hclosed⟩, hxs⟩ := hxs
      obtain ⟨hundivided, hopen⟩ := undivided_padded hd hb hb' hx hclosed
      have hlast' : xs.getLast? ≠ some [] := by
        cases xs with
        | nil => simp
        | cons y ys => rwa [List.getLast?_cons_cons] at hlast
      rw [cutOutside_append_delimiter hundivided hopen (beq_self_eq_true d) hq,
        trimPieces_cons (cutOutside_ne_nil _ _ _), trim_blanks_append hb hb',
        htrimmed.trim_eq, ih hxs hlast']

end

/-- Joined texts are spread, with blanks around the whole and behind each
delimiter. -/
theorem spread_join {d : CodePoint} {sp b b' : Text} (hsp : Blanks sp)
    (hb : Blanks b) (hb' : Blanks b') {xs : List Text} (hne : xs ≠ []) :
    Spread d xs (b ++ (join (d :: sp) xs ++ b')) := by
  induction xs generalizing b with
  | nil => exact absurd rfl hne
  | cons x xs ih =>
      cases xs with
      | nil =>
          rw [join, ← List.append_assoc]
          exact .last hb hb'
      | cons y ys =>
          have hsplit : b ++ (join (d :: sp) (x :: y :: ys) ++ b') =
              b ++ x ++ [] ++ d ::
                (sp ++ (join (d :: sp) (y :: ys) ++ b')) := by
            simp only [join, List.append_assoc, List.cons_append,
              List.nil_append]
          rw [hsplit]
          exact .cons hb blanks_nil (ih hsp (List.cons_ne_nil y ys))

theorem items_spread {xs : List Text} {t : Text} (h : Spread ',' xs t)
    (hxs : ∀ x ∈ xs, IsEntry x) :
    items t = xs := by
  refine splitOutside_spread rfl rfl h
    (fun x hx => ⟨(hxs x hx).trimmed, (hxs x hx).undivided, (hxs x hx).closed⟩)
      fun hlast => ?_
  exact (hxs [] (List.mem_of_getLast? hlast)).ne_nil rfl

theorem items_of_blanks {b : Text} (hb : Blanks b) : items b = [] := by
  rw [items, splitOutside, cutOutside_of_undivided (undivided_blanks rfl hb),
    trimPieces, if_pos (trim_eq_nil_iff.2 hb)]

/-- The items of a list, with blanks around the list. -/
theorem items_join {xs : List Text} (h : ∀ x ∈ xs, IsEntry x) {b b' : Text}
    (hb : Blanks b) (hb' : Blanks b') :
    items (b ++ (join ", ".toText xs ++ b')) = xs := by
  by_cases hne : xs = []
  · subst hne
    exact items_of_blanks (blanks_append.2 ⟨hb, hb'⟩)
  · exact items_spread (spread_join blanks_space hb hb' hne) h

theorem cutAt?_append {separator : CodePoint} {s t : Text} (h : separator ∉ s) :
    cutAt? separator (s ++ separator :: t) = some (s, t) := by
  induction s with
  | nil => exact if_pos rfl
  | cons c s ih =>
      rw [List.mem_cons, not_or] at h
      rw [List.cons_append, cutAt?, if_neg (Ne.symm h.1), ih h.2]
      rfl

theorem eq_of_cutAt? {separator : CodePoint} {t a b : Text}
    (h : cutAt? separator t = some (a, b)) : t = a ++ separator :: b := by
  induction t generalizing a with
  | nil => cases h
  | cons c s ih =>
      rw [cutAt?] at h
      split at h
      · next hc =>
          cases h
          rw [hc, List.nil_append]
      · obtain ⟨⟨u, v⟩, hcut, heq⟩ := Option.map_eq_some_iff.1 h
        cases heq
        rw [List.cons_append, ← ih hcut]

/-! ## Pieces

Cutting a name at every dot and joining with dots are inverse to each other.
Blanks at the ends of the name end up at the ends of its pieces. -/

/-- The pieces of joined texts are the texts, with blanks around them. -/
theorem trim_splitOn_join {xs : List Text} (hne : xs ≠ [])
    (h : ∀ x ∈ xs, Trimmed x ∧ .char ',' ∉ x) {sp b b' : Text} (hsp : Blanks sp)
    (hb : Blanks b) (hb' : Blanks b') :
    ((b ++ (join (.char ',' :: sp) xs ++ b')).splitOn (.char ',')).map trim =
      xs := by
  have hcomma {b : Text} (hb : Blanks b) : CodePoint.char ',' ∉ b :=
    fun hmem => absurd (hb _ hmem) (by decide)
  induction xs generalizing b with
  | nil => exact absurd rfl hne
  | cons x xs ih =>
      rw [List.forall_mem_cons] at h
      have hx : CodePoint.char ',' ∉ b ++ x :=
        fun hmem => (List.mem_append.1 hmem).elim (hcomma hb) h.1.2
      cases xs with
      | nil =>
          have hall : CodePoint.char ',' ∉ b ++ x ++ b' :=
            fun hmem => (List.mem_append.1 hmem).elim hx (hcomma hb')
          rw [join, ← List.append_assoc, List.splitOn_eq_singleton hall,
            List.map_singleton, trim_blanks_append hb hb', h.1.1.trim_eq]
      | cons y ys =>
          have hsplit : b ++ (join (.char ',' :: sp) (x :: y :: ys) ++ b') =
              (b ++ x) ++ .char ',' ::
                (sp ++ (join (.char ',' :: sp) (y :: ys) ++ b')) := by
            simp only [join, List.append_assoc, List.cons_append]
          have htrim : trim (b ++ x) = x := by
            rw [trim_append_of_blanks hb, h.1.1.trim_eq]
          rw [hsplit, List.splitOn_append_cons_self_of_not_mem hx,
            List.map_cons, htrim, ih (List.cons_ne_nil y ys) h.2 hsp]

theorem join_eq_intercalate (separator : Text) (ts : List Text) :
    join separator ts = separator.intercalate ts := by
  fun_induction join separator ts with
  | case1 => rfl
  | case2 t => exact List.intercalate_singleton.symm
  | case3 t u rest ih => rw [ih, List.intercalate_cons_cons]

/-- A piece of a text is part of it, and holds no separator. -/
theorem of_mem_splitOn {separator : CodePoint} {t p : Text}
    (h : p ∈ t.splitOn separator) : separator ∉ p ∧ p ⊆ t := by
  induction t generalizing p with
  | nil =>
      rw [List.splitOn_nil, List.mem_singleton] at h
      rw [h]
      exact ⟨List.not_mem_nil, List.Subset.refl []⟩
  | cons c s ih =>
      have hmore {q : Text} (hq : q ∈ s.splitOn separator) :
          separator ∉ q ∧ q ⊆ c :: s :=
          ⟨(ih hq).1, List.subset_cons_of_subset c (ih hq).2⟩
      rw [List.splitOn_cons_eq_if_modifyHead] at h
      split at h
      · rcases List.mem_cons.1 h with rfl | h
        · exact ⟨List.not_mem_nil, List.nil_subset _⟩
        · exact hmore h
      · next hc =>
          obtain ⟨q, qs, hqs⟩ :=
            List.exists_cons_of_ne_nil (List.splitOn_ne_nil separator s)
          rw [hqs, List.modifyHead_cons] at h
          rw [hqs] at hmore ih
          rcases List.mem_cons.1 h with rfl | h
          · obtain ⟨hq, hsub⟩ := ih List.mem_cons_self
            have hne : separator ≠ c := fun heq => hc (beq_iff_eq.2 heq.symm)
            exact ⟨fun hmem => (List.mem_cons.1 hmem).elim hne hq,
              List.cons_subset_cons c hsub⟩
          · exact hmore (List.mem_cons_of_mem q h)

theorem dropQuote_cons {q : CodePoint} (hq : isQuote q = true) (t : Text) :
    dropQuote (q :: t) = t :=
  if_pos hq

/-- The quotes around a text are what is taken off. -/
theorem stripQuotes_between {q : CodePoint} (hq : isQuote q = true) (p : Text) :
    stripQuotes (between q p) = p := by
  rw [stripQuotes, between, List.cons_append, dropQuote_cons hq,
    List.reverse_append, List.reverse_singleton, List.singleton_append,
    dropQuote_cons hq, List.reverse_reverse]

end RowSql.Text

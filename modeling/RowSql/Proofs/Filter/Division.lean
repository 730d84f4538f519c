import RowSql.Proofs.Filter.Operands
import RowSql.Proofs.Text.Items

/-!
# Dividing any text

The scanner goes through a text of whatever form in the same way: it passes a
part in which no connective begins, drops the connective behind it, and starts
anew. `Divides` says this of a text and its pieces without asking anything of
the text, so that a fact about the pieces is proved along it, one cut at a time.

What is wanted of it is how much the scanner of one text sees of another text
behind it. The blanks of a connective are read as far as they go, so a
connective that begins in a text could take characters from behind its end. It
does so only if the text ends in blanks, or in a blank and the word.
-/

namespace RowSql.Filter

open Text

/-- A text that is read in a state has these pieces. -/
inductive Divides (word : Text) : Scan → Text → List Text → Prop
  | whole {st : Scan} {t : Text} (h : Uncut word st [] t) :
      Divides word st t [t]
  | cut {st : Scan} {a c rest : Text} {ps : List Text}
      (ha : Uncut word st (c ++ rest) a)
      (htop : (st.run a).atTop = true) (hc : IsConnective word c)
        (hrest : FlushLeft rest)
      (hps : Divides word .start rest ps) :
        Divides word st (a ++ c ++ rest) (a :: ps)

/-- A blank in front of a word is the end of a text. -/
def EndsWithWord (word t : Text) : Prop :=
  ∃ s c x, t = s ++ c :: x ∧ isBlank c = true ∧ Spells word x

instance (word t : Text) : Decidable (EndsWithWord word t) :=
  decidable_of_iff (∃ n < t.length, ((t.drop n).head?.any isBlank) = true ∧
      Spells word (t.drop (n + 1))) <| by
    constructor
    · rintro ⟨n, hn, hc, hx⟩
      refine ⟨t.take n, t[n], t.drop (n + 1), ?_, ?_, hx⟩
      · rw [List.getElem_cons_drop, List.take_append_drop]
      · rwa [List.drop_eq_getElem_cons hn, List.head?_cons, Option.any_some]
          at hc
    · rintro ⟨s, c, x, rfl, hc, hx⟩
      refine ⟨s.length, by simp, ?_, ?_⟩
      · rw [List.drop_left, List.head?_cons, Option.any_some, hc]
      · rw [← List.drop_drop, List.drop_left, List.drop_one, List.tail_cons]
        exact hx

variable {word : Text} {st : Scan} {s t u : Text} {ps : List Text}

theorem EndsWithWord.append (h : EndsWithWord word t) (s : Text) :
    EndsWithWord word (s ++ t) := by
  obtain ⟨r, c, x, rfl, hc, hx⟩ := h
  exact ⟨s ++ r, c, x, (List.append_assoc s r (c :: x)).symm, hc, hx⟩

/-! ## Every text is divided

The relation is total: the recursion of the scanner is an induction that gives a
division of whatever text it is run on, into the pieces that it answers. -/

theorem Divides.cons {c : CodePoint}
    (hc : (st.step c).atTop = true → afterConnective? word (c :: t) = none)
    (h : Divides word (st.step c) t ps) :
    Divides word st (c :: t) (consHead c ps) := by
  cases h with
  | whole h =>
      refine .whole ⟨?_, h⟩
      rwa [List.append_nil]
  | cut ha htop hconn hrest hps =>
      refine .cut (a := c :: _) ⟨?_, ha⟩ htop hconn hrest hps
      rwa [List.append_assoc] at hc

theorem divides_cutAtWord (hw : IsKeyword word) (hst : st.Sound) (t : Text) :
    Divides word st t (cutAtWord word st t) := by
  induction hn : t.length using Nat.strongRecOn generalizing st t with
  | ind n ih =>
  subst hn
  cases t with
  | nil =>
      rw [cutAtWord_nil]
      exact .whole trivial
  | cons c s =>
      by_cases hnone :
          (st.step c).atTop = true → afterConnective? word (c :: s) = none
      · rw [cutAtWord_of_none hnone]
        exact (ih s.length (Nat.lt_succ_self _) (hst.step c) s rfl).cons hnone
      · obtain ⟨htop, hsome⟩ := Classical.not_imp.1 hnone
        obtain ⟨rest, hrest⟩ := Option.ne_none_iff_exists'.1 hsome
        have hlen := length_of_afterConnective? hrest
        obtain ⟨k, hk, heq, hflush⟩ := (afterConnective?_eq_some_iff hw).1 hrest
        have hplain : Scan.Plain c := by
          obtain ⟨d, k, rfl⟩ := List.exists_cons_of_ne_nil hk.ne_nil
          exact hk.plain hw c ((List.cons.inj heq).1 ▸ List.mem_cons_self)
        have hstart : st.step c = .start := Scan.step_eq_of_atTop hplain htop
        have hbefore : st.atTop = true := by
          rwa [Scan.step_eq_settled hst hplain, Scan.atTop_settled] at htop
        rw [cutAtWord_of_connective htop hrest, hstart, heq]
        exact .cut (a := []) trivial hbefore hk hflush
          (ih rest.length hlen Scan.sound_start rest rfl)

/-! ## A text with another behind it

A connective that begins in a text ends in it, unless the text ends in the word
with a blank before it. So a text without that ending is divided in front of a
connective as it is alone. -/

/-- What begins in a text that ends neither in a blank nor in the word ends in
it. -/
theorem afterConnective?_append_eq_none (hw : IsKeyword word) (hne : t ≠ [])
    (hlast : FlushRight t) (hend : ¬ EndsWithWord word t) (hu : Bounded u)
    (h : afterConnective? word t = none) :
    afterConnective? word (t ++ u) = none := by
  cases hr : afterConnective? word (t ++ u) with
  | none => rfl
  | some r =>
      obtain ⟨k, hk, heq, _⟩ := (afterConnective?_eq_some_iff hw).1 hr
      obtain ⟨b, x, s, rfl, hb, hbne, hx, hs⟩ :=
        exists_of_connective_append hw hlast hne hu hk heq
      exfalso
      cases s with
      | nil =>
          obtain ⟨b, c, rfl⟩ := (List.eq_nil_or_concat b).resolve_left hbne
          rw [List.concat_eq_append] at hb hend
          refine hend ⟨b, c, x, ?_,
            hb c (List.mem_append_right b List.mem_cons_self), hx⟩
          rw [List.append_nil, List.append_assoc, List.singleton_append]
      | cons c s =>
          -- the word and the blank behind it are both of the text's own
          have hconn : IsConnective word (b ++ x ++ [c]) :=
            ⟨b, x, [c], rfl, hb, hbne, hx,
              blanks_cons.2 ⟨bounded_cons.1 hs, blanks_nil⟩,
              List.cons_ne_nil c []⟩
          refine afterConnective?_ne_none hw hconn s ?_
          rwa [List.append_assoc (b ++ x), List.singleton_append]

theorem Uncut.append_rest (hw : IsKeyword word) (h : Uncut word st t s)
    (hlast : FlushRight (s ++ t)) (hend : ¬ EndsWithWord word (s ++ t))
    (hu : Bounded u) : Uncut word st (t ++ u) s := by
  induction s generalizing st with
  | nil => trivial
  | cons c s ih =>
      have hlast' : FlushRight (s ++ t) := FlushRight.of_append (s := [c]) hlast
      have hend' : ¬ EndsWithWord word (s ++ t) :=
        fun hn => hend (hn.append [c])
      refine ⟨fun htop => ?_, ih h.2 hlast' hend'⟩
      rw [← List.append_assoc]
      exact afterConnective?_append_eq_none hw (List.cons_ne_nil c _) hlast hend
        hu (h.1 htop)

/-- The rest behind a connective is not empty in a text that does not end in a
blank. -/
theorem IsConnective.rest_ne_nil {a c rest : Text} (hc : IsConnective word c)
    (hlast : FlushRight (a ++ c ++ rest)) : rest ≠ [] := by
  obtain ⟨b, x, b', rfl, _, _, _, hb', hne⟩ := hc
  rintro rfl
  rw [List.append_nil, ← List.append_assoc] at hlast
  exact hlast.of_append.not_blanks hne hb'

/-- A text that is closed and ends neither in a blank nor in the word is divided
in front of a connective as it is alone. -/
theorem Divides.cutAtWord_append (hw : IsKeyword word)
    (h : Divides word st t ps) (hlast : FlushRight t)
    (hend : ¬ EndsWithWord word t) (htop : (st.run t).atTop = true) {c : Text}
    (hc : IsConnective word c) (hu : FlushLeft u) :
    cutAtWord word st (t ++ c ++ u) = ps ++ cutAtWord word .start u := by
  induction h with
  | @whole st t h =>
      rw [← List.append_nil t] at hlast hend
      have hcut := h.append_rest hw hlast hend (hc.bounded (t := u))
      exact cutAtWord_append_connective hw hc hu hcut htop
  | @cut st a k rest ps ha hatop hk hrest hps ih =>
      have hne := hk.rest_ne_nil hlast
      have htop' : (Scan.start.run rest).atTop = true := by
        rwa [Scan.run_append, Scan.run_append,
          Scan.run_plain_of_atTop hatop (hk.plain hw) hk.ne_nil] at htop
      have hrest' : FlushLeft (rest ++ c ++ u) := by
        rw [List.append_assoc]
        exact (flushLeft_append hne).2 hrest
      have hsplit : a ++ k ++ rest ++ c ++ u = a ++ k ++ (rest ++ c ++ u) := by
        simp only [List.append_assoc]
      have hcut : Uncut word st (k ++ (rest ++ c ++ u)) a := by
        rw [List.append_assoc] at hlast hend
        have h := ha.append_rest hw hlast hend (hc.bounded (t := u))
        simpa only [List.append_assoc] using h
      rw [hsplit, cutAtWord_append_connective hw hk hrest' hcut hatop,
        ih hlast.of_append (fun hn => hend (hn.append (a ++ k))) htop',
        List.cons_append]

/-- The last piece of a text that does not end in a blank is not blank. -/
theorem Divides.exists_concat (h : Divides word st t ps) (hlast : FlushRight t)
    (hne : t ≠ []) :
    ∃ qs q, ps = qs ++ [q] ∧ ¬ Blanks q := by
  induction h with
  | whole h => exact ⟨[], _, rfl, hlast.not_blanks hne⟩
  | cut ha htop hc hrest hps ih =>
      obtain ⟨qs, q, rfl, hq⟩ := ih hlast.of_append (hc.rest_ne_nil hlast)
      exact ⟨_ :: qs, q, rfl, hq⟩

/-! ## Terms

The splitter trims the pieces and drops a last one that is blank. Behind a
character that is not blank there is no such piece, and trimming is all that is
left. -/

/-- Pieces are trimmed each on its own if the last of them is not blank. -/
theorem trimPieces_concat {q : Text} (hq : ¬ Blanks q) (qs : List Text) :
    trimPieces (qs ++ [q]) = (qs ++ [q]).map trim := by
  rw [trimPieces_append, if_neg fun hn => hq (trim_eq_nil_iff.1 hn),
    List.map_append, List.map_singleton]

section

variable (hw : IsKeyword word) (hup : upper word = word)
include hw hup

/-- The terms of a text that does not end in a blank are its pieces, trimmed. -/
theorem splitLogical_eq_map_trim (hlast : FlushRight t) (hne : t ≠ []) :
    splitLogical word t = (cutAtWord word .start t).map trim := by
  obtain ⟨qs, q, hps, hq⟩ :=
    (divides_cutAtWord hw Scan.sound_start t).exists_concat hlast hne
  rw [splitLogical, hup, hps, trimPieces_concat hq]
  cases qs <;> rfl

/-- The terms of a closed text, a connective and a text are the terms of the two
texts. -/
theorem splitLogical_append (hlast : FlushRight t) (hne : t ≠ [])
    (hend : ¬ EndsWithWord word t) (htop : (Scan.start.run t).atTop = true)
    {c : Text} (hc : IsConnective word c) (hu : Trimmed u) (hune : u ≠ []) :
    splitLogical word (t ++ c ++ u) =
      splitLogical word t ++ splitLogical word u := by
  have hdiv := divides_cutAtWord hw Scan.sound_start t
  have hlast' : FlushRight (t ++ c ++ u) := (flushRight_append hune).2 hu.last
  have hne' : t ++ c ++ u ≠ [] := List.append_ne_nil_of_right_ne_nil _ hune
  rw [splitLogical_eq_map_trim hw hup hlast' hne',
    hdiv.cutAtWord_append hw hlast hend htop hc hu.head, List.map_append,
    ← splitLogical_eq_map_trim hw hup hlast hne,
    ← splitLogical_eq_map_trim hw hup hu.last hune]

end

end RowSql.Filter

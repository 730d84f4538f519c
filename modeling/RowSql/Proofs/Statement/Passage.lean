import Mathlib.Data.List.TakeWhile
import RowSql.Proofs.Statement.Cursor

/-!
# What a cursor passes

Every request but the one for the rest first passes all the blanks that stand
there, and what it takes behind them is told by the text alone: the longest part
made of the characters that it asks for, the expected text if it stands there,
or nothing. `Takes` says this for each request without a position, and what is
passed is then the blanks and the part that was taken, whether or not the
request was refused.

A single answer keeps a position within its text and moves it no further back,
so a whole run of answers does. The parts passed from each answer to the next,
with what is left behind the last, are the text from the first position on: no
character is left out and none is read twice.
-/

namespace RowSql.Cursor

open Text

/-- The longest part at the head of a text all of whose characters have a
property. -/
structure IsLongest (property : CodePoint → Bool) (u t : Text) : Prop where
  head : t <+: u
  all : ∀ a ∈ t, property a = true
  longest : ∀ s, s <+: u → (∀ a ∈ s, property a = true) → s.length ≤ t.length

/-- What a request is replied at the head of a text without blanks there, and
the part that it takes. An expected word is taken also when it is not the one
that stands there. -/
inductive Takes (u : Text) : Request → Reply → Text → Prop
  | skipBlanks : Takes u .skipBlanks .done []
  | atEnd : Takes u .atEnd (.flag (decide (u = []))) []
  | peekWord {found : Text} (h : IsLongest isWord u found) :
      Takes u .peekWord (.text found) []
  | popWord {found : Text} (h : IsLongest isWord u found) :
      Takes u .popWord (.text found) found
  | expectWord {word found : Text} (h : IsLongest isWord u found) :
      Takes u (.expectWord word)
        (if upper found = word then .done else .refused) found
  | consumeWord {word found : Text} (h : IsLongest isWord u found)
      (hword : upper found = word) :
      Takes u (.consumeWord word) (.flag true) found
  | leaveWord {word found : Text} (h : IsLongest isWord u found)
      (hword : upper found ≠ word) :
      Takes u (.consumeWord word) (.flag false) []
  | expectText {t : Text} (h : t <+: u) : Takes u (.expectText t) .done t
  | refuseText {t : Text} (h : ¬ t <+: u) : Takes u (.expectText t) .refused []
  | identifier {qualified : Bool} {name : Text}
      (h : IsLongest (fun a => isWord a || qualified && a == '.') u name)
        (hne : name ≠ []) :
      Takes u (.identifier qualified) (.text name) name
  | refuseIdentifier {qualified : Bool}
      (h : IsLongest (fun a => isWord a || qualified && a == '.') u []) :
      Takes u (.identifier qualified) .refused []

/-- A cursor moves over a part of its text and stays within it. -/
structure Passes (c d : Cursor) (t : Text) : Prop where
  text_eq : d.text = c.text
  pos_le : c.pos ≤ d.pos
  pos_le_length : d.pos ≤ d.text.length
  extract_eq : c.text.extract c.pos d.pos = t

/-- A request is replied, and the cursor moves over the blanks and what is
taken. The rest is what follows the text up to the position, and to be given it
moves nothing. -/
inductive Moves (c d : Cursor) : Request → Reply → Prop
  | rest {t : Text} (hpasses : Passes c d [])
      (ht : c.text.take c.pos ++ t = c.text) :
      Moves c d .rest (.text t)
  | taking {request : Request} {reply : Reply} {b u t : Text}
      (hsplit : c.text.take c.pos ++ (b ++ u) = c.text)
        (hb : IsLongest isBlank (b ++ u) b)
      (ht : Takes u request reply t) (hpasses : Passes c d (b ++ t)) :
        Moves c d request reply

/-- Each request of a list is answered at the cursor that the one before left
behind. -/
inductive Reads : Cursor → List Request → List (Reply × Cursor) → Prop
  | nil (c : Cursor) : Reads c [] []
  | cons {c d : Cursor} {request : Request} {reply : Reply}
      {requests : List Request}
      {answers : List (Reply × Cursor)} (h : Moves c d request reply)
      (hrest : Reads d requests answers) :
      Reads c (request :: requests) ((reply, d) :: answers)

/-- The parts of the text that are passed from each answer to the next, and what
is left behind the last. -/
def stretches (c : Cursor) : List (Reply × Cursor) → List Text
  | [] => [c.text.drop c.pos]
  | (_, d) :: answers => c.text.extract c.pos d.pos :: d.stretches answers

/-! ## One answer

Each request is looked at once: its reply, and the longest part, the expected
text or nothing that it takes behind the blanks. -/

variable {c d : Cursor} {t u : Text}

theorem isLongest_takeWhile (property : CodePoint → Bool) (u : Text) :
    IsLongest property u (u.takeWhile property) := by
  refine ⟨List.takeWhile_prefix property, fun a ha => List.mem_takeWhile_imp ha,
    ?_⟩
  rintro s ⟨r, rfl⟩ hall
  rw [List.takeWhile_append_of_pos hall, List.length_append]
  exact Nat.le_add_right _ _

theorem Takes.head {request : Request} {reply : Reply}
    (h : Takes u request reply t) : t <+: u := by
  cases h with
  | skipBlanks | atEnd | peekWord _ | leaveWord _ _ | refuseText _
  | refuseIdentifier _ => exact List.nil_prefix
  | popWord h | expectWord h | consumeWord h _ | identifier h _ => exact h.head
  | expectText h => exact h

/-- Moving on by a part that stands there is passing it. -/
theorem passes_advance (hc : c.pos ≤ c.text.length) (h : c.rest = t ++ u) :
    Passes c (c.advance t.length) t := by
  have hlength : c.text.length - c.pos = t.length + u.length := by
    rw [← List.length_append, ← h, rest, List.length_drop]
  refine ⟨rfl, Nat.le_add_right _ _, ?_, ?_⟩
  · rw [text_advance, pos_advance]
    omega
  · rw [pos_advance, List.extract_eq_take_drop, Nat.add_sub_cancel_left]
    show c.rest.take t.length = t
    rw [h, List.take_left]

theorem take_append_rest (c : Cursor) : c.text.take c.pos ++ c.rest = c.text :=
  List.take_append_drop c.pos c.text

/-- What a request takes behind the blanks is passed with them. -/
theorem moves_of_takes (hc : c.pos ≤ c.text.length) {request : Request}
    {reply : Reply} (h : Takes (trimLeft c.rest) request reply t) :
    Moves c (c.skipBlanks.advance t.length) request reply := by
  have hblanks : c.rest = c.rest.takeWhile isBlank ++ trimLeft c.rest :=
    List.takeWhile_append_dropWhile.symm
  have hlongest := isLongest_takeWhile isBlank c.rest
  have hmoved : c.skipBlanks.advance t.length =
      c.advance (c.rest.takeWhile isBlank ++ t).length := by
    rw [List.length_append, skipBlanks, advance, advance, advance,
      Nat.add_assoc]
  generalize c.rest.takeWhile isBlank = b at hblanks hlongest hmoved
  obtain ⟨r, hr⟩ := h.head
  rw [hmoved]
  refine .taking (b := b) (u := trimLeft c.rest) ?_ ?_ h
    (passes_advance (u := r) hc ?_)
  · rw [← hblanks, take_append_rest]
  · rwa [← hblanks]
  · rw [List.append_assoc, hr, ← hblanks]

/-- Behind the blanks there are none left to pass. -/
theorem skipBlanks_skipBlanks (c : Cursor) :
    c.skipBlanks.skipBlanks = c.skipBlanks := by
  have hnone : (trimLeft c.rest).takeWhile isBlank = [] := by
    cases hrest : trimLeft c.rest with
    | nil => rfl
    | cons a u =>
        have ha := flushLeft_trimLeft c.rest a u hrest
        exact List.takeWhile_cons_of_neg (by rw [ha]; exact Bool.false_ne_true)
  rw [skipBlanks, rest_skipBlanks, hnone]
  rfl

/-- A single answer moves a cursor as its request asks. -/
theorem moves_answer (hc : c.pos ≤ c.text.length) (request : Request) :
    Moves c (c.answer request).2 request (c.answer request).1 := by
  have hword := isLongest_takeWhile isWord (trimLeft c.rest)
  cases request with
  | skipBlanks => exact moves_of_takes hc .skipBlanks
  | atEnd =>
      have hempty :
          decide (trimLeft c.rest = []) = (trimLeft c.rest).isEmpty := by
        cases trimLeft c.rest <;> rfl
      have hmoves := moves_of_takes hc .atEnd
      rw [hempty] at hmoves
      simp only [answer, atEnd, rest_skipBlanks]
      exact hmoves
  | peekWord =>
      have hmoves := moves_of_takes hc (.peekWord hword)
      simp only [answer, peekWord, rest_skipBlanks]
      exact hmoves
  | popWord =>
      have hmoves := moves_of_takes hc (.popWord hword)
      simp only [answer, popWord, peekWord, rest_skipBlanks]
      exact hmoves
  | expectWord word =>
      have htakes : Takes (trimLeft c.rest) (.expectWord word) _ _ :=
        .expectWord hword
      have hmoves := moves_of_takes hc htakes
      simp only [answer, expectWord, popWord, peekWord, rest_skipBlanks,
        beq_iff_eq]
      exact hmoves
  | consumeWord word =>
      simp only [answer, consumeWord, popWord, peekWord, skipBlanks_skipBlanks,
        rest_skipBlanks, beq_iff_eq]
      split
      · next hupper => exact moves_of_takes hc (.consumeWord hword hupper)
      · next hupper => exact moves_of_takes hc (.leaveWord hword hupper)
  | expectText t =>
      have hle : c.skipBlanks.pos ≤ c.skipBlanks.text.length :=
        (passes_advance hc
          (List.takeWhile_append_dropWhile (p := isBlank)).symm).pos_le_length
      simp only [answer, expectText, hle, rest_skipBlanks,
        List.isPrefixOf_iff_prefix, decide_true, Bool.true_and]
      split
      · next ht => exact moves_of_takes hc (.expectText ht)
      · next ht => exact moves_of_takes hc (.refuseText ht)
  | identifier qualified =>
      have hname :=
        isLongest_takeWhile (fun a => isWord a || qualified && a == '.')
          (trimLeft c.rest)
      simp only [answer, identifier, rest_skipBlanks]
      split
      · next hnil =>
          rw [hnil] at hname
          exact moves_of_takes hc (.refuseIdentifier hname)
      · next hne => exact moves_of_takes hc (.identifier hname hne)
  | rest =>
      refine .rest (passes_advance (t := []) hc rfl) (take_append_rest c)

/-! ## A run of answers

The induction is on the requests. What it carries is a cursor within its text
and the part passed so far, to which each answer adds what it passes itself. -/

theorem Moves.passes {request : Request} {reply : Reply}
    (h : Moves c d request reply) :
    ∃ t, Passes c d t := by
  cases h with
  | rest hpasses _ => exact ⟨_, hpasses⟩
  | taking _ _ _ hpasses => exact ⟨_, hpasses⟩

theorem reads_answers (hc : c.pos ≤ c.text.length) (requests : List Request) :
    Reads c requests (c.answers requests) := by
  induction requests generalizing c with
  | nil => exact .nil c
  | cons request requests ih =>
      have hmoves := moves_answer hc request
      obtain ⟨t, hpasses⟩ := hmoves.passes
      exact .cons hmoves (ih hpasses.pos_le_length)

namespace Reads

variable {requests : List Request} {answers : List (Reply × Cursor)}

theorem within (h : Reads c requests answers) :
    ∀ a ∈ answers, a.2.text = c.text ∧ c.pos ≤ a.2.pos ∧
      a.2.pos ≤ c.text.length := by
  induction h with
  | nil => exact fun a ha => absurd ha List.not_mem_nil
  | @cons c d request reply requests answers hmoves _ ih =>
      obtain ⟨t, hpasses⟩ := hmoves.passes
      have htext := hpasses.text_eq
      have hle := hpasses.pos_le
      have hlength := hpasses.pos_le_length
      rw [htext] at hlength ih
      refine List.forall_mem_cons.2 ⟨⟨htext, hle, hlength⟩, fun a ha => ?_⟩
      obtain ⟨htext', hle', hlength'⟩ := ih a ha
      exact ⟨htext', Nat.le_trans hle hle', hlength'⟩

theorem pairwise (h : Reads c requests answers) :
    (c.pos :: answers.map (·.2.pos)).Pairwise (· ≤ ·) := by
  induction h with
  | nil => exact List.pairwise_singleton _ _
  | @cons c d request reply requests answers hmoves hrest ih =>
      refine List.pairwise_cons.2 ⟨fun n hn => ?_, ih⟩
      obtain ⟨a, ha, rfl⟩ := List.mem_map.1 hn
      exact ((Reads.cons hmoves hrest).within a ha).2.1

theorem flatten_stretches (h : Reads c requests answers) :
    (c.stretches answers).flatten = c.text.drop c.pos := by
  induction h with
  | nil c => exact List.append_nil _
  | @cons c d request reply requests answers hmoves _ ih =>
      obtain ⟨t, hpasses⟩ := hmoves.passes
      have hle := hpasses.pos_le
      have hbehind :
          c.text.drop d.pos = (c.text.drop c.pos).drop (d.pos - c.pos) := by
        rw [List.drop_drop, Nat.add_sub_cancel' hle]
      rw [stretches, List.flatten_cons, ih, hpasses.text_eq,
        List.extract_eq_take_drop, hbehind, List.take_append_drop]

end Reads

/-- Every answer of a run moves the cursor over blanks and what its request
takes, refused or not. No position is beyond the text or before the one it
follows, and what is passed from each to the next is with the rest behind the
last the text behind the first. -/
theorem answers_read_once {c : Cursor} (hc : c.pos ≤ c.text.length)
    (requests : List Request) :
    Reads c requests (c.answers requests) ∧
      (∀ a ∈ c.answers requests, a.2.text = c.text ∧ c.pos ≤ a.2.pos ∧
        a.2.pos ≤ c.text.length) ∧
      (c.pos :: (c.answers requests).map (·.2.pos)).Pairwise (· ≤ ·) ∧
      (c.stretches (c.answers requests)).flatten = c.text.drop c.pos := by
  have hreads := reads_answers hc requests
  exact ⟨hreads, hreads.within, hreads.pairwise, hreads.flatten_stretches⟩

/-- A word that is longer in upper case, a field, and words before a
parenthesis. -/
def sharpWord : Text := "  ß\tt.a ON(x".toText

/-- The parenthesis and the word BY are refused where ON stands, and only ON is
passed by it. -/
theorem answers_read_once_sharpWord :
    1 ≤ sharpWord.length ∧
      Reads ⟨sharpWord, 1⟩
        [.consumeWord "SS".toText, .identifier true, .expectText "(".toText,
          .expectWord "BY".toText, .rest]
        [(.flag true, ⟨sharpWord, 3⟩), (.text "t.a".toText, ⟨sharpWord, 7⟩),
          (.refused, ⟨sharpWord, 8⟩), (.refused, ⟨sharpWord, 10⟩),
          (.text "(x".toText, ⟨sharpWord, 10⟩)] ∧
      [" ß".toText, "\tt.a".toText, " ".toText, "ON".toText, [],
          "(x".toText].flatten =
        sharpWord.drop 1 := by
  have hle : 1 ≤ sharpWord.length := by decide
  obtain ⟨hreads, _, _, hflatten⟩ := answers_read_once (c := ⟨sharpWord, 1⟩) hle
    [.consumeWord "SS".toText, .identifier true, .expectText "(".toText,
      .expectWord "BY".toText, .rest]
  -- the answers and the parts passed between them are those written out
  exact ⟨hle, hreads, hflatten⟩

end RowSql.Cursor

import RowSql.Proofs.Filter.LeafReading
import RowSql.Proofs.Filter.Unwrap

/-!
# Leaves as they are written

A leaf is written as a field, an operator and a literal: a quoted text, a word,
or a list of such items in parentheses. Whatever the depth such a leaf is read
at, no connective begins in it; this is what is proved here of each part of a
leaf, with a condition on what may follow, because a word could be continued by
the letters behind it.
-/

namespace RowSql.Filter

open Text

/-- The words that join leaves. -/
def connectives : List Text := ["AND".toText, "OR".toText]

theorem isKeyword_of_mem_connectives {word : Text} (h : word ∈ connectives) :
    IsKeyword word := by
  have hall : ∀ w ∈ connectives, IsKeyword w := by decide
  exact hall word h

/-- A text that is no connective in any letter case. -/
def NoConnective (t : Text) : Prop := ∀ word ∈ connectives, ¬ Spells word t

instance (t : Text) : Decidable (NoConnective t) :=
  inferInstanceAs (Decidable (∀ word ∈ connectives, ¬ Spells word t))

/-! ## The forms

Each form is a proposition about a text, built up from items. A stump is what
unwrapping can leave of a leaf with a list, and it is needed only to be shown to
be no leaf. -/

/-- One item: a text in quotes, without quotes and backslashes inside, or a
word. -/
inductive IsItem : Text → Prop
  | quoted {q : CodePoint} {p : Text} (hq : isQuote q = true)
      (hp : ∀ c ∈ p, isQuote c = false ∧ c ≠ '\\') : IsItem (between q p)
  | word {v : Text} (hne : v ≠ []) (hv : ∀ c ∈ v, isWord c = true)
      (hn : NoConnective v) : IsItem v

/-- Items with commas between them, and blanks around the commas. -/
inductive AreItems : Text → Prop
  | single {v : Text} (hv : IsItem v) : AreItems v
  | cons {v b b' t : Text} (hv : IsItem v) (hb : Blanks b) (hb' : Blanks b')
      (ht : AreItems t) :
      AreItems (v ++ (b ++ (.char ',' :: (b' ++ t))))

/-- Items in parentheses. -/
def IsList (v : Text) : Prop :=
  ∃ b t b', v = parenthesise (b ++ t ++ b') ∧ Blanks b ∧ AreItems t ∧ Blanks b'

/-- A leaf up to its literal. -/
structure Stem where
  field : Text
  before : Text
  op : Operator
  written : Text
  after : Text
  field_ne_nil : field ≠ []
  field_word : ∀ c ∈ field, isWord c = true
  noConnective : NoConnective field
  blanks_before : Blanks before
  spells : Spells op.spelling written
  blanks_after : Blanks after
  before_ne_nil : op.isWord = true → before ≠ []

/-- The text of a stem. -/
def Stem.text (s : Stem) : Text :=
  s.field ++ (s.before ++ (s.written ++ s.after))

/-- A literal can stand behind a stem when it does not continue the operator. -/
def Stem.Accepts (s : Stem) (v : Text) : Prop :=
  s.op.isWord = true → s.after = [] → beginsWithWord v = false

/-- A leaf whose literal is one item. -/
def IsItemLeaf (l : Text) : Prop :=
  ∃ (s : Stem) (v : Text), l = s.text ++ v ∧ s.Accepts v ∧ IsItem v

/-- A leaf whose literal is a list. -/
def IsListLeaf (l : Text) : Prop :=
  ∃ (s : Stem) (v : Text), l = s.text ++ v ∧ s.op = .within ∧ IsList v

/-- A leaf that has lost the parenthesis at its end. -/
def IsStump (l : Text) : Prop :=
  ∃ (s : Stem) (b t : Text), l = s.text ++ (.char '(' :: (b ++ t)) ∧
    s.op = .within ∧ Blanks b ∧
    AreItems t

/-- A leaf. -/
def IsLeaf (l : Text) : Prop := IsItemLeaf l ∨ IsListLeaf l

/-! ## Seamless texts

An item is the smallest part in which no connective begins at any depth. Inside
of quotes the scan is not at the top, and a word has no blanks in it. -/

/-- A text in which no connective begins, at whatever depth it is read, when no
letter follows it; and that closes its quotes and makes the depth greater by
`k`. -/
structure Seamless (k : Int) (t : Text) : Prop where
  ne_nil : t ≠ []
  trimmed : Trimmed t
  run : ∀ d, (Scan.outside d).run t = Scan.outside (d + k)
  opens : ∀ word ∈ connectives, ∀ rest, Apart rest →
    ¬ OpensWithWord word (t ++ rest)
  uncut : ∀ word ∈ connectives, ∀ d rest, Apart rest →
    Uncut word (Scan.outside d) rest t

theorem plain_of_not_quote {q : CodePoint} {p : Text} (hq : isQuote q = true)
    (hp : ∀ c ∈ p, isQuote c = false ∧ c ≠ '\\') :
    q ∉ p ∧ p.getLast? ≠ some (.char '\\') := by
  constructor
  · intro hmem
    have hn := (hp q hmem).1
    rw [hq] at hn
    cases hn
  · intro hlast
    exact (hp _ (List.mem_of_getLast? hlast)).2 rfl

/-- Nothing is cut inside of quotes. -/
theorem uncut_between {word rest p : Text} {q : CodePoint}
    (hq : isQuote q = true) (hp : q ∉ p) (d : Int) :
    Uncut word (Scan.outside d) rest (between q p) := by
  have hblank := isBlank_of_isQuote hq
  have hsolid : ∀ {st : Scan} {r : Text}, Uncut word st r [q] := by
    intro st r
    refine uncut_of_solid fun c hc => ?_
    rw [List.mem_singleton.1 hc]
    exact hblank
  have hinside : Uncut word ⟨some q, d, false⟩ ([q] ++ rest) p := by
    refine uncut_of_forall fun u c v hs ht => ?_
    have huq : q ∉ u ++ [c] := by
      intro hmem
      refine hp ?_
      rw [hs, ← List.singleton_append, ← List.append_assoc]
      exact List.mem_append_left v hmem
    obtain ⟨e, hrun⟩ := Scan.run_inside huq d false
    rw [hrun] at ht
    cases ht
  have hsplit : between q p = [q] ++ (p ++ [q]) := rfl
  rw [hsplit, uncut_append, uncut_append]
  refine ⟨hsolid, ?_, hsolid⟩
  rw [Scan.run_cons, Scan.run_nil, Scan.step_quote hq]
  exact hinside

theorem IsItem.seamless {v : Text} (h : IsItem v) : Seamless 0 v := by
  cases h with
  | @quoted q p hq hp =>
      obtain ⟨hqp, hlast⟩ := plain_of_not_quote hq hp
      have hmark : (foldCase q).toNat < 65 ∨ 90 < (foldCase q).toNat := by
        rcases isQuote_eq_true_iff.1 hq with rfl | rfl <;> decide
      refine ⟨List.cons_ne_nil _ _,
        trimmed_between (isBlank_of_isQuote hq) (isBlank_of_isQuote hq),
        ?_, ?_, ?_⟩
      · intro d
        rw [Scan.run_between hq hqp hlast, Int.add_zero]
      · intro word hword rest _
        exact not_opensWithWord_of_apart (isKeyword_of_mem_connectives hword)
          (apart_cons.2 hmark)
      · intro word _ d rest _
        exact uncut_between hq hqp d
  | word hne hv hn =>
      have hsolid : ∀ c ∈ v, isBlank c = false :=
        fun c hc => isBlank_of_isWord (hv c hc)
      refine ⟨hne, ⟨?_, ?_⟩, ?_, ?_, ?_⟩
      · intro c s hc
        exact hsolid c (hc ▸ List.mem_cons_self)
      · intro s c hc
        exact hsolid c (hc ▸ List.mem_append_right s List.mem_cons_self)
      · intro d
        rw [Scan.run_plain fun c hc => Scan.plain_of_isWord (hv c hc),
          Int.add_zero]
      · intro word hword rest hrest
        exact not_opensWithWord_append (isKeyword_of_mem_connectives hword)
          hsolid (hn word hword)
          hrest
      · intro word _ d rest _
        exact uncut_of_solid hsolid

/-! ## Putting seamless texts together

Seamless texts are not closed under appending: a connective could begin in the
one and end in the other. It cannot at a mark, nor before a part that begins
with another word, and a leaf is put together at such places. -/

/-- Something is put in front of a seamless text that goes over into it. -/
theorem Seamless.prepend {j k : Int} {p t : Text} (ht : Seamless k t)
    (hne : p ≠ []) (hflush : FlushLeft p)
    (hrun : ∀ d, (Scan.outside d).run p = Scan.outside (d + j))
    (hopens : ∀ word ∈ connectives, ∀ r, ¬ OpensWithWord word (p ++ r))
    (hcut : ∀ word ∈ connectives, ∀ d rest, Apart rest →
      Uncut word (Scan.outside d) (t ++ rest) p) :
    Seamless (j + k) (p ++ t) := by
  refine ⟨?_, ⟨?_, ?_⟩, ?_, ?_, ?_⟩
  · exact fun hn => hne (List.append_eq_nil_iff.1 hn).1
  · exact (flushLeft_append hne).2 hflush
  · exact (flushRight_append ht.ne_nil).2 ht.trimmed.last
  · intro d
    rw [Scan.run_append, hrun, ht.run, Int.add_assoc]
  · intro word hword rest _
    rw [List.append_assoc]
    exact hopens word hword _
  · intro word hword d rest hrest
    rw [uncut_append, hrun]
    exact ⟨hcut word hword d rest hrest, ht.uncut word hword _ rest hrest⟩

/-- Blanks go over into what is flush and does not begin with the word. -/
theorem Seamless.uncut_blanks {k : Int} {t : Text} (ht : Seamless k t)
    {word : Text} (hword : word ∈ connectives) {b rest : Text} (hb : Blanks b)
    (hrest : Apart rest) {st : Scan} :
    Uncut word st (t ++ rest) b :=
  uncut_of_blanks (isKeyword_of_mem_connectives hword) hb
    ((flushLeft_append ht.ne_nil).2 ht.trimmed.head)
      (ht.opens word hword rest hrest)

theorem run_mark {c : CodePoint} (hc : Scan.Plain c) (d : Int) :
    (Scan.outside d).run [c] = Scan.outside d :=
  Scan.run_plain (fun a ha => by rw [List.mem_singleton.1 ha]; exact hc) d

/-- Blanks go over into a mark. -/
theorem uncut_blanks_mark {word b r : Text} {c : CodePoint}
    (hw : IsKeyword word) (hb : Blanks b) (hc : isBlank c = false)
    (hmark : (foldCase c).toNat < 65 ∨ 90 < (foldCase c).toNat) {st : Scan} :
    Uncut word st (c :: r) b :=
  uncut_of_blanks hw hb (flushLeft_cons.2 hc)
    (not_opensWithWord_of_apart hw (apart_cons.2 hmark))

theorem uncut_mark {word r : Text} {c : CodePoint} (hc : isBlank c = false)
    {st : Scan} :
    Uncut word st r [c] :=
  uncut_of_solid fun a ha => by
    rw [List.mem_singleton.1 ha]
    exact hc

theorem apart_blanks_mark {b r : Text} {c : CodePoint} (hb : Blanks b)
    (hmark : (foldCase c).toNat < 65 ∨ 90 < (foldCase c).toNat) :
    Apart (b ++ c :: r) := by
  cases b with
  | nil => exact apart_cons.2 hmark
  | cons d b => exact (hb.bounded (List.cons_ne_nil d b)).apart

/-- A closing parenthesis behind a seamless text. -/
theorem Seamless.append_closing {k : Int} {t b : Text} (ht : Seamless k t)
    (hb : Blanks b) :
    Seamless (k - 1) (t ++ (b ++ [.char ')'])) := by
  have hapart : ∀ r, Apart (b ++ [.char ')'] ++ r) := by
    intro r
    rw [List.append_assoc]
    exact apart_blanks_mark hb (by decide)
  refine ⟨?_, ⟨?_, ?_⟩, ?_, ?_, ?_⟩
  · exact fun hn => ht.ne_nil (List.append_eq_nil_iff.1 hn).1
  · exact (flushLeft_append ht.ne_nil).2 ht.trimmed.head
  · rw [← List.append_assoc]
    exact flushRight_concat.2 (by decide)
  · intro d
    rw [Scan.run_append, ht.run, Scan.run_append, Scan.run_blanks hb]
    exact (congrArg Scan.outside (Int.add_sub_assoc d k 1))
  · intro word hword rest _
    rw [List.append_assoc]
    exact ht.opens word hword _ (hapart rest)
  · intro word hword d rest _
    have hw := isKeyword_of_mem_connectives hword
    rw [uncut_append, uncut_append]
    exact ⟨ht.uncut word hword d _ (hapart rest),
      uncut_blanks_mark hw hb (by decide) (by decide),
      uncut_mark (by decide)⟩

/-- An opening parenthesis before a seamless text. -/
theorem Seamless.prepend_opening {k : Int} {t b : Text} (ht : Seamless k t)
    (hb : Blanks b) :
    Seamless (1 + k) (.char '(' :: (b ++ t)) := by
  have h := ht.prepend (p := .char '(' :: b) (j := 1) (List.cons_ne_nil _ _)
    (flushLeft_cons.2 (by decide)) ?_ ?_ ?_
  · exact h
  · intro d
    rw [Scan.run_cons]
    exact Scan.run_blanks hb (d + 1)
  · intro word hword r
    exact not_opensWithWord_of_apart (isKeyword_of_mem_connectives hword)
      (apart_cons.2 (by decide))
  · intro word hword d rest hrest
    have hsplit : (CodePoint.char '(' :: b) = [.char '('] ++ b := rfl
    rw [hsplit, uncut_append]
    exact ⟨uncut_mark (by decide), ht.uncut_blanks hword hb hrest⟩

theorem AreItems.seamless {t : Text} (h : AreItems t) : Seamless 0 t := by
  induction h with
  | single hv => exact hv.seamless
  | @cons v b b' t hv hb hb' _ ih =>
      have hv' := hv.seamless
      have hapart : ∀ r, Apart (b ++ (.char ',' :: r)) :=
        fun r => apart_blanks_mark hb (by decide)
      have h :=
        ih.prepend (p := v ++ (b ++ ([.char ','] ++ b')))
          (j := 0) ?_ ?_ ?_ ?_ ?_
      · rw [List.append_assoc, List.append_assoc, List.append_assoc] at h
        exact h
      · exact fun hn => hv'.ne_nil (List.append_eq_nil_iff.1 hn).1
      · exact (flushLeft_append hv'.ne_nil).2 hv'.trimmed.head
      · intro d
        rw [Scan.run_append, hv'.run, Scan.run_append, Scan.run_blanks hb,
          Scan.run_append, run_mark (by decide), Scan.run_blanks hb',
          Int.add_zero]
      · intro word hword r
        rw [List.append_assoc, List.append_assoc]
        exact hv'.opens word hword _ (hapart _)
      · intro word hword d rest hrest
        have hw := isKeyword_of_mem_connectives hword
        rw [uncut_append, uncut_append, uncut_append]
        refine ⟨?_, ?_, uncut_mark (by decide), ih.uncut_blanks hword hb' hrest⟩
        · rw [List.append_assoc]
          exact hv'.uncut word hword d _ (hapart _)
        · exact uncut_blanks_mark hw hb (by decide) (by decide)

theorem IsList.seamless {v : Text} (h : IsList v) : Seamless 0 v := by
  obtain ⟨b, t, b', rfl, hb, ht, hb'⟩ := h
  have hs := (ht.seamless.append_closing hb').prepend_opening hb
  have heq :
      parenthesise (b ++ t ++ b') =
        .char '(' :: (b ++ (t ++ (b' ++ [.char ')']))) := by
    rw [parenthesise, List.cons_append, List.append_assoc, List.append_assoc]
  rw [heq]
  exact hs

/-- An item ends neither in a blank nor in a parenthesis. -/
theorem IsItem.exists_concat {v : Text} (h : IsItem v) :
    ∃ u d, v = u ++ [d] ∧ isBlank d = false ∧ d ≠ ')' := by
  cases h with
  | @quoted q p hq hp =>
      refine ⟨q :: p, q, rfl, isBlank_of_isQuote hq, ?_⟩
      rintro rfl
      cases hq
  | word hne hv hn =>
      obtain ⟨u, d, rfl⟩ := (List.eq_nil_or_concat v).resolve_left hne
      rw [List.concat_eq_append] at hv ⊢
      have hd := hv d (List.mem_append_right u List.mem_cons_self)
      exact ⟨u, d, rfl, isBlank_of_isWord hd, ne_of_isWord hd (by decide)⟩

theorem AreItems.exists_concat {t : Text} (h : AreItems t) :
    ∃ u d, t = u ++ [d] ∧ isBlank d = false ∧ d ≠ ')' := by
  induction h with
  | single hv => exact hv.exists_concat
  | @cons v b b' t hv hb hb' _ ih =>
      obtain ⟨u, d, rfl, hd⟩ := ih
      refine ⟨v ++ (b ++ (.char ',' :: (b' ++ u))), d, ?_, hd⟩
      simp

/-! ## Heads

What stands before a leaf is decided by how the leaf begins. It begins with a
character of a word, so it is neither blank nor a parenthesis. -/

/-- A text begins with a character of a word. -/
def OpensWord (t : Text) : Prop :=
  ∃ c r, t = c :: r ∧ isWord c = true

namespace OpensWord

variable {t : Text} (h : OpensWord t)

include h

theorem ne_nil : t ≠ [] := by
  obtain ⟨c, r, rfl, _⟩ := h
  exact List.cons_ne_nil c r

theorem ne_opening (u : Text) : t ≠ .char '(' :: u := by
  obtain ⟨c, r, rfl, hc⟩ := h
  intro hu
  rw [List.cons.injEq] at hu
  exact ne_of_isWord hc (by decide) hu.1

theorem append (s : Text) : OpensWord (t ++ s) := by
  obtain ⟨c, r, rfl, hc⟩ := h
  exact ⟨c, r ++ s, rfl, hc⟩

/-- Where a word is, there are not only blanks. -/
theorem not_blanks (s r : Text) : ¬ Blanks (s ++ (t ++ r)) := by
  obtain ⟨c, u, rfl, hc⟩ := h
  intro hb
  have hblank := hb c (List.mem_append_right s List.mem_cons_self)
  rw [isBlank_of_isWord hc] at hblank
  cases hblank

end OpensWord

/-! ## Stems

A field and an operator, with the blanks between them. None of the two is a
connective, which for the operators is checked one by one, and the literal
behind a stem begins so that it does not go on the operator. -/

theorem Operator.noConnective_of_spells {op : Operator} {x : Text}
    (h : Spells op.spelling x) :
    NoConnective x := by
  have hall : ∀ op : Operator, ∀ word ∈ connectives,
      ¬ Spells word op.spelling := by
    intro op
    cases op <;> decide
  intro word hword hx
  exact hall op word hword (h.symm.trans hx)

theorem Operator.plain_of_spells {op : Operator} {x : Text}
    (h : Spells op.spelling x) {c : CodePoint} (hc : c ∈ x) : Scan.Plain c := by
  cases hop : op.isWord with
  | true => exact Scan.plain_of_spells (isKeyword_spelling hop) h hc
  | false =>
      have hall : ∀ op : Operator, ∀ c ∈ op.spelling, Scan.Plain c := by
        intro op
        cases op <;> decide
      rw [eq_spelling_of_sign h hop] at hc
      exact hall op c hc

theorem Operator.apart_of_sign {op : Operator} {x r : Text}
    (h : Spells op.spelling x) (hop : op.isWord = false) : Apart (x ++ r) := by
  rw [eq_spelling_of_sign h hop]
  cases op <;> first
    | exact apart_cons.2 (by decide)
    | cases hop

namespace Stem

variable {s : Stem}

theorem text_ne_nil (s : Stem) : s.text ≠ [] :=
  fun hn => s.field_ne_nil (List.append_eq_nil_iff.1 hn).1

/-- What follows the field begins with no letter. -/
theorem apart_before (s : Stem) (r : Text) :
    Apart (s.before ++ (s.written ++ r)) := by
  cases hb : s.before with
  | nil =>
      cases hop : s.op.isWord with
      | true => exact absurd hb (s.before_ne_nil hop)
      | false =>
          rw [List.nil_append]
          exact Operator.apart_of_sign s.spells hop
  | cons c b =>
      have hblanks := s.blanks_before
      rw [hb] at hblanks
      exact (hblanks.bounded (List.cons_ne_nil c b)).apart

theorem opensWord_append (s : Stem) (v : Text) : OpensWord (s.text ++ v) := by
  obtain ⟨c, f, hf⟩ := List.exists_cons_of_ne_nil s.field_ne_nil
  refine ⟨c, f ++ (s.before ++ (s.written ++ s.after)) ++ v, ?_, ?_⟩
  · rw [text, hf, List.cons_append, List.cons_append]
  · exact s.field_word c (hf ▸ List.mem_cons_self)

theorem flushLeft_text (s : Stem) : FlushLeft s.text := by
  rw [text, flushLeft_append s.field_ne_nil]
  intro c r hc
  exact isBlank_of_isWord (s.field_word c (hc ▸ List.mem_cons_self))

theorem plain_text (s : Stem) : ∀ c ∈ s.text, Scan.Plain c := by
  intro c hc
  rw [text, List.mem_append, List.mem_append, List.mem_append] at hc
  rcases hc with hc | hc | hc | hc
  · exact Scan.plain_of_isWord (s.field_word c hc)
  · exact Scan.plain_of_isBlank (s.blanks_before c hc)
  · exact Operator.plain_of_spells s.spells hc
  · exact Scan.plain_of_isBlank (s.blanks_after c hc)

theorem not_opensWithWord (s : Stem) {word : Text} (hword : word ∈ connectives)
    (r : Text) :
    ¬ OpensWithWord word (s.text ++ r) := by
  have hassoc :
      s.text ++ r = s.field ++ (s.before ++ (s.written ++ (s.after ++ r))) := by
    rw [text, List.append_assoc, List.append_assoc, List.append_assoc]
  rw [hassoc]
  exact not_opensWithWord_append (isKeyword_of_mem_connectives hword)
    (fun c hc => isBlank_of_isWord (s.field_word c hc))
      (s.noConnective word hword)
    (s.apart_before _)

/-- A stem in front of a seamless text that does not continue its operator. -/
theorem seamless_append {k : Int} {t : Text} (s : Stem) (ht : Seamless k t)
    (hapart : s.op.isWord = true → s.after = [] → ∀ r, Apart (t ++ r)) :
    Seamless k (s.text ++ t) := by
  have h := ht.prepend (j := 0) s.text_ne_nil s.flushLeft_text ?_ ?_ ?_
  · rwa [Int.zero_add] at h
  · intro d
    rw [Scan.run_plain s.plain_text, Int.add_zero]
  · exact fun word hword r => s.not_opensWithWord hword r
  · intro word hword d rest hrest
    have hw := isKeyword_of_mem_connectives hword
    have hblank : ∀ c ∈ s.written, isBlank c = false :=
      fun c hc => Operator.isBlank_of_spells s.spells hc
    have hne := Operator.ne_nil_of_spells s.spells
    rw [text, uncut_append, uncut_append, uncut_append]
    refine ⟨?_, ?_, uncut_of_solid hblank,
      ht.uncut_blanks hword s.blanks_after hrest⟩
    · exact uncut_of_solid fun c hc => isBlank_of_isWord (s.field_word c hc)
    · rw [List.append_assoc]
      refine uncut_of_blanks hw s.blanks_before ?_ ?_
      · rw [flushLeft_append hne]
        intro c r hc
        exact hblank c (hc ▸ List.mem_cons_self)
      · cases hop : s.op.isWord with
        | false =>
            exact not_opensWithWord_of_apart hw
              (Operator.apart_of_sign s.spells hop)
        | true =>
            refine not_opensWithWord_append hw hblank
              (Operator.noConnective_of_spells s.spells word hword) ?_
            cases ha : s.after with
            | nil => exact hapart hop ha rest
            | cons c a =>
                have hblanks := s.blanks_after
                rw [ha] at hblanks
                exact (hblanks.bounded (List.cons_ne_nil c a)).apart

end Stem

/-! ## Leaves

A leaf is a stem and a literal, and so seamless and balanced like these. A stump
is as seamless as a leaf, but leaves one parenthesis open. -/

/-- A list begins with a mark. -/
theorem IsList.apart {v : Text} (h : IsList v) (r : Text) : Apart (v ++ r) := by
  obtain ⟨b, t, b', rfl, _⟩ := h
  exact apart_cons.2 (by decide)

theorem IsItem.apart {v : Text} (h : IsItem v) (hb : beginsWithWord v = false)
    (r : Text) :
    Apart (v ++ r) := by
  cases h with
  | quoted hq hp =>
      rcases isQuote_eq_true_iff.1 hq with rfl | rfl <;>
        exact apart_cons.2 (by decide)
  | word hne hv hn =>
      obtain ⟨c, s, rfl⟩ := List.exists_cons_of_ne_nil hne
      rw [beginsWithWord, hv c List.mem_cons_self] at hb
      cases hb

theorem IsLeaf.seamless {l : Text} (h : IsLeaf l) : Seamless 0 l := by
  rcases h with ⟨s, v, rfl, hacc, hv⟩ | ⟨s, v, rfl, hop, hv⟩
  · exact s.seamless_append hv.seamless fun hop ha => hv.apart (hacc hop ha)
  · exact s.seamless_append hv.seamless fun _ _ => hv.apart

theorem IsItem.balanced {v : Text} (h : IsItem v) : Scan.Balanced v := by
  cases h with
  | quoted hq hp =>
      obtain ⟨hqp, hlast⟩ := plain_of_not_quote hq hp
      exact Scan.balanced_between hq hqp hlast
  | word hne hv hn =>
      exact Scan.balanced_of_plain fun c hc => Scan.plain_of_isWord (hv c hc)

theorem AreItems.balanced {t : Text} (h : AreItems t) : Scan.Balanced t := by
  induction h with
  | single hv => exact hv.balanced
  | @cons v b b' t hv hb hb' _ ih =>
      rw [← List.append_assoc]
      exact (hv.balanced.append_plain (Scan.plain_of_blanks hb)).append
        (by decide)
        (ih.plain_append (Scan.plain_of_blanks hb'))

theorem IsList.balanced {v : Text} (h : IsList v) : Scan.Balanced v := by
  obtain ⟨b, t, b', rfl, hb, ht, hb'⟩ := h
  exact (ht.balanced.pad hb hb').parenthesise

theorem IsLeaf.balanced {l : Text} (h : IsLeaf l) : Scan.Balanced l := by
  rcases h with ⟨s, v, rfl, _, hv⟩ | ⟨s, v, rfl, _, hv⟩
  · exact hv.balanced.plain_append s.plain_text
  · exact hv.balanced.plain_append s.plain_text

theorem IsLeaf.opensWord {l : Text} (h : IsLeaf l) : OpensWord l := by
  rcases h with ⟨s, v, rfl, _⟩ | ⟨s, v, rfl, _⟩
  · exact s.opensWord_append v
  · exact s.opensWord_append v

theorem IsStump.opensWord {l : Text} (h : IsStump l) : OpensWord l := by
  obtain ⟨s, b, t, rfl, _⟩ := h
  exact s.opensWord_append _

theorem IsStump.seamless {l : Text} (h : IsStump l) : Seamless 1 l := by
  obtain ⟨s, b, t, rfl, hop, hb, ht⟩ := h
  exact s.seamless_append (ht.seamless.prepend_opening hb) fun _ _ _ =>
    apart_cons.2 (by decide)

end RowSql.Filter

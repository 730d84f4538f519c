import RowSql.Filter.Leaf
import RowSql.Proofs.Text.Letters

/-!
# How a leaf is read

A leaf is read by trying fields from the longest down, and operators in a fixed
order, until a readable value is left. When the field is a word and what follows
it begins with an operator, none of that trying matters: no longer field is
there, a shorter one is followed by a letter where an operator should be, and
the operator is told from all others by its first character, but for the two
that `>=` and `<=` begin with. So whether the text is a leaf depends on what
follows the operator, and only on whether that can be a value.
-/

namespace RowSql.Filter

open Text

/-! ## Words at the head of a text

A word is read letter by letter up to case. Marks are their own least forms, so
a sign is read only where the sign stands. -/

theorem afterWord?_append {word x : Text} (hx : Spells word x) (y : Text) :
    afterWord? word (x ++ y) = some y :=
  afterWord?_eq_some_iff.2 ⟨x, hx, rfl⟩

theorem afterWord?_cons_of_ne {w c : CodePoint} {ws s : Text}
    (h : sameLetter w c = false) :
    afterWord? (w :: ws) (c :: s) = none := by
  rw [afterWord?, h]
  rfl

/-- A mark is told from a letter, and from another mark. -/
theorem sameLetter_of_mark {a c : CodePoint}
    (ha : a.toNat < 65 ∨ 90 < a.toNat ∧ a.toNat < 128) (hf : foldCase a = a)
    (hne : c ≠ a) : sameLetter a c = false := by
  rw [sameLetter, beq_eq_false_iff_ne, hf]
  exact fun h => hne (eq_of_foldCase_eq ha h.symm)

/-- How a letter compares does not depend on its case. -/
theorem sameLetter_congr {a c w : CodePoint} (h : sameLetter w c = true) :
    sameLetter a c = sameLetter a w := by
  rw [sameLetter, beq_iff_eq] at h
  rw [sameLetter, sameLetter, h]

/-! ## Values in quotes and in parentheses

What can be a value is decided by the two ends of a text and by whether there
are blanks in it. A text in quotes that it does not hold passes in any case. -/

theorem isParenthesised_iff {t : Text} :
    isParenthesised t = true ↔ ∃ u, t = parenthesise u := by
  cases t with
  | nil =>
      constructor
      · intro h
        cases h
      · rintro ⟨u, hu⟩
        exact absurd hu.symm (parenthesise_ne_nil u)
  | cons c s =>
      rw [isParenthesised, Bool.and_eq_true, beq_iff_eq, beq_iff_eq]
      constructor
      · rintro ⟨rfl, hlast⟩
        obtain ⟨u, rfl⟩ := List.getLast?_eq_some_iff.1 hlast
        exact ⟨u, rfl⟩
      · rintro ⟨u, hu⟩
        rw [parenthesise, List.cons_append, List.cons.injEq] at hu
        obtain ⟨rfl, rfl⟩ := hu
        exact ⟨rfl, List.getLast?_concat⟩

theorem isQuotedBy_iff {q : CodePoint} {t : Text} :
    isQuotedBy q t = true ↔ ∃ p, t = between q p ∧ q ∉ p := by
  cases t with
  | nil =>
      constructor
      · intro h
        cases h
      · rintro ⟨p, hp, _⟩
        exact absurd hp.symm (List.cons_ne_nil _ _)
  | cons c s =>
      rw [isQuotedBy, Bool.and_eq_true, Bool.and_eq_true, beq_iff_eq,
        beq_iff_eq, Bool.not_eq_true', ← Bool.not_eq_true,
        List.contains_iff_mem]
      constructor
      · rintro ⟨⟨rfl, hlast⟩, hq⟩
        obtain ⟨p, rfl⟩ := List.getLast?_eq_some_iff.1 hlast
        rw [List.dropLast_concat] at hq
        exact ⟨p, rfl, hq⟩
      · rintro ⟨p, hp, hq⟩
        rw [between, List.cons_append, List.cons.injEq] at hp
        obtain ⟨rfl, rfl⟩ := hp
        rw [List.dropLast_concat]
        exact ⟨⟨rfl, List.getLast?_concat⟩, hq⟩

/-- A text in quotes that it does not hold can be the value of a leaf. -/
theorem isLeafValue_between {q : CodePoint} {p : Text} (hq : isQuote q = true)
    (hp : q ∉ p) :
    isLeafValue (between q p) = true := by
  have hquoted := isQuotedBy_iff.2 ⟨p, rfl, hp⟩
  rcases isQuote_eq_true_iff.1 hq with rfl | rfl
  · rw [isLeafValue, hquoted, Bool.or_true, Bool.true_or, Bool.true_or]
  · rw [isLeafValue, hquoted, Bool.or_true, Bool.true_or]

/-! ## Operators

What is read behind a field is the first operator in the list that is there
with a value behind it. The operator as it is written is found, because
those tried before it begin with other characters, or are longer signs that
are not there. -/

/-- A sign that a longer one begins with is looked for behind it. -/
theorem Operator.exists_all_eq (op : Operator) :
    ∃ before after, all = before ++ op :: after ∧
      ∀ other ∈ before,
    other ≠ op ∧ op.spelling ≠ other.spelling ++ [.char '='] := by
  cases op with
  | atLeast => exact ⟨[], _, rfl, by decide⟩
  | atMost => exact ⟨[.atLeast], _, rfl, by decide⟩
  | equal => exact ⟨[.atLeast, .atMost], _, rfl, by decide⟩
  | greater => exact ⟨[.atLeast, .atMost, .equal], _, rfl, by decide⟩
  | less => exact ⟨[.atLeast, .atMost, .equal, .greater], _, rfl, by decide⟩
  | like =>
      exact ⟨[.atLeast, .atMost, .equal, .greater, .less], _, rfl, by decide⟩
  | within =>
      exact ⟨[.atLeast, .atMost, .equal, .greater, .less, .like], _, rfl,
        by decide⟩

theorem Operator.isKeyword_spelling {op : Operator} (h : op.isWord = true) :
    IsKeyword op.spelling := by
  cases op <;> first
    | decide
    | cases h

/-- A sign is spelled in one way. -/
theorem Operator.eq_spelling_of_sign {op : Operator} {x : Text}
    (h : Spells op.spelling x) (hop : op.isWord = false) : x = op.spelling := by
  refine h.eq_of_marks ?_
  cases op <;> first
    | decide
    | cases hop

theorem Operator.isBlank_of_spells {op : Operator} {x : Text}
    (h : Spells op.spelling x) {c : CodePoint} (hc : c ∈ x) :
    isBlank c = false := by
  cases hop : op.isWord with
  | true => exact (isKeyword_spelling hop).isBlank_of_mem h hc
  | false =>
      have hall : ∀ op : Operator, ∀ c ∈ op.spelling, isBlank c = false := by
        intro op
        cases op <;> decide
      rw [eq_spelling_of_sign h hop] at hc
      exact hall op c hc

theorem Operator.ne_nil_of_spells {op : Operator} {x : Text}
    (h : Spells op.spelling x) :
    x ≠ [] := by
  rintro rfl
  cases op <;> exact absurd h.length_eq (by decide)

/-- A sign begins with no character of a field. -/
theorem Operator.isFieldChar_of_sign {op : Operator} {c : CodePoint} {s : Text}
    (h : Spells op.spelling (c :: s)) (hop : op.isWord = false) :
    isFieldChar c = false := by
  have hhead := congrArg List.head? (eq_spelling_of_sign h hop)
  rw [List.head?_cons] at hhead
  cases op <;> first
    | cases hhead; decide
    | cases hop

/-- Operators are spelled in capitals of ASCII. -/
theorem Operator.ascii_spelling {op : Operator} {c : CodePoint}
    (hc : c ∈ op.spelling) :
    c.toNat < 128 := by
  have hall : ∀ op : Operator, ∀ c ∈ op.spelling, c.toNat < 128 := by
    intro op
    cases op <;> decide
  exact hall op c hc

theorem Operator.map_foldCase_spelling (op : Operator) :
    op.spelling.map foldCase = op.spelling := by
  cases op <;> decide

/-- An operator is meant by what it is in upper case. -/
theorem Operator.ofWritten?_of_upper {op : Operator} {x : Text}
    (h : upper x = op.spelling) :
    ofWritten? x = some op := by
  rw [ofWritten?, h]
  cases op <;> decide

theorem Operator.ofWritten?_spelling (op : Operator) :
    ofWritten? op.spelling = some op :=
  ofWritten?_of_upper (by cases op <;> decide)

/-- Without a foreign capital the operator that is meant is the one that is
written. -/
theorem Operator.ofWritten?_of_spells {op : Operator} {x : Text}
    (h : Spells op.spelling x) (hforeign : ∀ c ∈ x, ¬ IsForeignCapital c) :
    ofWritten? x = some op := by
  cases hop : op.isWord with
  | false => rw [eq_spelling_of_sign h hop, ofWritten?_spelling]
  | true =>
      have hupper : upper x = op.spelling.map foldCase :=
        (isKeyword_spelling hop).upper_eq_map h hforeign
      exact ofWritten?_of_upper (hupper.trans op.map_foldCase_spelling)

/-- An operator as it is written between blanks and a rest. An operator word
stands apart from the words around it. -/
structure Written (op : Operator) (b x y : Text) : Prop where
  blanks : Blanks b
  spells : Spells op.spelling x
  before : op.isWord = true → b ≠ []
  after : op.isWord = true → beginsWithWord y = false
  noEqual : ∀ s, y ≠ .char '=' :: s

section

variable {op : Operator} {b x y : Text}

/-- An operator is not read where another first character stands. -/
theorem Written.readOperatorAs?_eq_none (h : Written op b x y)
    {other : Operator} {a w : CodePoint} {as ws : Text} (touching : Bool)
    (ho : other.spelling = a :: as) (hw : op.spelling = w :: ws)
    (hne : sameLetter a w = false) :
    readOperatorAs? touching (x ++ y) other = none := by
  have hsp := h.spells
  rw [hw] at hsp
  cases x with
  | nil => exact absurd hsp.length_eq (by simp)
  | cons c s =>
      have hac : sameLetter a c = false := by
        rw [sameLetter_congr (spells_cons.1 hsp).1]
        exact hne
      rw [readOperatorAs?, ho, List.cons_append, afterWord?_cons_of_ne hac]

/-- The operator that is there reads what follows it. -/
theorem Written.readOperatorAs?_eq (h : Written op b x y) :
    readOperatorAs? b.isEmpty (x ++ y) op =
      if isLeafValue (trim y) then some (x, trim y) else none := by
  have htouch : (op.isWord && (b.isEmpty || beginsWithWord y)) = false := by
    cases hop : op.isWord with
    | false => rfl
    | true =>
        rw [h.after hop, Bool.or_false, Bool.true_and,
          List.isEmpty_eq_false_iff]
        exact h.before hop
  have htake : (x ++ y).take op.spelling.length = x := by
    rw [← h.spells.length_eq, List.take_left]
  rw [readOperatorAs?, afterWord?_append h.spells, htake]
  show (if (op.isWord && (b.isEmpty || beginsWithWord y) ||
    !isLeafValue (trim y)) = true then none
    else some (x, trim y)) = _
  rw [htouch]
  cases isLeafValue (trim y) <;> rfl

/-- A sign that `=` could follow, with a rest before which no `=` stands. -/
theorem Written.readOperatorAs?_longer (h : Written op b x y) {other : Operator}
    (touching : Bool) (ho : other.spelling = op.spelling ++ [.char '=']) :
    readOperatorAs? touching (x ++ y) other = none := by
  cases hr : afterWord? other.spelling (x ++ y) with
  | none => rw [readOperatorAs?, hr]
  | some r =>
      exfalso
      obtain ⟨z, hz, heq⟩ := afterWord?_eq_some_iff.1 hr
      have hlen := h.spells.length_eq
      have hzlen := hz.length_eq
      rw [ho, List.length_append, List.length_singleton] at hzlen
      rcases List.append_eq_append_iff.1 heq with ⟨v, rfl, hv⟩ | ⟨v, rfl, _⟩
      · rw [List.length_append] at hzlen
        have hv1 : v.length = 1 := by omega
        obtain ⟨d, rfl⟩ := List.length_eq_one_iff.1 hv1
        rw [ho, Spells, List.map_append, List.map_append] at hz
        have hd := (List.append_inj' hz rfl).2
        rw [List.map_singleton, List.map_singleton, List.cons.injEq] at hd
        have hde : d = '=' :=
          eq_of_foldCase_eq (by decide) (hd.1.trans (by decide))
        exact h.noEqual r (by rw [hv, hde]; rfl)
      · rw [List.length_append] at hlen
        omega

/-- A sign to which `=` belongs, where `=` and the rest are no value. -/
theorem Written.readOperatorAs?_shorter (h : Written op b x y)
    {other : Operator} (touching : Bool)
    (ho : op.spelling = other.spelling ++ [.char '='])
    (hval : isLeafValue (trim (.char '=' :: y)) = false) :
    readOperatorAs? touching (x ++ y) other = none := by
  have hsp := h.spells
  have hlen := hsp.length_eq
  rw [ho] at hsp hlen
  rw [List.length_append, List.length_singleton] at hlen
  rcases List.eq_nil_or_concat x with rfl | ⟨z, d, rfl⟩
  · exact absurd hlen (by simp)
  · rw [List.concat_eq_append] at hsp ⊢
    rw [Spells, List.map_append, List.map_append] at hsp
    obtain ⟨hz, hd⟩ := List.append_inj' hsp rfl
    rw [List.map_singleton, List.map_singleton, List.cons.injEq] at hd
    have hde : d = '=' := eq_of_foldCase_eq (by decide) (hd.1.trans (by decide))
    rw [readOperatorAs?, hde, List.append_assoc, afterWord?_append hz]
    show (if (other.isWord && (touching || beginsWithWord (.char '=' :: y)) ||
      !isLeafValue (trim (.char '=' :: y))) = true then none else _) = none
    rw [hval]
    exact if_pos (Bool.or_true _)

/-- What is read behind a field: the operator that is there, and the value if it
is one. -/
theorem Written.findSome?_eq (h : Written op b x y)
    (hval : isLeafValue (trim y) = true ∨
      isLeafValue (trim (.char '=' :: y)) = false) :
    Operator.all.findSome? (readOperatorAs? b.isEmpty (x ++ y)) =
      if isLeafValue (trim y) then some (x, trim y) else none := by
  have hself := h.readOperatorAs?_eq
  -- every other operator is refused, but for the sign that a longer one begins
  -- with
  have hother : ∀ other, other ≠ op →
      op.spelling ≠ other.spelling ++ [.char '='] →
      readOperatorAs? b.isEmpty (x ++ y) other = none := by
    intro other hne hshort
    cases op <;> cases other <;>
      first
      | exact absurd rfl hne
      | exact absurd rfl hshort
      | exact h.readOperatorAs?_eq_none _ rfl rfl (by decide)
      | exact h.readOperatorAs?_longer _ rfl
  have hshort : isLeafValue (trim y) = false →
      ∀ other, op.spelling = other.spelling ++ [.char '='] →
        readOperatorAs? b.isEmpty (x ++ y) other = none := by
    intro hn other ho
    rcases hval with hval | hval
    · rw [hn] at hval
      cases hval
    · exact h.readOperatorAs?_shorter _ ho hval
  cases hv : isLeafValue (trim y) with
  | false =>
      rw [hv] at hself
      rw [if_neg Bool.false_ne_true, List.findSome?_eq_none_iff]
      intro other _
      by_cases hoth : other = op
      · rw [hoth, hself, if_neg Bool.false_ne_true]
      · by_cases hsp : op.spelling = other.spelling ++ [.char '=']
        · exact hshort hv other hsp
        · exact hother other hoth hsp
  | true =>
      rw [hv, if_pos rfl] at hself
      rw [if_pos rfl]
      obtain ⟨before, after, hall, hbefore⟩ := op.exists_all_eq
      exact List.findSome?_eq_some_iff.2 ⟨before, op, after, hall, hself,
        fun other ho =>
          hother other (hbefore other ho).1 (hbefore other ho).2⟩

/-! ## Fields

A field that is a word, with no further character of a field behind it, is the
longest there is, and no shorter one is tried unless what follows the operator
is no value. Then none of the shorter ones helps either. -/

/-- Nothing is read behind a word that another character of a word follows. -/
theorem readOperator?_cons_of_isWord {last c : CodePoint} {s : Text}
    (hl : isWord last = true) (hc : isWord c = true) :
    readOperator? last (c :: s) = none := by
  have hblank := isBlank_of_isWord hc
  have hmark : ∀ a : CodePoint, a.toNat < 65 → foldCase a = a →
      isWord a = false →
      sameLetter a c = false := fun a ha hf haw =>
    sameLetter_of_mark (.inl ha) hf (ne_of_isWord hc haw)
  have hsign : ∀ op : Operator, op.isWord = false →
      readOperatorAs? true (c :: s) op = none := by
    intro op hop
    have hne : ∀ (a : CodePoint) as, op.spelling = a :: as →
        sameLetter a c = false →
        readOperatorAs? true (c :: s) op = none := by
      intro a as ho ha
      rw [readOperatorAs?, ho, afterWord?_cons_of_ne ha]
    cases op <;> first
      | exact hne _ _ rfl (hmark _ (by decide) (by decide) (by decide))
      | cases hop
  rw [readOperator?, trimLeft_cons hblank, List.head?_cons, Option.all_some,
    hl, hblank]
  show Operator.all.findSome? (readOperatorAs? true (c :: s)) = none
  rw [List.findSome?_eq_none_iff]
  intro op _
  cases hop : op.isWord with
  | false => exact hsign op hop
  | true =>
      rw [readOperatorAs?]
      split
      · rw [hop]
        rfl
      · rfl

theorem isFieldChar_of_isWord {c : CodePoint} (h : isWord c = true) :
    isFieldChar c = true := by
  rw [isFieldChar, h, Bool.or_true]

theorem isFieldChar_of_isBlank {c : CodePoint} (h : isBlank c = true) :
    isFieldChar c = false := by
  rw [isFieldChar, Bool.or_eq_false_iff, beq_eq_false_iff_ne]
  constructor
  · rintro rfl
    exact absurd h (by decide)
  · cases hw : isWord c with
    | false => rfl
    | true =>
        rw [isBlank_of_isWord hw] at h
        cases h

/-- The field is the whole of the word, when no character of a field follows
it. -/
theorem Leaf.readField?_append {f : Text} {c : CodePoint} {rest : Text}
    (hf : ∀ d ∈ f, isWord d = true) (hc : isWord c = true)
    (hrest : ∀ d s, rest = d :: s → isFieldChar d = false) :
    readField? (f ++ c :: rest) =
      (readOperator? c rest).map fun r => ⟨f ++ [c], r.1, r.2⟩ := by
  induction f with
  | nil =>
      have hnone : readField? rest = none := by
        cases rest with
        | nil => rfl
        | cons d s =>
            rw [readField?, hrest d s rfl]
            rfl
      rw [List.nil_append, readField?, isFieldChar_of_isWord hc, hnone]
      rfl
  | cons d f ih =>
      rw [List.forall_mem_cons] at hf
      rw [List.cons_append, readField?, isFieldChar_of_isWord hf.1, ih hf.2]
      cases hr : readOperator? c rest with
      | some r => rfl
      | none =>
          have hshort : readOperator? d (f ++ c :: rest) = none := by
            cases f with
            | nil => exact readOperator?_cons_of_isWord hf.1 hc
            | cons e f =>
                exact readOperator?_cons_of_isWord hf.1
                  (hf.2 e List.mem_cons_self)
          rw [if_pos rfl, hshort]
          rfl

/-- A leaf that is written as a word, an operator and a rest is read as these,
when the rest is a value, and not at all otherwise. -/
theorem Leaf.read?_eq {f : Text} (hf : f ≠ [] ∧ ∀ d ∈ f, isWord d = true)
    (h : Written op b x y)
    (hval : isLeafValue (trim y) = true ∨
      isLeafValue (trim (.char '=' :: y)) = false) :
    read? (f ++ (b ++ (x ++ y))) =
      if isLeafValue (trim y) then some ⟨f, x, trim y⟩ else none := by
  obtain ⟨g, c, rfl⟩ := (List.eq_nil_or_concat f).resolve_left hf.1
  rw [List.concat_eq_append] at hf ⊢
  have hg : ∀ d ∈ g, isWord d = true :=
    fun d hd => hf.2 d (List.mem_append_left [c] hd)
  have hc : isWord c = true :=
    hf.2 c (List.mem_append_right g List.mem_cons_self)
  obtain ⟨e, z, hx⟩ :=
    List.exists_cons_of_ne_nil (Operator.ne_nil_of_spells h.spells)
  have he : isBlank e = false :=
    Operator.isBlank_of_spells h.spells (hx ▸ List.mem_cons_self)
  have hrest : ∀ d s, b ++ (x ++ y) = d :: s → isFieldChar d = false := by
    intro d s hd
    cases b with
    | nil =>
        rw [hx, List.nil_append, List.cons_append, List.cons.injEq] at hd
        cases hop : op.isWord with
        | true => exact absurd rfl (h.before hop)
        | false => exact hd.1 ▸ Operator.isFieldChar_of_sign (hx ▸ h.spells) hop
    | cons d' b' =>
        rw [List.cons_append, List.cons.injEq] at hd
        exact isFieldChar_of_isBlank (hd.1 ▸ (blanks_cons.1 h.blanks).1)
  have hskip : trimLeft (b ++ (x ++ y)) = x ++ y := by
    rw [trimLeft_append_blanks h.blanks, hx, List.cons_append, trimLeft_cons he]
  have htouch :
      (isWord c && (b ++ (x ++ y)).head?.all fun d => !isBlank d) =
        b.isEmpty := by
    rw [hc, Bool.true_and]
    cases b with
    | nil =>
        rw [hx, List.nil_append, List.cons_append, List.head?_cons,
          Option.all_some, he]
        rfl
    | cons d b' =>
        rw [List.cons_append, List.head?_cons, Option.all_some,
          (blanks_cons.1 h.blanks).1]
        rfl
  have hflush : FlushLeft (g ++ [c] ++ (b ++ (x ++ y))) := by
    rw [flushLeft_append hf.1]
    intro d s hd
    exact isBlank_of_isWord (hf.2 d (hd ▸ List.mem_cons_self))
  rw [read?, hflush.trimLeft_eq, List.append_assoc, List.singleton_append,
    readField?_append hg hc hrest, readOperator?, hskip, htouch,
    h.findSome?_eq hval]
  cases isLeafValue (trim y) <;> rfl

end

end RowSql.Filter

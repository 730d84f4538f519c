import RowSql.Proofs.Filter.LeafParts

/-!
# Letter case in a leaf

An operator word is recognised letter by letter, and judged by its upper-case
form. The two agree but for the capitals of other scripts that are a letter of
an operator only in another case: the dotted I and the sign of the kelvin are I
and K letter by letter, and their own upper-case form. A leaf with such an
operator is read, and then no record satisfies it.

Where a leaf is cut does not depend on letter case at all. A mapping of
characters that keeps their classes and compares no two letters differently
commutes with every function the reader is made of, so a leaf whose operator is
written in another case is cut at the same places.
-/

namespace RowSql

open Text

/-! ## Mappings that change letter case only

Writing the letters of ASCII as capitals is the mapping that is wanted. What the
reader asks of a character is the same for a letter and its capital. -/

/-- A mapping of characters that leaves blanks, words, fields and marks alone,
and each letter the same up to case. -/
structure Recases (f : CodePoint → CodePoint) : Prop where
  isBlank_eq (c : CodePoint) : isBlank (f c) = isBlank c
  isWord_eq (c : CodePoint) : isWord (f c) = isWord c
  isFieldChar_eq (c : CodePoint) : isFieldChar (f c) = isFieldChar c
  foldCase_eq (c : CodePoint) : foldCase (f c) = foldCase c
  eq_mark_iff {a c : CodePoint} (ha : isWord a = false) : f c = a ↔ c = a

/-- The capital of a letter of ASCII in any case; any other character is left as
it is. -/
def capital (c : CodePoint) : CodePoint :=
  if 65 ≤ (foldCase c).toNat ∧ (foldCase c).toNat ≤ 90 then foldCase c else c

theorem capital_eq_or (c : CodePoint) :
    capital c = c ∨
      isWord c = true ∧ isWord (capital c) = true ∧
      foldCase (capital c) = foldCase c := by
  rw [capital]
  split
  · next h => exact .inr (isWord_of_letter h)
  · exact .inl rfl

/-- What is the same for all characters of words does not tell a letter from its
capital. -/
theorem capital_congr {β : Type} {g : CodePoint → β} {b : β}
    (h : ∀ c, isWord c = true → g c = b) (c : CodePoint) :
    g (capital c) = g c := by
  obtain heq | ⟨hc, hc', _⟩ := capital_eq_or c
  · rw [heq]
  · rw [h c hc, h (capital c) hc']

theorem recases_capital : Recases capital where
  isBlank_eq := capital_congr fun _ => isBlank_of_isWord
  isWord_eq := capital_congr fun _ h => h
  isFieldChar_eq := capital_congr fun _ => Filter.isFieldChar_of_isWord
  foldCase_eq c := (capital_eq_or c).elim (congrArg foldCase) fun h => h.2.2
  eq_mark_iff {a c} ha := by
    have hne : ∀ d, isWord d = true → (d = a) = False :=
      fun d hd => eq_false (ne_of_isWord hd ha)
    exact iff_of_eq (capital_congr hne c)

theorem IsKeyword.map_capital {word x : Text} (hw : IsKeyword word)
    (hx : Spells word x) :
    x.map capital = word.map foldCase := by
  have hcapital : ∀ c ∈ x, capital c = foldCase c :=
    fun c hc => if_pos (hw.letter_of_mem hx hc)
  rw [List.map_congr_left hcapital]
  exact hx

namespace Recases

variable {f : CodePoint → CodePoint} (hf : Recases f)

include hf

/-! ## Blanks and words

Trimming asks for blanks and a word is read up to case, so both come to the same
after the mapping, mapped. -/

theorem trimLeft_map (t : Text) : trimLeft (t.map f) = (trimLeft t).map f := by
  have hblank : isBlank ∘ f = isBlank := funext hf.isBlank_eq
  rw [trimLeft, List.dropWhile_map, hblank, trimLeft]

theorem trim_map (t : Text) : trim (t.map f) = (trim t).map f := by
  have hreverse (u : Text) : trimRight u = (trimLeft u.reverse).reverse := rfl
  rw [trim, hf.trimLeft_map, hreverse, ← List.map_reverse, hf.trimLeft_map,
    ← List.map_reverse]
  rfl

theorem sameLetter_eq (w c : CodePoint) :
    sameLetter w (f c) = sameLetter w c := by
  rw [sameLetter, hf.foldCase_eq, sameLetter]

theorem afterWord?_map (word t : Text) :
    afterWord? word (t.map f) = (afterWord? word t).map (List.map f) := by
  induction word generalizing t with
  | nil => rfl
  | cons w ws ih =>
      cases t with
      | nil => rfl
      | cons c s =>
          rw [List.map_cons, afterWord?, afterWord?, hf.sameLetter_eq, ih]
          split <;> rfl

end Recases

namespace Filter

/-! ## Values

A value is told by the marks at its ends and the blanks in it, none of which the
mapping changes or brings about. -/

section

variable {f : CodePoint → CodePoint} (hf : Recases f)

include hf

theorem beginsWithWord_map (t : Text) :
    beginsWithWord (t.map f) = beginsWithWord t := by
  cases t with
  | nil => rfl
  | cons c s => exact hf.isWord_eq c

theorem beq_mark_map {a : CodePoint} (ha : isWord a = false) (c : CodePoint) :
    (f c == a) = (c == a) := by
  rw [Bool.eq_iff_iff, beq_iff_eq, beq_iff_eq, hf.eq_mark_iff ha]

theorem getLast?_map_beq {a : CodePoint} (ha : isWord a = false) (t : Text) :
    ((t.map f).getLast? == some a) = (t.getLast? == some a) := by
  rw [List.getLast?_map]
  cases t.getLast? with
  | none => rfl
  | some c => exact beq_mark_map hf ha c

theorem contains_map {a : CodePoint} (ha : isWord a = false) (t : Text) :
    (t.map f).contains a = t.contains a := by
  rw [Bool.eq_iff_iff, List.contains_iff_mem, List.contains_iff_mem,
    List.mem_map]
  simp only [hf.eq_mark_iff ha, exists_eq_right]

theorem isParenthesised_map (t : Text) :
    isParenthesised (t.map f) = isParenthesised t := by
  cases t with
  | nil => rfl
  | cons c s =>
      rw [List.map_cons, isParenthesised, beq_mark_map hf (by decide),
        getLast?_map_beq hf (by decide), isParenthesised]

theorem isQuotedBy_map {q : CodePoint} (hq : isWord q = false) (t : Text) :
    isQuotedBy q (t.map f) = isQuotedBy q t := by
  cases t with
  | nil => rfl
  | cons c s =>
      rw [List.map_cons, isQuotedBy, beq_mark_map hf hq, getLast?_map_beq hf hq,
        ← List.map_dropLast, contains_map hf hq, isQuotedBy]

theorem isLeafValue_map (t : Text) : isLeafValue (t.map f) = isLeafValue t := by
  rw [isLeafValue, isParenthesised_map hf, isQuotedBy_map hf (by decide),
    isQuotedBy_map hf (by decide), List.isEmpty_map, List.all_map, isLeafValue]
  simp only [Function.comp_def, hf.isBlank_eq]

/-! ## Reading

The reader is put together from these functions, and commutes with the mapping
because they do. The canonical text of a leaf has the same image as the leaf, so
they are cut at the same lengths. -/

theorem readOperatorAs?_map (touching : Bool) (t : Text) (op : Operator) :
    readOperatorAs? touching (t.map f) op =
      (readOperatorAs? touching t op).map
          (Prod.map (List.map f) (List.map f)) := by
  rw [readOperatorAs?, readOperatorAs?, hf.afterWord?_map]
  cases afterWord? op.spelling t with
  | none => rfl
  | some rest =>
      simp only [Option.map_some, beginsWithWord_map hf, hf.trim_map,
        isLeafValue_map hf]
      split
      · rfl
      · rw [Option.map_some, Prod.map_apply, List.map_take]

theorem readOperator?_map (last : CodePoint) (t : Text) :
    readOperator? (f last) (t.map f) =
      (readOperator? last t).map (Prod.map (List.map f) (List.map f)) := by
  have htouching :
      ((t.map f).head?.all fun c => !isBlank c) = t.head?.all fun c =>
        !isBlank c := by
    simp only [List.head?_map, Option.all_map, hf.isBlank_eq]
  simp only [readOperator?, hf.isWord_eq, htouching, hf.trimLeft_map]
  induction Operator.all with
  | nil => rfl
  | cons op ops ih =>
      rw [List.findSome?_cons, List.findSome?_cons, readOperatorAs?_map hf, ih]
      cases readOperatorAs? _ (trimLeft t) op <;> rfl

/-- A leaf whose characters are mapped. -/
def Leaf.map (f : CodePoint → CodePoint) (leaf : Leaf) : Leaf :=
  ⟨leaf.field.map f, leaf.operator.map f, leaf.value.map f⟩

theorem Leaf.readField?_map (t : Text) :
    readField? (t.map f) = (readField? t).map (Leaf.map f) := by
  induction t with
  | nil => rfl
  | cons c s ih =>
      rw [List.map_cons, readField?, readField?, hf.isFieldChar_eq, ih,
        readOperator?_map hf]
      split
      · cases readField? s with
        | some leaf => rfl
        | none =>
            cases readOperator? c s <;> rfl
      · rfl

/-- A leaf is cut at the same places in any letter case. -/
theorem Leaf.read?_map (t : Text) :
    read? (t.map f) = (read? t).map (Leaf.map f) := by
  rw [read?, hf.trimLeft_map, readField?_map hf, read?]

end

theorem Operator.map_capital_eq {op : Operator} {x : Text}
    (h : Spells op.spelling x) :
    x.map capital = op.spelling.map capital := by
  cases hop : op.isWord with
  | false => rw [eq_spelling_of_sign h hop]
  | true =>
      have hw := isKeyword_spelling hop
      rw [hw.map_capital h, hw.map_capital (spells_self op.spelling)]

namespace LeafParts

/-- The parts with the operator as the language spells it. -/
def canonical (m : LeafParts) : LeafParts :=
  { m with written := m.op.spelling }

variable {m : LeafParts}

theorem Fits.canonical (hm : m.Fits) : m.canonical.Fits :=
  { hm with spells := spells_self m.op.spelling }

theorem Fits.map_capital_text (hm : m.Fits) :
    m.canonical.text.map capital = m.text.map capital := by
  have hwritten := Operator.map_capital_eq hm.spells
  simp only [text, LeafParts.canonical, List.map_append, hwritten]

/-- The canonical operator is read where the written one was. -/
theorem Fits.read?_canonical (hm : m.Fits)
    (hread : Leaf.read? m.text = some m.leaf) :
    Leaf.read? m.canonical.text = some m.canonical.leaf := by
  obtain ⟨leaf, hleaf⟩ := Option.isSome_iff_exists.1 hm.canonical.read?_isSome
  obtain ⟨k, hk, htext, rfl⟩ := Leaf.exists_parts hleaf
  have hmap : k.leaf.map capital = m.leaf.map capital := by
    have hboth := congrArg Leaf.read? hm.map_capital_text
    rw [Leaf.read?_map recases_capital, Leaf.read?_map recases_capital, hleaf,
      hread] at hboth
    exact Option.some.inj hboth
  simp only [Leaf.map, Leaf.mk.injEq] at hmap
  have hfield : k.field.length = m.field.length := by
    simpa [leaf] using congrArg List.length hmap.1
  have hwritten : k.written.length = m.op.spelling.length := by
    rw [← hm.spells.length_eq]
    simpa [leaf] using congrArg List.length hmap.2.1
  -- two ways to cut one text at the same lengths
  obtain ⟨_, hf, _, hw, ha⟩ :=
    hk.eq_of_length hm.canonical htext hfield hwritten
  rw [hleaf, leaf, hf, hw, ha, leaf]

end LeafParts

/-! ## Judging

The operator that was read is judged by its upper-case form. In a word that is
read as an operator the only letters that are not of ASCII and have no such form
are the two foreign capitals. -/

/-- With a foreign capital no operator is meant. -/
theorem Operator.ofWritten?_of_foreign {x : Text} {c : CodePoint} (hc : c ∈ x)
    (hforeign : IsForeignCapital c) : ofWritten? x = none := by
  have hupper : c ∈ upper x :=
    List.mem_flatMap.2 ⟨c, hc,
      by rw [hforeign.upperChar_eq]; exact List.mem_singleton_self c⟩
  rw [ofWritten?, List.find?_eq_none]
  intro op _ heq
  rw [beq_iff_eq.1 heq] at hupper
  exact hforeign.not_ascii (ascii_spelling hupper)

/-- Every text of a leaf is read, as parts of it, and judged as if its operator
were written as the language spells it, unless a foreign capital stands there.
Then, and only then, the written operator means none, and no record satisfies
the text. -/
theorem condition_eq_canonical {t : Text}
    (ht : ∃ m : LeafParts, m.Fits ∧ m.text = t) :
    ∃ m : LeafParts, m.Fits ∧ m.text = t ∧ Leaf.read? t = some m.leaf ∧
      Leaf.read? m.canonical.text = some m.canonical.leaf ∧
      (Operator.ofWritten? m.written = none ↔
        ∃ c ∈ m.written, IsForeignCapital c) ∧
      ∀ r, ((∀ c ∈ m.written, ¬ IsForeignCapital c) →
          condition t r = condition m.canonical.text r) ∧
        ((∃ c ∈ m.written, IsForeignCapital c) →
          condition t r = .ok false) := by
  obtain ⟨k, hk, rfl⟩ := ht
  obtain ⟨leaf, hleaf⟩ := Option.isSome_iff_exists.1 hk.read?_isSome
  obtain ⟨m, hm, htext, rfl⟩ := Leaf.exists_parts hleaf
  have hread : Leaf.read? m.text = some m.leaf := by rw [htext, hleaf]
  have hmeant : (∀ c ∈ m.written, ¬ IsForeignCapital c) →
      Operator.ofWritten? m.written = some m.op :=
      Operator.ofWritten?_of_spells hm.spells
  have hnone : (∃ c ∈ m.written, IsForeignCapital c) →
      Operator.ofWritten? m.written = none :=
    fun ⟨_, hc, hforeign⟩ => Operator.ofWritten?_of_foreign hc hforeign
  have hcanonical : Leaf.read? m.canonical.text = some m.canonical.leaf :=
    hm.read?_canonical hread
  refine ⟨m, hm, htext, hleaf, hcanonical, ⟨fun h => ?_, hnone⟩,
    fun r => ⟨fun h => ?_, fun h => ?_⟩⟩
  · refine Classical.byContradiction fun hn => ?_
    rw [hmeant fun c hc hforeign => hn ⟨c, hc, hforeign⟩] at h
    cases h
  · have hself : Operator.ofWritten? m.canonical.written = some m.op :=
      m.op.ofWritten?_spelling
    have hsame : m.leaf.holds r = m.canonical.leaf.holds r := by
      simp only [Leaf.holds, LeafParts.leaf, hmeant h, hself]
      rfl
    rw [condition, condition, hleaf, hcanonical]
    exact hsame
  · rw [condition, hleaf]
    show m.leaf.holds r = .ok false
    simp only [Leaf.holds, LeafParts.leaf, hnone h]
    exact ite_self _

/-- A leaf with the sign of the kelvin in its operator. -/
def kelvinLeaf : LeafParts :=
  ⟨[], "a".toText, " ".toText, .like, ['l', 'i', .ofNat 0x212A, 'e'],
    " x".toText⟩

theorem condition_eq_canonical_kelvin :
    (∃ m : LeafParts, m.Fits ∧ m.text = kelvinLeaf.text) ∧
      ∀ r, condition kelvinLeaf.text r = .ok false := by
  have hfits : kelvinLeaf.Fits := by constructor <;> decide
  obtain ⟨m, _, _, hread, _, _, hjudged⟩ :=
    condition_eq_canonical ⟨kelvinLeaf, hfits, rfl⟩
  have hleaf : Leaf.read? kelvinLeaf.text = some kelvinLeaf.leaf := by
    decide +kernel
  rw [hleaf, Option.some.injEq] at hread
  have hwritten : kelvinLeaf.written = m.written := congrArg Leaf.operator hread
  refine ⟨⟨kelvinLeaf, hfits, rfl⟩, fun r => (hjudged r).2 ?_⟩
  rw [← hwritten]
  decide

/-- A leaf with a dotted I in its operator. -/
def dottedLeaf : LeafParts :=
  ⟨[], "a".toText, " ".toText, .like, ['L', .ofNat 0x130, 'K', 'E'],
    " x".toText⟩

/-- The leaf is read, and is not judged as with the canonical operator. -/
theorem condition_dottedLeaf :
    dottedLeaf.Fits ∧ Leaf.read? dottedLeaf.text = some dottedLeaf.leaf ∧
      condition dottedLeaf.text (.ofFields [("a".toText, .text "x".toText)]) =
        .ok false ∧
      condition dottedLeaf.canonical.text
          (.ofFields [("a".toText, .text "x".toText)]) =
        .ok true := by
  refine ⟨?_, ?_, ?_, ?_⟩
  · constructor <;> decide
  · decide +kernel
  · rfl
  · rfl

end Filter

end RowSql

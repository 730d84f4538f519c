import RowSql.Proofs.Filter.Conjunction
import RowSql.Proofs.Filter.Inequality
import RowSql.Proofs.Filter.Pattern
import RowSql.Proofs.Number.Integers

/-!
# Lists, equality and patterns

A list is asked for the text of a value and for nothing else. So if the text is
in the list, it is one of its items, and it is left to see that a value is equal
to its own text and that every text is covered by itself as a pattern. The first
is not plain, because equality may turn both sides to numbers: the text of an
integer is read as the number that the integer is rounded to. In the second each
character of the pattern stands for itself, `%` and `_` among others.
-/

namespace RowSql

open Text

/-- A text, a boolean or an integer in range. -/
def Value.Plain : Value → Prop
  | .boolean _ | .text _ => True
  | .integer n => (Binary64.ofInt n).isFinite = true
  | .null | .double _ | .decimal _ | .array _ | .object _ => False

instance : DecidablePred Value.Plain := fun a =>
  match a with
  | .boolean _ | .text _ => .isTrue trivial
  | .integer n =>
      inferInstanceAs (Decidable ((Binary64.ofInt n).isFinite = true))
  | .null | .double _ | .decimal _ | .array _ | .object _ => .isFalse id

namespace Filter

variable {f x t text : Text} {r : Record} {a : Value}
  {items : List (CodePoint × Text)}

/-! ## A value and its text

Equality and patterns look at a value differently, and both say yes to its own
text. For an integer that takes the fact that its digits are read as the number
it is rounded to. -/

theorem number?_text_ofInt {n : Int} (h : (Binary64.ofInt n).isFinite = true) :
    (Value.text (Text.ofInt n)).number? = .ok (some (.ofInt n)) := by
  rw [Value.number?, Binary64.ofField?_ofInt, Option.filter_some, if_pos h]

/-- A plain value has a text. -/
theorem asText_eq (h : a.Plain) : a.asText = .ok a.toText := by
  refine Value.Short.asText_eq ?_
  cases a with
  | null | double _ | decimal _ | array _ | object _ => exact absurd h id
  | boolean _ | text _ => trivial
  | integer n => exact Value.shortInt_of_isFinite h

/-- A plain value is equal to its text. -/
theorem equal_toText (h : a.Plain) : a.equal (.text a.toText) = .ok true := by
  cases a with
  | null | double _ | decimal _ | array _ | object _ => exact absurd h id
  | boolean b => cases b <;> decide +kernel
  | integer n =>
      have hfinite : (Binary64.ofInt n).isFinite = true := h
      have hnumber : (Value.integer n).number? = .ok (some (.ofInt n)) := by
        rw [Value.number?, Binary64.ofInt?, if_pos hfinite]
        rfl
      obtain ⟨i, hi⟩ := Binary64.exists_place? hfinite
      rw [Value.toText,
        Value.equal_of_numbers hnumber (number?_text_ofInt hfinite),
        Binary64.eq_eq_decide hi hi, decide_eq_true rfl]
  | text t => exact equal_text_self t

theorem standsFor_self (c : CodePoint) : StandsFor c [c] := by
  by_cases hrun : c = '%'
  · subst hrun
    exact .run _
  · by_cases hone : c = '_'
    · subst hone
      exact .one _
    · exact .letter hrun hone (beq_self_eq_true _)

/-- A text as a pattern covers itself. -/
theorem covers_self (t : Text) : (Pattern.ofText t).covers t = true := by
  induction t with
  | nil => rfl
  | cons c t ih =>
      exact Pattern.covers_ofChar.2 ⟨[c], t, rfl, standsFor_self c, ih⟩

/-! ## Lists

The items of a list are the texts between its quotes. So the text that is found
in the list is one that the other two operators can be given. -/

/-- Texts, each in its quotes, as a list. -/
def listed (items : List (CodePoint × Text)) : Text :=
  parenthesise (join ", ".toText (items.map fun i => between i.1 i.2))

theorem listItems?_listed (h : ∀ i ∈ items, Encloses i.1 i.2) :
    listItems? (listed items) = some (items.map Prod.snd) := by
  have hentries : ∀ t ∈ items.map fun i => between i.1 i.2, IsEntry t :=
    List.forall_mem_map.2 fun i hi => Statement.isEntry_quoted (h i hi)
  rw [listed, listItems?_parenthesise, Statement.items_entries hentries,
    List.map_map]
  exact congrArg some
    (List.map_congr_left fun i hi => stripQuotes_between (h i hi).quote i.2)

/-- If a plain value is in a list of quoted texts, it is equal to one of them,
and that one covers it as a pattern, in whatever quotes the texts stand and
whatever they hold. -/
theorem exists_item_of_within (hf : Statement.IsField f)
    (hitems : ∀ i ∈ items, Encloses i.1 i.2)
    (htext : IsSpaced f x (listed items) text) (hx : Operator.within.InCase x)
    (ha : (r.value f).Plain) (h : condition text r = .ok true) :
    ∃ i ∈ items, ∀ texts, Conditions f i.1 i.2 texts →
      condition (texts .equal) r = .ok true ∧
      condition (texts .like) r = .ok true := by
  have hread : Leaf.read? text = some ⟨f, x, listed items⟩ :=
    Leaf.read?_spaced htext hf hx.spells (trimmed_parenthesise _)
      (isLeafValue_parenthesise _)
  have hpresent : (r.value f).isPresent = true := by
    refine Value.isPresent_of_ne_null fun hnull => ?_
    rw [hnull] at ha
    exact ha
  have hshown := asText_eq ha
  rw [condition_eq_judge hread hx.ofWritten?_eq hpresent, Operator.judge,
    hshown] at h
  have hmem : (r.value f).toText ∈ items.map Prod.snd := by
    have hcontains := Except.ok.inj h
    rwa [listItems?_listed hitems, Option.getD_some, List.contains_iff_mem]
      at hcontains
  obtain ⟨i, hi, heq⟩ := List.mem_map.1 hmem
  refine ⟨i, hi, fun texts htexts => ?_⟩
  have hjudge (op : Operator) :
      condition (texts op) r = op.judge (r.value f) (between i.1 i.2) :=
    condition_eq_judge (htexts.read?_eq hf (hitems i hi) op)
      op.ofWritten?_spelling hpresent
  have hstrip : stripQuotes (between i.1 i.2) = (r.value f).toText := by
    rw [stripQuotes_between (hitems i hi).quote, heq]
  constructor
  · rw [hjudge, Operator.judge, hstrip]
    exact equal_toText ha
  · rw [hjudge, Operator.judge, hstrip, hshown]
    exact congrArg Except.ok (covers_self _)

/-- A text with wildcards in it, in quotes of its own. -/
theorem exists_item_of_within_wildcards :
    ∃ i ∈ [(CodePoint.char '"', "7".toText), (.char '\'', "5\"_%".toText)],
      ∀ texts, Conditions "a".toText i.1 i.2 texts →
        condition (texts .equal)
            (.ofFields [("a".toText, .text "5\"_%".toText)]) = .ok true ∧
        condition (texts .like)
            (.ofFields [("a".toText, .text "5\"_%".toText)]) = .ok true := by
  have htext : IsSpaced "a".toText "IN".toText
      (listed [(.char '"', "7".toText), (.char '\'', "5\"_%".toText)])
      "a IN (\"7\", '5\"_%')".toText :=
    ⟨[], " ".toText, " ".toText, [], rfl,
      by decide, by decide, by decide, by decide⟩
  exact exists_item_of_within (by decide) (by decide) htext (by decide)
    (by decide) (by decide)

end Filter

end RowSql

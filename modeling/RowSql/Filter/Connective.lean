import RowSql.Text.CaseFold
import RowSql.Text.Scan
import RowSql.Text.Upper

/-!
# Connectives

A filter is cut at the words AND and OR that stand outside of quotes and of
parentheses with blanks on both sides. The words are found in any letter case.
Around a term any number of pairs of parentheses may stand, which are taken off
without asking whether they belong together.
-/

namespace RowSql.Filter

/-- What follows the blanks at the head of a text, if there is at least one. -/
def afterBlanks? : Text → Option Text
  | [] => none
  | c :: s => if isBlank c then some (Text.trimLeft s) else none

/-- What follows a connective at the head of a text: blanks, the word, and
blanks again. As many blanks as possible are read before the word. -/
def afterConnective? (word : Text) : Text → Option Text
  | [] => none
  | c :: s =>
    if isBlank c then
      -- the word is looked for behind this blank only if it is not behind a
      -- later one
      match afterConnective? word s with
      | some rest => some rest
      | none => (afterWord? word s).bind afterBlanks?
    else none

theorem length_trimLeft_le (t : Text) : (Text.trimLeft t).length ≤ t.length :=
  (List.dropWhile_sublist isBlank).length_le

theorem length_of_afterWord? {word t rest : Text}
    (h : afterWord? word t = some rest) :
    rest.length ≤ t.length := by
  induction word generalizing t with
  | nil => cases h; exact Nat.le_refl _
  | cons w ws ih =>
    cases t with
    | nil => cases h
    | cons c s =>
      rw [afterWord?] at h
      split at h
      · exact Nat.le_succ_of_le (ih h)
      · cases h

theorem length_of_afterBlanks? {t rest : Text}
    (h : afterBlanks? t = some rest) :
    rest.length < t.length := by
  cases t with
  | nil => cases h
  | cons c s =>
    rw [afterBlanks?] at h
    split at h
    · cases h; exact Nat.lt_succ_of_le (length_trimLeft_le s)
    · cases h

theorem length_of_afterConnective? {word t rest : Text}
    (h : afterConnective? word t = some rest) : rest.length < t.length := by
  induction t with
  | nil => cases h
  | cons c s ih =>
    rw [afterConnective?] at h
    split at h
    · split at h
      · next r hr => cases h; exact Nat.lt_succ_of_lt (ih hr)
      · obtain ⟨u, hu, hr⟩ := Option.bind_eq_some_iff.1 h
        have h1 := length_of_afterWord? hu
        have h2 := length_of_afterBlanks? hr
        exact Nat.lt_succ_of_lt (Nat.lt_of_lt_of_le h2 h1)
    · cases h

/-- Cuts a text at the connectives that stand outside of quotes and parentheses.
The result has one piece more than there were cuts. -/
def cutAtWord (word : Text) (st : Scan) : Text → List Text
  | [] => [[]]
  | c :: s =>
    match _h : if (st.step c).atTop then afterConnective? word (c :: s)
      else none with
    -- of a connective the scan sees no more than its first blank
    | some rest => [] :: cutAtWord word (st.step c) rest
    | none => Text.consHead c (cutAtWord word (st.step c) s)
termination_by t => t.length
decreasing_by
  · split at _h
    · exact length_of_afterConnective? _h
    · cases _h
  · exact Nat.lt_succ_self _

/-- The terms between the connectives of one kind. There is always one: a blank
filter is one empty term. -/
def splitLogical (operator t : Text) : List Text :=
  match Text.trimPieces (cutAtWord (upper operator) .start t) with
  | [] => [[]]
  | p :: ps => p :: ps

/-- The inside of a text that an opening parenthesis begins and a closing one
ends. -/
def inside? : Text → Option Text
  | [] => none
  | c :: s =>
    if c = '(' ∧ s.getLast? = some (.char ')') then some s.dropLast else none

theorem length_of_inside? {t u : Text} (h : inside? t = some u) :
    u.length < t.length := by
  cases t with
  | nil => cases h
  | cons c s =>
    rw [inside?] at h
    split at h
    · cases h; simp only [List.length_dropLast, List.length_cons]; omega
    · cases h

theorem length_trim_le (t : Text) : (Text.trim t).length ≤ t.length := by
  have h :=
    (List.dropWhile_sublist (l := (Text.trimLeft t).reverse) isBlank).length_le
  have h' := length_trimLeft_le t
  simp only [Text.trim, Text.trimRight, List.length_reverse] at h ⊢
  omega

/-- A text without blanks and without pairs of parentheses around it. -/
def unwrapParens (t : Text) : Text :=
  match _h : inside? (Text.trim t) with
  | some u => unwrapParens u
  | none => Text.trim t
termination_by t.length
decreasing_by exact Nat.lt_of_lt_of_le (length_of_inside? _h) (length_trim_le t)

end RowSql.Filter

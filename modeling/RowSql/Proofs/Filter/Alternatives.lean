import Mathlib.Data.List.Basic
import RowSql.Proofs.Filter.Disjunction
import RowSql.Proofs.Filter.Division

/-!
# Filters joined by OR

A filter in front of OR need not be well formed. It has to be closed, so that
the OR is seen, and it must not end in a word OR of its own, which would be read
in place of the other. Then the branches of two filters with OR between them are
the branches of the one and those of the other, and so is what they find of a
record, an error included. Where no leaf fails, it follows that neither the
order of such filters nor their grouping matters.
-/

namespace RowSql.Filter

open Text

/-- Two filters with OR between them. -/
def either (s t : Text) : Text :=
  s ++ " OR ".toText ++ t

/-- What can stand in front of OR: any trimmed text that is closed and in which
the word OR, in any letter case, is not the last one. -/
structure IsAlternative (t : Text) : Prop where
  ne_nil : t ≠ []
  trimmed : Trimmed t
  closed : (Scan.start.run t).atTop = true
  ends : ¬ EndsWithWord "OR".toText t

instance (t : Text) : Decidable (IsAlternative t) :=
  decidable_of_iff (t ≠ [] ∧ Trimmed t ∧ (Scan.start.run t).atTop = true ∧
      ¬ EndsWithWord "OR".toText t)
    ⟨fun h => ⟨h.1, h.2.1, h.2.2.1, h.2.2.2⟩, fun h => ⟨h.1, h.2, h.3, h.4⟩⟩

/-- Filters in order, with OR between neighbours, put together in any
grouping. -/
inductive Grouped : List Text → Text → Prop
  | single (t : Text) : Grouped [t] t
  | either {ss ts : List Text} {s t : Text} (hs : Grouped ss s)
      (ht : Grouped ts t) :
      Grouped (ss ++ ts) (either s t)

/-- No leaf of a filter fails on a record. -/
def Judged (t : Text) (r : Record) : Prop :=
  ∀ b ∈ branches t, ∀ l ∈ leaves b, ∃ v, condition l r = .ok v

instance (l : Text) (r : Record) : Decidable (∃ v, condition l r = .ok v) :=
  decidable_of_iff ((condition l r).isOk = true) <| by
    cases condition l r with
    | error e => exact ⟨nofun, nofun⟩
    | ok v => exact ⟨fun _ => ⟨v, rfl⟩, fun _ => rfl⟩

instance (t : Text) (r : Record) : Decidable (Judged t r) :=
  inferInstanceAs
    (Decidable (∀ b ∈ branches t, ∀ l ∈ leaves b, ∃ v, condition l r = .ok v))

variable {s t u : Text} {ss ts : List Text} {r : Record}

/-! ## Two filters

A closed filter is divided in front of OR as it is alone, so the branches of the
whole are those of the two filters, and asking them in turn is asking the one
filter and then the other. -/

theorem isConnective_or : IsConnective "OR".toText " OR ".toText :=
  ⟨[.char ' '], "OR".toText, [.char ' '], rfl, blanks_space,
    List.cons_ne_nil _ _, spells_self _, blanks_space, List.cons_ne_nil _ _⟩

theorem branches_either (hs : IsAlternative s) (hne : t ≠ []) (ht : Trimmed t) :
    branches (either s t) = branches s ++ branches t :=
  splitLogical_append isKeyword_or (by decide) hs.trimmed.last hs.ne_nil hs.ends
    hs.closed
    isConnective_or ht hne

theorem anyHolds_append {α ε : Type} (test : α → Except ε Bool)
    (as bs : List α) :
    anyHolds test (as ++ bs) =
      (do if ← anyHolds test as then return true else anyHolds test bs) := by
  induction as with
  | nil => rfl
  | cons a as ih =>
      rw [List.cons_append, anyHolds, anyHolds, ih]
      cases test a with
      | error e => rfl
      | ok v => cases v <;> rfl

/-- The second filter is asked when the first one does not hold, and only
then. -/
theorem holds_either (hs : IsAlternative s) (hne : t ≠ []) (ht : Trimmed t)
    (r : Record) :
    holds (either s t) r =
      (do if ← holds s r then return true else holds t r) := by
  rw [holds, branches_either hs hne ht, anyHolds_append]
  rfl

/-- Where no leaf fails there is an answer. -/
theorem Judged.exists_holds (h : Judged t r) : ∃ v, holds t r = .ok v := by
  have hbranch : ∀ b ∈ branches t, ∃ v, branchHolds b r = .ok v :=
    fun b hb => by
    obtain ⟨v, hv, _⟩ := allHold_eq_ok (h b hb)
    exact ⟨v, hv⟩
  obtain ⟨v, hv, _⟩ := anyHolds_eq_ok hbranch
  exact ⟨v, hv⟩

/-! ## Any number of filters

The induction takes one filter off at the front. What is left need not be an
alternative, since only what stands in front of an OR has to be closed, and so
nothing is asked of the last filter. -/

theorem Grouped.ne_nil (h : Grouped ts t) : ts ≠ [] := by
  induction h with
  | single t => exact List.cons_ne_nil t []
  | either hs ht ihs iht => exact List.append_ne_nil_of_left_ne_nil ihs _

theorem join_append (separator : Text) (hs : ss ≠ []) (ht : ts ≠ []) :
    join separator (ss ++ ts) = join separator ss ++ separator ++
      join separator ts := by
  induction ss with
  | nil => exact absurd rfl hs
  | cons s ss ih =>
      cases ss with
      | nil =>
          obtain ⟨t, ts, rfl⟩ := List.exists_cons_of_ne_nil ht
          rfl
      | cons u ss =>
          have h := ih (List.cons_ne_nil u ss)
          rw [List.cons_append] at h
          rw [List.cons_append, List.cons_append, join, h, join]
          simp only [List.append_assoc]

/-- The grouping leaves no trace in the text. -/
theorem Grouped.eq_join (h : Grouped ts t) : t = join " OR ".toText ts := by
  induction h with
  | single t => rfl
  | either hs ht ihs iht =>
      rw [join_append _ hs.ne_nil ht.ne_nil, ← ihs, ← iht, Filter.either]

theorem trimmed_join_or (hne : ts ≠ []) (h : ∀ t ∈ ts, IsAlternative t) :
    join " OR ".toText ts ≠ [] ∧ Trimmed (join " OR ".toText ts) := by
  induction ts with
  | nil => exact absurd rfl hne
  | cons t ts ih =>
      rw [List.forall_mem_cons] at h
      cases ts with
      | nil => exact ⟨h.1.ne_nil, h.1.trimmed⟩
      | cons u ts =>
          obtain ⟨hrest, htrimmed⟩ := ih (List.cons_ne_nil u ts) h.2
          exact ⟨List.append_ne_nil_of_right_ne_nil _ hrest,
            h.1.trimmed.append h.1.ne_nil htrimmed hrest⟩

/-- Filters joined by OR are asked one after the other. The induction takes the
first of them off, since what is joined in front of the last need not be an
alternative again. -/
theorem holds_join_or (hne : ts ≠ []) (h : ∀ t ∈ ts, IsAlternative t)
    (r : Record) :
    holds (join " OR ".toText ts) r = anyHolds (holds · r) ts := by
  induction ts with
  | nil => exact absurd rfl hne
  | cons t ts ih =>
      rw [List.forall_mem_cons] at h
      rw [anyHolds]
      cases ts with
      | nil =>
          show holds t r = _
          cases holds t r with
          | error e => rfl
          | ok v => cases v <;> rfl
      | cons u ts =>
          obtain ⟨hrest, htrimmed⟩ :=
            trimmed_join_or (List.cons_ne_nil u ts) h.2
          rw [← ih (List.cons_ne_nil u ts) h.2,
            ← holds_either h.1 hrest htrimmed]
          rfl

theorem Grouped.exists_holds (h : Grouped ts t)
    (hts : ∀ u ∈ ts, IsAlternative u ∧ Judged u r) :
    ∃ v, holds t r = .ok v ∧ (v = true ↔ ∃ u ∈ ts, holds u r = .ok true) := by
  rw [h.eq_join, holds_join_or h.ne_nil fun u hu => (hts u hu).1]
  exact anyHolds_eq_ok fun u hu => (hts u hu).2.exists_holds

/-- On a record on which no leaf fails, a closed filter and any other with OR
between them hold when one of the two does. Closed filters so put together in
any order and grouping find the same. -/
theorem holds_alternatives (r : Record) :
    (∀ s t, IsAlternative s → t ≠ [] → Trimmed t → Judged s r → Judged t r →
      ∃ a b, holds s r = .ok a ∧ holds t r = .ok b ∧
        holds (either s t) r = .ok (a || b)) ∧
    ∀ ss ts s t, (∀ u ∈ ss, IsAlternative u ∧ Judged u r) → ss.Perm ts →
      Grouped ss s → Grouped ts t →
      ∃ v, holds s r = .ok v ∧ holds t r = .ok v ∧
        (v = true ↔ ∃ u ∈ ss, holds u r = .ok true) := by
  constructor
  · intro s t hs hne ht hjs hjt
    obtain ⟨a, ha⟩ := hjs.exists_holds
    obtain ⟨b, hb⟩ := hjt.exists_holds
    refine ⟨a, b, ha, hb, ?_⟩
    rw [holds_either hs hne ht, ha, hb]
    cases a <;> rfl
  · intro ss ts s t hss hperm hs ht
    obtain ⟨v, hv, hiff⟩ := hs.exists_holds hss
    obtain ⟨w, hw, hiff'⟩ :=
      ht.exists_holds fun u hu => hss u (hperm.mem_iff.2 hu)
    have hsame : v = w := by
      rw [Bool.eq_iff_iff, hiff, hiff']
      exact exists_congr fun u => and_congr_left' hperm.mem_iff
    exact ⟨v, hv, hsame ▸ hw, hiff⟩

/-- Filters that are hardly such: one that dips below the top and has an OR of
its own, a lone word OR, and a leaf with an OR in quotes. -/
def oddAlternatives : List Text :=
  [")( or a = 1".toText, "OR".toText, "b LIKE 'x OR %'".toText]

theorem holds_alternatives_odd :
    holds ")( or a = 1 OR OR OR b LIKE 'x OR %'".toText
        (.ofFields [("b".toText, .text "x or (".toText)]) = .ok true ∧
      holds "b LIKE 'x OR %' OR )( or a = 1 OR OR".toText
        (.ofFields [("b".toText, .text "x or (".toText)]) = .ok true ∧
      holds ")( or a = 1 OR 'unclosed (".toText
        (.ofFields [("a".toText, .text "1".toText)]) = .ok true := by
  obtain ⟨-, hany⟩ :=
    holds_alternatives (.ofFields [("b".toText, .text "x or (".toText)])
  obtain ⟨htwo, -⟩ :=
    holds_alternatives (.ofFields [("a".toText, .text "1".toText)])
  have hodd : ∀ u ∈ oddAlternatives, IsAlternative u ∧
      Judged u (.ofFields [("b".toText, .text "x or (".toText)]) := by
      decide +kernel
  have hleft :
      Grouped oddAlternatives ")( or a = 1 OR OR OR b LIKE 'x OR %'".toText :=
      .either (.either (.single ")( or a = 1".toText) (.single "OR".toText))
        (.single _)
  have hright :
      Grouped ["b LIKE 'x OR %'".toText, ")( or a = 1".toText, "OR".toText]
        "b LIKE 'x OR %' OR )( or a = 1 OR OR".toText :=
    .either (.single "b LIKE 'x OR %'".toText)
      (.either (.single ")( or a = 1".toText) (.single _))
  obtain ⟨v, hv, hw, hiff⟩ := hany _ _ _ _ hodd (by decide) hleft hright
  have htrue : v = true :=
    hiff.2 ⟨"b LIKE 'x OR %'".toText, by decide, by decide +kernel⟩
  subst htrue
  obtain ⟨a, b, ha, hb, hab⟩ :=
    htwo ")( or a = 1".toText "'unclosed (".toText (by decide)
      (by decide) (by decide) (by decide +kernel) (by decide +kernel)
  have hfirst :
      holds ")( or a = 1".toText (.ofFields [("a".toText, .text "1".toText)]) =
        .ok true := by decide +kernel
  rw [hfirst] at ha
  cases ha
  exact ⟨hv, hw, hab⟩

end RowSql.Filter

import Mathlib.Data.List.TakeWhile
import RowSql.Proofs.Statement.Cursor
import RowSql.Proofs.Text.Utf8
import RowSql.Statement.Parser

/-!
# What a statement is made of

Nothing is made up in reading a statement. The names and the values that it
writes are cut out of its text, so each of their characters stands there, and
its table is a name. What cuts them out is described by that alone: a cursor
moves on, a piece is a part of what was cut, and taking blanks or quotes off
adds nothing.
-/

namespace RowSql

/-! ## Parts of a text

Trimming, taking off quotes and cutting only ever leave out characters, which is
all that is said of them here. -/

namespace Text

variable {s t p : Text} {c : CodePoint}

theorem trimLeft_subset (t : Text) : trimLeft t ⊆ t :=
  (List.dropWhile_sublist isBlank).subset

theorem reverse_subset_iff : s.reverse ⊆ t ↔ s ⊆ t :=
  ⟨fun h _ hc => h (List.mem_reverse.2 hc),
    fun h _ hc => h (List.mem_reverse.1 hc)⟩

theorem trimRight_subset (t : Text) : trimRight t ⊆ t :=
  reverse_subset_iff.2 fun _ hc =>
    List.mem_reverse.1 ((List.dropWhile_sublist _).subset hc)

theorem trim_subset (t : Text) : trim t ⊆ t :=
  List.Subset.trans (trimRight_subset _) (trimLeft_subset t)

theorem dropQuote_subset (t : Text) : dropQuote t ⊆ t := by
  cases t with
  | nil => exact List.Subset.refl _
  | cons c s =>
      rw [dropQuote]
      split
      · exact List.subset_cons_self c s
      · exact List.Subset.refl _

theorem stripQuotes_subset (t : Text) : stripQuotes t ⊆ t :=
  reverse_subset_iff.2 (List.Subset.trans (dropQuote_subset _)
    (reverse_subset_iff.2 (dropQuote_subset t)))

theorem subset_of_mem_consHead {ps : List Text} (hs : ∀ p ∈ ps, p ⊆ s)
    (h : p ∈ consHead c ps) : p ⊆ c :: s := by
  cases ps with
  | nil =>
      rw [List.mem_singleton.1 h]
      exact List.cons_subset_cons c (List.nil_subset s)
  | cons q qs =>
      rw [List.forall_mem_cons] at hs
      rcases List.mem_cons.1 h with rfl | h
      · exact List.cons_subset_cons c hs.1
      · exact List.Subset.trans (hs.2 p h) (List.subset_cons_self c s)

theorem subset_of_mem_cutOutside {isDelimiter : CodePoint → Bool}
    {quote : Option CodePoint} (h : p ∈ cutOutside isDelimiter quote t) :
    p ⊆ t := by
  induction t generalizing quote p with
  | nil =>
      rw [List.mem_singleton.1 h]
      exact List.Subset.refl _
  | cons c s ih =>
      rw [cutOutside] at h
      split at h
      · rcases List.mem_cons.1 h with rfl | h
        · exact List.nil_subset _
        · exact List.Subset.trans (ih h) (List.subset_cons_self c s)
      · exact subset_of_mem_consHead (fun _ hq => ih hq) h

theorem exists_of_mem_trimPieces {ps : List Text} (h : p ∈ trimPieces ps) :
    ∃ q ∈ ps, p = trim q := by
  induction ps with
  | nil => cases h
  | cons q qs ih =>
      cases qs with
      | nil =>
          rw [trimPieces] at h
          split at h
          · cases h
          · exact ⟨q, List.mem_cons_self, List.mem_singleton.1 h⟩
      | cons r rs =>
          rcases List.mem_cons.1 h with rfl | h
          · exact ⟨q, List.mem_cons_self, rfl⟩
          · obtain ⟨u, hu, hp⟩ := ih h
            exact ⟨u, List.mem_cons_of_mem q hu, hp⟩

/-- The items of a list are parts of it. -/
theorem subset_of_mem_items (h : p ∈ items t) : p ⊆ t := by
  obtain ⟨q, hq, rfl⟩ := exists_of_mem_trimPieces h
  exact List.Subset.trans (trim_subset q) (subset_of_mem_cutOutside hq)

theorem cutAt?_subset {separator : CodePoint} {a b : Text}
    (h : cutAt? separator t = some (a, b)) :
    a ⊆ t ∧ b ⊆ t := by
  induction t generalizing a with
  | nil => cases h
  | cons c s ih =>
      rw [cutAt?] at h
      split at h
      · cases h
        exact ⟨List.nil_subset _, List.subset_cons_self _ _⟩
      · obtain ⟨⟨u, v⟩, hcut, heq⟩ := Option.map_eq_some_iff.1 h
        cases heq
        exact ⟨List.cons_subset_cons c (ih hcut).1,
          List.Subset.trans (ih hcut).2 (List.subset_cons_self c s)⟩

end Text

/-! ## Cursors move on

What is behind a cursor after a reader is a suffix of what was behind it before.
A name that was read is a part of what was passed. -/

namespace Cursor

theorem rest_advance_suffix (c : Cursor) (n : Nat) :
    (c.advance n).rest <:+ c.rest := by
  rw [rest_advance]
  exact List.drop_suffix n c.rest

theorem rest_passed_suffix (c : Cursor) (n : Nat) :
    (c.skipBlanks.advance n).rest <:+ c.rest :=
  (c.skipBlanks.rest_advance_suffix n).trans (c.rest_advance_suffix _)

end Cursor

namespace Statement

open Text

variable {c d : Cursor}

theorem passWord_suffix {word : Text} (h : passWord word c = .ok d) :
    d.rest <:+ c.rest := by
  rw [passWord] at h
  split at h
  · next e he =>
      cases h
      have hd : (c.expectWord word).2 = d := congrArg Prod.snd he
      rw [← hd]
      exact c.rest_passed_suffix _
  · cases h

theorem passText_suffix {t : Text} (h : passText t c = .ok d) :
    d.rest <:+ c.rest := by
  simp only [passText, Cursor.expectText] at h
  split at h
  · next e he =>
      split at he
      · cases he
        cases h
        exact c.rest_passed_suffix _
      · cases he
  · cases h

theorem readName_suffix {qualified : Bool} {name : Text}
    (h : readName qualified c = .ok (name, d)) : d.rest <:+ c.rest := by
  simp only [readName, Cursor.identifier] at h
  split at h
  · next n e he =>
      split at he
      · cases he
      · cases he
        cases h
        exact c.rest_passed_suffix _
  · cases h

/-- What is read as an unqualified name is one. -/
theorem isName_of_readName {name : Text}
    (h : readName false c = .ok (name, d)) : IsName name := by
  simp only [readName, Cursor.identifier] at h
  split at h
  · next n e he =>
      split at he
      · cases he
      · next hne =>
          cases he
          cases h
          refine ⟨hne, fun a ha => ?_⟩
          have hword := List.mem_takeWhile_imp ha
          rwa [Bool.false_and, Bool.or_false] at hword
  · cases h

theorem required_eq_ok {α : Type} {x : Option α} {a : α}
    (h : required x = .ok a) : x = some a := by
  cases x with
  | none => cases h
  | some b => exact congrArg some (Except.ok.inj h)

/-! ## What is written

A statement is made of its text kind by kind, and the kind is that which its
reader was chosen for. -/

/-- The names that a statement writes, each with the text that it writes under
it. -/
def writes : Statement → List (Text × Text)
  | .insert s => s.columns.zip s.values
  | .update s => s.assignments
  | .select _ | .delete _ => []

/-- A table that is a name, and names and texts that are parts of a text. -/
structure IsMadeOf (s : Statement) (t : Text) : Prop where
  table : IsName s.table
  writes : ∀ f ∈ s.writes, f.1 ⊆ t ∧ f.2 ⊆ t

theorem readSelect_table {t : Text} {s : Select} (h : readSelect t = .ok s) :
    IsName s.table := by
  rw [readSelect] at h
  obtain ⟨⟨start, stop⟩, _, h⟩ := bind_eq_ok.1 h
  obtain ⟨columns, _, h⟩ := bind_eq_ok.1 h
  obtain ⟨⟨table, c⟩, hname, h⟩ := bind_eq_ok.1 h
  obtain ⟨⟨joins, c'⟩, _, h⟩ := bind_eq_ok.1 h
  obtain ⟨clauses, _, h⟩ := bind_eq_ok.1 h
  obtain ⟨order, _, h⟩ := bind_eq_ok.1 h
  obtain ⟨limit, _, h⟩ := bind_eq_ok.1 h
  cases h
  exact isName_of_readName hname

theorem isMadeOf_of_readInsert {t : Text} {s : Insert}
    (h : readInsert t = .ok s) :
    (Statement.insert s).IsMadeOf t := by
  rw [readInsert] at h
  obtain ⟨c1, h1, h⟩ := bind_eq_ok.1 h
  obtain ⟨⟨table, c2⟩, h2, h⟩ := bind_eq_ok.1 h
  obtain ⟨c3, h3, h⟩ := bind_eq_ok.1 h
  obtain ⟨⟨columnsText, behind⟩, h4, h⟩ := bind_eq_ok.1 h
  obtain ⟨c4, h5, h⟩ := bind_eq_ok.1 h
  obtain ⟨c5, h6, h⟩ := bind_eq_ok.1 h
  obtain ⟨_, _, h⟩ := bind_eq_ok.1 h
  obtain ⟨_, _, h⟩ := bind_eq_ok.1 h
  cases h
  have hc3 : c3.rest <:+ t :=
    (passText_suffix h3).trans
      ((readName_suffix h2).trans ((passWord_suffix h1).trans
      (List.drop_suffix _ t)))
  have hc5 : c5.rest <:+ t :=
    (passText_suffix h6).trans
      ((passWord_suffix h5).trans ((c3.rest_advance_suffix _).trans hc3))
  have hcolumns : columnsText ⊆ t :=
    List.Subset.trans (cutAt?_subset (required_eq_ok h4)).1 hc3.subset
  refine ⟨isName_of_readName h2, fun f hf => ?_⟩
  obtain ⟨hname, hvalue⟩ := List.of_mem_zip hf
  refine ⟨List.Subset.trans (subset_of_mem_items hname) hcolumns, ?_⟩
  obtain ⟨v, hv, heq⟩ := List.mem_map.1 hvalue
  rw [← heq]
  exact List.Subset.trans (stripQuotes_subset v)
    (List.Subset.trans (subset_of_mem_items hv)
    (List.Subset.trans (List.dropLast_subset _) hc5.subset))

theorem readAssignment?_subset {t : Text} {f : Text × Text}
    (h : readAssignment? t = some f) :
    f.1 ⊆ t ∧ f.2 ⊆ t := by
  obtain ⟨⟨a, b⟩, hcut, rfl⟩ := Option.map_eq_some_iff.1 h
  exact ⟨List.Subset.trans (trim_subset a) (cutAt?_subset hcut).1,
    List.Subset.trans (stripQuotes_subset _) (List.Subset.trans (trim_subset b)
      (cutAt?_subset hcut).2)⟩

theorem isMadeOf_of_readUpdate {t : Text} {s : Update}
    (h : readUpdate t = .ok s) :
    (Statement.update s).IsMadeOf t := by
  rw [readUpdate] at h
  obtain ⟨⟨table, c1⟩, h1, h⟩ := bind_eq_ok.1 h
  obtain ⟨c2, h2, h⟩ := bind_eq_ok.1 h
  obtain ⟨_, _, h⟩ := bind_eq_ok.1 h
  cases h
  have hc2 : c2.rest <:+ t :=
    (passWord_suffix h2).trans
      ((readName_suffix h1).trans (List.drop_suffix _ t))
  refine ⟨isName_of_readName h1, fun f hf => ?_⟩
  obtain ⟨p, hp, hread⟩ := List.mem_filterMap.1 hf
  have hpart : p ⊆ t := List.Subset.trans (subset_of_mem_items hp)
    (List.Subset.trans (List.take_subset _ _) hc2.subset)
  exact ⟨List.Subset.trans (readAssignment?_subset hread).1 hpart,
    List.Subset.trans (readAssignment?_subset hread).2 hpart⟩

theorem readDelete_table {t : Text} {s : Delete} (h : readDelete t = .ok s) :
    IsName s.table := by
  rw [readDelete] at h
  obtain ⟨c1, _, h⟩ := bind_eq_ok.1 h
  obtain ⟨⟨table, c2⟩, hname, h⟩ := bind_eq_ok.1 h
  obtain ⟨clauses, _, h⟩ := bind_eq_ok.1 h
  cases h
  exact isName_of_readName hname

theorem kind_of_readAs {kind : Kind} {t : Text} {s : Statement}
    (h : readAs kind t = .ok s) :
    s.kind = kind := by
  cases kind <;>
    · obtain ⟨s, _, rfl⟩ := map_eq_ok h
      rfl

theorem isMadeOf_of_readAs {kind : Kind} {t : Text} {s : Statement}
    (h : readAs kind t = .ok s) :
    s.IsMadeOf t := by
  cases kind with
  | select =>
      obtain ⟨s, hs, rfl⟩ := map_eq_ok h
      exact ⟨readSelect_table hs, nofun⟩
  | insert =>
      obtain ⟨s, hs, rfl⟩ := map_eq_ok h
      exact isMadeOf_of_readInsert hs
  | update =>
      obtain ⟨s, hs, rfl⟩ := map_eq_ok h
      exact isMadeOf_of_readUpdate hs
  | delete =>
      obtain ⟨s, hs, rfl⟩ := map_eq_ok h
      exact ⟨readDelete_table hs, nofun⟩

theorem bare_subset (t : Text) : bare t ⊆ t := by
  rw [bare, dropTerminator]
  split
  · exact List.Subset.trans (trimRight_subset _)
      (List.Subset.trans (List.dropLast_subset _) (trim_subset t))
  · exact trim_subset t

/-- What a text is read as has been read as the kind that it is. -/
theorem readAs_of_parse {t : Text} {s : Statement} (h : parse t = .ok s) :
    readAs s.kind (bare t) = .ok s := by
  rw [parse] at h
  split at h
  · cases h
  · split at h
    · next kind _ =>
        cases hread : readAs kind (bare t) with
        | error e =>
            rw [hread] at h
            cases h
        | ok s' =>
            rw [hread] at h
            cases h
            rw [kind_of_readAs hread, hread]
    · cases h

/-- A statement is made of its text. -/
theorem isMadeOf_of_parse {t : Text} {s : Statement} (h : parse t = .ok s) :
    s.IsMadeOf t := by
  have hmade := isMadeOf_of_readAs (readAs_of_parse h)
  exact ⟨hmade.table,
    fun f hf => ⟨List.Subset.trans (hmade.writes f hf).1 (bare_subset t),
    List.Subset.trans (hmade.writes f hf).2 (bare_subset t)⟩⟩

end Statement

end RowSql

import RowSql.Proofs.Database.Stored
import RowSql.Proofs.Statement.Outcomes
import RowSql.Proofs.Store.Replacement

/-!
# What errors say

The message of a statement that fails is made of words, of numbers, of the names
of tables and of the statement itself. Nothing that a file holds comes into it:
what is wrong with a file is told by what was expected and by where. So the
failure of a statement of characters is told in characters, whatever the files
hold.
-/

namespace RowSql

variable {t table : Text} {dir : Directory}

/-! ## Words and places

What is put together from fixed words and from numbers is of characters. -/

namespace Text

theorem ofChars_hexDigit (n : Nat) : OfChars [hexDigit n] :=
  ofChars_cons.2 ⟨⟨_, rfl⟩, ofChars_nil⟩

theorem ofChars_tooManyDigits (n : Nat) : (tooManyDigits n).OfChars := by
  simp only [tooManyDigits, ofChars_append, ofChars_toText, ofChars_ofNat,
    and_self]

theorem ofChars_tooManyDigitsToWrite : tooManyDigitsToWrite.OfChars := by
  simp only [tooManyDigitsToWrite, ofChars_append, ofChars_toText,
    ofChars_ofNat, and_self]

end Text

open Text

theorem Overflow.ofChars_message (e : Overflow) : e.message.OfChars := by
  cases e with
  | integerTooLarge => exact ofChars_toText _
  | integerTooLong => exact ofChars_tooManyDigitsToWrite

theorem Json.ofChars_place (t : Text) (pos : Nat) : (place t pos).OfChars := by
  simp only [place, ofChars_append, ofChars_toText, ofChars_ofNat, and_self]

theorem Json.Problem.ofChars_message (p : Problem) : p.message.OfChars := by
  cases p <;> exact ofChars_toText _

theorem Json.WriteFault.ofChars_message (f : WriteFault) :
    f.message.OfChars := by
  cases f with
  | decimal => exact ofChars_toText _
  | integerTooLong => exact ofChars_tooManyDigitsToWrite

theorem Utf8.Fault.ofChars_message (f : Fault) : f.message.OfChars := by
  have hreason : f.reason.message.OfChars := by
    cases f.reason <;> exact ofChars_toText _
  refine ofChars_append.2 ⟨ofChars_append.2 ⟨ofChars_append.2
    ⟨ofChars_toText _, ?_⟩, ofChars_toText _⟩, hreason⟩
  split
  · refine ofChars_append.2 ⟨ofChars_append.2 ⟨ofChars_append.2
      ⟨ofChars_toText _, ?_⟩, ofChars_toText _⟩, ofChars_ofNat _⟩
    exact ofChars_cons.2 ⟨⟨_, rfl⟩, ofChars_hexDigit _⟩
  · exact ofChars_append.2
      ⟨ofChars_append.2 ⟨ofChars_toText _, ofChars_ofNat _⟩,
      ofChars_cons.2 ⟨⟨_, rfl⟩, ofChars_ofNat _⟩⟩

/-! ## Statements that are not read

An error names the first word in upper case, or the whole statement. No
character has a surrogate in its upper-case form. -/

namespace CodePoint

theorem exists_char_ofNat {n : Nat} (h : n < 0xD800 ∨ 0xE000 ≤ n) :
    ∃ a, ofNat n = .char a :=
  ⟨_, dif_neg (by omega)⟩

theorem exists_char_applyRuns {runs : List CaseRun} (a : Char)
    (h : ∀ r ∈ runs, r.last + r.shift < 0xD800 ∨ 0xE000 ≤ r.first + r.shift) :
    ∃ b, applyRuns runs (.char a) = .char b := by
  rw [applyRuns]
  split
  · next r hr =>
      have hcovers := List.find?_some hr
      simp only [CaseRun.covers, Bool.and_eq_true, decide_eq_true_eq] at hcovers
      have hmoved := h r (List.mem_of_find?_eq_some hr)
      exact exists_char_ofNat (by omega)
  · exact ⟨a, rfl⟩

theorem ofChars_upperChar (a : Char) : Text.OfChars (upperChar (.char a)) := by
  have hcodes : ∀ p ∈ upperExpansions, ∀ n ∈ p.2, n < 0xD800 ∨ 0xE000 ≤ n := by
    decide +kernel
  have hruns : ∀ r ∈ upperRuns, r.last + r.shift < 0xD800 ∨
      0xE000 ≤ r.first + r.shift := by
    decide +kernel
  rw [upperChar]
  split
  · exact ofChars_cons.2 ⟨⟨_, rfl⟩, ofChars_nil⟩
  · split
    · next codes hlookup =>
        have hmem := mem_of_lookup_eq_some hlookup
        exact List.forall_mem_map.2 fun n hn =>
          exists_char_ofNat (hcodes _ hmem n hn)
    · exact ofChars_cons.2 ⟨exists_char_applyRuns a hruns, ofChars_nil⟩

end CodePoint

theorem Text.ofChars_upper (h : t.OfChars) : OfChars (upper t) := by
  intro c hc
  obtain ⟨d, hd, hc⟩ := List.mem_flatMap.1 hc
  obtain ⟨a, rfl⟩ := h d hd
  exact CodePoint.ofChars_upperChar a c hc

theorem Statement.ofChars_of_parse_eq_error (ht : t.OfChars) {e : ParseError}
    (h : parse t = .error e) : e.message.OfChars := by
  have hbare : (bare t).OfChars := ht.of_subset (bare_subset t)
  have hword : (leadingWord (bare t)).OfChars :=
    ofChars_upper (hbare.of_subset (List.takeWhile_sublist _).subset)
  have hunsupported {w : Text} (hw : w.OfChars) :
      (ParseError.unsupported w).message.OfChars := by
    refine ofChars_append.2 ⟨ofChars_toText _, ?_⟩
    split
    · exact ofChars_toText _
    · exact hw
  rw [parse] at h
  split at h
  · cases h
    exact hunsupported ofChars_nil
  · split at h
    · next kind _ =>
        cases hread : readAs kind (bare t) with
        | ok s =>
            rw [hread] at h
            cases h
        | error f =>
            rw [hread] at h
            cases h
            cases f with
            | shape =>
                have hkind : kind.word.OfChars := by
                  cases kind <;> exact ofChars_toText _
                exact ofChars_append.2 ⟨ofChars_append.2 ⟨ofChars_append.2
                  ⟨ofChars_toText _, hkind⟩, ofChars_toText _⟩, hbare⟩
            | limitTooLong digits => exact ofChars_tooManyDigits digits
    · cases h
      exact hunsupported hword

/-! ## Statements that are not run

A table that cannot be read is named, and all names of tables in a statement are
words. -/

theorem Store.ofChars_of_load_eq_error (htable : table.OfChars) {e : StoreError}
    (h : load dir table = .error e) : e.message.OfChars := by
  rw [load] at h
  split at h
  · cases h
  · rw [rowsOfBytes] at h
    split at h
    · next f _ =>
        cases h
        exact f.ofChars_message
    · rw [rowsOfText] at h
      split at h
      · next fault _ =>
          cases h
          cases fault with
          | problem p left =>
              exact ofChars_append.2
                ⟨ofChars_append.2 ⟨ofChars_append.2 ⟨ofChars_append.2
                ⟨ofChars_append.2 ⟨ofChars_toText _, htable⟩, ofChars_toText _⟩,
                p.ofChars_message⟩, ofChars_toText _⟩, Json.ofChars_place _ _⟩
          | integerTooLong digits => exact ofChars_tooManyDigits digits
      · split at h
        · cases h
        · cases h
          exact ofChars_append.2 ⟨ofChars_append.2 ⟨ofChars_toText _, htable⟩,
            ofChars_toText _⟩

/-- A statement names tables by words. -/
theorem Statement.ofChars_of_parse {s : Statement} (h : parse t = .ok s) :
    ∀ table ∈ s.table :: s.joinedTables, table.OfChars := by
  refine List.forall_mem_cons.2 ⟨(isMadeOf_of_parse h).table.ofChars,
    fun table hjoined => ?_⟩
  cases s with
  | select s =>
      obtain ⟨s', hread, heq⟩ := map_eq_ok (readAs_of_parse h)
      cases heq
      obtain ⟨join, hjoin, rfl⟩ := List.mem_map.1 hjoined
      exact ((readFrom_of_readSelect hread).joins join hjoin).table.ofChars
  | insert _ | update _ | delete _ => cases hjoined

namespace Query

open Statement

variable {ε α : Type} {tables : Tables ε} {rows : List Record} {e : ε}

theorem mapError_overflow_ne (x : Except Overflow α) (e : ε) :
    x.mapError QueryError.overflow ≠ .error (.table e) := by
  cases x <;> exact nofun

/-- A table that cannot be looked up is one that is joined. -/
theorem exists_of_joinAll {joins : List Join}
    (h : joinAll tables joins rows = .error (.table e)) :
    ∃ join ∈ joins, tables join.table = .error e := by
  induction joins generalizing rows with
  | nil => cases h
  | cons join joins ih =>
      rcases bind_eq_error.1 h with hstep | ⟨next, -, h⟩
      · rcases bind_eq_error.1 hstep with hright | ⟨right, -, hrows⟩
        · cases htable : tables join.table with
          | error e' =>
              rw [htable] at hright
              cases hright
              exact ⟨join, List.mem_cons_self, htable⟩
          | ok right =>
              rw [htable] at hright
              cases hright
        · exact absurd hrows (mapError_overflow_ne _ e)
      · obtain ⟨other, hother, htable⟩ := ih h
        exact ⟨other, List.mem_cons_of_mem join hother, htable⟩

theorem exists_of_run_eq_error {s : Statement}
    (h : run (some tables) s rows = .error (.table e)) :
    ∃ table ∈ s.joinedTables, tables table = .error e := by
  cases s with
  | select s =>
      rcases bind_eq_error.1 h with hsource | ⟨source, -, h⟩
      · rw [sourceRows.eq_def] at hsource
        split at hsource
        · cases hsource
        · cases hsource
        · next heq _ =>
            cases heq
            obtain ⟨join, hjoin, htable⟩ := exists_of_joinAll hsource
            exact ⟨join.table, List.mem_map_of_mem hjoin, htable⟩
      · rcases bind_eq_error.1 h with h | ⟨verdicts, -, h⟩
        · exact absurd h (mapError_overflow_ne _ e)
        · rcases bind_eq_error.1 h with h | ⟨ordered, -, h⟩
          · exact absurd h (mapError_overflow_ne _ e)
          · cases h
  | insert s => cases h
  | update s => exact absurd h (mapError_overflow_ne _ e)
  | delete s => exact absurd h (mapError_overflow_ne _ e)

end Query

/-! ## Statements that are executed

Reading, running and committing each have their own errors, and there are no
others. -/

namespace Database

theorem ofChars_of_run_eq_error {s : Statement}
    (hs : ∀ table ∈ s.table :: s.joinedTables, table.OfChars)
    {e : DatabaseError}
    (h : run dir s = .error e) : e.message.OfChars := by
  rw [run] at h
  split at h
  · next rows _ =>
      cases hquery : Query.run (some (Store.load dir)) s rows with
      | ok o =>
          rw [hquery] at h
          cases h
      | error e' =>
          rw [hquery] at h
          cases h
          cases e' with
          | noTables => exact ofChars_toText _
          | overflow e => exact e.ofChars_message
          | table e =>
              obtain ⟨table, htable, hload⟩ :=
                Query.exists_of_run_eq_error hquery
              exact Store.ofChars_of_load_eq_error
                (hs table (List.mem_cons_of_mem _ htable)) hload
  · next e hload =>
      cases h
      exact Store.ofChars_of_load_eq_error (hs s.table List.mem_cons_self) hload

theorem ofChars_of_commit_eq_error {o : Outcome} {e : DatabaseError}
    (table : Text) (h : (commit dir table o).1 = .error e) :
    e.message.OfChars := by
  rw [commit] at h
  split at h
  · cases h
  · next rows _ =>
      cases hwrite : Json.writeRows rows with
      | ok text =>
          simp only [Store.replace_of_ok hwrite] at h
          cases h
      | error f =>
          simp only [Store.replace_of_error hwrite] at h
          cases h
          exact f.ofChars_message

/-- The failure of a statement of characters is told in characters. -/
theorem ofChars_of_execute_eq_error (ht : t.OfChars) {e : DatabaseError}
    (h : (execute dir t none).1 = .error e) : e.message.OfChars := by
  rw [execute] at h
  split at h
  · next hread =>
      cases h
      cases hparse : Statement.parse t with
      | ok s =>
          rw [read, hparse] at hread
          cases hread
      | error e' =>
          rw [read, hparse] at hread
          cases hread
          exact Statement.ofChars_of_parse_eq_error ht hparse
  · next s hread =>
      have hparse : Statement.parse t = .ok s := Query.of_mapError_eq_ok hread
      split at h
      · next hrun =>
          cases h
          exact ofChars_of_run_eq_error (Statement.ofChars_of_parse hparse) hrun
      · exact ofChars_of_commit_eq_error s.table (Statement.map_eq_error h)

end Database

end RowSql

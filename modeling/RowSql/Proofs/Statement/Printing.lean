import RowSql.Proofs.Statement.Select
import RowSql.Proofs.Statement.Splitting
import RowSql.Proofs.Statement.Update

/-!
# Printing statements

A statement is printed with single spaces and its words in upper case, and
closed with a semicolon or, where nothing is mistaken for one, with nothing.
Reading it gives the statement back, since each clause is found where it stands:
no body in front of it hides it and no body holds its words.

There is one exception. Clauses are looked for in a fixed order, and the filter
comes first. Where there is none, the field of an order that looks like the word
WHERE is taken for it, and then the text before it is no statement.
-/

namespace RowSql

open Text Statement

/-! ## Selections

Of each part of a SELECT this asks what makes it readable, and of the clauses
that none is found inside of another. The printed clauses are then chosen, in
their order, each with its own body. -/

/-- A filter in which, taken for itself, no later clause is found, and at whose
end the search for clauses is outside of quotes and parentheses. -/
structure IsSelfContained (w : Text) : Prop extends IsFilter w where
  closes : (Scan.start.run w).atTop = true
  noOrder : Clause.order.Unseen .start true [] w
  noLimit : Clause.limit.Unseen .start true [] w

instance (w : Text) : Decidable (IsSelfContained w) :=
  decidable_of_iff (IsFilter w ∧ (Scan.start.run w).atTop = true ∧
      Clause.order.Unseen .start true [] w ∧
      Clause.limit.Unseen .start true [] w)
    ⟨fun h => ⟨h.1, h.2.1, h.2.2.1, h.2.2.2⟩, fun h => ⟨h.1, h.2, h.3, h.4⟩⟩

namespace Select

/-- The clauses of a SELECT. -/
def clauses (s : Select) : List (Clause × Text) :=
  s.filter.toList.map (Clause.filter, ·) ++
    (s.order.toList.map (fun o => (Clause.order, orderBody o.1 o.2)) ++
      s.limit.toList.map fun n => (Clause.limit, ofInt n))

/-- A SELECT as it is printed. -/
def text (s : Select) : Text :=
  selectText s.columns s.table s.joins s.clauses

/-- A SELECT each part of which is what a SELECT can have there. -/
structure IsWellFormed (s : Select) : Prop where
  table : IsName s.table
  nonempty : s.columns ≠ []
  columns : ∀ t ∈ s.columns, t ≠ [] ∧ Trimmed t ∧ .char ',' ∉ t
  joins : ∀ j ∈ s.joins, j.IsReadable
  filter : ∀ w ∈ s.filter, IsFilter w
  order : ∀ o ∈ s.order, IsField o.1
  limit : ∀ n ∈ s.limit, 0 ≤ n ∧ (decimalDigits n.natAbs).length ≤ digitLimit

/-- A SELECT whose parts can be told apart. -/
structure IsPrintable (s : Select) : Prop where
  table : IsName s.table
  nonempty : s.columns ≠ []
  columns : ∀ t ∈ s.columns, IsColumn t
  joins : ∀ j ∈ s.joins, j.IsReadable
  filter : ∀ w ∈ s.filter, IsSelfContained w
  order : ∀ o ∈ s.order, IsField o.1 ∧ ¬ Spells "LIMIT".toText o.1
  limit : ∀ n ∈ s.limit, 0 ≤ n ∧ (decimalDigits n.natAbs).length ≤ digitLimit

/-- The field of an order stands where the word of a filter is looked for, and
looks like it. -/
def MistakesOrder (s : Select) : Prop :=
  s.filter = none ∧ ∃ o, s.order = some o ∧ Spells "WHERE".toText o.1

variable {s : Select}

theorem lookup_filter : s.clauses.lookup .filter = s.filter := by
  obtain ⟨_, _, filter, order, limit, _⟩ := s
  cases filter <;> cases order <;> cases limit <;> rfl

theorem lookup_order :
    s.clauses.lookup .order = s.order.map fun o => orderBody o.1 o.2 := by
  obtain ⟨_, _, filter, order, limit, _⟩ := s
  cases filter <;> cases order <;> cases limit <;> rfl

theorem lookup_limit : s.clauses.lookup .limit = s.limit.map ofInt := by
  obtain ⟨_, _, filter, order, limit, _⟩ := s
  cases filter <;> cases order <;> cases limit <;> rfl

end Select

theorem Text.ofInt_of_nonneg {n : Int} (h : 0 ≤ n) :
    ofInt n = Text.ofNat n.natAbs :=
  if_neg (Int.not_lt.2 h)

theorem trimmed_ofInt {n : Int} (h : 0 ≤ n) :
    ofInt n ≠ [] ∧ Trimmed (ofInt n) := by
  rw [ofInt_of_nonneg h]
  refine ⟨?_, trimmed_of_solid fun c hc => (mark_of_mem_ofNat hc).1⟩
  rw [ofNat_eq_map]
  exact fun hn => decimalDigits_ne_nil _ (List.map_eq_nil_iff.1 hn)

namespace Clause

variable {bs : List (Clause × Text)}

theorem chosen_limit {limit : Option Int} (h : ∀ n ∈ limit, 0 ≤ n) :
    Chosen [.limit] (limit.toList.map fun n => (.limit, ofInt n)) := by
  cases limit with
  | none => exact .none _
  | some n =>
      obtain ⟨hne, htrim⟩ := trimmed_ofInt (h n rfl)
      exact .last hne htrim fun _ hc => absurd hc List.not_mem_nil

/-- No other clause is found in a limit. -/
theorem silent_limit {clause : Clause} {limit : Option Int}
    (hclause : clause ≠ .limit) (h : ∀ n ∈ limit, 0 ≤ n) :
    ∀ b ∈ limit.toList.map fun n => (Clause.limit, ofInt n),
    clause ≠ b.1 ∧ clause.Silent b.2 := by
  intro b hb
  obtain ⟨n, hn, rfl⟩ := List.mem_map.1 hb
  refine ⟨hclause, ?_⟩
  show clause.Silent (ofInt n)
  rw [ofInt_of_nonneg (h n (Option.mem_toList.1 hn))]
  exact silent_ofNat clause _

theorem chosen_order {order : Option (Text × Direction)}
    (h : ∀ o ∈ order, IsField o.1 ∧ ¬ Spells "LIMIT".toText o.1)
    (hbs : Chosen [.limit] bs)
    (hsilent : ∀ b ∈ bs, Clause.order ≠ b.1 ∧ Clause.order.Silent b.2) :
    Chosen [.order, .limit]
      (order.toList.map (fun o => (Clause.order, orderBody o.1 o.2)) ++
        bs) := by
  cases order with
  | none => exact .skip hsilent hbs
  | some o =>
      obtain ⟨hfield, hlimit⟩ := h o rfl
      refine .take (orderBody_ne_nil hfield o.2) (trimmed_orderBody hfield o.2)
        (fun _ => closes_orderBody hfield o.2) ?_ hbs
      intro c hc
      rw [List.mem_singleton.1 hc]
      exact silent_orderBody hfield hlimit

end Clause

namespace Select

variable {s : Select}

theorem IsPrintable.isWellFormed (h : s.IsPrintable) : s.IsWellFormed where
  table := h.table
  nonempty := h.nonempty
  columns t ht :=
    ⟨(h.columns t ht).ne_nil, trimmed_of_solid (h.columns t ht).solid,
      (h.columns t ht).noComma⟩
  joins := h.joins
  filter w hw := (h.filter w hw).toIsFilter
  order o ho := (h.order o ho).1
  limit := h.limit

/-- The bodies of the clauses are not empty, and trimmed. -/
theorem IsWellFormed.trimmed_clauses (h : s.IsWellFormed) :
    ∀ p ∈ s.clauses, p.2 ≠ [] ∧ Trimmed p.2 := by
  intro p hp
  rcases List.mem_append.1 hp with hp | hp
  · obtain ⟨w, hw, rfl⟩ := List.mem_map.1 hp
    have hfilter := h.filter w (Option.mem_toList.1 hw)
    exact ⟨hfilter.ne_nil, hfilter.trimmed⟩
  rcases List.mem_append.1 hp with hp | hp
  · obtain ⟨o, ho, rfl⟩ := List.mem_map.1 hp
    have hfield := h.order o (Option.mem_toList.1 ho)
    exact ⟨orderBody_ne_nil hfield o.2, trimmed_orderBody hfield o.2⟩
  · obtain ⟨n, hn, rfl⟩ := List.mem_map.1 hp
    exact trimmed_ofInt (h.limit n (Option.mem_toList.1 hn)).1

/-- The clauses of a SELECT are found where they are printed. -/
theorem IsPrintable.chosen_clauses (h : s.IsPrintable)
    (hmistake : ¬ s.MistakesOrder) :
    Clause.Chosen selectClauses s.clauses := by
  have hlimit : ∀ n ∈ s.limit, 0 ≤ n := fun n hn => (h.limit n hn).1
  have hrest := Clause.chosen_order h.order (Clause.chosen_limit hlimit)
    (Clause.silent_limit (by decide) hlimit)
  rw [clauses, selectClauses]
  cases hfilter : s.filter with
  | none =>
      rw [Option.toList_none, List.map_nil, List.nil_append]
      refine .skip (fun b hb => ?_) hrest
      rcases List.mem_append.1 hb with hb | hb
      · obtain ⟨o, ho, rfl⟩ := List.mem_map.1 hb
        have horder := Option.mem_toList.1 ho
        have hwhere : ¬ Spells Clause.filter.firstWord o.1 :=
          fun hspells => hmistake ⟨hfilter, o, horder, hspells⟩
        refine ⟨?_, silent_orderBody (h.order o horder).1 hwhere⟩
        show Clause.filter ≠ Clause.order
        decide
      · exact Clause.silent_limit (by decide) hlimit b hb
  | some w =>
      have hw := h.filter w hfilter
      refine .take hw.ne_nil hw.trimmed (fun _ => hw.closes) ?_ hrest
      intro c hc
      rcases List.mem_cons.1 hc with rfl | hc
      · exact Clause.silent_of_unseen hw.trimmed hw.noOrder
      · rw [List.mem_singleton.1 hc]
        exact Clause.silent_of_unseen hw.trimmed hw.noLimit

theorem IsWellFormed.readClause_order (h : s.IsWellFormed) :
    (readClause s.clauses .order fun body => required (readOrder? body)) =
      .ok s.order := by
  rw [readClause, lookup_order]
  cases horder : s.order with
  | none => rfl
  | some o =>
      simp only [Option.map_some, readOrder?_orderBody (h.order o horder)]
      rfl

theorem IsWellFormed.readClause_limit (h : s.IsWellFormed) :
    readClause s.clauses .limit readLimit = .ok (s.limit.map Int.natAbs) := by
  rw [readClause, lookup_limit]
  cases hlimit : s.limit with
  | none => rfl
  | some n =>
      obtain ⟨hn, hdigits⟩ := h.limit n hlimit
      simp only [Option.map_some, ofInt_of_nonneg hn, readLimit_ofNat hdigits]
      rfl

theorem IsWellFormed.ofNat_limit (h : s.IsWellFormed) :
    (s.limit.map Int.natAbs).map Int.ofNat = s.limit := by
  cases hn : s.limit with
  | none => rfl
  | some n => exact congrArg some (Int.natAbs_of_nonneg (h.limit n hn).1)

/-- A SELECT is read as what it was printed from. -/
theorem IsPrintable.readSelect_text (h : s.IsPrintable)
    (hmistake : ¬ s.MistakesOrder) :
    readSelect s.text = .ok s := by
  rw [text, readSelect_selectText h.nonempty h.columns h.table h.joins,
    (h.chosen_clauses hmistake).split?_text]
  have hclauses : required (some s.clauses) = .ok s.clauses := rfl
  simp only [hclauses, bind, Except.bind, pure, Except.pure,
    h.isWellFormed.readClause_order, h.isWellFormed.readClause_limit,
    lookup_filter, h.isWellFormed.ofNat_limit]

/-- Behind the words ORDER BY, a field that looks like the word of a filter is
found before them. -/
theorem split?_eq_none {field : Text} (h : Spells "WHERE".toText field)
    (direction : Direction) (bs : List (Clause × Text)) :
    Clause.split? selectClauses
        (Clause.text ((.order, orderBody field direction) :: bs)) = none := by
  obtain ⟨rest, hrest, hsplit⟩ : ∃ rest, Bounded rest ∧
      Clause.text ((.order, orderBody field direction) :: bs) =
        "ORDER BY ".toText ++ (field ++ rest) := by
    cases bs with
    | nil =>
        refine ⟨.char ' ' :: (direction.word ++ []), bounded_cons.2 (by decide),
          ?_⟩
        simp only [Clause.text, Clause.padded, orderBody, List.append_nil]
        rfl
    | cons p ps =>
        refine ⟨.char ' ' ::
          (direction.word ++ (.char ' ' :: Clause.text (p :: ps))),
          bounded_cons.2 (by decide), ?_⟩
        simp only [Clause.text, Clause.padded, orderBody, List.append_assoc,
          List.cons_append]
        rfl
  have hspelled : Clause.filter.Spelled field :=
    ⟨field, [], h, .nil, (List.append_nil field).symm⟩
  rw [hsplit]
  -- the filter is looked for first, and is found behind the words of the order
  exact Clause.split?_eq_none (List.forall_mem_nil _) (by decide) (by decide)
    (by decide) hspelled hrest
    (by decide)

theorem IsPrintable.readSelect_text_of_mistakesOrder (h : s.IsPrintable)
    (hmistake : s.MistakesOrder) :
    readSelect s.text = .error .shape := by
  obtain ⟨hfilter, o, horder, hspells⟩ := hmistake
  have hclauses : s.clauses = (.order, orderBody o.1 o.2) ::
      s.limit.toList.map fun n => (Clause.limit, ofInt n) := by
    rw [clauses, hfilter, horder]
    rfl
  rw [text, readSelect_selectText h.nonempty h.columns h.table h.joins,
    hclauses,
    split?_eq_none hspells]
  rfl

end Select

/-! ## Deletions

A DELETE has one clause that may be there or not. All behind the word WHERE is
its filter. -/

/-- A DELETE as it is printed. -/
def deleteText (table : Text) (filter : Option Text) : Text :=
  "DELETE".toText ++
    (.char ' ' :: ("FROM ".toText ++ (table ++ filterText filter)))

theorem filterText_eq (filter : Option Text) :
    filterText filter =
      Clause.spaced (filter.toList.map (Clause.filter, ·)) := by
  cases filter with
  | none => rfl
  | some w =>
      show " WHERE ".toText ++ w = " WHERE".toText ++ (.char ' ' :: w ++ [])
      rw [List.append_nil]
      rfl

/-- A DELETE is read as what it was printed from. -/
theorem readDelete_deleteText {table : Text} {filter : Option Text}
    (htable : IsName table) (hfilter : ∀ w ∈ filter, IsFilter w) :
    readDelete (deleteText table filter) = .ok { table, filter } := by
  have hchosen :
      Clause.Chosen [.filter] (filter.toList.map (Clause.filter, ·)) := by
    cases filter with
    | none => exact .none _
    | some w =>
        exact .last (hfilter w rfl).ne_nil (hfilter w rfl).trimmed fun _ hc =>
          absurd hc List.not_mem_nil
  have hlookup :
      (filter.toList.map (Clause.filter, ·)).lookup .filter = filter := by
    cases filter <;> rfl
  have hfrom :
      trimLeft (⟨deleteText table filter,
        Kind.delete.word.length⟩ : Cursor).rest =
        "FROM".toText ++ (.char ' ' :: (table ++ filterText filter)) := rfl
  obtain ⟨c, hc, hcrest⟩ := passWord_of_rest hfrom (by decide) (by decide)
    (not_word_of_bounded (bounded_cons.2 (by decide)))
  have hbounded : Bounded (filterText filter) :=
    filterText_eq filter ▸ Clause.bounded_spaced _
  obtain ⟨d, hd, hdrest⟩ :=
    readName_of_blank false hcrest htable (nameEnds_of_bounded hbounded)
  rw [filterText_eq] at hdrest
  rw [readDelete]
  simp only [hc, hd, hdrest, hchosen.split?_spaced, hlookup, required, bind,
    Except.bind, pure, Except.pure]

namespace Statement

/-! ## Statements

A printed form begins with the word of its kind and ends in no blank and no
semicolon of its own, so closing it changes nothing. What is left is to read
each kind. -/

/-- A text is a printed form of a statement. The quotes around the values of an
UPDATE are whichever they can be put into. -/
inductive Prints : Statement → Text → Prop
  | select {s : Select} (h : s.IsPrintable) : Prints (.select s) s.text
  | update {table : Text} {xs : List Assignment} {filter : Option Text}
      (htable : IsName table)
      (hne : xs ≠ []) (hxs : ∀ x ∈ xs, x.IsReadable)
        (hfilter : ∀ w ∈ filter, IsFilter w) :
      Prints (.update ⟨table, xs.map Assignment.meaning, filter⟩)
        (updateText table xs filter)
  | delete {table : Text} {filter : Option Text} (htable : IsName table)
      (hfilter : ∀ w ∈ filter, IsFilter w) :
      Prints (.delete ⟨table, filter⟩) (deleteText table filter)

/-- The one statement of which a printed form is not read as it was printed. -/
def MistakesOrder : Statement → Prop
  | .select s => s.MistakesOrder
  | .insert _ | .update _ | .delete _ => False

variable {s : Statement} {t u : Text}

theorem flushRight_filterText {filter : Option Text}
    (h : ∀ w ∈ filter, IsFilter w) :
    FlushRight (filterText filter) := by
  cases filter with
  | none => exact flushRight_nil
  | some w =>
      exact (flushRight_append (h w rfl).ne_nil).2 (h w rfl).trimmed.last

/-- A printed form begins with the word of its kind and a space, and is
trimmed. -/
theorem Prints.exists_rest (h : Prints s t) :
    (∃ rest, t = s.kind.word ++ .char ' ' :: rest) ∧ Trimmed t := by
  suffices hrest :
      (∃ rest, t = s.kind.word ++ .char ' ' :: rest) ∧ FlushRight t by
    obtain ⟨⟨rest, rfl⟩, hlast⟩ := hrest
    have hhead : Trimmed s.kind.word ∧ s.kind.word ≠ [] := by
      cases s.kind <;> decide
    exact ⟨⟨rest, rfl⟩, (flushLeft_append hhead.2).2 hhead.1.head, hlast⟩
  cases h with
  | @select s h =>
      refine ⟨⟨_, rfl⟩, ?_⟩
      have hsplit :
          s.text =
            ("SELECT".toText ++ (columnsText s.columns ++ "FROM ".toText)) ++
            (s.table ++ (Join.text s.joins ++ Clause.spaced s.clauses)) := by
        rw [Select.text, selectText]
        simp only [List.append_assoc]
        rfl
      rw [hsplit,
        flushRight_append (List.append_ne_nil_of_left_ne_nil h.table.ne_nil _)]
      exact h.table.trimmed.last.append ((flushRight_joins h.joins).append
        (Clause.flushRight_spaced h.isWellFormed.trimmed_clauses))
  | @update table xs filter htable hne hxs hfilter =>
      refine ⟨⟨_, rfl⟩, ?_⟩
      obtain ⟨v, t, ht, hjoin⟩ := exists_join_eq_append ", ".toText
        (fun hn => hne (List.map_eq_nil_iff.1 hn) : xs.map Assignment.written ≠
          [])
      obtain ⟨x, hx, rfl⟩ := List.mem_map.1 ht
      have hwritten := (hxs x hx).isEntry
      have hsplit : updateText table xs filter =
          "UPDATE ".toText ++ (table ++ (" SET ".toText ++ v)) ++
            (x.written ++ filterText filter) := by
        rw [updateText, hjoin]
        simp only [List.append_assoc]
      rw [hsplit,
        flushRight_append (List.append_ne_nil_of_left_ne_nil hwritten.ne_nil _)]
      exact hwritten.trimmed.last.append (flushRight_filterText hfilter)
  | @delete table filter htable hfilter =>
      refine ⟨⟨_, rfl⟩, ?_⟩
      have hsplit :
          deleteText table filter =
            "DELETE FROM ".toText ++ (table ++ filterText filter) :=
          rfl
      rw [hsplit,
        flushRight_append (List.append_ne_nil_of_left_ne_nil htable.ne_nil _)]
      exact htable.trimmed.last.append (flushRight_filterText hfilter)

/-- Printed forms are read as what they were printed from, but for the one
mistake. -/
theorem Prints.readAs_eq (h : Prints s t) :
    (¬ s.MistakesOrder → readAs s.kind t = .ok s) ∧
      (s.MistakesOrder → readAs s.kind t = .error .shape) := by
  cases h with
  | @select s h =>
      rw [kind, readAs]
      constructor <;> intro hmistake
      · rw [h.readSelect_text hmistake]
        rfl
      · rw [h.readSelect_text_of_mistakesOrder hmistake]
        rfl
  | @update table xs filter htable hne hxs hfilter =>
      refine ⟨fun _ => ?_, fun hmistake => absurd hmistake id⟩
      rw [kind, readAs, readUpdate_updateText htable hne hxs hfilter]
      rfl
  | @delete table filter htable hfilter =>
      refine ⟨fun _ => ?_, fun hmistake => absurd hmistake id⟩
      rw [kind, readAs, readDelete_deleteText htable hfilter]
      rfl

theorem Prints.bare_eq (h : Prints s t) (hu : Closed t u) : bare u = t := by
  obtain ⟨⟨rest, hrest⟩, htrim⟩ := h.exists_rest
  have hne : t ≠ [] :=
    hrest ▸ List.append_ne_nil_of_right_ne_nil _ (List.cons_ne_nil _ _)
  exact hu.bare_eq htrim hne

/-- A statement is read back from any of its printed forms, and from all of
them, exactly when it does not make the one mistake. -/
theorem parse_printed_iff (h : Prints s t) (hu : Closed t u) :
    parse u = .ok s ↔ ¬ s.MistakesOrder := by
  have hbare := h.bare_eq hu
  obtain ⟨⟨rest, rfl⟩, _⟩ := h.exists_rest
  constructor
  · intro hparse hmistake
    rw [parse_eq s.kind hbare, h.readAs_eq.2 hmistake] at hparse
    cases hparse
  · exact fun hmistake => parse_of_readAs s.kind hbare (h.readAs_eq.1 hmistake)

/-- A SELECT with everything that it can have. -/
def fullSelect : Select where
  table := "t".toText
  columns := ["a".toText, "u.b".toText]
  joins := [⟨.left, "u".toText, "t.id".toText, "u.id".toText⟩]
  filter := some "a = 'x LIMIT (' AND (u.b > 1)".toText
  order := some ("u.b".toText, .descending)
  limit := some 7

theorem parse_fullSelect :
    parse
        ("SELECT a, u.b FROM t LEFT JOIN u ON t.id = u.id ".toText ++
          ("WHERE a = 'x LIMIT (' AND (u.b > 1) ".toText ++
            "ORDER BY u.b DESC LIMIT 7;".toText)) =
      .ok (.select fullSelect) := by
  have hprintable : fullSelect.IsPrintable := {
    table := by decide
    nonempty := by decide
    columns := by decide
    joins := fun j hj => by
      rw [List.mem_singleton.1 hj]
      exact ⟨by decide, by decide, by decide, "id".toText, rfl, by decide⟩
    filter := fun w hw => by
      rw [← Option.some.inj hw]
      decide
    order := fun o ho => by
      rw [← Option.some.inj ho]
      decide
    limit := fun n hn => by
      rw [← Option.some.inj hn]
      have hdigits : (decimalDigits 7).length ≤ 1 :=
        length_decimalDigits_le Nat.one_pos (by decide)
      exact ⟨by decide, Nat.le_trans hdigits (by decide)⟩ }
  have hmistake : ¬ fullSelect.MistakesOrder := fun hm => nomatch hm.1
  have hlimit : ofInt 7 = "7".toText := by
    rw [ofInt_of_nonneg (by decide), ofNat]
    rfl
  have htext : fullSelect.text ++ [.char ';'] =
      "SELECT a, u.b FROM t LEFT JOIN u ON t.id = u.id ".toText ++
        ("WHERE a = 'x LIMIT (' AND (u.b > 1) ".toText ++
          "ORDER BY u.b DESC LIMIT 7;".toText) := by
    show selectText fullSelect.columns fullSelect.table fullSelect.joins
      [(.filter, "a = 'x LIMIT (' AND (u.b > 1)".toText),
        (.order, orderBody "u.b".toText .descending), (.limit, ofInt 7)] ++
          [.char ';'] = _
    rw [hlimit]
    rfl
  have hprints : Prints (.select fullSelect) fullSelect.text :=
    .select hprintable
  have hread := (parse_printed_iff hprints .semicolon).2 hmistake
  rwa [htext] at hread

/-! ## The one mistake

An order by a field that looks like WHERE, in a SELECT without a filter. -/

/-- An order by a field that looks like the word of a filter. -/
def orderedByWhere : Select where
  table := "t".toText
  columns := ["*".toText]
  joins := []
  filter := none
  order := some ("WHERE".toText, .ascending)
  limit := none

/-- It can be printed, but what is printed is not a statement. -/
theorem parse_orderedByWhere :
    Prints (.select orderedByWhere)
        "SELECT * FROM t ORDER BY WHERE ASC".toText ∧
      parse "SELECT * FROM t ORDER BY WHERE ASC;".toText =
        .error (.malformed "SELECT".toText
          "SELECT * FROM t ORDER BY WHERE ASC".toText) := by
  have hprintable : orderedByWhere.IsPrintable := {
    table := by decide
    nonempty := by decide
    columns := by decide
    joins := fun j hj => absurd hj List.not_mem_nil
    filter := fun w hw => nomatch hw
    order := fun o ho => by
      rw [← Option.some.inj ho]
      decide
    limit := fun n hn => nomatch hn }
  have hprints :
      Prints (.select orderedByWhere)
        "SELECT * FROM t ORDER BY WHERE ASC".toText :=
      .select hprintable
  have hmistake : orderedByWhere.MistakesOrder := ⟨rfl, _, rfl, spells_self _⟩
  have hbare : bare "SELECT * FROM t ORDER BY WHERE ASC;".toText =
      Kind.select.word ++ .char ' ' :: "* FROM t ORDER BY WHERE ASC".toText :=
    hprints.bare_eq .semicolon
  have hread :
      readAs .select
        (Kind.select.word ++ .char ' ' ::
          "* FROM t ORDER BY WHERE ASC".toText) =
        .error .shape :=
    hprints.readAs_eq.2 hmistake
  refine ⟨hprints, ?_⟩
  rw [parse_eq .select hbare, hread]
  rfl

end Statement

end RowSql

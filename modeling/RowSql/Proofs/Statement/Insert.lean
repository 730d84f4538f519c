import RowSql.Proofs.Statement.Bare
import RowSql.Proofs.Statement.Equation

/-!
# Reading inserts

The columns of an INSERT end at the first closing parenthesis, and no name holds
one. Its values end at the last character, so whatever they hold is theirs, as
long as each closes its quotes: parentheses, semicolons and commas among it.
-/

namespace RowSql.Statement

open Text

/-- An INSERT whose columns and values are written already. -/
def insertText (table : Text) (columns values : List Text) : Text :=
  "INSERT".toText ++
    (" INTO ".toText ++ (table ++ (" (".toText ++ (join ", ".toText columns ++
    (") VALUES (".toText ++ (join ", ".toText values ++ [.char ')']))))))

variable {table p : Text} {columns values : List Text} {q : CodePoint}

theorem isEntry_name (h : IsName p) : IsEntry p := by
  refine ⟨h.ne_nil, h.trimmed, undivided_of_forall fun c hc => ?_,
    quoteRun_of_not_quote fun c hc => isQuote_of_isWord (h.word c hc)⟩
  rw [beq_eq_false_iff_ne]
  exact ne_of_isWord (h.word c hc) (by decide)

theorem isEntry_quoted (h : Encloses q p) : IsEntry (between q p) :=
  ⟨List.cons_ne_nil _ _, trimmed_quoted h.quote p,
    undivided_between h.quote h.absent, quoteRun_between h.quote h.absent⟩

/-- Entries with commas between them are the items of a list. -/
theorem items_entries {ts : List Text} (h : ∀ t ∈ ts, IsEntry t) :
    items (join ", ".toText ts) = ts := by
  have hitems := items_join h blanks_nil blanks_nil
  rwa [List.nil_append, List.append_nil] at hitems

/-- An INSERT is read as its columns and its values without their quotes. -/
theorem readInsert_insertText (htable : IsName table)
    (hcolumns : ∀ c ∈ columns, IsName c) (hvalues : ∀ v ∈ values, IsEntry v)
    (hne : columns ≠ []) (hne' : values ≠ []) :
    readInsert (insertText table columns values) =
      .ok { table, columns, values := values.map stripQuotes } := by
  have hinto :
      trimLeft (⟨insertText table columns values,
        Kind.insert.word.length⟩ : Cursor).rest =
        "INTO".toText ++
          (.char ' ' :: (table ++ (" (".toText ++ (join ", ".toText columns ++
          (") VALUES (".toText ++
            (join ", ".toText values ++ [.char ')'])))))) := rfl
  obtain ⟨c1, h1, hrest1⟩ := passWord_of_rest hinto (by decide) (by decide)
    (not_word_of_bounded (bounded_cons.2 (by decide)))
  obtain ⟨c2, h2, hrest2⟩ := readName_of_blank false hrest1 htable
    (nameEnds_of_bounded (bounded_cons.2 (by decide)))
  have hopen : trimLeft c2.rest = [.char '('] ++ (join ", ".toText columns ++
      (") VALUES (".toText ++ (join ", ".toText values ++ [.char ')']))) := by
    rw [hrest2]
    rfl
  obtain ⟨c3, h3, hrest3⟩ := passText_of_rest hopen (List.cons_ne_nil _ _)
  -- the columns end at the first closing parenthesis, the values at the last
  -- character
  have hclosed : CodePoint.char ')' ∉ join ", ".toText columns := fun hmem =>
    forall_mem_join (by decide)
      (fun c hc a ha => ne_of_isWord ((hcolumns c hc).word a ha) (by decide))
      _ hmem rfl
  have hcut : cutAt? ')' c3.rest = some (join ", ".toText columns,
      " VALUES (".toText ++ (join ", ".toText values ++ [.char ')'])) := by
    rw [hrest3]
    exact cutAt?_append hclosed
  have hwords :
      trimLeft (c3.advance ((join ", ".toText columns).length + 1)).rest =
        "VALUES".toText ++
          (" (".toText ++ (join ", ".toText values ++ [.char ')'])) := by
    rw [Cursor.rest_advance, hrest3, ← List.drop_drop, List.drop_left]
    rfl
  obtain ⟨c4, h4, hrest4⟩ := passWord_of_rest hwords (by decide) (by decide)
    (not_word_of_bounded (bounded_cons.2 (by decide)))
  have hopen' :
      trimLeft c4.rest =
        [.char '('] ++ (join ", ".toText values ++ [.char ')']) := by
    rw [hrest4]
    rfl
  obtain ⟨c5, h5, hrest5⟩ := passText_of_rest hopen' (List.cons_ne_nil _ _)
  have hlast : (c5.rest.getLast? == some (.char ')')) = true := by
    rw [hrest5, List.getLast?_concat]
    exact beq_self_eq_true _
  have hitems : items c5.rest.dropLast = values := by
    rw [hrest5, List.dropLast_concat, items_entries hvalues]
  have hall :
      (!columns.isEmpty && !(values.map stripQuotes).isEmpty) = true := by
    rw [List.isEmpty_eq_false_iff.2 hne, List.isEmpty_eq_false_iff.2 fun hn =>
      hne' (List.map_eq_nil_iff.1 hn)]
    rfl
  rw [readInsert]
  simp only [h1, h2, h3, hcut, h4, h5, hlast, hitems, required, ensure, bind,
    Except.bind, items_entries fun c hc => isEntry_name (hcolumns c hc), hall,
    if_true, pure, Except.pure]

/-- So is a whole statement. -/
theorem parse_insertText (htable : IsName table)
    (hcolumns : ∀ c ∈ columns, IsName c) (hvalues : ∀ v ∈ values, IsEntry v)
    (hne : columns ≠ []) (hne' : values ≠ []) :
    parse (insertText table columns values) =
      .ok (.insert { table, columns, values := values.map stripQuotes }) := by
  have hsplit : insertText table columns values = Kind.insert.word ++
      ((" INTO ".toText ++
        (table ++ (" (".toText ++ (join ", ".toText columns ++
        (") VALUES (".toText ++ join ", ".toText values))))) ++
          [.char ')']) := by
    simp only [insertText, List.append_assoc]
    rfl
  have hbare : IsBare (insertText table columns values) := by
    rw [hsplit]
    exact isBare_append (by decide) (by decide)
  refine parse_of_readAs .insert hbare.bare_eq ?_
  show (readInsert (insertText table columns values)).map Statement.insert = _
  rw [readInsert_insertText htable hcolumns hvalues hne hne']
  rfl

end RowSql.Statement

import Mathlib.Data.List.Forall2
import RowSql.Proofs.Record
import RowSql.Proofs.Text.Items
import RowSql.Query.Join

/-!
# Joined rows as tuples

A chain of joins puts rows of several tables beside each other. What it builds
is plain as long as the rows are kept apart: a tuple has a place for each table
of the chain, with the row that came from there, or with nothing where a left
join found no row. A join extends every tuple by a place, and none of them is
changed or lost on the way.

The joined rows are the tuples written into records. Where the tables have
distinct names without dots, a qualified name stands for one column of one
table. Then a row written behind others replaces nothing, a join reads in the
record what it would read in the tuple, and each row can be taken out of the
record again as it was.
-/

namespace RowSql

/-! ## Tuples

A joined row is a record of qualified names, and which row it came from has to
be read out of the names. A tuple keeps the rows of the tables apart, or nothing
where a LEFT JOIN found no partner. -/

/-- Rows beside each other, each in the place of its table. A place is empty if
no row of the table matched. -/
abbrev Tuple := Named (Option Record)

namespace Tuple

/-- What stands under a qualified name: the table is what is before its first
dot. -/
def column? (t : Tuple) (name : Text) : Option Value :=
  match Text.cutAt? '.' name with
  | some (table, column) => (t.get? table).join.bind (·.get? column)
  | none => none

/-- The value under a qualified name, which is null if there is none. -/
def value (t : Tuple) (name : Text) : Value :=
  (t.column? name).getD .null

/-- The fields in a place, under qualified names. -/
def placeFields (place : Text × Option Record) : Fields :=
  place.2.elim [] fun r => (r.qualify place.1).fields

/-- The fields of all rows, under qualified names. -/
def fields (t : Tuple) : Fields :=
  t.flatMap placeFields

/-- The record into which a tuple is written. -/
def toRecord (t : Tuple) : Record :=
  .ofFields t.fields

end Tuple

/-- Two values are there and loosely equal. -/
def Value.Joins (a b : Value) : Prop :=
  a ≠ .null ∧ b ≠ .null ∧ a.equal b = .ok true

instance (a b : Value) : Decidable (a.Joins b) :=
  inferInstanceAs (Decidable (a ≠ .null ∧ b ≠ .null ∧ a.equal b = .ok true))

namespace Join

/-- The rows of the joined table that match a tuple. -/
def partners (join : Join) (rows : List Record) (t : Tuple) : List Record :=
  rows.filter fun r =>
    decide ((t.value join.leftColumn).Joins
      (Tuple.value [(join.table, some r)] join.rightColumn))

/-- What becomes of a tuple: it is extended by each row that matches it, and a
left join extends it by an empty place if there is none. -/
def extensions (join : Join) (rows : List Record) (t : Tuple) : List Tuple :=
  if join.kind = .left ∧ join.partners rows t = [] then
    [t ++ [(join.table, none)]]
  else
    (join.partners rows t).map fun r => t ++ [(join.table, some r)]

end Join

namespace Select

/-- The tables that a SELECT puts beside each other. -/
def chain (s : Select) : List Text :=
  s.table :: s.joins.map Join.table

/-- The tuples of a SELECT: those of the rows of its own table, extended join by
join. -/
def tuples (lookup : Text → List Record) (s : Select) (rows : List Record) :
    List Tuple :=
  s.joins.foldl (fun ts join =>
    ts.flatMap (join.extensions (lookup join.table)))
    (rows.map fun r => [(s.table, some r)])

end Select

/-- The fields whose names begin with a table and a dot, without these. -/
def Named.part (table : Text) (fields : Fields) : Fields :=
  fields.filterMap fun f =>
    (f.1.dropPrefix? (table ++ [.char '.'])).map fun name => (name, f.2)

/-- A record has the row in each place of a tuple as it is, and nothing else. -/
structure Tuple.IsIn (t : Tuple) (r : Record) : Prop where
  parts : ∀ place ∈ t,
    Named.part place.1 r.fields = place.2.elim [] Record.fields
  all : ∀ f ∈ r.fields, ∃ table ∈ t.names, table ++ [.char '.'] <+: f.1

/-! ## Qualified names

A qualified name is cut at its first dot, which is that of the table as long as
no table has one in its name. -/

variable {table other name : Text} {r : Record} {t : Tuple}

theorem cutAt?_qualifiedName (h : .char '.' ∉ table) (name : Text) :
    Text.cutAt? '.' (Record.qualifiedName table name) = some (table, name) :=
  Text.cutAt?_append h

theorem eq_of_qualifiedName_eq (h : .char '.' ∉ table) (h' : .char '.' ∉ other)
    {a b : Text}
    (heq : Record.qualifiedName table a = Record.qualifiedName other b) :
    table = other ∧ a = b := by
  have hcut := cutAt?_qualifiedName h a
  rw [heq, cutAt?_qualifiedName h' b] at hcut
  obtain ⟨htable, hname⟩ := Prod.mk.inj (Option.some.inj hcut)
  exact ⟨htable.symm, hname.symm⟩

theorem dropPrefix?_qualifiedName (table name : Text) :
    (Record.qualifiedName table name).dropPrefix? (table ++ [.char '.']) =
      some name := by
  rw [List.dropPrefix?_eq_some_iff]
  exact ⟨table ++ [.char '.'],
    by rw [Record.qualifiedName, List.append_assoc]; rfl, BEq.rfl⟩

theorem dropPrefix?_qualifiedName_of_ne (h : .char '.' ∉ table)
    (h' : .char '.' ∉ other) (hne : table ≠ other) (name : Text) :
    (Record.qualifiedName table name).dropPrefix? (other ++ [.char '.']) =
      none := by
  rw [Option.eq_none_iff_forall_ne_some]
  intro rest hrest
  obtain ⟨p, heq, hp⟩ := List.dropPrefix?_eq_some_iff.1 hrest
  rw [eq_of_beq hp, List.append_assoc] at heq
  exact hne (eq_of_qualifiedName_eq h h' heq).1

/-! ## Reading a tuple in its record

Tables have different names, so the fields of their rows do not meet in the
record and are in it as they were. -/

/-- Under a qualified name stands what the row has under the name, and under any
other name nothing. -/
theorem get?_qualified (h : .char '.' ∉ table) (fields : Fields) (name : Text) :
    Named.get? name
        (fields.map fun f => (Record.qualifiedName table f.1, f.2)) =
      match Text.cutAt? '.' name with
      | some (owner, column) =>
          if owner = table then fields.get? column else none
      | none => none := by
  induction fields with
  | nil =>
      rw [List.map_nil, Named.get?]
      split
      · exact (ite_self none).symm
      · rfl
  | cons f fs ih =>
      rw [List.map_cons, Named.get?]
      split
      · next heq =>
          subst heq
          rw [cutAt?_qualifiedName h]
          simp only [Named.get?, if_true]
      · next hne =>
          rw [ih]
          split
          · next owner column hcut =>
              have hcolumn (howner : owner = table) : f.1 ≠ column := by
                rintro rfl
                exact hne (howner ▸ (Text.eq_of_cutAt? hcut).symm)
              split
              · next howner => rw [Named.get?, if_neg (hcolumn howner)]
              · rfl
          · rfl

namespace Tuple

theorem fields_cons (place : Text × Option Record) (t : Tuple) :
    fields (place :: t) = placeFields place ++ fields t :=
  List.flatMap_cons

theorem fields_append (t u : Tuple) : fields (t ++ u) = fields t ++ fields u :=
  List.flatMap_append

theorem exists_of_mem_fields {f : Text × Value} (h : f ∈ t.fields) :
    ∃ table ∈ t.names, ∃ name, f.1 = Record.qualifiedName table name := by
  obtain ⟨place, hplace, hf⟩ := List.mem_flatMap.1 h
  obtain ⟨table, source⟩ := place
  cases source with
  | none => exact absurd hf List.not_mem_nil
  | some r =>
      obtain ⟨g, _, rfl⟩ := List.mem_map.1 hf
      exact ⟨table, List.mem_map_of_mem hplace, g.1, rfl⟩

/-- The tables of a tuple are distinct and have no dots. -/
structure Apart (t : Tuple) : Prop where
  distinct : t.names.Nodup
  undotted : ∀ table ∈ t.names, .char '.' ∉ table

theorem Apart.head {place : Text × Option Record} (h : Apart (place :: t)) :
    place.1 ∉ t.names ∧ .char '.' ∉ place.1 :=
  ⟨(List.nodup_cons.1 h.distinct).1, h.undotted _ List.mem_cons_self⟩

theorem Apart.tail {place : Text × Option Record} (h : Apart (place :: t)) :
    Apart t :=
  ⟨(List.nodup_cons.1 h.distinct).2, fun table htable =>
    h.undotted table (List.mem_cons_of_mem _ htable)⟩

theorem Apart.nodup_names_fields (h : t.Apart) : t.fields.names.Nodup := by
  induction t with
  | nil => exact List.nodup_nil
  | cons place t ih =>
      obtain ⟨table, source⟩ := place
      cases source with
      | none => exact ih h.tail
      | some r =>
          rw [fields_cons, Named.names, List.map_append]
          refine List.nodup_append.2 ⟨(r.qualify table).distinct, ih h.tail, ?_⟩
          rintro a ha b hb rfl
          obtain ⟨f, hf, hfa⟩ := List.mem_map.1 ha
          obtain ⟨g, hg, hgb⟩ := List.mem_map.1 hb
          obtain ⟨f', _, rfl⟩ := List.mem_map.1 hf
          obtain ⟨other, hother, name, hname⟩ := exists_of_mem_fields hg
          -- the same name would be qualified by two tables
          have hsame :=
            eq_of_qualifiedName_eq h.head.2 (h.tail.undotted other hother)
              (hfa.trans (hgb.symm.trans hname))
          exact h.head.1 (hsame.1 ▸ hother)

theorem Apart.fields_toRecord (h : t.Apart) : t.toRecord.fields = t.fields :=
  Record.fields_ofFields h.nodup_names_fields

theorem Apart.get?_fields (h : t.Apart) (name : Text) :
    t.fields.get? name = t.column? name := by
  induction t with
  | nil =>
      rw [column?]
      split <;> rfl
  | cons place t ih =>
      obtain ⟨table, source⟩ := place
      have hplace : (placeFields (table, source)).get? name =
          match Text.cutAt? '.' name with
          | some (owner, column) =>
              if owner = table then source.bind (·.get? column) else none
          | none => none := by
        cases source with
        | none =>
            split
            · exact (ite_self none).symm
            · rfl
        | some r => exact get?_qualified h.head.2 r.fields name
      rw [fields_cons, Named.get?_append, hplace, ih h.tail, column?, column?]
      split
      · next owner column hcut =>
          rw [Named.get?]
          by_cases howner : table = owner
          · -- no other place is of this table
            have hnone : Named.get? owner t = none := by
              rw [Option.eq_none_iff_forall_ne_some]
              intro other hother
              exact h.head.1
                (List.mem_map.2 ⟨_, Named.mem_of_get? hother, howner.symm⟩)
            rw [if_pos howner, if_pos howner.symm, hnone]
            simp
          · rw [if_neg howner, if_neg (Ne.symm howner), Option.none_or]
      · rfl

theorem Apart.value_toRecord (h : t.Apart) (name : Text) :
    t.toRecord.value name = t.value name := by
  rw [Record.value, Record.get?, h.fields_toRecord, h.get?_fields]
  rfl

/-! ## Rows taken out again

From a record of a tuple each row comes out by the names of its table. -/

theorem part_append (other : Text) (fields more : Fields) :
    Named.part other (fields ++ more) = Named.part other fields ++
      Named.part other more :=
  List.filterMap_append

theorem part_placeFields (h : .char '.' ∉ table) (h' : .char '.' ∉ other)
    (source : Option Record) :
    Named.part other (placeFields (table, source)) =
      if table = other then source.elim [] Record.fields else [] := by
  cases source with
  | none => exact (ite_self []).symm
  | some r =>
      show (r.fields.map _).filterMap _ = ite _ r.fields []
      rw [List.filterMap_map]
      split
      · next heq =>
          subst heq
          show r.fields.filterMap
            (fun f => ((Record.qualifiedName table f.1).dropPrefix? _).map _) =
              _
          simp only [dropPrefix?_qualifiedName, Option.map_some]
          exact List.filterMap_some
      · next hne =>
          rw [List.filterMap_eq_nil_iff]
          intro f _
          show (Option.map _ ((Record.qualifiedName table f.1).dropPrefix? _)) =
            none
          rw [dropPrefix?_qualifiedName_of_ne h h' hne, Option.map_none]

theorem part_fields_of_not_mem (h : t.Apart) (h' : .char '.' ∉ other)
    (hother : other ∉ t.names) :
    Named.part other t.fields = [] := by
  induction t with
  | nil => rfl
  | cons place t ih =>
      rw [Named.names, List.map_cons, List.mem_cons, not_or] at hother
      rw [fields_cons, part_append, part_placeFields h.head.2 h',
        if_neg (Ne.symm hother.1), ih h.tail hother.2, List.nil_append]

theorem Apart.part_fields (h : t.Apart) {place : Text × Option Record}
    (hplace : place ∈ t) :
    Named.part place.1 t.fields = place.2.elim [] Record.fields := by
  have hdot := h.undotted _ (List.mem_map_of_mem hplace)
  induction t with
  | nil => cases hplace
  | cons first t ih =>
      rw [fields_cons, part_append, part_placeFields h.head.2 hdot]
      rcases List.mem_cons.1 hplace with rfl | hplace
      · rw [if_pos rfl, part_fields_of_not_mem h.tail hdot h.head.1,
          List.append_nil]
      · have hne : first.1 ≠ place.1 :=
          fun heq => h.head.1 (heq ▸ List.mem_map_of_mem hplace)
        rw [if_neg hne, List.nil_append, ih h.tail hplace]

theorem Apart.isIn_toRecord (h : t.Apart) : t.IsIn t.toRecord where
  parts place hplace := by
    rw [h.fields_toRecord]
    exact h.part_fields hplace
  all f hf := by
    rw [h.fields_toRecord] at hf
    obtain ⟨table, htable, name, hname⟩ := exists_of_mem_fields hf
    exact ⟨table, htable, name,
      by rw [hname, Record.qualifiedName, List.append_assoc]; rfl⟩

/-! ## Tuples extended

A join adds one place to a tuple, with a row or with nothing in it, and to the
record the fields of that row. -/

theorem toRecord_concat (t : Tuple) (table : Text) (r : Record) :
    toRecord (t ++ [(table, some r)]) = t.toRecord.merge (r.qualify table) := by
  have hfields :
      t.fields ++ fields [(table, some r)] =
        t.fields ++ (r.qualify table).fields :=
      congrArg (t.fields ++ ·) (List.append_nil _)
  rw [toRecord, fields_append, hfields, Record.ofFields, Record.setAll,
    Record.mk.injEq, Named.setAll, List.foldl_append]
  rfl

theorem toRecord_concat_none (t : Tuple) (table : Text) :
    toRecord (t ++ [(table, none)]) = t.toRecord := by
  rw [toRecord, fields_append]
  exact congrArg Record.ofFields (List.append_nil _)

theorem toRecord_singleton (table : Text) (r : Record) :
    toRecord [(table, some r)] = r.qualify table := by
  rw [toRecord, fields_cons]
  exact (congrArg Record.ofFields (List.append_nil _)).trans
    (Record.ofFields_fields _)

/-- A tuple has places for some tables, and the integers in it can be
compared. -/
structure Over (tables : List Text) (t : Tuple) : Prop where
  names : t.names = tables
  inRange : ∀ place ∈ t, ∀ r ∈ place.2, r.InRange

theorem Over.apart {tables : List Text} (h : t.Over tables)
    (hdistinct : tables.Nodup)
    (hundotted : ∀ table ∈ tables, .char '.' ∉ table) : t.Apart :=
  ⟨h.names ▸ hdistinct, h.names ▸ hundotted⟩

theorem Over.value {tables : List Text} (h : t.Over tables) (name : Text) :
    (t.value name).InRange := by
  rw [Tuple.value, column?]
  split
  · next table column _ =>
      cases hplace : Named.get? table t with
      | none => trivial
      | some source =>
          cases source with
          | none => trivial
          | some r =>
              exact (h.inRange _ (Named.mem_of_get? hplace) r rfl).value column
  · trivial

theorem over_singleton (table : Text) {r : Record} (hr : r.InRange) :
    Over [table] [(table, some r)] where
  names := rfl
  inRange place hplace := by
    rw [List.mem_singleton.1 hplace]
    rintro _ ⟨⟩
    exact hr

theorem Over.concat {tables : List Text} (h : t.Over tables) (table : Text)
    {source : Option Record} (hsource : ∀ r ∈ source, r.InRange) :
    Over (tables ++ [table]) (t ++ [(table, source)]) where
  names := by
    rw [Named.names, List.map_append, ← h.names]
    rfl
  inRange place hplace := by
    rcases List.mem_append.1 hplace with hplace | hplace
    · exact h.inRange place hplace
    · exact List.mem_singleton.1 hplace ▸ hsource

end Tuple

/-! ## Joins of tuples

Each step joins the tuples as it joins their records. By induction on the joins
the joined rows are the records of the chain of tuples. -/

/-- Of values in range it is known whether they join. -/
theorem Value.equal_eq_ok {a b : Value} (ha : a.InRange) (hb : b.InRange) :
    a.equal b = .ok (decide (a.Joins b)) := by
  obtain ⟨v, hv⟩ := ha.exists_equal hb
  rw [hv, Except.ok.injEq]
  cases v with
  | false =>
      refine (decide_eq_false fun h => Bool.false_ne_true ?_).symm
      exact Except.ok.inj (hv.symm.trans h.2.2)
  | true =>
      have hpresent : a.isPresent = true ∧ b.isPresent = true := by
        rw [← Bool.and_eq_true]
        by_contra hnot
        rw [equal, if_neg hnot] at hv
        cases hv
      refine (decide_eq_true ⟨?_, ?_, hv⟩).symm
      · rintro rfl
        exact absurd hpresent.1 (by decide)
      · rintro rfl
        exact absurd hpresent.2 (by decide)

namespace Query

open RowSql.Tuple

variable {ε : Type} {join : Join} {rows : List Record} {names : List Text}

/-- A row of a table has, under qualified names, the values of the tuple of it
alone. -/
theorem value_qualify (h : .char '.' ∉ table) (r : Record) (name : Text) :
    (r.qualify table).value name = Tuple.value [(table, some r)] name := by
  have hapart : Tuple.Apart [(table, some r)] :=
    ⟨List.pairwise_singleton _ table,
      fun other hother => List.mem_singleton.1 hother ▸ h⟩
  rw [← toRecord_singleton, hapart.value_toRecord]

/-- The rows that are found for the record of a tuple are those that match the
tuple. -/
theorem matching_toRecord (ht : t.Apart) (hover : t.Over names)
    (hdot : .char '.' ∉ join.table) (hrows : ∀ r ∈ rows, r.InRange) :
    matching join t.toRecord (qualifyRows join.table rows) =
      .ok (qualifyRows join.table (join.partners rows t)) := by
  induction rows with
  | nil => rfl
  | cons r rs ih =>
      rw [List.forall_mem_cons] at hrows
      have hequal := Value.equal_eq_ok (hover.value join.leftColumn)
        ((over_singleton join.table hrows.1).value join.rightColumn)
      show (do
        let equal ← (t.toRecord.value join.leftColumn).equal
          ((r.qualify join.table).value join.rightColumn)
        let found ← matching join t.toRecord (qualifyRows join.table rs)
        return if equal then r.qualify join.table :: found else found) = _
      rw [ht.value_toRecord, value_qualify hdot, hequal, ih hrows.2,
        show join.partners (r :: rs) t = _ from List.filter_cons]
      show Except.ok _ = Except.ok _
      split <;> rfl

theorem extend_toRecord (join : Join) (rows : List Record) (t : Tuple) :
    extend join.kind t.toRecord
        (qualifyRows join.table (join.partners rows t)) =
      (join.extensions rows t).map toRecord := by
  rw [Join.extensions]
  cases hpartners : join.partners rows t with
  | nil =>
      cases join.kind with
      | inner => rfl
      | left => exact congrArg ([·]) (toRecord_concat_none t join.table).symm
  | cons r rs =>
      rw [if_neg fun h => List.cons_ne_nil r rs h.2, List.map_map]
      show (qualifyRows join.table (r :: rs)).map t.toRecord.merge = _
      rw [qualifyRows, List.map_map]
      exact List.map_congr_left fun r' _ =>
        (toRecord_concat t join.table r').symm

theorem joinRows_toRecord {ts : List Tuple} (hts : ∀ t ∈ ts, t.Over names)
    (hdistinct : names.Nodup) (hundotted : ∀ table ∈ names, .char '.' ∉ table)
    (hdot : .char '.' ∉ join.table) (hrows : ∀ r ∈ rows, r.InRange) :
    joinRows join (qualifyRows join.table rows) (ts.map toRecord) =
      .ok ((ts.flatMap (join.extensions rows)).map toRecord) := by
  induction ts with
  | nil => rfl
  | cons t ts ih =>
      rw [List.forall_mem_cons] at hts
      rw [List.map_cons, joinRows,
        matching_toRecord (hts.1.apart hdistinct hundotted) hts.1 hdot hrows,
        ih hts.2, List.flatMap_cons, List.map_append, ← extend_toRecord]
      rfl

theorem over_extensions (hover : t.Over names) (hrows : ∀ r ∈ rows, r.InRange)
    {u : Tuple} (hu : u ∈ join.extensions rows t) :
    u.Over (names ++ [join.table]) := by
  rw [Join.extensions] at hu
  split at hu
  · rw [List.mem_singleton.1 hu]
    exact hover.concat join.table nofun
  · obtain ⟨r, hr, rfl⟩ := List.mem_map.1 hu
    refine hover.concat join.table ?_
    rintro _ ⟨⟩
    exact hrows r (List.mem_filter.1 hr).1

variable {tables : Tables ε} {lookup : Text → List Record}

/-- One join after the other: what holds of the names so far holds of them and
the tables that have been joined, and the tuples are kept in step with their
records. -/
theorem joinAll_toRecord {joins : List Join} {ts : List Tuple}
    (hts : ∀ t ∈ ts, t.Over names)
    (hdistinct : (names ++ joins.map Join.table).Nodup)
    (hundotted : ∀ table ∈ names ++ joins.map Join.table, .char '.' ∉ table)
    (htables : ∀ join ∈ joins, tables join.table = .ok (lookup join.table) ∧
      ∀ r ∈ lookup join.table, r.InRange) :
    joinAll tables joins (ts.map toRecord) =
        .ok ((joins.foldl (fun ts join =>
          ts.flatMap (join.extensions (lookup join.table))) ts).map toRecord) ∧
      ∀ t ∈ joins.foldl (fun ts join =>
          ts.flatMap (join.extensions (lookup join.table))) ts,
        t.Over (names ++ joins.map Join.table) := by
  induction joins generalizing ts names with
  | nil =>
      rw [List.map_nil, List.append_nil]
      exact ⟨rfl, hts⟩
  | cons join joins ih =>
      obtain ⟨⟨hlookup, hrows⟩, htables⟩ := List.forall_mem_cons.1 htables
      have hsplit : names ++ (join :: joins).map Join.table =
          names ++ [join.table] ++ joins.map Join.table := by
        rw [List.map_cons, List.append_assoc, List.singleton_append]
      have hstep := joinRows_toRecord hts (List.nodup_append.1 hdistinct).1
        (fun table htable => hundotted table (List.mem_append_left _ htable))
        (hundotted _ (List.mem_append_right _ List.mem_cons_self)) hrows
      have hnext : joinStep tables join (ts.map toRecord) =
          .ok ((ts.flatMap (join.extensions (lookup join.table))).map
            toRecord) := by
        rw [joinStep, hlookup]
        show (joinRows _ _ _).mapError _ = _
        rw [hstep]
        rfl
      have hover : ∀ t ∈ ts.flatMap (join.extensions (lookup join.table)),
          t.Over (names ++ [join.table]) := by
        intro u hu
        obtain ⟨t, ht, hu⟩ := List.mem_flatMap.1 hu
        exact over_extensions (hts t ht) hrows hu
      rw [hsplit] at hdistinct hundotted ⊢
      obtain ⟨hall, hovers⟩ := ih hover hdistinct hundotted htables
      rw [joinAll, hnext]
      exact ⟨hall, hovers⟩

/-- Where the tables of a chain of joins have distinct names without dots, its
rows are the tuples, in order, and each has all rows of its tuple as they are,
and nothing else. -/
theorem sourceRows_tuples (s : Select) (hjoins : s.joins ≠ [])
    (hdistinct : s.chain.Nodup)
    (hundotted : ∀ table ∈ s.chain, .char '.' ∉ table)
    (hrows : ∀ r ∈ rows, r.InRange)
    (htables : ∀ join ∈ s.joins, tables join.table = .ok (lookup join.table) ∧
      ∀ r ∈ lookup join.table, r.InRange) :
    ∃ joined, sourceRows (some tables) s rows = .ok joined ∧
      List.Forall₂ Tuple.IsIn (s.tuples lookup rows) joined ∧
      ∀ t ∈ s.tuples lookup rows, t.names = s.chain := by
  have hstart : ∀ t ∈ rows.map fun r => [(s.table, some r)],
      Tuple.Over [s.table] t :=
    List.forall_mem_map.2 fun r hr => over_singleton s.table (hrows r hr)
  obtain ⟨hall, hover⟩ := joinAll_toRecord hstart hdistinct hundotted htables
  refine ⟨(s.tuples lookup rows).map toRecord, ?_, ?_,
    fun t ht => (hover t ht).names⟩
  · have hqualified : qualifyRows s.table rows =
        (rows.map fun r => [(s.table, some r)]).map toRecord := by
      rw [List.map_map]
      exact List.map_congr_left fun r _ => (toRecord_singleton s.table r).symm
    rw [sourceRows.eq_def]
    cases hlist : s.joins with
    | nil => exact absurd hlist hjoins
    | cons join joins =>
        rw [hlist] at hall
        simp only [hqualified, hall, Select.tuples, hlist]
  · rw [List.forall₂_map_right_iff, List.forall₂_same]
    exact fun t ht => ((hover t ht).apart hdistinct hundotted).isIn_toRecord

/-- Three tables: two rows of the second match one row of the first, as an
integer and as a double, and none matches its other row, which has no value to
be matched. -/
def chained : Select where
  table := "u".toText
  columns := ["*".toText]
  filter := none
  order := none
  limit := none
  joins := [⟨.left, "v".toText, "u.id".toText, "v.u".toText⟩,
    ⟨.left, "w".toText, "v.w".toText, "w.id".toText⟩]

def rowsOfU : List Record :=
  [.ofFields [("id".toText, .text "1".toText),
    ("v.w".toText, .text "a".toText)], .ofFields [("id".toText, .null)]]

def rowsOfV : List Record :=
  [.ofFields [("u".toText, .integer 1), ("w".toText, .text "a".toText)],
    .ofFields [("u".toText, .double (.ofDecimal false 1 0))]]

def rowsOfW : List Record :=
  [.ofFields [("w".toText, .boolean true), ("id".toText, .text "a".toText)]]

/-- Where the rows of the second and the third table are, and nothing else. -/
def chainedTables : Tables Unit := fun table =>
  if table = "v".toText then .ok rowsOfV else if table = "w".toText then
  .ok rowsOfW else .error ()

def chainedRows (table : Text) : List Record :=
  (chainedTables table).toOption.getD []

def chainedTuples : List Tuple :=
  match rowsOfU, rowsOfV, rowsOfW with
  | [u, u'], [v, v'], [w] =>
    [[("u".toText, some u), ("v".toText, some v), ("w".toText, some w)],
      [("u".toText, some u), ("v".toText, some v'), ("w".toText, none)],
      [("u".toText, some u'), ("v".toText, none), ("w".toText, none)]]
  | _, _, _ => []

theorem sourceRows_tuples_chained :
    ∃ joined, sourceRows (some chainedTables) chained rowsOfU = .ok joined ∧
      List.Forall₂ Tuple.IsIn chainedTuples joined := by
  have hrows : ∀ r ∈ rowsOfU, r.InRange := by decide
  have htables : ∀ join ∈ chained.joins,
      chainedTables join.table = .ok (chainedRows join.table) ∧
        ∀ r ∈ chainedRows join.table, r.InRange := by decide +kernel
  obtain ⟨joined, hjoined, hin, _⟩ :=
    sourceRows_tuples chained (by decide) (by decide)
      (by decide) hrows htables
  have htuples : chained.tuples chainedRows rowsOfU = chainedTuples := by
    decide +kernel
  rw [htuples] at hin
  exact ⟨joined, hjoined, hin⟩

end Query

end RowSql

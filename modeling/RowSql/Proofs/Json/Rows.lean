import Mathlib.Data.List.Forall2
import RowSql.Proofs.Json.Ascii
import RowSql.Proofs.Json.Quoted
import RowSql.Proofs.Json.Scalar
import RowSql.Proofs.Record

/-!
# Rows, written and read

A value is read back from the text it is written as, however deep it is nested,
and what stands behind it is left. The items of an array and the members of an
object are read one after the other, each up to the comma or the end of the line
behind it, with more fuel than there are characters.
-/

namespace RowSql

/-! ## What a file can hold

No decimal, no integer with too many digits, no text in which surrogates would
be paired, and no name twice in an object. Of nested values it asks the same at
every depth. -/

/-- A value that a file holds as it is, what is inside of it apart: an integer
has no more digits than are read, a text is whole, and so are the names of an
object, which are distinct. A decimal is not written. -/
def Value.StorableHere : Value → Prop
  | .integer n => ShortInt n
  | .text t => t.Whole
  | .decimal _ => False
  | .object members => (Named.names members).Nodup ∧ ∀ m ∈ members, m.1.Whole
  | _ => True

/-- A value that a file holds as it is. -/
def Value.Storable (v : Value) : Prop :=
  v.Every StorableHere

/-- A record whose names and values a file holds as they are. -/
def Record.Storable (r : Record) : Prop :=
  ∀ f ∈ r.fields, f.1.Whole ∧ f.2.Storable

instance : DecidablePred Value.StorableHere
  | .null | .boolean _ | .double _ | .array _ => isTrue trivial
  | .integer n => inferInstanceAs (Decidable (Value.ShortInt n))
  | .decimal _ => isFalse id
  | .text t => inferInstanceAs (Decidable t.Whole)
  | .object members =>
    inferInstanceAs
      (Decidable ((Named.names members).Nodup ∧ ∀ m ∈ members, m.1.Whole))

instance : DecidablePred Value.Storable :=
  Value.decidableEvery Value.StorableHere

instance (r : Record) : Decidable r.Storable :=
  inferInstanceAs (Decidable (∀ f ∈ r.fields, f.1.Whole ∧ f.2.Storable))

/-- A value that a file holds can be written as a text. -/
theorem Value.Storable.short {v : Value} (h : v.Storable) : v.Short := by
  refine Value.Every.imp (fun v hv => ?_) h
  cases v with
  | integer n => exact hv
  | null | boolean | double | decimal | text | array | object => trivial

namespace Json

/-! ## Space

Between its parts a file has nothing but spaces and line feeds, and the reader
skips them all. -/

theorem skipSpace_append {b t : Text} (hb : ∀ c ∈ b, isSpace c = true) :
    skipSpace (b ++ t) = skipSpace t :=
  List.dropWhile_append_of_pos hb

theorem skipSpace_cons {c : CodePoint} (h : isSpace c = false) (s : Text) :
    skipSpace (c :: s) = c :: s := by
  rw [skipSpace, List.dropWhile_cons, h]
  rfl

theorem isSpace_replicate (k : Nat) :
    ∀ c ∈ Text.replicate k ' ', isSpace c = true := by
  intro c hc
  rw [List.eq_of_mem_replicate hc]
  rfl

/-! ## Values

A text reads as a value whatever closes it. This is what is proved for each kind
of value and used for those that have it as a part. -/

/-- A text from which a value is read, and nothing of what stands behind it. -/
def Reads (t : Text) (v : Value) : Prop :=
  ∀ fuel rest, t.length ≤ fuel → Closes rest →
    readValue fuel (t ++ rest) = .ok (v, rest)

/-- No value is empty, or opens with space or with the end of an array. -/
theorem Reads.exists_cons {t : Text} {v : Value} (h : Reads t v) :
    ∃ c s, t = c :: s ∧ isSpace c = false ∧ c ≠ ']' := by
  have hread :=
    h (t.length + 1) [.char ','] (Nat.le_succ _) ⟨_, _, rfl, .inl rfl⟩
  cases t with
  | nil => cases hread
  | cons c s =>
      refine ⟨c, s, rfl, ?_, ?_⟩
      · by_cases hc : isSpace c = true
        · rw [isSpace] at hc
          simp only [Bool.or_eq_true, beq_iff_eq] at hc
          rcases hc with ((rfl | rfl) | rfl) | rfl <;> cases hread
        · exact Bool.eq_false_iff.2 hc
      · rintro rfl
        cases hread

theorem Reads.skipSpace_append {t : Text} {v : Value} (h : Reads t v)
    (s : Text) :
    skipSpace (t ++ s) = t ++ s := by
  obtain ⟨c, u, rfl, hc, _⟩ := h.exists_cons
  exact skipSpace_cons hc (u ++ s)

theorem reads_of_readScalar {t : Text} {v : Value}
    (h : ∀ rest, Closes rest → readScalar (t ++ rest) = .ok (v, rest)) :
    Reads t v := by
  intro fuel rest hfuel hr
  cases fuel with
  | zero =>
      have hnil := List.eq_nil_of_length_eq_zero (Nat.le_zero.1 hfuel)
      have hread := h [.char ','] ⟨_, _, rfl, .inl rfl⟩
      rw [hnil] at hread
      cases hread
  | succ fuel => exact readValue_of_readScalar (h rest hr) fuel

theorem reads_writeString {t : Text} (h : t.Whole) :
    Reads (writeString t) (.text t) := by
  intro fuel rest hfuel _
  obtain ⟨fuel, rfl⟩ : ∃ k, fuel = k + 1 := ⟨fuel - 1, by
    simp only [writeString, Text.between, List.cons_append, List.length_cons]
      at hfuel
    omega⟩
  rw [writeString, Text.between, List.cons_append, List.cons_append,
    List.append_assoc]
  simp only [readValue, List.singleton_append, readString_written h]
  rfl

/-! ## Blocks

Arrays and objects are laid out alike, part by part between brackets. So reading
a block back is proved once, for any parts that are read back themselves. -/

/-- The end of a line with the space at the head of the next one. -/
def newLine (indent : Nat) : Text :=
  .char '\n' :: Text.replicate indent ' '

theorem closes_newLine (indent : Nat) (t : Text) :
    Closes (newLine indent ++ t) :=
  ⟨_, _, rfl, .inr rfl⟩

theorem skipSpace_newLine (indent : Nat) (t : Text) :
    skipSpace (newLine indent ++ t) = skipSpace t := by
  refine skipSpace_append fun c hc => ?_
  rcases List.mem_cons.1 hc with rfl | hc
  · rfl
  · exact isSpace_replicate indent c hc

theorem writeBlock_cons (opening closing : CodePoint) (indent : Nat) (p : Text)
    (ps : List Text) :
    writeBlock opening closing indent (p :: ps) =
      opening :: (newLine (indent + 2) ++
        (Text.join (.char ',' :: newLine (indent + 2)) (p :: ps) ++
        (newLine indent ++ [closing]))) := by
  simp only [writeBlock, newLine, List.cons_append, List.append_assoc]

theorem exists_writeBlock_eq (opening closing : CodePoint) (indent : Nat)
    (ps : List Text) :
    ∃ s, writeBlock opening closing indent ps = opening :: s := by
  cases ps with
  | nil => exact ⟨_, rfl⟩
  | cons p ps => exact ⟨_, writeBlock_cons opening closing indent p ps⟩

/-- What a reader of the parts of a block does with a part: it reads no further
than the part goes, and ends or goes on at the mark behind it. -/
structure ReadsParts {α : Type}
    (readParts : Nat → Text → Except Fault (List α × Text))
    (closing : CodePoint) (Part : Text → α → Prop) : Prop where
  opens : ∀ {p x}, Part p x →
    ∃ c s, p = c :: s ∧ isSpace c = false ∧ c ≠ closing
  last : ∀ {p x fuel s r}, Part p x → p.length ≤ fuel → Closes s →
    skipSpace s = closing :: r →
    readParts (fuel + 1) (p ++ s) = .ok ([x], r)
  more : ∀ {p x fuel s r}, Part p x → p.length ≤ fuel → Closes s →
    skipSpace s = .char ',' :: r →
    readParts (fuel + 1) (p ++ s) = (readParts fuel (skipSpace r)).map fun q =>
      (x :: q.1, q.2)

namespace ReadsParts

variable {α : Type} {readParts : Nat → Text → Except Fault (List α × Text)}
  {opening closing : CodePoint} {Part : Text → α →
    Prop} {ps : List Text} {xs : List α}

theorem skipSpace_append (h : ReadsParts readParts closing Part) {p : Text}
    {x : α} (hp : Part p x) (s : Text) : skipSpace (p ++ s) = p ++ s := by
  obtain ⟨c, u, rfl, hc, _⟩ := h.opens hp
  exact skipSpace_cons hc (u ++ s)

/-- The parts are read from what they are written as, up to the end of the
block. -/
theorem read_join (h : ReadsParts readParts closing Part)
    (hclosing : isSpace closing = false) (hparts : List.Forall₂ Part ps xs)
    (hne : ps ≠ []) (outer inner : Nat) (rest : Text) (fuel : Nat)
    (hfuel : (Text.join (.char ',' :: newLine inner) ps).length < fuel) :
    readParts fuel (Text.join (.char ',' :: newLine inner) ps ++
      (newLine outer ++ closing :: rest)) = .ok (xs, rest) := by
  induction hparts generalizing fuel with
  | nil => exact absurd rfl hne
  | @cons p x ps xs hp hps ih =>
      obtain ⟨fuel, rfl⟩ : ∃ k, fuel = k + 1 := ⟨fuel - 1, by omega⟩
      cases hps with
      | nil =>
          rw [Text.join] at hfuel ⊢
          refine h.last hp (by omega) (closes_newLine outer _) ?_
          rw [skipSpace_newLine, skipSpace_cons hclosing]
      | @cons q y qs ys hq hqs =>
          obtain ⟨s, hs⟩ :=
            Text.exists_join_cons (.char ',' :: newLine inner) q qs
          rw [Text.join] at hfuel ⊢
          simp only [List.length_append, List.length_cons] at hfuel
          have hread := ih (List.cons_ne_nil q qs) fuel (by omega)
          simp only [List.append_assoc, List.cons_append]
          rw [h.more hp (by omega) ⟨_, _, rfl, .inl rfl⟩ (skipSpace_cons rfl _),
            skipSpace_newLine, hs, List.append_assoc, h.skipSpace_append hq,
            ← List.append_assoc, ← hs, hread]
          rfl

/-- Behind the opening mark of a block stands its first part, and all of them
are read. -/
theorem exists_read_block (h : ReadsParts readParts closing Part)
    (hclosing : isSpace closing = false) (hparts : List.Forall₂ Part ps xs)
    (hne : ps ≠ []) (indent : Nat) (rest : Text) {fuel : Nat}
    (hfuel : (writeBlock opening closing indent ps).length ≤ fuel + 1) :
    ∃ s c u, writeBlock opening closing indent ps ++ rest = opening :: s ∧
      skipSpace s = c :: u ∧
      c ≠ closing ∧ readParts fuel (c :: u) = .ok (xs, rest) := by
  cases hparts with
  | nil => exact absurd rfl hne
  | @cons p x ps xs hp hps =>
      obtain ⟨c, u, rfl, hc, hend⟩ := h.opens hp
      obtain ⟨s, hs⟩ :=
        Text.exists_join_cons (.char ',' :: newLine (indent + 2)) (c :: u) ps
      rw [writeBlock_cons] at hfuel ⊢
      simp only [List.length_append, List.length_cons, List.length_nil] at hfuel
      have hread :=
        h.read_join hclosing (.cons hp hps) (List.cons_ne_nil _ _) indent
          (indent + 2)
          rest fuel (by omega)
      rw [hs] at hread ⊢
      simp only [List.cons_append, List.append_assoc, List.nil_append]
        at hread ⊢
      refine ⟨_, c, _, rfl, ?_, hend, hread⟩
      rw [skipSpace_newLine, skipSpace_cons hc]

end ReadsParts

/-! ## Arrays

The parts of an array are its items. -/

theorem readsParts_items : ReadsParts readItems ']' Reads where
  opens hp := hp.exists_cons
  last hp hfuel hs hr := by
    rw [readItems, hp _ _ hfuel hs]
    simp only [hr]
  more hp hfuel hs hr := by
    rw [readItems, hp _ _ hfuel hs]
    simp only [hr]

/-- An array is read back from the block that it is written as. -/
theorem readValue_array {ps : List Text} {vs : List Value} {fuel : Nat}
    (h : List.Forall₂ Reads ps vs) (indent : Nat) (rest : Text)
    (hfuel : (writeBlock '[' ']' indent ps).length ≤ fuel) :
    readValue fuel (writeBlock '[' ']' indent ps ++ rest) =
      .ok (.array vs, rest) := by
  obtain ⟨t, ht⟩ := exists_writeBlock_eq '[' ']' indent ps
  obtain ⟨fuel, rfl⟩ : ∃ k, fuel = k + 1 := ⟨fuel - 1, by
    rw [ht, List.length_cons] at hfuel
    omega⟩
  by_cases hne : ps = []
  · subst hne
    cases h
    rfl
  · obtain ⟨s, c, u, hblock, hskip, hc, hread⟩ :=
      readsParts_items.exists_read_block rfl h hne indent rest hfuel
    rw [hblock]
    simp only [readValue, hskip]
    split
    · next heq => exact absurd (List.cons.inj heq).1 hc
    · rw [hread]
      rfl

/-! ## Objects

The parts of an object are its members, each a name and a value. Distinct names
are kept in their order when the members are set one by one. -/

/-- A text from which a member of an object is read. -/
def ReadsMember (t : Text) (m : Text × Value) : Prop :=
  ∃ v, m.1.Whole ∧ Reads v m.2 ∧ t = writeString m.1 ++ (": ".toText ++ v)

/-- Behind a member the object ends, or another member follows. -/
theorem readMembers_append {p : Text} {m : Text × Value} {fuel : Nat}
    (hp : ReadsMember p m) (hfuel : p.length ≤ fuel) {s : Text}
    (hs : Closes s) :
    (∀ r, skipSpace s = .char '}' :: r →
      readMembers (fuel + 1) (p ++ s) = .ok ([m], r)) ∧
      ∀ r, skipSpace s = .char ',' :: r →
        readMembers (fuel + 1) (p ++ s) =
          (readMembers fuel (skipSpace r)).map fun q => (m :: q.1, q.2) := by
  obtain ⟨v, hname, hv, rfl⟩ := hp
  simp only [List.length_append] at hfuel
  have hcolon (t : Text) : skipSpace (": ".toText ++ t) = ": ".toText ++ t :=
    rfl
  have hspace (t : Text) : skipSpace (.char ' ' :: t) = skipSpace t := rfl
  simp only [writeString, Text.between, List.cons_append, List.append_assoc,
    readMembers, List.nil_append, readString_written hname, hcolon]
  rw [show ": ".toText = [.char ':', .char ' '] from rfl]
  simp only [List.cons_append, List.nil_append, hspace, hv.skipSpace_append,
    hv fuel s (by omega) hs]
  constructor
  · intro r hr
    rw [hr]
    rfl
  · intro r hr
    rw [hr]
    rfl

theorem readsParts_members : ReadsParts readMembers '}' ReadsMember where
  opens hp := by
    obtain ⟨v, _, _, rfl⟩ := hp
    exact ⟨_, _, rfl, rfl, by decide⟩
  last hp hfuel hs hr := (readMembers_append hp hfuel hs).1 _ hr
  more hp hfuel hs hr := (readMembers_append hp hfuel hs).2 _ hr

/-- An object is read back from the block that it is written as. -/
theorem readValue_object {ps : List Text} {ms : List (Text × Value)}
    {fuel : Nat} (h : List.Forall₂ ReadsMember ps ms)
    (hnames : (Named.names ms).Nodup) (indent : Nat) (rest : Text)
    (hfuel : (writeBlock '{' '}' indent ps).length ≤ fuel) :
    readValue fuel (writeBlock '{' '}' indent ps ++ rest) =
      .ok (.object ms, rest) := by
  obtain ⟨t, ht⟩ := exists_writeBlock_eq '{' '}' indent ps
  obtain ⟨fuel, rfl⟩ : ∃ k, fuel = k + 1 := ⟨fuel - 1, by
    rw [ht, List.length_cons] at hfuel
    omega⟩
  by_cases hne : ps = []
  · subst hne
    cases h
    rfl
  · obtain ⟨s, c, u, hblock, hskip, hc, hread⟩ :=
      readsParts_members.exists_read_block rfl h hne indent rest hfuel
    rw [hblock]
    have hobject : Named.setAll [] ms = ms := Named.setAll_eq_append hnames
    simp only [readValue, hskip]
    split
    · next heq => exact absurd (List.cons.inj heq).1 hc
    · rw [hread]
      show Except.ok (Value.object (Named.setAll [] ms), rest) = _
      rw [hobject]

/-! ## Rows

Every value that can be stored has a text, by induction over its parts, and
what it has is read as it. A row is an object and the rows of a table are an
array. -/

/-- Where everything in a list is written, so is the list. -/
theorem exists_mapM_eq_ok {ε α β : Type} {f : α → Except ε β} {P : β → α → Prop}
    {xs : List α} (h : ∀ x ∈ xs, ∃ y, f x = .ok y ∧ P y x) :
    ∃ ys, xs.mapM f = .ok ys ∧ List.Forall₂ P ys xs := by
  induction xs with
  | nil => exact ⟨[], rfl, .nil⟩
  | cons x xs ih =>
      obtain ⟨y, hy, hp⟩ := h x List.mem_cons_self
      obtain ⟨ys, hys, hps⟩ := ih fun z hz => h z (List.mem_cons_of_mem x hz)
      refine ⟨y :: ys, ?_, .cons hp hps⟩
      rw [List.mapM_cons, hy, hys]
      rfl

theorem mapM_eq_some {α β : Type} {f : α → Option β} {g : β → α}
    (h : ∀ y, f (g y) = some y) (ys : List β) :
    (ys.map g).mapM f = some ys := by
  induction ys with
  | nil => rfl
  | cons y ys ih =>
      rw [List.map_cons, List.mapM_cons, h y, ih]
      rfl

/-- A storable value is written, and read back. -/
theorem exists_writeValue {v : Value} :
    v.Storable → ∀ indent, ∃ t, writeValue indent v = .ok t ∧ Reads t v := by
  induction v using Value.of_parts with
  | h v ih =>
      intro h indent
      obtain ⟨hv, hparts⟩ := Value.every_iff.1 h
      cases v with
      | null => exact ⟨_, rfl, reads_of_readScalar fun rest _ => rfl⟩
      | boolean b =>
          exact ⟨_, rfl, reads_of_readScalar fun rest _ => by cases b <;> rfl⟩
      | integer n =>
          exact ⟨_, if_pos hv,
            reads_of_readScalar fun rest hr => readScalar_ofInt hv hr⟩
      | double x =>
          exact ⟨_, rfl,
            reads_of_readScalar fun rest hr => readScalar_writeDouble x hr⟩
      | decimal t => exact hv.elim
      | text t => exact ⟨_, rfl, reads_writeString hv⟩
      | array items =>
          have hitem : ∀ w ∈ items, ∃ t, writeValue (indent + 2) w = .ok t ∧
              Reads t w :=
            fun w hw => ih w hw (hparts w hw) (indent + 2)
          obtain ⟨ts, hts, hread⟩ := exists_mapM_eq_ok hitem
          refine ⟨writeBlock '[' ']' indent ts, ?_, fun fuel rest hfuel _ =>
            readValue_array hread indent rest hfuel⟩
          rw [writeValue, writeItems_eq, hts]
          rfl
      | object members =>
          have hmember : ∀ m ∈ members, ∃ t,
              (writeValue (indent + 2) m.2).map (member m.1) = .ok t ∧
              ReadsMember t m := by
            intro m hm
            have hmem : m.2 ∈ Value.parts (.object members) :=
              List.mem_map_of_mem hm
            obtain ⟨u, hu, hread⟩ := ih m.2 hmem (hparts m.2 hmem) (indent + 2)
            exact ⟨member m.1 u,
              by rw [hu]; rfl, u, hv.2 m hm, hread, List.append_assoc _ _ _⟩
          obtain ⟨ts, hts, hread⟩ := exists_mapM_eq_ok hmember
          refine ⟨writeBlock '{' '}' indent ts, ?_, fun fuel rest hfuel _ =>
            readValue_object hread hv.1 indent rest hfuel⟩
          rw [writeValue, writeMembers_eq, hts]
          rfl

/-- Rows can be written as soon as all their fields can. -/
theorem exists_text_of_fields {rows : List Record}
    (h : ∀ r ∈ rows, ∀ f ∈ r.fields, ∃ t, writeValue 4 f.2 = .ok t) :
    ∃ text, writeRows rows = .ok text := by
  have hrecord : ∀ r ∈ rows, ∃ t, writeRecord r = .ok t ∧ True := by
    intro r hr
    have hmember :
        ∀ f ∈ r.fields, ∃ t, (writeValue 4 f.2).map (member f.1) = .ok t ∧
          True := by
      intro f hf
      obtain ⟨t, ht⟩ := h r hr f hf
      exact ⟨member f.1 t, by rw [ht]; rfl, trivial⟩
    obtain ⟨ts, hts, -⟩ := exists_mapM_eq_ok hmember
    refine ⟨writeBlock '{' '}' 2 ts, ?_, trivial⟩
    rw [writeRecord, writeValue, writeMembers_eq, hts]
    rfl
  obtain ⟨ts, hts, -⟩ := exists_mapM_eq_ok hrecord
  exact ⟨writeBlock '[' ']' 0 ts, by rw [writeRows, hts]; rfl⟩

/-- The fields of a record make an object with distinct names. -/
theorem storable_object {r : Record} (h : r.Storable) :
    (Value.object r.fields).Storable := by
  refine Value.every_iff.2 ⟨⟨r.distinct, fun f hf => (h f hf).1⟩, ?_⟩
  exact List.forall_mem_map.2 fun f hf => (h f hf).2

/-- A storable record is written, and read back. -/
theorem exists_writeRecord {r : Record} (h : r.Storable) :
    ∃ t, writeRecord r = .ok t ∧ Reads t (.object r.fields) :=
  exists_writeValue (storable_object h) 2

theorem record?_object (r : Record) : record? (.object r.fields) = some r :=
  congrArg some r.ofFields_fields

/-- Storable rows are written, and what is written is read as those rows. -/
theorem exists_writeRows {rows : List Record} (h : ∀ r ∈ rows, r.Storable) :
    ∃ t, writeRows rows = .ok t ∧ ∃ v,
    read t = .ok v ∧ rows? v = some rows := by
  obtain ⟨ts, hts, hread⟩ :=
    exists_mapM_eq_ok fun r hr => exists_writeRecord (h r hr)
  refine ⟨writeBlock '[' ']' 0 ts, ?_,
    .array (rows.map fun r => .object r.fields), ?_, ?_⟩
  · rw [writeRows, hts]
    rfl
  · have hvalue := readValue_array (List.forall₂_map_right_iff.2 hread) 0 []
      (show (writeBlock '[' ']' 0 ts).length ≤
        2 * (writeBlock '[' ']' 0 ts).length + 2 by omega)
    obtain ⟨s, hs⟩ := exists_writeBlock_eq '[' ']' 0 ts
    rw [List.append_nil] at hvalue
    have hmark : (.char '[' :: s : Text).head? ≠ some (.char '\uFEFF') := by
      rw [List.head?_cons]
      decide
    rw [read, hs, if_neg hmark, skipSpace_cons rfl, ← hs, hvalue]
    rfl
  · exact mapM_eq_some record?_object rows

end Json

end RowSql

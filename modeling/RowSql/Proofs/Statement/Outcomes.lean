import RowSql.Proofs.Statement.Accepted

/-!
# What becomes of a text

A text without a statement, or with an unknown first word, is not supported. Any
other text is a statement of the kind that its first word names, or it is
malformed, and then the error holds the kind and the whole statement, wherever
in it a reader failed: no reader but that of a limit fails with anything else. A
limit does when it has too many digits, and so a statement fails in this way
only if it ends in such a limit.
-/

namespace RowSql.Statement

open Text

variable {t u : Text} {n : Nat}

/-! ## How readers fail

A reader is made of smaller ones, and a bind fails where one of its two parts
does. So it is enough to look at each part once. -/

/-- A reader that fails finds that the shape is wrong. -/
def FailsByShape {α : Type} (x : Except Fault α) : Prop :=
  ∀ e, x = .error e → e = .shape

theorem bind_eq_error {ε α β : Type} {x : Except ε α} {f : α → Except ε β}
    {e : ε} :
    x >>= f = .error e ↔ x = .error e ∨ ∃ a, x = .ok a ∧ f a = .error e := by
  cases x with
  | error d => simp [bind, Except.bind]
  | ok a => simp [bind, Except.bind]

section

variable {α β : Type} {x : Except Fault α} {f : α → Except Fault β}

theorem FailsByShape.bind (hx : FailsByShape x) (hf : ∀ a, FailsByShape (f a)) :
    FailsByShape (x >>= f) := by
  intro e h
  rcases bind_eq_error.1 h with h | ⟨a, _, h⟩
  · exact hx e h
  · exact hf a e h

theorem failsByShape_ok (a : α) : FailsByShape (.ok a) := nofun

theorem failsByShape_required (o : Option α) : FailsByShape (required o) := by
  cases o with
  | none => exact fun e h => (Except.error.inj h).symm
  | some a => exact failsByShape_ok a

end

theorem failsByShape_ensure (b : Bool) : FailsByShape (ensure b) := by
  cases b with
  | false => exact fun e h => (Except.error.inj h).symm
  | true => exact failsByShape_ok ()

theorem failsByShape_passWord (word : Text) (c : Cursor) :
    FailsByShape (passWord word c) := by
  intro e h
  rw [passWord] at h
  split at h
  · cases h
  · exact (Except.error.inj h).symm

theorem failsByShape_passText (t : Text) (c : Cursor) :
    FailsByShape (passText t c) := by
  intro e h
  rw [passText] at h
  split at h
  · cases h
  · exact (Except.error.inj h).symm

theorem failsByShape_readName (qualified : Bool) (c : Cursor) :
    FailsByShape (readName qualified c) := by
  intro e h
  rw [readName] at h
  split at h
  · cases h
  · exact (Except.error.inj h).symm

theorem failsByShape_readJoin (kind : JoinKind) (c : Cursor) :
    FailsByShape (readJoin kind c) :=
  (failsByShape_passWord _ c).bind fun c =>
    (failsByShape_readName false c).bind fun p =>
      (failsByShape_passWord _ p.2).bind fun c =>
        (failsByShape_readName true c).bind fun q =>
          (failsByShape_passText _ q.2).bind fun c =>
            (failsByShape_readName true c).bind fun _ =>
              (failsByShape_required _).bind fun _ => failsByShape_ok _

theorem failsByShape_readJoins (c : Cursor) : FailsByShape (readJoins c) := by
  induction c using readJoins.induct with
  | case1 c hnone =>
      rw [readJoins_of_none hnone]
      exact failsByShape_ok _
  | case2 c kind d hopening fault hread =>
      rw [readJoins_of_error hopening hread]
      intro e h
      cases h
      exact failsByShape_readJoin kind d fault hread
  | case3 c kind d hopening join e hread ih =>
      rw [readJoins_of_some hopening hread]
      intro fault h
      cases hrest : readJoins e with
      | error fault' =>
          rw [hrest] at h
          cases h
          exact ih fault hrest
      | ok r =>
          rw [hrest] at h
          cases h

theorem failsByShape_readInsert (t : Text) : FailsByShape (readInsert t) :=
  (failsByShape_passWord _ _).bind fun c =>
    (failsByShape_readName false c).bind fun p =>
      (failsByShape_passText _ p.2).bind fun _ =>
        (failsByShape_required _).bind fun _ =>
          (failsByShape_passWord _ _).bind fun c =>
            (failsByShape_passText _ c).bind fun _ =>
              (failsByShape_ensure _).bind fun _ =>
                (failsByShape_ensure _).bind fun _ =>
                  failsByShape_ok _

theorem failsByShape_readUpdate (t : Text) : FailsByShape (readUpdate t) :=
  (failsByShape_readName false _).bind fun p =>
    (failsByShape_passWord _ p.2).bind fun _ =>
      (failsByShape_ensure _).bind fun _ => failsByShape_ok _

theorem failsByShape_readDelete (t : Text) : FailsByShape (readDelete t) :=
  (failsByShape_passWord _ _).bind fun c =>
    (failsByShape_readName false c).bind fun _ =>
      (failsByShape_required _).bind fun _ => failsByShape_ok _

/-! ## Limits with too many digits

The limit is the last clause, and its body is the last thing in the text. A
SELECT that fails by its digits has been read up to there, so what it ends in is
known. -/

/-- A text ends in a limit with a number of digits, and the words of that limit
stand outside of quotes and parentheses, taken from where the clauses begin. -/
def EndsInLimit (t : Text) (n : Nat) : Prop :=
  ∃ p g x b digits, t = p ++ (g ++ (x ++ (b ++ digits))) ∧
    (Scan.start.run g).atTop = true ∧
    Clause.freeAfter true g = true ∧ Clause.limit.Spelled x ∧ Blanks b ∧
    b ≠ [] ∧
      (∃ m, Digits digits m) ∧ digits.length = n

theorem exists_of_readClause_eq_error {α : Type} {bodies : List (Clause × Text)}
    {clause : Clause} {read : Text → Except Fault α} {e : Fault}
    (h : readClause bodies clause read = .error e) :
    ∃ body, bodies.lookup clause = some body ∧ read body = .error e := by
  rw [readClause] at h
  split at h
  · next body hbody =>
      refine ⟨body, hbody, ?_⟩
      cases hread : read body with
      | error d =>
          rw [hread] at h
          rw [Except.error.inj h]
      | ok a =>
          rw [hread] at h
          cases h
  · cases h

/-- Only a limit makes a SELECT fail with anything else than its shape. -/
theorem endsInLimit_of_readSelect (ht : FlushRight t)
    (h : readSelect t = .error (.limitTooLong n)) :
    EndsInLimit t n ∧ digitLimit < n := by
  have hfails {α : Type} {x : Except Fault α} (hx : FailsByShape x) :
      x ≠ .error (.limitTooLong n) := by
    intro he
    cases hx _ he
  rw [readSelect] at h
  obtain ⟨⟨start, stop⟩, _, h⟩ :=
    (bind_eq_error.1 h).resolve_left (hfails (failsByShape_required _))
  obtain ⟨columns, _, h⟩ :=
    (bind_eq_error.1 h).resolve_left (hfails (failsByShape_required _))
  obtain ⟨⟨table, c⟩, hname, h⟩ :=
    (bind_eq_error.1 h).resolve_left (hfails (failsByShape_readName _ _))
  obtain ⟨⟨joins, d⟩, hjoins, h⟩ :=
    (bind_eq_error.1 h).resolve_left (hfails (failsByShape_readJoins _))
  obtain ⟨bodies, hsplit, h⟩ :=
    (bind_eq_error.1 h).resolve_left (hfails (failsByShape_required _))
  obtain ⟨order, _, h⟩ :=
    (bind_eq_error.1 h).resolve_left (hfails fun e he => by
    obtain ⟨body, _, hbody⟩ := exists_of_readClause_eq_error he
    exact failsByShape_required _ e hbody)
  have hlimit :
      readClause bodies .limit readLimit = .error (.limitTooLong n) := by
    rcases bind_eq_error.1 h with h | ⟨_, _, h⟩
    · exact h
    · cases h
  obtain ⟨digits, hdigits, hread⟩ := exists_of_readClause_eq_error hlimit
  obtain ⟨hnumber, hlong, hlength⟩ := readLimit_eq_limitTooLong_iff.1 hread
  -- the limit comes last in what the rest of the text is split into
  obtain ⟨g, _, hwritten, hplaced⟩ :=
    Clause.split?_eq_some_iff.1 (required_eq_ok hsplit)
  obtain ⟨bs, rfl⟩ :=
    Clause.Placed.exists_concat [.filter, .order] hplaced (by decide)
      (mem_of_lookup_eq_some hdigits)
  obtain ⟨_, hsuffix, _⟩ := isReadable_of_readJoins hjoins
  obtain ⟨q, hq⟩ : d.rest <:+ t := hsuffix.trans ((readName_suffix hname).trans
    ((Cursor.rest_advance_suffix _ _).trans (List.drop_suffix _ t)))
  have hne := (hwritten.trimmed _ (mem_of_lookup_eq_some hdigits)).1
  obtain ⟨s, x, b, hrest, htop, hfree, hx, hb, hne⟩ :=
    hwritten.last hne (FlushRight.of_append (hq ▸ ht))
  refine ⟨⟨q, s, x, b, digits, ?_, htop, hfree, hx, hb, hne, hnumber, hlength⟩,
    hlength ▸ hlong⟩
  rw [← hq, hrest]

/-! ## Outcomes

An accepted statement is well formed because each of its readers accepts nothing
else. With how they fail, that covers whatever a text may be. -/

/-- A statement each part of which is what its kind can have there. -/
def IsWellFormed : Statement → Prop
  | .select s => s.IsWellFormed
  | .insert s => IsName s.table ∧ s.columns ≠ [] ∧ s.values ≠ []
  | .update s => IsName s.table ∧ ∀ w ∈ s.filter, IsFilter w
  | .delete s => IsName s.table ∧ ∀ w ∈ s.filter, IsFilter w

/-- What can become of a text. -/
inductive Outcome (t : Text) : Except ParseError Statement → Prop
  | empty (h : bare t = []) : Outcome t (.error (.unsupported []))
  | unknown (h : bare t ≠ [])
      (hword : ∀ kind : Kind, kind.word ≠ leadingWord (bare t)) :
      Outcome t (.error (.unsupported (leadingWord (bare t))))
  | malformed (kind : Kind) (hword : kind.word = leadingWord (bare t)) :
      Outcome t (.error (.malformed kind.word (bare t)))
  | limitTooLong {n : Nat} (hword : Kind.select.word = leadingWord (bare t))
      (hlimit : EndsInLimit (bare t) n) (hn : digitLimit < n) :
      Outcome t (.error (.limitTooLong n))
  | statement {s : Statement} (hword : s.kind.word = leadingWord (bare t))
      (hs : s.IsWellFormed) :
      Outcome t (.ok s)

theorem ensure_eq_ok {b : Bool} {a : Unit} (h : ensure b = .ok a) :
    b = true := by
  cases b with
  | false => cases h
  | true => rfl

theorem isWellFormed_of_readInsert {s : Insert} (h : readInsert t = .ok s) :
    (Statement.insert s).IsWellFormed := by
  have hmade := isMadeOf_of_readInsert h
  rw [readInsert] at h
  obtain ⟨c1, _, h⟩ := bind_eq_ok.1 h
  obtain ⟨⟨table, c2⟩, _, h⟩ := bind_eq_ok.1 h
  obtain ⟨c3, _, h⟩ := bind_eq_ok.1 h
  obtain ⟨⟨columnsText, behind⟩, _, h⟩ := bind_eq_ok.1 h
  obtain ⟨c4, _, h⟩ := bind_eq_ok.1 h
  obtain ⟨c5, _, h⟩ := bind_eq_ok.1 h
  obtain ⟨_, _, h⟩ := bind_eq_ok.1 h
  obtain ⟨_, hfilled, h⟩ := bind_eq_ok.1 h
  cases h
  have hfilled := ensure_eq_ok hfilled
  simp only [Bool.and_eq_true, Bool.not_eq_true', List.isEmpty_eq_false_iff]
    at hfilled
  exact ⟨hmade.table, hfilled.1, hfilled.2⟩

theorem isWellFormed_of_readUpdate {s : Update} (h : readUpdate t = .ok s) :
    (Statement.update s).IsWellFormed := by
  have hmade := isMadeOf_of_readUpdate h
  rw [readUpdate] at h
  obtain ⟨⟨table, c1⟩, _, h⟩ := bind_eq_ok.1 h
  obtain ⟨c2, _, h⟩ := bind_eq_ok.1 h
  obtain ⟨_, hfilled, h⟩ := bind_eq_ok.1 h
  cases h
  have hfilled := ensure_eq_ok hfilled
  simp only [Bool.and_eq_true, bne_iff_ne] at hfilled
  refine ⟨hmade.table, fun w hw => ?_⟩
  obtain ⟨p, _, rfl⟩ := Option.map_eq_some_iff.1 hw
  exact ⟨fun hn => hfilled.2 (hn ▸ hw), trimmed_trim _⟩

theorem isWellFormed_of_readDelete {s : Delete} (h : readDelete t = .ok s) :
    (Statement.delete s).IsWellFormed := by
  have htable := readDelete_table h
  rw [readDelete] at h
  obtain ⟨c1, _, h⟩ := bind_eq_ok.1 h
  obtain ⟨⟨table, c2⟩, _, h⟩ := bind_eq_ok.1 h
  obtain ⟨bodies, hbodies, h⟩ := bind_eq_ok.1 h
  cases h
  refine ⟨htable, fun w hw => ?_⟩
  obtain ⟨hne, htrim⟩ :=
    trimmed_of_split? (required_eq_ok hbodies) _ (mem_of_lookup_eq_some hw)
  exact ⟨hne, htrim⟩

theorem isWellFormed_of_readAs {kind : Kind} {s : Statement}
    (h : readAs kind t = .ok s) :
    s.IsWellFormed := by
  cases kind with
  | select =>
      obtain ⟨s, hs, rfl⟩ := map_eq_ok h
      exact (readFrom_of_readSelect hs).isWellFormed
  | insert =>
      obtain ⟨s, hs, rfl⟩ := map_eq_ok h
      exact isWellFormed_of_readInsert hs
  | update =>
      obtain ⟨s, hs, rfl⟩ := map_eq_ok h
      exact isWellFormed_of_readUpdate hs
  | delete =>
      obtain ⟨s, hs, rfl⟩ := map_eq_ok h
      exact isWellFormed_of_readDelete hs

theorem map_eq_error {ε α β : Type} {x : Except ε α} {f : α → β} {e : ε}
    (h : x.map f = .error e) :
    x = .error e := by
  cases x with
  | error d => exact congrArg Except.error (Except.error.inj h)
  | ok a => cases h

/-- A statement of a kind that cannot be read has the wrong shape, or is a
SELECT that ends in a limit with too many digits. -/
theorem fault_of_readAs {kind : Kind} {e : Fault} (ht : FlushRight t)
    (h : readAs kind t = .error e) :
    e = .shape ∨ ∃ n, e = .limitTooLong n ∧ kind = .select ∧ EndsInLimit t n ∧
    digitLimit < n := by
  cases kind with
  | select =>
      cases e with
      | shape => exact .inl rfl
      | limitTooLong n =>
          obtain ⟨hlimit, hn⟩ := endsInLimit_of_readSelect ht (map_eq_error h)
          exact .inr ⟨n, rfl, rfl, hlimit, hn⟩
  | insert => exact .inl (failsByShape_readInsert t e (map_eq_error h))
  | update => exact .inl (failsByShape_readUpdate t e (map_eq_error h))
  | delete => exact .inl (failsByShape_readDelete t e (map_eq_error h))

theorem Kind.ofWord?_eq_some_iff {word : Text} {kind : Kind} :
    Kind.ofWord? word = some kind ↔ kind.word = word := by
  constructor
  · intro h
    rw [Kind.ofWord?] at h
    exact eq_of_beq
      (List.find?_some (p := fun kind : Kind => kind.word == word) h)
  · rintro rfl
    cases kind <;> decide

theorem Kind.ofWord?_eq_none_iff {word : Text} :
    Kind.ofWord? word = none ↔ ∀ kind : Kind, kind.word ≠ word := by
  simp only [Option.eq_none_iff_forall_ne_some, ne_eq, Kind.ofWord?_eq_some_iff]

theorem flushRight_bare (t : Text) : FlushRight (bare t) := by
  rw [bare, dropTerminator]
  split
  · exact flushRight_trimRight _
  · exact (trimmed_trim t).last

/-- Every text is read as a well-formed statement of the kind that its first
word names, or fails with an error that says what is wrong with the whole of
it. -/
theorem parse_outcome (t : Text) : Outcome t (parse t) := by
  rw [parse]
  split
  · next hempty => exact .empty hempty
  · next hne =>
      cases hkind : Kind.ofWord? (leadingWord (bare t)) with
      | none => exact .unknown hne (Kind.ofWord?_eq_none_iff.1 hkind)
      | some kind =>
          have hword := Kind.ofWord?_eq_some_iff.1 hkind
          show Outcome t ((readAs kind (bare t)).mapError _)
          cases hread : readAs kind (bare t) with
          | ok s =>
              obtain rfl := kind_of_readAs hread
              exact .statement hword (isWellFormed_of_readAs hread)
          | error e =>
              rcases fault_of_readAs (flushRight_bare t) hread with
                rfl | ⟨n, rfl, rfl, hlimit, hn⟩
              · exact .malformed kind hword
              · exact .limitTooLong hword hlimit hn

end RowSql.Statement

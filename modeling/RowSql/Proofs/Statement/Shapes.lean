import RowSql.Proofs.Statement.Select
import RowSql.Proofs.Statement.Texts

/-!
# What the readers accept

For each reader, the texts that it accepts and what it takes them for, so that
nothing has to be known of how it goes over them. An order is a field, alone or
with a word for a direction behind it; a limit is a row of digits; and whatever
is read as a join has its own column on the right.
-/

namespace RowSql

open Text

/-! ## Parts at a cursor

A cursor takes a longest part, so what it answers is known from the text in
front of it and nothing else. -/

namespace Cursor

variable {c d : Cursor}

/-- The longest part with a property, and what follows it. -/
theorem rest_advance_takeWhile (c : Cursor) (property : CodePoint → Bool) :
    c.rest = c.rest.takeWhile property ++
      (c.advance (c.rest.takeWhile property).length).rest ∧
      ∀ a u, (c.advance (c.rest.takeWhile property).length).rest = a :: u →
        property a = false := by
  have hsplit :=
    (List.takeWhile_append_dropWhile (p := property) (l := c.rest)).symm
  rw [rest_advance_of_append hsplit]
  refine ⟨hsplit, fun a u h => ?_⟩
  have hhead := List.head_dropWhile_not property (h ▸ List.cons_ne_nil a u)
  simpa [h] using hhead

theorem identifier_eq_some {qualified : Bool} {name : Text}
    (h : c.identifier qualified = (some name, d)) :
    name ≠ [] ∧ (∀ a ∈ name, (isWord a || qualified && a == '.') = true) ∧
      trimLeft c.rest = name ++ d.rest ∧
        ∀ a u, d.rest = a :: u →
          (isWord a || qualified && a == '.') = false := by
  have hrest :=
    c.skipBlanks.rest_advance_takeWhile fun a =>
      isWord a || qualified && a == '.'
  simp only [identifier] at h
  split at h
  · cases h
  · next hne =>
      cases h
      rw [rest_skipBlanks] at hrest ⊢
      refine ⟨by rwa [rest_skipBlanks] at hne, fun a ha => ?_, hrest⟩
      exact List.mem_takeWhile_imp
        (p := fun a => isWord a || qualified && a == '.') ha

theorem popWord_eq (c : Cursor) :
    trimLeft c.rest = c.popWord.1 ++ c.popWord.2.rest ∧ ∀ a ∈ c.popWord.1,
    isWord a = true := by
  have hrest := (c.skipBlanks.rest_advance_takeWhile isWord).1
  rw [rest_skipBlanks] at hrest
  refine ⟨?_, fun a ha => List.mem_takeWhile_imp ha⟩
  rw [popWord, peekWord, rest_skipBlanks]
  exact hrest

/-- Nothing but blanks is left of a text that ends in none. -/
theorem rest_eq_nil (h : c.atEnd.1 = true) (hc : FlushRight c.rest) :
    c.rest = [] := by
  rw [atEnd, rest_skipBlanks, List.isEmpty_iff, trimLeft_eq_nil_iff] at h
  by_contra hne
  exact hc.not_blanks hne h

end Cursor

/-! ## Orders

A field, and perhaps a direction in any letter case, with nothing behind it. -/

namespace Statement

variable {body : Text}

theorem orders_of_readOrder? {o : Text × Direction} (hbody : Trimmed body)
    (h : readOrder? body = some o) : Orders body o := by
  rw [readOrder?] at h
  split at h
  · cases h
  · next field c hid =>
      obtain ⟨hne, hname, hrest, hends⟩ := Cursor.identifier_eq_some hid
      have hbody' : body = field ++ c.rest :=
        hbody.head.trimLeft_eq.symm.trans hrest
      have hlast : FlushRight c.rest :=
        FlushRight.of_append (hbody' ▸ hbody.last)
      have hfield : IsField field :=
        ⟨hne, fun a ha =>
          by rw [isFieldChar, Bool.or_comm]; simpa using hname a ha⟩
      split at h
      · next hend =>
          cases h
          rw [hbody', Cursor.rest_eq_nil hend hlast, List.append_nil]
          exact .field hfield
      · obtain ⟨hword, hchars⟩ := c.popWord_eq
        obtain ⟨b, hb, hcrest⟩ := exists_eq_append_trimLeft c.rest
        rw [hword] at hcrest
        simp only [Bool.not_eq_true'] at h
        split at h
        · cases h
        · next hend =>
            rw [Bool.not_eq_false] at hend
            have hnil := Cursor.rest_eq_nil hend
              (FlushRight.of_append (FlushRight.of_append (hcrest ▸ hlast)))
            rw [hnil, List.append_nil] at hcrest
            obtain ⟨direction, hupper, rfl⟩ : ∃ direction : Direction,
                upper c.popWord.1 = direction.word ∧
                o = (field, direction) := by
              split at h
              · next hasc =>
                  cases h
                  exact ⟨.ascending, hasc, rfl⟩
              · split at h
                · next hdesc =>
                    cases h
                    exact ⟨.descending, hdesc, rfl⟩
                · cases h
            have hne' : c.popWord.1 ≠ [] := by
              intro hn
              rw [hn] at hupper
              cases direction <;> cases hupper
            rw [hbody', hcrest]
            refine .word hfield hb ?_ ⟨hne', hchars⟩ hupper
            rintro rfl
            -- without a blank, the word would belong to the field
            obtain ⟨a, u, hau⟩ := List.exists_cons_of_ne_nil hne'
            have hfalse := hends a u (by rw [hcrest, List.nil_append, hau])
            rw [hchars a (hau ▸ List.mem_cons_self)] at hfalse
            cases hfalse

theorem readOrder?_eq_some_iff {o : Text × Direction} (hbody : Trimmed body) :
    readOrder? body = some o ↔ Orders body o :=
  ⟨orders_of_readOrder? hbody, Orders.readOrder?_eq⟩

/-! ## Limits

A row of digits, of which there may be no more than an integer is read from. -/

theorem asciiDigit?_eq_some_iff {c : CodePoint} {d : Nat} :
    asciiDigit? c = some d ↔ d < 10 ∧ c = digitChar d := by
  constructor
  · intro h
    rw [asciiDigit?] at h
    split at h
    · next hc =>
        have hlow : 48 ≤ c.toNat := hc.1
        have hhigh : c.toNat ≤ 57 := hc.2
        cases h
        refine ⟨by omega, CodePoint.toNat_inj ?_⟩
        have hvalid : (48 + (c.toNat - 48)).isValidChar := by
          rw [Nat.isValidChar]
          omega
        show c.toNat = (Char.ofNat (48 + (c.toNat - 48))).toNat
        rw [Char.ofNat, dif_pos hvalid]
        show c.toNat = 48 + (c.toNat - 48)
        omega
    · cases h
  · rintro ⟨hd, rfl⟩
    exact asciiDigit?_digitChar hd

/-- A text is the digits of a number, with or without zeros before them. -/
def Digits (body : Text) (n : Nat) : Prop :=
  ∃ ds, (∀ d ∈ ds, d < 10) ∧ body = ds.map digitChar ∧ ofDigits ds = n

theorem readDigits?_eq_some_iff {n : Nat} :
    readDigits? body = some n ↔ Digits body n := by
  have hmapM (ds : List Nat) : body.mapM asciiDigit? = some ds ↔
      (∀ d ∈ ds, d < 10) ∧ body = ds.map digitChar := by
    constructor
    · intro h
      induction body generalizing ds with
      | nil =>
          cases h
          exact ⟨fun d hd => absurd hd List.not_mem_nil, rfl⟩
      | cons c s ih =>
          rw [List.mapM_cons] at h
          obtain ⟨d, hd, h⟩ := Option.bind_eq_some_iff.1 h
          obtain ⟨es, hes, h⟩ := Option.bind_eq_some_iff.1 h
          cases h
          obtain ⟨hlt, rfl⟩ := asciiDigit?_eq_some_iff.1 hd
          obtain ⟨hall, hs⟩ := ih es hes
          exact ⟨List.forall_mem_cons.2 ⟨hlt, hall⟩,
            by rw [List.map_cons, ← hs]⟩
    · rintro ⟨hds, rfl⟩
      exact mapM_asciiDigit? hds
  rw [readDigits?, Option.map_eq_some_iff]
  exact exists_congr fun ds => by rw [hmapM, and_assoc]

theorem readLimit_eq_ok_iff {n : Nat} :
    readLimit body = .ok n ↔ Digits body n ∧ body.length ≤ digitLimit := by
  rw [readLimit, ← readDigits?_eq_some_iff]
  cases readDigits? body with
  | none => simp
  | some m =>
      by_cases hlong : digitLimit < body.length
      · simp only [if_pos hlong, Nat.not_le.2 hlong, and_false, reduceCtorEq]
      · simp only [if_neg hlong, Except.ok.injEq, Option.some.injEq,
          Nat.not_lt.1 hlong, and_true]

theorem readLimit_eq_limitTooLong_iff {n : Nat} :
    readLimit body = .error (.limitTooLong n) ↔
      (∃ m, Digits body m) ∧ digitLimit < body.length ∧ body.length = n := by
  simp only [readLimit, ← readDigits?_eq_some_iff]
  cases readDigits? body with
  | none => simp
  | some m =>
      by_cases hlong : digitLimit < body.length
      · simp [hlong]
      · simp [hlong]

/-! ## Joins

The columns of a join are put in order when they are read. One that is accepted
can therefore be written as a readable join, whichever way it came. -/

variable {c d : Cursor} {kind : JoinKind} {j : Join} {js : List Join}

theorem isField_of_readName {name : Text}
    (h : readName true c = .ok (name, d)) : IsField name := by
  rw [readName] at h
  split at h
  · next n e he =>
      cases h
      obtain ⟨hne, hname, _⟩ := Cursor.identifier_eq_some he
      exact ⟨hne, fun a ha =>
        by rw [isFieldChar, Bool.or_comm]; simpa using hname a ha⟩
  · cases h

theorem eq_of_belongsTo {table column : Text}
    (h : belongsTo table column = true) :
    ∃ m, column = table ++ .char '.' :: m := by
  rw [belongsTo] at h
  split at h
  · next owner m hcut =>
      exact ⟨m, by rw [← eq_of_beq h]; exact eq_of_cutAt? hcut⟩
  · cases h

/-- Two columns that are put in order are those of a join. -/
theorem isReadable_of_orient? {table first second left right : Text}
    (htable : IsName table) (hfirst : IsField first) (hsecond : IsField second)
    (h : orient? table first second = some (left, right)) :
    Join.IsReadable ⟨kind, table, left, right⟩ := by
  have hown {own other : Text} (hfield : IsField own) (hfield' : IsField other)
      (hbelongs : belongsTo table own = true)
        (hdot : other.contains '.' = true) :
      Join.IsReadable ⟨kind, table, other, own⟩ := by
    obtain ⟨m, rfl⟩ := eq_of_belongsTo hbelongs
    refine ⟨htable, hfield', List.contains_iff_mem.1 hdot, m, rfl,
      fun a ha => ?_⟩
    exact hfield.field a (List.mem_append_right _ (List.mem_cons_of_mem _ ha))
  rw [orient?] at h
  split at h
  · next hbelongs =>
      split at h
      · next hdot =>
          cases h
          exact hown hsecond hfirst hbelongs hdot
      · cases h
  · split at h
    · next hbelongs =>
        split at h
        · next hdot =>
            cases h
            exact hown hfirst hsecond hbelongs hdot
        · cases h
    · cases h

theorem isReadable_of_readJoin (h : readJoin kind c = .ok (j, d)) :
    j.IsReadable ∧ d.rest <:+ c.rest := by
  rw [readJoin] at h
  obtain ⟨c1, h1, h⟩ := bind_eq_ok.1 h
  obtain ⟨⟨table, c2⟩, h2, h⟩ := bind_eq_ok.1 h
  obtain ⟨c3, h3, h⟩ := bind_eq_ok.1 h
  obtain ⟨⟨first, c4⟩, h4, h⟩ := bind_eq_ok.1 h
  obtain ⟨c5, h5, h⟩ := bind_eq_ok.1 h
  obtain ⟨⟨second, c6⟩, h6, h⟩ := bind_eq_ok.1 h
  obtain ⟨⟨left, right⟩, h7, h⟩ := bind_eq_ok.1 h
  cases h
  refine ⟨isReadable_of_orient? (isName_of_readName h2) (isField_of_readName h4)
    (isField_of_readName h6) (required_eq_ok h7), ?_⟩
  exact (readName_suffix h6).trans
    ((passText_suffix h5).trans ((readName_suffix h4).trans
    ((passWord_suffix h3).trans
      ((readName_suffix h2).trans (passWord_suffix h1)))))

theorem joinOpening?_suffix (h : joinOpening? c = some (kind, d)) :
    d.rest <:+ c.rest := by
  simp only [joinOpening?] at h
  split at h
  · cases h
    exact List.suffix_rfl
  · split at h
    · cases h
      exact c.rest_passed_suffix _
    · split at h
      · cases h
        have hpop : c.popWord.2.rest <:+ c.rest := c.rest_passed_suffix _
        refine List.IsSuffix.trans ?_ hpop
        simp only [Cursor.consumeWord]
        split
        · exact (Cursor.rest_passed_suffix _ _).trans
            (Cursor.rest_advance_suffix _ _)
        · exact Cursor.rest_advance_suffix _ _
      · cases h

theorem readJoins_of_error {e : Fault} (h : joinOpening? c = some (kind, d))
    (hread : readJoin kind d = .error e) : readJoins c = .error e := by
  rw [readJoins]
  split
  · next heq =>
      rw [h] at heq
      cases heq
  · next heq =>
      rw [h] at heq
      cases heq
      split
      · next heq' =>
          rw [hread] at heq'
          cases heq'
          rfl
      · next heq' =>
          rw [hread] at heq'
          cases heq'

/-- What is read as joins can be written as joins, and what is left of the text
begins with no blank. -/
theorem isReadable_of_readJoins (h : readJoins c = .ok (js, d)) :
    (∀ j ∈ js, j.IsReadable) ∧ d.rest <:+ c.rest ∧ FlushLeft d.rest := by
  induction c using readJoins.induct generalizing js d with
  | case1 c hnone =>
      rw [readJoins_of_none hnone] at h
      cases h
      refine ⟨fun j hj => absurd hj List.not_mem_nil, c.rest_advance_suffix _,
        ?_⟩
      rw [Cursor.rest_skipBlanks]
      exact flushLeft_trimLeft _
  | case2 c kind e hopening fault hread =>
      rw [readJoins_of_error hopening hread] at h
      cases h
  | case3 c kind e hopening join f hread ih =>
      rw [readJoins_of_some hopening hread] at h
      obtain ⟨⟨rest, d'⟩, hrest, heq⟩ := map_eq_ok h
      cases heq
      obtain ⟨hjoin, hsuffix⟩ := isReadable_of_readJoin hread
      obtain ⟨hjoins, hsuffix', hflush⟩ := ih hrest
      exact ⟨List.forall_mem_cons.2 ⟨hjoin, hjoins⟩,
        hsuffix'.trans (hsuffix.trans (joinOpening?_suffix hopening)), hflush⟩

end Statement

end RowSql

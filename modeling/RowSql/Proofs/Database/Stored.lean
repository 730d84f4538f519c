import RowSql.Database
import RowSql.Proofs.Binding
import RowSql.Proofs.Json.Ascii
import RowSql.Proofs.Json.Rows
import RowSql.Proofs.Printable
import RowSql.Proofs.Query.Contents
import RowSql.Shell.Display

/-!
# What a statement stores

A statement of characters, with values of characters bound into it, writes texts
of characters. Such texts hold no surrogates that could be taken for a pair, so
the rows that it leaves can be stored if those that it found could.
-/

namespace RowSql

/-! ## Texts of characters

A file is written in escapes and read back, and a high surrogate next to a low
one would come back as one character. Texts of characters have no surrogates,
and neither has what a statement makes of them, so what is stored is read as it
was. -/

namespace Text

variable {s t : Text}

theorem OfChars.of_subset (h : t.OfChars) (hs : s ⊆ t) : s.OfChars :=
  fun c hc => h c (hs hc)

theorem OfChars.whole (h : t.OfChars) : t.Whole := by
  induction t with
  | nil => trivial
  | cons c s ih =>
      obtain ⟨⟨a, rfl⟩, hs⟩ := List.forall_mem_cons.1 h
      exact ⟨fun hhigh => absurd hhigh (CodePoint.not_isHigh_char a), ih hs⟩

theorem Ascii.ofChars (h : t.Ascii) : t.OfChars := by
  intro c hc
  cases c with
  | char a => exact ⟨a, rfl⟩
  | surrogate k =>
      have hlt : 0xD800 + (k : Nat) < 128 := (h _ hc).1
      omega

end Text

/-- Names are of characters. -/
theorem Statement.IsName.ofChars {t : Text} (h : IsName t) : t.OfChars :=
  fun c hc => exists_char_of_isWord (h.word c hc)

/-- A value that is shown in characters. What other characters are in the texts
inside of an array or an object is shown there by their numbers. -/
def Value.OfChars : Value → Prop
  | .text t => t.OfChars
  | v => v.Every (DecimalOf fun c => ∃ a, c = .char a)

namespace Binding

open Text

variable {t u : Text}

theorem ofChars_quoted {p : Text} (hp : p.OfChars) (h : quoted p = .ok u) :
    u.OfChars := by
  have hbetween (a : Char) : (between (.char a) p).OfChars :=
    ofChars_append.2 ⟨ofChars_cons.2 ⟨⟨a, rfl⟩, hp⟩,
      ofChars_cons.2 ⟨⟨a, rfl⟩, nofun⟩⟩
  rw [quoted] at h
  split at h
  · cases h
    exact hbetween '"'
  · split at h
    · cases h
      exact hbetween '\''
    · cases h

theorem ofChars_toText (x : Binary64) : x.toText.OfChars := by
  cases x with
  | nan => exact Ascii.ofChars (by decide)
  | infinite negative => exact Ascii.ofChars (by cases negative <;> decide)
  | finite negative units fits =>
      exact (Json.ascii_writeDouble (.finite negative units fits)).ofChars

theorem ofChars_repr {v : Value}
    (hv : v.Every (Value.DecimalOf fun c => ∃ a, c = .char a)) :
    v.repr.OfChars :=
  Value.forall_mem_repr (fun _ => CodePoint.exists_char_of_isPrintable) hv

theorem ofChars_literal {v : Value} (hv : v.OfChars) (h : literal v = .ok u) :
    u.OfChars := by
  cases v with
  | null => cases h
  | boolean b => cases h; exact Ascii.ofChars (by cases b <;> decide)
  | integer n =>
      obtain ⟨_, rfl⟩ := Value.asText_eq_ok_iff.1 (Query.of_mapError_eq_ok h)
      exact (ascii_ofInt n).ofChars
  | double x => cases h; exact ofChars_toText x
  | decimal t => cases h; exact hv
  | text t => exact ofChars_quoted hv h
  | array _ | object _ =>
      obtain ⟨t, ht, h⟩ := Statement.bind_eq_ok.1 h
      obtain ⟨_, rfl⟩ := Value.asText_eq_ok_iff.1 (Query.of_mapError_eq_ok ht)
      exact ofChars_quoted (ofChars_repr hv) h

/-- Characters are bound into characters. -/
theorem ofChars_bindFrom {quote : Option CodePoint} {values : List Value}
    (ht : t.OfChars) (hvalues : ∀ v ∈ values, v.OfChars)
    (h : bindFrom quote t values = .ok u) : u.OfChars := by
  induction t generalizing quote values u with
  | nil =>
      cases values with
      | nil =>
          cases h
          exact nofun
      | cons v vs => cases h
  | cons c s ih =>
      obtain ⟨hc, hs⟩ := ofChars_cons.1 ht
      rw [bindFrom.eq_def] at h
      simp only at h
      split at h
      · cases values with
        | nil => cases h
        | cons v vs =>
            rw [List.forall_mem_cons] at hvalues
            obtain ⟨written, hwritten, h⟩ := Statement.bind_eq_ok.1 h
            obtain ⟨rest, hrest, h⟩ := Statement.bind_eq_ok.1 h
            cases h
            exact ofChars_append.2 ⟨ofChars_literal hvalues.1 hwritten,
              ih hs hvalues.2 hrest⟩
      · obtain ⟨rest, hrest, rfl⟩ := map_eq_ok h
        exact ofChars_cons.2 ⟨hc, ih hs hvalues hrest⟩

end Binding

/-- Whole texts under names can be stored with what can be stored. -/
theorem Record.Storable.setAll_textFields {r : Record} (hr : r.Storable)
    {xs : List (Text × Text)}
    (hxs : ∀ x ∈ xs, Statement.IsName x.1 ∧ x.2.Whole) :
    (r.setAll (textFields xs)).Storable := by
  intro f hf
  rcases Named.mem_of_mem_setAll hf with hf | hf
  · exact hr f hf
  · obtain ⟨x, hx, rfl⟩ := List.mem_map.1 hf
    exact ⟨(hxs x hx).1.ofChars.whole, (hxs x hx).2⟩

namespace Database

variable {t : Text} {values : Option (List Value)} {s : Statement}

/-- A statement that is read is made of a text that is the given one, or what
values are bound to in it. -/
theorem exists_of_read (h : read t values = .ok s) :
    ∃ u, s.IsMadeOf u ∧ (t.OfChars → (∀ v ∈ values.getD [], v.OfChars) →
      u.OfChars) := by
  cases values with
  | none =>
      exact ⟨t, Statement.isMadeOf_of_parse (Query.of_mapError_eq_ok h),
        fun ht _ => ht⟩
  | some values =>
      rw [read] at h
      split at h
      · next u hu =>
          exact ⟨u, Statement.isMadeOf_of_parse (Query.of_mapError_eq_ok h),
            fun ht hvalues => Binding.ofChars_bindFrom ht hvalues hu⟩
      · cases h

theorem isName_of_read (h : read t values = .ok s) :
    Statement.IsName s.table := by
  obtain ⟨u, hmade, _⟩ := exists_of_read h
  exact hmade.table

/-- What a statement of characters leaves of storable rows is storable. -/
theorem storable_of_accounts (h : read t values = .ok s) (ht : t.OfChars)
    (hvalues : ∀ v ∈ values.getD [], v.OfChars) {rows : List Record}
    (hrows : ∀ r ∈ rows, r.Storable) {r : Record}
    (hr : Query.Accounts s rows r) : r.Storable := by
  obtain ⟨u, hmade, hu⟩ := exists_of_read h
  intro f hf
  rcases hr f hf with ⟨r', hr', hf'⟩ | ⟨w, hw, rfl⟩
  · exact hrows r' hr' f hf'
  · obtain ⟨hname, htext⟩ := hmade.writes w hw
    exact ⟨((hu ht hvalues).of_subset hname).whole,
      ((hu ht hvalues).of_subset htext).whole⟩

end Database

end RowSql

import RowSql.Proofs.Number.Digits
import RowSql.Proofs.Number.Shortest

/-!
# JSON numbers, written and read

The text of a number is read back as far as the number goes when a comma or the
end of a line follows. Whichever way the digits of a double are laid out, they
and the power of ten that is read stand for the decimal that was written.
-/

namespace RowSql.Json

/-! ## What follows a number

A number is read as far as it goes. What stands behind one in a file is a comma,
a bracket or a line feed, and none of these goes on any part of it. -/

/-- What stands behind a value in a file: a comma or the end of a line. -/
def Closes (t : Text) : Prop :=
  ∃ c s, t = c :: s ∧ (c = ',' ∨ c = '\n')

theorem Closes.noDigit {t : Text} (h : Closes t) : NoDigit t := by
  obtain ⟨c, s, rfl, hc⟩ := h
  intro a ha
  cases ha
  rcases hc with rfl | rfl <;> rfl

theorem Closes.readFraction?_eq {t : Text} (h : Closes t) :
    readFraction? t = none := by
  obtain ⟨c, s, rfl, hc⟩ := h
  rcases hc with rfl | rfl <;> rfl

theorem Closes.readPower?_eq {t : Text} (h : Closes t) :
    readPower? t = none := by
  obtain ⟨c, s, rfl, hc⟩ := h
  rcases hc with rfl | rfl <;> rfl

theorem noDigit_cons {c : CodePoint} (h : asciiDigit? c = none) (s : Text) :
    NoDigit (c :: s) := by
  intro a ha
  cases ha
  exact h

/-! ## The parts of a number

Each reader of a part takes its digits and leaves what follows them, if that
begins with none. -/

/-- Digits that can stand before a point: some, and no zero in front of
others. -/
def IsWhole (ds : List Nat) : Prop :=
  ∃ d es, ds = d :: es ∧ (0 < d ∨ es = [])

theorem isWhole_cons {d : Nat} (h : 0 < d) (ds : List Nat) :
    IsWhole (d :: ds) :=
  ⟨d, ds, rfl, .inl h⟩

theorem isWhole_singleton (d : Nat) : IsWhole [d] :=
  ⟨d, [], rfl, .inr rfl⟩

theorem isWhole_decimalDigits (n : Nat) : IsWhole (decimalDigits n) := by
  rcases Nat.eq_zero_or_pos n with rfl | h
  · rw [decimalDigits_zero]
    exact isWhole_singleton 0
  · obtain ⟨d, ds, hd, hpos⟩ := exists_decimalDigits_eq h
    rw [hd]
    exact isWhole_cons hpos ds

variable {ds es : List Nat} {rest : Text}

theorem readWhole?_append (hw : IsWhole ds) (h : ∀ e ∈ ds, e < 10)
    (hr : NoDigit rest) :
    readWhole? (ds.map Text.digitChar ++ rest) = some (ds, rest) := by
  obtain ⟨d, es, rfl, hlead⟩ := hw
  rw [readWhole?.eq_def]
  split
  · next s hs =>
      rw [List.map_cons, List.cons_append, List.cons.injEq] at hs
      have hz := eq_zero_of_digitChar (h d List.mem_cons_self) hs.1
      rcases hlead with hpos | rfl
      · omega
      · rw [hz, ← hs.2]
        rfl
  · rw [asciiDigits_append h hr]

theorem readFraction?_append (hne : ds ≠ []) (h : ∀ e ∈ ds, e < 10)
    (hr : NoDigit rest) :
    readFraction? (.char '.' :: (ds.map Text.digitChar ++ rest)) =
      some (ds, rest) := by
  rw [readFraction?, asciiDigits_append h hr]
  cases ds with
  | nil => exact absurd rfl hne
  | cons d es => rfl

theorem readPower?_append (minus : Bool) (hne : ds ≠ []) (h : ∀ e ∈ ds, e < 10)
    (hr : NoDigit rest) :
    readPower? (.char 'e' :: .char (if minus then '-' else '+') ::
      (ds.map Text.digitChar ++ rest)) =
        some (if minus then -(ofDigits ds : Int) else ofDigits ds, rest) := by
  rw [readPower?, if_pos (.inl rfl)]
  cases ds with
  | nil => exact absurd rfl hne
  | cons d es =>
      cases minus with
      | false =>
          simp only [Bool.false_eq_true, if_false, splitSign,
            asciiDigits_append h hr]
      | true => simp only [if_true, splitSign, asciiDigits_append h hr]

/-! ## The kinds of number

With a fraction, with a power, with both or with none: only the last is an
integer, and the other three give the double next to the decimal. -/

theorem readUnsigned?_digits (negative : Bool) (hw : IsWhole ds)
    (h : ∀ e ∈ ds, e < 10) (hr : Closes rest) :
    readUnsigned? negative (ds.map Text.digitChar ++ rest) =
      some (integer negative ds, rest) := by
  simp only [readUnsigned?, readWhole?_append hw h hr.noDigit,
    hr.readFraction?_eq, hr.readPower?_eq]

theorem readUnsigned?_fraction (negative : Bool) (hw : IsWhole ds)
    (h : ∀ d ∈ ds, d < 10) (hne : es ≠ []) (he : ∀ e ∈ es, e < 10)
    (hr : Closes rest) :
    readUnsigned? negative
      (ds.map Text.digitChar ++ .char '.' :: (es.map Text.digitChar ++ rest)) =
        some (.ok (.double (.ofDecimal negative (ofDigits (ds ++ es))
          (-(es.length : Int)))), rest) := by
  have hdot : NoDigit (.char '.' :: (es.map Text.digitChar ++ rest)) :=
    noDigit_cons rfl _
  simp only [readUnsigned?, readWhole?_append hw h hdot,
    readFraction?_append hne he hr.noDigit,
    hr.readPower?_eq, Option.getD_none, Int.zero_sub]

theorem readUnsigned?_power (negative minus : Bool) (hw : IsWhole ds)
    (h : ∀ d ∈ ds, d < 10) (hne : es ≠ []) (he : ∀ e ∈ es, e < 10)
    (hr : Closes rest) :
    readUnsigned? negative (ds.map Text.digitChar ++ .char 'e' ::
      .char (if minus then '-' else '+') :: (es.map Text.digitChar ++ rest)) =
        some (.ok (.double (.ofDecimal negative (ofDigits ds)
          (if minus then -(ofDigits es : Int) else ofDigits es))), rest) := by
  have hmark : NoDigit (.char 'e' :: .char (if minus then '-' else '+') ::
      (es.map Text.digitChar ++ rest)) := noDigit_cons rfl _
  have hnone : readFraction? (.char 'e' :: .char (if minus then '-' else '+') ::
      (es.map Text.digitChar ++ rest)) = none := rfl
  simp only [readUnsigned?, readWhole?_append hw h hmark, hnone,
    readPower?_append minus hne he hr.noDigit]

theorem readUnsigned?_fraction_power (negative minus : Bool) {as : List Nat}
    (hw : IsWhole ds) (h : ∀ d ∈ ds, d < 10) (hne : es ≠ [])
    (he : ∀ e ∈ es, e < 10) (hna : as ≠ []) (ha : ∀ a ∈ as, a < 10)
    (hr : Closes rest) :
    readUnsigned? negative
        (ds.map Text.digitChar ++ .char '.' :: (es.map Text.digitChar ++
      .char 'e' :: .char (if minus then
        '-' else '+') :: (as.map Text.digitChar ++ rest))) =
        some (.ok (.double (.ofDecimal negative (ofDigits (ds ++ es))
          ((if minus then -(ofDigits as : Int)
            else ofDigits as) - (es.length : Int)))), rest) := by
  have hmark : NoDigit (.char 'e' :: .char (if minus then '-' else '+') ::
      (as.map Text.digitChar ++ rest)) := noDigit_cons rfl _
  have hdot : NoDigit (.char '.' :: (es.map Text.digitChar ++ .char 'e' ::
      .char (if minus then '-' else '+') :: (as.map Text.digitChar ++ rest))) :=
    noDigit_cons rfl _
  simp only [readUnsigned?, readWhole?_append hw h hdot,
    readFraction?_append hne he hmark,
    readPower?_append minus hna ha hr.noDigit, Option.getD_some]

/-! ## The layout of a double

A double is written by its shortest digits with the point around, behind or
before them. Whatever the layout, the decimal is that of the digits, and so it
is read as the double. -/

theorem map_zeros (k : Nat) :
    (List.replicate k 0).map Text.digitChar = Text.replicate k '0' :=
  List.map_replicate

theorem lt_ten_of_mem_zeros_append (k : Nat) (h : ∀ e ∈ es, e < 10) :
    ∀ e ∈ List.replicate k 0 ++ es, e < 10 := by
  intro e he
  rcases List.mem_append.1 he with hz | he
  · rw [List.eq_of_mem_replicate hz]
    decide
  · exact h e he

theorem lt_ten_of_mem_append_zeros (k : Nat) (h : ∀ e ∈ es, e < 10) :
    ∀ e ∈ es ++ List.replicate k 0, e < 10 := by
  intro e he
  rw [List.mem_append, or_comm, ← List.mem_append] at he
  exact lt_ten_of_mem_zeros_append k h e he

/-- The text of a power of ten: its sign, and digits. -/
theorem exists_powerText_eq (exponent : Int) :
    ∃ es : List Nat, es ≠ [] ∧ (∀ e ∈ es, e < 10) ∧
      (if exponent < 0 then -(ofDigits es : Int) else ofDigits es) = exponent ∧
      powerText exponent =
        .char 'e' :: .char (if decide (exponent < 0) then '-' else '+') ::
          es.map Text.digitChar := by
  rw [powerText]
  generalize 2 - (Text.ofNat exponent.natAbs).length = k
  refine ⟨List.replicate k 0 ++ decimalDigits exponent.natAbs, ?_, ?_, ?_, ?_⟩
  · exact List.append_ne_nil_of_right_ne_nil _ (decimalDigits_ne_nil _)
  · exact lt_ten_of_mem_zeros_append k fun a ha =>
      lt_ten_of_mem_decimalDigits ha
  · rw [ofDigits_zeros_append, ofDigits_decimalDigits]
    split <;> omega
  · rw [List.append_assoc, List.map_append, map_zeros, ← ofNat_eq_map]
    by_cases h : exponent < 0
    · rw [if_pos h, decide_eq_true h, if_pos rfl]
      rfl
    · rw [if_neg h, decide_eq_false h, if_neg Bool.false_ne_true]
      rfl

variable {d : Nat}

/-- Digits around a point are read as the decimal that they and the point
are. -/
theorem readUnsigned?_aroundPoint (negative : Bool) (hpos : 0 < d)
    (h : ∀ e ∈ d :: ds, e < 10) (point : Int) (hr : Closes rest) :
    readUnsigned? negative
        (aroundPoint ((d :: ds).map Text.digitChar) point ++ rest) =
      some (.ok (.double (.ofDecimal negative (ofDigits (d :: ds))
        (point - ((d :: ds).length : Int)))), rest) := by
  rw [aroundPoint]
  split
  · next hsmall =>
      -- Zeros stand between the point and the digits.
      have hread :=
        readUnsigned?_fraction negative (isWhole_singleton 0) (by decide)
          (List.append_ne_nil_of_right_ne_nil (List.replicate (-point).toNat 0)
            (List.cons_ne_nil d ds))
              (lt_ten_of_mem_zeros_append (-point).toNat h) hr
      have hvalue :
          ofDigits ([0] ++ (List.replicate (-point).toNat 0 ++ (d :: ds))) =
            ofDigits (d :: ds) :=
        (ofDigits_zeros_append 1 _).trans (ofDigits_zeros_append _ _)
      have hexp :
          -((List.replicate (-point).toNat 0 ++ (d :: ds)).length : Int) =
            point - ((d :: ds).length : Int) := by
        rw [List.length_append, List.length_replicate]
        omega
      rw [hexp, hvalue, List.map_append, map_zeros, List.append_assoc] at hread
      rw [List.append_assoc, List.append_assoc]
      exact hread
  · split
    · next hlarge hinside =>
        rw [List.length_map] at hinside
        obtain ⟨k, hk⟩ : ∃ k, point.toNat = k + 1 := ⟨point.toNat - 1, by omega⟩
        have hbehind : (d :: ds).drop point.toNat ≠ [] := by
          rw [← List.length_pos_iff, List.length_drop]
          omega
        have hread :=
          readUnsigned?_fraction negative (isWhole_cons hpos (ds.take k))
            (fun a ha => h a (List.mem_of_mem_take (i := k + 1) ha)) hbehind
            (fun a ha => h a (List.mem_of_mem_drop ha)) hr
        have hexp : -(((d :: ds).drop point.toNat).length : Int) =
            point - ((d :: ds).length : Int) := by
          rw [List.length_drop]
          omega
        rw [hexp, ← List.take_succ_cons, ← hk, List.take_append_drop,
          List.map_take, List.map_drop] at hread
        rw [List.append_assoc]
        exact hread
    · next hlarge houtside =>
        rw [List.length_map] at houtside ⊢
        -- Zeros stand between the digits and the point, and one more behind it.
        have hw :
            IsWhole (d :: ds ++ List.replicate
              (point.toNat - (d :: ds).length) 0) :=
            isWhole_cons hpos _
        have hread :=
          readUnsigned?_fraction negative hw (lt_ten_of_mem_append_zeros _ h)
            (List.cons_ne_nil 0 []) (by decide) hr
        have hvalue :=
          ofDigits_append_zeros (d :: ds) (point.toNat - (d :: ds).length + 1)
        have hexp : -(([0] : List Nat).length : Int) +
            ((point.toNat - (d :: ds).length + 1 : Nat) : Int) =
              point - ((d :: ds).length : Int) := by
          rw [List.length_singleton]
          omega
        rw [List.append_assoc (d :: ds), ← List.replicate_succ', hvalue,
          Binary64.ofDecimal_mul_pow, hexp, List.map_append, map_zeros] at hread
        rw [List.append_assoc _ ".0".toText]
        exact hread

/-- Laid out in whichever way, digits are read as the decimal that they and
their point are. -/
theorem readUnsigned?_layOut (negative : Bool) (hpos : 0 < d)
    (h : ∀ e ∈ d :: ds, e < 10) (point : Int) (hr : Closes rest) :
    readUnsigned? negative
        (layOut ((d :: ds).map Text.digitChar) point ++ rest) =
      some (.ok (.double (.ofDecimal negative (ofDigits (d :: ds))
        (point - ((d :: ds).length : Int)))), rest) := by
  rw [layOut]
  split
  · exact readUnsigned?_aroundPoint negative hpos h point hr
  · obtain ⟨as, hne, ha, hvalue, htext⟩ := exists_powerText_eq (point - 1)
    have hd : ∀ e ∈ [d], e < 10 :=
      List.forall_mem_singleton.2 (h d List.mem_cons_self)
    rw [htext, List.append_assoc]
    cases ds with
    | nil =>
        have hread := readUnsigned?_power negative (decide (point - 1 < 0))
          (isWhole_singleton d) hd hne ha hr
        simp only [decide_eq_true_eq, hvalue] at hread
        simp only [decide_eq_true_eq]
        exact hread
    | cons e es =>
        have hread :=
          readUnsigned?_fraction_power negative (decide (point - 1 < 0))
            (isWhole_singleton d) hd (List.cons_ne_nil e es)
            (fun b hb => h b (List.mem_cons_of_mem d hb)) hne ha hr
        have hexp : point - 1 - ((e :: es).length : Int) =
            point - ((d :: e :: es).length : Int) := by
          rw [List.length_cons (a := d)]
          omega
        simp only [decide_eq_true_eq, hvalue, hexp] at hread
        simp only [decide_eq_true_eq]
        exact hread

/-- The text of a decimal other than zero is read as that decimal. -/
theorem readUnsigned?_toText (negative : Bool) {x : Decimal} (hx : 0 < x.digits)
    (hr : Closes rest) :
    readUnsigned? negative (x.toText ++ rest) =
      some (.ok (.double (.ofDecimal negative x.digits x.exponent)), rest) := by
  obtain ⟨d, ds, k, hdigits, hpos, htext⟩ := exists_significant hx
  have hlt : ∀ e ∈ d :: ds, e < 10 := fun e he =>
    lt_ten_of_mem_decimalDigits (hdigits ▸ List.mem_append_left _ he)
  have hlen : (Text.ofNat x.digits).length = (d :: ds).length + k := by
    rw [ofNat_eq_map, List.length_map, hdigits, List.length_append,
      List.length_replicate]
  have hvalue : x.digits = ofDigits (d :: ds) * 10 ^ k := by
    rw [← ofDigits_append_zeros, ← hdigits, ofDigits_decimalDigits]
  have hexp :
      ((d :: ds).length + k : Nat) + x.exponent - ((d :: ds).length : Int) =
        x.exponent + k := by omega
  rw [Decimal.toText, htext, readUnsigned?_layOut negative hpos hlt _ hr,
    hlen, hexp, ← Binary64.ofDecimal_mul_pow, ← hvalue]

/-- The text of a magnitude is read as the number of that magnitude. -/
theorem readUnsigned?_magnitudeText (negative : Bool) {units : Nat}
    (hf : Fits units) (hr : Closes rest) :
    readUnsigned? negative (magnitudeText units ++ rest) =
      some (.ok (.double (.finite negative units hf)), rest) := by
  rw [magnitudeText]
  split
  · next hzero =>
      subst hzero
      exact readUnsigned?_fraction negative (isWhole_singleton 0) (by decide)
        (List.cons_ne_nil 0 []) (by decide) hr
  · next hne =>
      have hu : 0 < units := Nat.pos_of_ne_zero hne
      have hback := Decimal.shortest_readsBack hu hf
      rw [readUnsigned?_toText negative
        (Decimal.digits_pos_of_readsBack hu hback) hr,
        Decimal.ofDecimal_of_readsBack hu hf hback]

end RowSql.Json

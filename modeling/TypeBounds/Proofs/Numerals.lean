import TypeBounds.Text.Decimal

/-! # Numbers read back as they were written

An integer is written without rounding: the decimal that its text reads as has no places
after the point, and is that integer. Large ones are scaled by a power of ten, where the
zeros that were left out at the end are the ones that the scale puts back.
-/

namespace TypeBounds.Text

/-- A decimal that is an integer. -/
structure Decimal.Denotes (d : Decimal) (n : Int) : Prop where
  whole : 0 ≤ d.exponent
  magnitude : n.natAbs = d.digits * Nat.pow 10 d.exponent.toNat
  sign : if d.negative then n ≤ 0 else 0 ≤ n

theorem foldl_digits (n : Nat) (digits : List Char) :
    digits.foldl (fun n c => n * 10 + (c.toNat - 48)) n = Nat.ofDigitChars 10 digits n := by
  simp [Nat.ofDigitChars_eq_foldl, Nat.mul_comm]

theorem isDecimalDigit_of_mem_toDigits {n : Nat} {c : Char} (member : c ∈ Nat.toDigits 10 n) :
    isDecimalDigit c := by
  have digit := Nat.isDigit_of_mem_toDigits (by omega) (by omega) member
  simpa [isDecimalDigit, Char.isDigit, Char.le_def, UInt32.le_iff_toNat_le] using digit

theorem exists_toDigits_cons (n : Nat) : ∃ first rest, Nat.toDigits 10 n = first :: rest :=
  List.exists_cons_of_ne_nil Nat.toDigits_ne_nil

theorem splitSign_of_digit {c : Char} (rest : List Char) (digit : isDecimalDigit c) :
    splitSign (c :: rest) = (false, c :: rest) := by
  rw [splitSign]
  · intro _ minus
    rw [(List.cons.inj minus).1] at digit
    exact absurd digit (by decide)
  · intro _ plus
    rw [(List.cons.inj plus).1] at digit
    exact absurd digit (by decide)

theorem dropTrailingZeros_append (digits : List Char) :
    ∃ zeros, digits = dropTrailingZeros digits ++ List.replicate zeros '0' := by
  have split := List.takeWhile_append_dropWhile (p := (· == '0')) (l := digits.reverse)
  have all := List.all_takeWhile (p := (· == '0')) (l := digits.reverse)
  have zeros := List.eq_replicate_of_mem fun c member =>
    LawfulBEq.eq_of_beq (List.all_eq_true.mp all c member)
  refine ⟨(digits.reverse.takeWhile (· == '0')).length, ?_⟩
  rw [dropTrailingZeros, ← List.reverse_replicate, ← zeros, ← List.reverse_append, split,
    List.reverse_reverse]

section Reading

variable {cs whole fraction scale : List Char} {negative : Bool}

/-- The digits after the point, with the point where there are any. -/
def pointed (fraction : List Char) : List Char :=
  if fraction.isEmpty then [] else '.' :: fraction

theorem readDecimal?_digits (signed : splitSign cs = (negative, whole)) (nonempty : whole ≠ [])
    (digits : ∀ c ∈ whole, isDecimalDigit c) :
    readDecimal? cs = some ⟨negative, Nat.ofDigitChars 10 whole 0, 0⟩ := by
  have all : (whole ++ []).takeWhile isDecimalDigit = whole ++ [] :=
    List.takeWhile_append_of_pos digits
  have rest : (whole ++ []).dropWhile isDecimalDigit = [] := List.dropWhile_append_of_pos digits
  rw [List.append_nil] at all rest
  simp [readDecimal?, signed, all, rest, nonempty, foldl_digits]

theorem readDecimal?_scaled (nonempty : whole ≠ []) (scaled : scale ≠ [])
    (signed : splitSign cs = (negative, whole ++ (pointed fraction ++ 'e' :: '+' :: scale)))
    (digits : ∀ c ∈ whole ++ (fraction ++ scale), isDecimalDigit c) :
    readDecimal? cs = some ⟨negative, Nat.ofDigitChars 10 (whole ++ fraction) 0,
      (Nat.ofDigitChars 10 scale 0 : Int) - fraction.length⟩ := by
  rw [List.forall_mem_append, List.forall_mem_append] at digits
  obtain ⟨wholeDigits, fractionDigits, scaleDigits⟩ := digits
  have mark : isDecimalDigit 'e' = false := by decide
  have point : isDecimalDigit '.' = false := by decide
  have plus : splitSign ('+' :: scale) = (false, scale) := rfl
  have all : scale.all isDecimalDigit := List.all_eq_true.mpr scaleDigits
  by_cases none : fraction = []
  · simp [-List.all_eq_true, readDecimal?, signed, pointed, none, mark, nonempty, plus, scaled, all,
      foldl_digits, List.takeWhile_append_of_pos wholeDigits,
      List.dropWhile_append_of_pos wholeDigits]
  · simp [-List.all_eq_true, readDecimal?, signed, pointed, none, mark, point, nonempty, plus,
      scaled, all, foldl_digits, Nat.ofDigitChars_append,
      List.takeWhile_append_of_pos wholeDigits, List.dropWhile_append_of_pos wholeDigits,
      List.takeWhile_append_of_pos fractionDigits, List.dropWhile_append_of_pos fractionDigits]

end Reading

/-- The digits of an exponent, of which there are at least two. -/
def scaleDigits (exponent : Nat) : List Char :=
  if exponent < 10 then '0' :: Nat.toDigits 10 exponent else Nat.toDigits 10 exponent

theorem ofDigitChars_scaleDigits (exponent : Nat) :
    Nat.ofDigitChars 10 (scaleDigits exponent) 0 = exponent := by
  rw [scaleDigits]
  split <;> simp [Nat.ofDigitChars_cons]

theorem scaleDigits_ne_nil (exponent : Nat) : scaleDigits exponent ≠ [] := by
  rw [scaleDigits]
  split <;> simp

theorem isDecimalDigit_of_mem_scaleDigits {exponent : Nat} (c : Char)
    (member : c ∈ scaleDigits exponent) : isDecimalDigit c := by
  rw [scaleDigits] at member
  split at member
  next =>
    rcases List.mem_cons.mp member with rfl | later
    · decide
    · exact isDecimalDigit_of_mem_toDigits later
  next => exact isDecimalDigit_of_mem_toDigits member

theorem toList_shortestNat_of_lt {n : Nat} (small : n < 1000000) :
    (shortestNat n).toList = Nat.toDigits 10 n := by
  simp [shortestNat, small]

theorem toList_shortestNat_of_le {n : Nat} (large : 1000000 ≤ n) {first : Char} {rest : List Char}
    (digits : Nat.toDigits 10 n = first :: rest) :
    (shortestNat n).toList = [first] ++
      (pointed (dropTrailingZeros rest) ++ 'e' :: '+' :: scaleDigits rest.length) := by
  have notSmall : ¬ n < 1000000 := by omega
  have exponent : (if rest.length < 10 then s!"0{rest.length}" else toString rest.length).toList =
      scaleDigits rest.length := by
    rw [scaleDigits]
    split <;> simp [toString]
  simp only [shortestNat, if_neg notSmall, digits, pointed, List.length_cons, Nat.add_sub_cancel,
    List.tail_cons]
  split <;> simp [toString, ← exponent]

theorem exists_digit_shortestNat (n : Nat) :
    ∃ first rest, (shortestNat n).toList = first :: rest ∧ isDecimalDigit first := by
  obtain ⟨first, rest, digits⟩ := exists_toDigits_cons n
  have digit : isDecimalDigit first := isDecimalDigit_of_mem_toDigits (digits ▸ List.mem_cons_self)
  by_cases small : n < 1000000
  · exact ⟨first, rest, (toList_shortestNat_of_lt small).trans digits, digit⟩
  · exact ⟨first, _, toList_shortestNat_of_le (by omega) digits, digit⟩

theorem readDecimal?_shortestNat (n : Nat) {cs : List Char} {negative : Bool}
    (signed : splitSign cs = (negative, (shortestNat n).toList)) :
    ∃ d, readDecimal? cs = some d ∧ d.negative = negative ∧ 0 ≤ d.exponent ∧
      n = d.digits * Nat.pow 10 d.exponent.toNat := by
  by_cases small : n < 1000000
  · rw [toList_shortestNat_of_lt small] at signed
    refine ⟨_, readDecimal?_digits signed Nat.toDigits_ne_nil
      fun _ => isDecimalDigit_of_mem_toDigits, rfl, by simp, ?_⟩
    simp
  · obtain ⟨first, rest, digits⟩ := exists_toDigits_cons n
    obtain ⟨zeros, split⟩ := dropTrailingZeros_append rest
    rw [toList_shortestNat_of_le (by omega) digits] at signed
    have kept : Nat.toDigits 10 n =
        ([first] ++ dropTrailingZeros rest) ++ List.replicate zeros '0' := by
      rw [digits, List.append_assoc, ← split, List.singleton_append]
    have all : ∀ c ∈ [first] ++ (dropTrailingZeros rest ++ scaleDigits rest.length),
        isDecimalDigit c := by
      rw [← List.append_assoc, List.forall_mem_append]
      refine ⟨fun c member => ?_, isDecimalDigit_of_mem_scaleDigits⟩
      apply isDecimalDigit_of_mem_toDigits (n := n)
      rw [kept]
      exact List.mem_append_left _ member
    have value : n =
        Nat.pow 10 zeros * Nat.ofDigitChars 10 ([first] ++ dropTrailingZeros rest) 0 := by
      calc n = Nat.ofDigitChars 10 (Nat.toDigits 10 n) 0 := Nat.ofDigitChars_ten_toDigits.symm
        _ = _ := by rw [kept, Nat.ofDigitChars_append, Nat.ofDigitChars_replicate_zero]; rfl
    have length := congrArg List.length split
    rw [List.length_append, List.length_replicate] at length
    have left : (rest.length : Int) - (dropTrailingZeros rest).length = zeros := by omega
    refine ⟨_, readDecimal?_scaled (List.cons_ne_nil _ _) (scaleDigits_ne_nil _) signed all, rfl,
      ?_⟩
    rw [ofDigitChars_scaleDigits, left]
    exact ⟨Int.natCast_nonneg _, value.trans (Nat.mul_comm _ _)⟩

/-- Every integer can be read back from its text. -/
theorem readDecimal?_shortestInt (n : Int) :
    ∃ d, readDecimal? (shortestInt n).toList = some d ∧ d.Denotes n := by
  cases n with
  | ofNat n =>
      obtain ⟨first, rest, text, digit⟩ := exists_digit_shortestNat n
      obtain ⟨d, read, sign, whole, value⟩ :=
        readDecimal?_shortestNat n (text ▸ splitSign_of_digit rest digit)
      exact ⟨d, read, whole, value, by simp [sign]⟩
  | negSucc n =>
      have signed : splitSign (shortestInt (.negSucc n)).toList =
          (true, (shortestNat (n + 1)).toList) := by
        rw [shortestInt, String.toList_append]
        rfl
      obtain ⟨d, read, sign, whole, value⟩ := readDecimal?_shortestNat (n + 1) signed
      exact ⟨d, read, whole, value, by simp [sign]; omega⟩

end TypeBounds.Text

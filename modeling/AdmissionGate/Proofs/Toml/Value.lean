import AdmissionGate.Proofs.Json.Number
import AdmissionGate.Toml.Value

/-!
# Proofs/Toml/Value — bare values read back

Integers, floats and truth values have a bare spelling each, in which nothing stands for anything
but digits, a sign and an exponent mark; it denotes them again.
-/

namespace AdmissionGate.Toml

open Binary64 (Finite shortestDecimal)
open Json.Numeral (WholeDigits signChars wholeDigits_decimalChars)
open Text (decimalChars ofDecimalChars)

/-! ## 1. Digits, signs and exponents -/

section

variable {digits whole tail : List Char} {negative : Bool}

theorem digitsOf?_of_digits (hne : digits ≠ []) (h : ∀ c ∈ digits, c.isDigit = true) :
    digitsOf? Char.isDigit digits = some digits := by
  induction digits with
  | nil => exact absurd rfl hne
  | cons c rest ih =>
    obtain ⟨hc, hrest⟩ := List.forall_mem_cons.mp h
    cases rest with
    | nil => exact if_pos hc
    | cons d more =>
      -- Digits may be grouped by underscores, which these are not.
      have hd : d ≠ '_' := by
        rintro rfl
        exact absurd (hrest '_' List.mem_cons_self) (by decide)
      unfold digitsOf?
      split
      next heq => cases heq
      next heq => cases heq
      next heq => exact absurd (List.cons.inj (List.cons.inj heq).2).1 hd
      next heq =>
        obtain ⟨rfl, rfl⟩ := List.cons.inj heq
        rw [if_pos hc, ih (List.cons_ne_nil _ _) hrest]
        rfl

theorem ne_nil_of_wholeDigits (h : WholeDigits whole) : whole ≠ [] := by
  rcases h.2 with rfl | ⟨d, ds, rfl, -⟩ <;> exact List.cons_ne_nil _ _

theorem wholeDigits?_of_wholeDigits (h : WholeDigits whole) : wholeDigits? whole = some whole := by
  unfold wholeDigits?
  rw [digitsOf?_of_digits (ne_nil_of_wholeDigits h) h.1]
  rcases h.2 with rfl | ⟨d, ds, rfl, hd⟩
  · rfl
  · split
    next heq => exact absurd (List.cons.inj (Option.some.inj heq)).1 hd
    next => rfl

/-- A minus sign is told apart from digits. -/
theorem splitSign_signChars (negative : Bool) (h : WholeDigits whole) (tail : List Char) :
    splitSign (signChars negative ++ (whole ++ tail)) = (negative, whole ++ tail) := by
  cases negative with
  | true => rfl
  | false =>
    obtain ⟨d, ds, rfl⟩ := List.exists_cons_of_ne_nil (ne_nil_of_wholeDigits h)
    have hd : d.isDigit = true := h.1 d List.mem_cons_self
    show splitSign (d :: (ds ++ tail)) = _
    unfold splitSign
    split
    next heq =>
      rw [(List.cons.inj heq).1] at hd
      exact absurd hd (by decide)
    next heq =>
      rw [(List.cons.inj heq).1] at hd
      exact absurd hd (by decide)
    next => rfl

theorem toList_signedDecimal (i : Int) :
    (Text.signedDecimal i).toList = signChars (i < 0) ++ decimalChars i.natAbs := by
  cases i with
  | ofNat n => exact Text.toList_decimal n
  | negSucc n =>
    have hnegative : decide (Int.negSucc n < 0) = true := decide_eq_true (Int.negSucc_lt_zero n)
    show ("-" ++ Text.decimal (n + 1)).toList = _
    rw [String.toList_append, Text.toList_decimal, hnegative]
    rfl

theorem exponentOf?_signedDecimal (e : Int) :
    exponentOf? (Text.signedDecimal e).toList = some e := by
  have hdigits := digitsOf?_of_digits (Text.decimalChars_ne_nil e.natAbs)
    fun _ => Text.isDigit_of_mem_decimalChars
  have hsplit := splitSign_signChars (decide (e < 0)) (wholeDigits_decimalChars e.natAbs) []
  rw [List.append_nil] at hsplit
  unfold exponentOf?
  rw [toList_signedDecimal, hsplit]
  show (digitsOf? Char.isDigit (decimalChars e.natAbs)).map _ = _
  rw [hdigits, Option.map_some, Text.ofDecimalChars_decimalChars]
  by_cases hneg : e < 0
  · rw [if_pos (decide_eq_true hneg)]
    congr 1
    omega
  · rw [if_neg (by simpa using hneg)]
    congr 1
    omega

/-- Digits with nothing or an exponent after them are not taken for a number of another kind. -/
theorem number?_signChars (negative : Bool) (h : WholeDigits whole) (tail : List Char)
    (htail : ∀ c ∈ tail.head?, c = 'e') :
    number? (signChars negative ++ (whole ++ tail)) = unsignedNumber? negative (whole ++ tail) := by
  have hsplit := splitSign_signChars negative h tail
  -- A base is announced by a letter after a zero, and here that letter could only be an `e`.
  have hbase {c : Char} {rest : List Char} (hc : c ≠ 'e') :
      signChars negative ++ (whole ++ tail) ≠ '0' :: c :: rest := by
    intro heq
    cases negative with
    | true => exact absurd (List.cons.inj heq).1 (by decide)
    | false =>
      rcases h.2 with rfl | ⟨d, ds, rfl, hd⟩
      · have hrest : tail = c :: rest := (List.cons.inj heq).2
        exact hc (htail c (by rw [hrest]; rfl))
      · exact hd (List.cons.inj heq).1
  -- `inf` and `nan` do not start with a digit.
  have hword {c : Char} {rest : List Char} (hc : c.isDigit = false) :
      whole ++ tail ≠ c :: rest := by
    intro heq
    obtain ⟨d, ds, rfl⟩ := List.exists_cons_of_ne_nil (ne_nil_of_wholeDigits h)
    have hd := h.1 d List.mem_cons_self
    rw [(List.cons.inj heq).1, hc] at hd
    cases hd
  unfold number?
  split
  next heq => exact absurd heq (hbase (by decide))
  next heq => exact absurd heq (hbase (by decide))
  next heq => exact absurd heq (hbase (by decide))
  next =>
    rw [hsplit]
    dsimp only
    rw [if_neg (hword (c := 'i') rfl), if_neg (hword (c := 'n') rfl)]

/-- What stands before an exponent mark or the end is all there is before a point. -/
theorem split_at_mark (h : WholeDigits whole) (tail : List Char)
    (htail : ∀ c ∈ tail.head?, c = 'e') :
    (whole ++ tail).takeWhile (!isExponentMark ·) = whole ∧
      (whole ++ tail).dropWhile (!isExponentMark ·) = tail ∧
      whole.takeWhile (· != '.') = whole ∧ whole.dropWhile (· != '.') = [] := by
  -- No digit is a mark of an exponent or a point.
  have hplain : ∀ c ∈ whole, (!isExponentMark c) = true ∧ (c != '.') = true := by
    intro c hc
    have hdigit := h.1 c hc
    refine ⟨?_, bne_iff_ne.mpr ?_⟩
    · have hmark : c ≠ 'e' ∧ c ≠ 'E' := by
        constructor <;> rintro rfl <;> exact absurd hdigit (by decide)
      simp [isExponentMark, hmark.1, hmark.2]
    · rintro rfl
      exact absurd hdigit (by decide)
  have hmark : tail.takeWhile (!isExponentMark ·) = [] ∧
      tail.dropWhile (!isExponentMark ·) = tail := by
    cases tail with
    | nil => exact ⟨rfl, rfl⟩
    | cons c rest =>
      obtain rfl : c = 'e' := htail c rfl
      exact ⟨rfl, rfl⟩
  have hbefore : ∀ c ∈ whole, (!isExponentMark c) = true := fun c hc => (hplain c hc).1
  have hpoint : ∀ c ∈ whole, (c != '.') = true := fun c hc => (hplain c hc).2
  refine ⟨?_, ?_, List.takeWhile_eq_self_iff.mpr hpoint, List.dropWhile_eq_nil_iff.mpr hpoint⟩
  · rw [List.takeWhile_append_of_pos hbefore, hmark.1, List.append_nil]
  · rw [List.dropWhile_append_of_pos hbefore, hmark.2]

theorem unsignedNumber?_whole (negative : Bool) (h : WholeDigits whole) :
    unsignedNumber? negative whole =
      some (.integer (if negative then -(ofDecimalChars whole : Int)
        else ofDecimalChars whole)) := by
  obtain ⟨hmantissa, hexponent, hwhole, hplaces⟩ := split_at_mark h [] nofun
  rw [List.append_nil] at hmantissa hexponent
  unfold unsignedNumber?
  dsimp only
  rw [hmantissa, hexponent, hwhole, hplaces, wholeDigits?_of_wholeDigits h]
  rfl

theorem unsignedNumber?_exponent (negative : Bool) (h : WholeDigits whole) (e : Int) :
    unsignedNumber? negative (whole ++ 'e' :: (Text.signedDecimal e).toList) =
      some (floatOf negative whole e) := by
  obtain ⟨hmantissa, hexponent, hwhole, hplaces⟩ :=
    split_at_mark h ('e' :: (Text.signedDecimal e).toList) (by simp)
  unfold unsignedNumber?
  dsimp only
  rw [hmantissa, hexponent, hwhole, hplaces, wholeDigits?_of_wholeDigits h]
  show ((exponentOf? (Text.signedDecimal e).toList).map some).bind _ = _
  rw [exponentOf?_signedDecimal]
  rfl

end

/-! ## 2. Spellings of values -/

/-- The decimal that a finite double is written as: digits and a power of ten. -/
def decimalOf (x : Finite) : Nat × Int :=
  if x.units = 0 then (0, 0)
  else ((shortestDecimal .even x.units).significand, (shortestDecimal .even x.units).exponent)

def floatChars : Binary64 → List Char
  | .nan => "nan".toList
  | .infinite negative => signChars negative ++ "inf".toList
  | .finite x =>
    signChars x.negative ++ (decimalChars (decimalOf x).1 ++
      'e' :: (Text.signedDecimal (decimalOf x).2).toList)

theorem ofDecimal_decimalOf (x : Finite) :
    Binary64.ofDecimal x.negative (decimalOf x).1 (decimalOf x).2 = .finite x := by
  unfold decimalOf
  by_cases hzero : x.units = 0
  · rw [if_pos hzero]
    unfold Binary64.ofDecimal
    rw [if_pos (.inl rfl)]
    obtain ⟨negative, units, h⟩ := x
    subst hzero
    rfl
  · rw [if_neg hzero]
    have hreads := Binary64.readsAs_shortestDecimal .even (Nat.pos_of_ne_zero hzero)
      x.representable
    exact Binary64.ofDecimal_eq_finite_of_sign x.negative
      ((Binary64.readsAs_iff x.representable).mp hreads)

theorem bareValue?_of_number? {cs : List Char} {v : Value} (h : number? cs = some v) :
    bareValue? cs = some v := by
  have htrue : number? "true".toList = none := by decide +kernel
  have hfalse : number? "false".toList = none := by decide +kernel
  unfold bareValue?
  rw [if_neg, if_neg, h]
  · rfl
  · rintro rfl
    cases h.symm.trans hfalse
  · rintro rfl
    cases h.symm.trans htrue

theorem bareValue?_signedDecimal (i : Int) :
    bareValue? (Text.signedDecimal i).toList = some (.integer i) := by
  have hwhole := wholeDigits_decimalChars i.natAbs
  have hnumber := number?_signChars (decide (i < 0)) hwhole [] nofun
  rw [List.append_nil, unsignedNumber?_whole _ hwhole, Text.ofDecimalChars_decimalChars] at hnumber
  rw [toList_signedDecimal]
  refine (bareValue?_of_number? hnumber).trans ?_
  by_cases hneg : i < 0
  · rw [if_pos (decide_eq_true hneg)]
    congr 2
    omega
  · rw [if_neg (by simpa using hneg)]
    congr 2
    omega

theorem bareValue?_floatChars (x : Binary64) :
    bareValue? (floatChars x) = some (.float (some x)) := by
  apply bareValue?_of_number?
  cases x with
  | nan => rfl
  | infinite negative => cases negative <;> rfl
  | finite x =>
    have hwhole := wholeDigits_decimalChars (decimalOf x).1
    show number? (signChars x.negative ++ (_ ++ 'e' :: _)) = _
    rw [number?_signChars _ hwhole _ (by simp), unsignedNumber?_exponent _ hwhole]
    unfold floatOf
    rw [Text.ofDecimalChars_decimalChars, ofDecimal_decimalOf]

end AdmissionGate.Toml

import AdmissionGate.Json.Number
import AdmissionGate.Proofs.Binary64.Shortest
import AdmissionGate.Proofs.Request.Decode

/-!
# Proofs/Json/Number — written numbers read back

`Number.numeral` is the numeral that a number is written as.  The text of a number spells it, and it
denotes the number again, so that neither integers nor doubles change between writing and reading.
-/

namespace AdmissionGate.Json

open Binary64 (Finite shortestDecimal)
open Text (decimalChars ofDecimalChars)

/-! ## Spellings taken apart -/

namespace Numeral

variable {negative : Bool} {whole places tail cs : List Char}

/-- Digits that stand before a point: at least one, and no zero in front of others. -/
def WholeDigits (cs : List Char) : Prop :=
  (∀ c ∈ cs, c.isDigit = true) ∧ (cs = ['0'] ∨ ∃ d ds, cs = d :: ds ∧ d ≠ '0')

def signChars (negative : Bool) : List Char := if negative then ['-'] else []

theorem takeWhile_isDigit_append (tail : List Char) (hcs : ∀ c ∈ cs, c.isDigit = true)
    (htail : ∀ c ∈ tail.head?, c.isDigit = false) :
    (cs ++ tail).takeWhile Char.isDigit = cs ∧ (cs ++ tail).dropWhile Char.isDigit = tail := by
  rw [List.takeWhile_append_of_pos hcs, List.dropWhile_append_of_pos hcs]
  cases tail with
  | nil => simp
  | cons c rest => simp [htail c rfl]

/-- A sign, the digits before the point and what follows them are told apart. -/
theorem ofChars?_eq_withTail? (hwhole : WholeDigits whole)
    (htail : ∀ c ∈ tail.head?, c.isDigit = false) :
    ofChars? (signChars negative ++ (whole ++ tail)) = withTail? negative whole tail := by
  obtain ⟨htake, hdrop⟩ := takeWhile_isDigit_append tail hwhole.1 htail
  obtain ⟨d, ds, rfl⟩ : ∃ d ds, whole = d :: ds := by
    rcases hwhole.2 with h | ⟨d, ds, h, _⟩
    · exact ⟨_, _, h⟩
    · exact ⟨d, ds, h⟩
  have hd : d.isDigit = true := hwhole.1 d List.mem_cons_self
  -- The sign is told by its character, and no digit is a minus.
  have hminus : d ≠ '-' := by
    rintro rfl
    exact absurd hd (by decide)
  unfold ofChars?
  split
  next negative' rest heq =>
  have hsplit : (negative', rest) = (negative, d :: ds ++ tail) := by
    rw [← heq]
    cases negative with
    | true => rfl
    | false =>
      split
      next h => exact absurd (List.cons.inj h).1 hminus
      next => rfl
  obtain ⟨rfl, rfl⟩ := Prod.mk.inj hsplit
  dsimp only
  rw [htake, hdrop]
  -- A zero in front of other digits is refused.
  rcases hwhole.2 with h | ⟨_, _, h, hne⟩
  · obtain ⟨rfl, rfl⟩ := List.cons.inj h
    rfl
  · obtain ⟨rfl, rfl⟩ := List.cons.inj h
    split
    next heq => cases heq
    next heq => exact absurd (List.cons.inj heq).1 hne
    next => rfl

theorem ofChars?_point (hwhole : WholeDigits whole) (hne : places ≠ [])
    (hplaces : ∀ c ∈ places, c.isDigit = true) :
    ofChars? (signChars negative ++ (whole ++ '.' :: places)) =
      some (.decimal negative (ofDecimalChars (whole ++ places)) (-places.length)) := by
  obtain ⟨htake, hdrop⟩ := takeWhile_isDigit_append [] hplaces (by simp)
  rw [List.append_nil] at htake hdrop
  rw [ofChars?_eq_withTail? hwhole (by simp), withTail?]
  dsimp only
  rw [htake, hdrop, if_neg (by simpa using hne)]

theorem ofChars?_point_exponent (hwhole : WholeDigits whole) (hne : places ≠ [])
    (hplaces : ∀ c ∈ places, c.isDigit = true) :
    ofChars? (signChars negative ++ (whole ++ '.' :: (places ++ 'e' :: cs))) =
      (exponentOf? cs).map fun e =>
        .decimal negative (ofDecimalChars (whole ++ places)) (e - places.length) := by
  obtain ⟨htake, hdrop⟩ := takeWhile_isDigit_append ('e' :: cs) hplaces (by simp)
  rw [ofChars?_eq_withTail? hwhole (by simp), withTail?]
  dsimp only
  rw [htake, hdrop, if_neg (by simpa using hne)]
  rfl

theorem ofChars?_exponent (hwhole : WholeDigits whole) :
    ofChars? (signChars negative ++ (whole ++ 'e' :: cs)) =
      (exponentOf? cs).map fun e => .decimal negative (ofDecimalChars whole) e := by
  rw [ofChars?_eq_withTail? hwhole (by simp)]
  rfl

theorem exponentOf?_decimalChars {sign : Char} (hsign : sign = '+' ∨ sign = '-') (n : Nat) :
    exponentOf? (sign :: decimalChars n) = some (if sign = '-' then -(n : Int) else n) := by
  have hempty : (decimalChars n).isEmpty = false := by
    simpa using Text.decimalChars_ne_nil n
  have hall : (decimalChars n).all Char.isDigit = true :=
    List.all_eq_true.mpr fun _ => Text.isDigit_of_mem_decimalChars
  rcases hsign with rfl | rfl <;>
  · unfold exponentOf?
    simp [hempty, hall, Text.ofDecimalChars_decimalChars]

theorem exponentOf?_signedDecimal (e : Int) :
    exponentOf? ((if 0 ≤ e then "+" else "").toList ++ (Text.signedDecimal e).toList) = some e := by
  cases e with
  | ofNat n =>
    have h := exponentOf?_decimalChars (.inl rfl) n
    have hsign : (0 : Int) ≤ Int.ofNat n := Int.natCast_nonneg n
    rw [if_pos hsign, Text.signedDecimal, Text.toList_decimal]
    exact h
  | negSucc n =>
    have h := exponentOf?_decimalChars (.inr rfl) (n + 1)
    rw [if_neg (by omega), Text.signedDecimal, String.toList_append, Text.toList_decimal]
    exact h

end Numeral

/-! ## The numeral of a number -/

/-- The numeral that a finite double is written as. -/
def fractionNumeral (x : Finite) : Numeral :=
  if x.units = 0 then .decimal x.negative 0 (-1)
  else
    let decimal := shortestDecimal .even x.units
    let size := (decimalChars decimal.significand).length
    -- A whole number is written out, with one zero after its point.
    if 0 ≤ decimal.exponent ∧ size + decimal.exponent ≤ 16 then
      .decimal x.negative (decimal.significand * 10 ^ (decimal.exponent.toNat + 1)) (-1)
    else .decimal x.negative decimal.significand decimal.exponent

def Number.numeral : Number → Numeral
  | .integer i _ => .integer (i < 0) i.natAbs
  | .fraction x => fractionNumeral x

theorem toNumber?_fractionNumeral (x : Finite) :
    (fractionNumeral x).toNumber? = some (.fraction x) := by
  have hfinite {significand : Nat} {exponent : Int}
      (h : Binary64.ofDecimal x.negative significand exponent = .finite x) :
      (Numeral.decimal x.negative significand exponent).toNumber? = some (.fraction x) := by
    show Numeral.finite? _ _ _ = _
    unfold Numeral.finite?
    rw [h]
  unfold fractionNumeral
  by_cases hzero : x.units = 0
  · rw [if_pos hzero]
    apply hfinite
    unfold Binary64.ofDecimal
    rw [if_pos (.inl rfl)]
    obtain ⟨negative, units, h⟩ := x
    subst hzero
    rfl
  · rw [if_neg hzero]
    have hpos := Nat.pos_of_ne_zero hzero
    have hreads := Binary64.readsAs_shortestDecimal .even hpos x.representable
    have hsignificand := Binary64.significand_pos_of_readsAs hpos x.representable hreads
    have hdecimal := Binary64.ofDecimal_eq_finite_of_sign x.negative
      ((Binary64.readsAs_iff x.representable).mp hreads)
    dsimp only
    split
    next hwhole =>
      -- The zeros that are written out stand for the exponent that is not.
      apply hfinite
      rw [Binary64.ofDecimal_mul_pow hsignificand, ← hdecimal]
      congr 1
      omega
    next => exact hfinite hdecimal

/-- The numeral of a number denotes that number. -/
theorem toNumber?_numeral (n : Number) : n.numeral.toNumber? = some n := by
  cases n with
  | fraction x => exact toNumber?_fractionNumeral x
  | integer i hi =>
    apply Numeral.toNumber?_eq_integer_iff.mpr
    refine ⟨decide (i < 0), i.natAbs, rfl, ?_, ?_⟩
    · intro hneg
      have hneg := of_decide_eq_true hneg
      omega
    · by_cases hneg : i < 0
      · rw [if_pos (decide_eq_true hneg)]
        omega
      · rw [if_neg (by simpa using hneg)]
        omega

/-! ## Written numbers -/

namespace Numeral

variable {negative : Bool} {significand : Nat}

theorem wholeDigits_decimalChars (n : Nat) : WholeDigits (decimalChars n) := by
  refine ⟨fun _ => Text.isDigit_of_mem_decimalChars, ?_⟩
  rcases Nat.eq_zero_or_pos n with rfl | hpos
  · exact .inl rfl
  · obtain ⟨c, cs, hcs, _, hne⟩ := Text.decimalChars_eq_cons hpos
    exact .inr ⟨c, cs, hcs, hne⟩

theorem isDigit_of_mem_zeros {k : Nat} : ∀ c ∈ List.replicate k '0', c.isDigit = true := by
  intro c hc
  rw [(List.mem_replicate.mp hc).2]
  decide

section Point

variable {digits : List Char}

theorem ofChars?_pointBefore (hdigits : ∀ c ∈ digits, c.isDigit = true) (hne : digits ≠ [])
    (k : Nat) :
    ofChars? (signChars negative ++ '0' :: '.' :: (List.replicate k '0' ++ digits)) =
      some (.decimal negative (ofDecimalChars digits) (-((k + digits.length : Nat) : Int))) := by
  have hwhole : WholeDigits ['0'] := wholeDigits_decimalChars 0
  have hplaces : ∀ c ∈ List.replicate k '0' ++ digits, c.isDigit = true :=
    List.forall_mem_append.mpr ⟨isDigit_of_mem_zeros, hdigits⟩
  -- The zero before the point is one more that the value does not depend on.
  have hvalue : ofDecimalChars (['0'] ++ (List.replicate k '0' ++ digits)) =
      ofDecimalChars digits := Text.ofDecimalChars_zeros_append (k + 1) digits
  refine (ofChars?_point hwhole (List.append_ne_nil_of_right_ne_nil _ hne) hplaces).trans ?_
  rw [hvalue, List.length_append, List.length_replicate]

variable (hdigits : ∀ c ∈ digits, c.isDigit = true)
  (hhead : ∃ d ds, digits = d :: ds ∧ d ≠ '0')

include hdigits hhead

theorem ofChars?_pointAfter (k : Nat) :
    ofChars? (signChars negative ++ (digits ++ List.replicate k '0' ++ ['.', '0'])) =
      some (.decimal negative (ofDecimalChars digits * 10 ^ (k + 1)) (-1)) := by
  have hwhole : WholeDigits (digits ++ List.replicate k '0') := by
    obtain ⟨d, ds, rfl, hne⟩ := hhead
    exact ⟨List.forall_mem_append.mpr ⟨hdigits, isDigit_of_mem_zeros⟩, .inr ⟨d, _, rfl, hne⟩⟩
  refine (ofChars?_point hwhole (List.cons_ne_nil '0' []) (isDigit_of_mem_zeros (k := 1))).trans ?_
  -- The zero after the point is written behind the zeros before it.
  rw [List.append_assoc, ← List.replicate_one, List.replicate_append_replicate,
    Text.ofDecimalChars_append_zeros]
  rfl

theorem ofChars?_pointWithin {n : Nat} (hpos : 0 < n) (hlt : n < digits.length) :
    ofChars? (signChars negative ++ (digits.take n ++ '.' :: digits.drop n)) =
      some (.decimal negative (ofDecimalChars digits) (n - digits.length)) := by
  have hwhole : WholeDigits (digits.take n) := by
    obtain ⟨d, ds, rfl, hne⟩ := hhead
    refine ⟨fun c hc => hdigits c (List.mem_of_mem_take hc), .inr ⟨d, ds.take (n - 1), ?_, hne⟩⟩
    exact List.take_cons hpos
  have hplaces : digits.drop n ≠ [] := by
    rw [Ne, List.drop_eq_nil_iff]
    omega
  refine (ofChars?_point hwhole hplaces fun c hc => hdigits c (List.mem_of_mem_drop hc)).trans ?_
  rw [List.take_append_drop, List.length_drop]
  congr 2
  omega

end Point

theorem ofChars?_placePoint (hpos : 0 < significand) (before : Int) :
    ofChars? (signChars negative ++ Binary64.placePoint true (decimalChars significand) before) =
      some (
        if ((decimalChars significand).length : Int) ≤ before then
          .decimal negative
            (significand * 10 ^ ((before - (decimalChars significand).length).toNat + 1)) (-1)
        else .decimal negative significand (before - (decimalChars significand).length)) := by
  have hvalue := Text.ofDecimalChars_decimalChars significand
  have hdigits := (wholeDigits_decimalChars significand).1
  have hlength := Text.length_decimalChars_pos significand
  have hhead : ∃ d ds, decimalChars significand = d :: ds ∧ d ≠ '0' := by
    obtain ⟨d, ds, hcons, _, hne⟩ := Text.decimalChars_eq_cons hpos
    exact ⟨d, ds, hcons, hne⟩
  generalize decimalChars significand = digits at hvalue hdigits hlength hhead ⊢
  unfold Binary64.placePoint
  by_cases hbefore : before ≤ 0
  · rw [if_pos hbefore, if_neg (show ¬ (digits.length : Int) ≤ before by omega),
      ofChars?_pointBefore hdigits (List.length_pos_iff_ne_nil.mp hlength), hvalue]
    congr 2
    omega
  rw [if_neg hbefore]
  by_cases hle : digits.length ≤ before.toNat
  · have hcount : (before - digits.length).toNat = before.toNat - digits.length := by omega
    rw [if_pos hle, if_pos (show (digits.length : Int) ≤ before by omega), hcount, ← hvalue]
    exact ofChars?_pointAfter hdigits hhead _
  · rw [if_neg hle, if_neg (show ¬ (digits.length : Int) ≤ before by omega),
      ofChars?_pointWithin hdigits hhead (by omega) (by omega), hvalue]
    congr 2
    omega

theorem ofChars?_withExponent (hpos : 0 < significand) (exponent : Int) :
    ofChars? (signChars negative ++
        Binary64.withExponent "+" (decimalChars significand) exponent) =
      some (.decimal negative significand
        (exponent + 1 - (decimalChars significand).length)) := by
  have hvalue := Text.ofDecimalChars_decimalChars significand
  have hdigits := (wholeDigits_decimalChars significand).1
  obtain ⟨d, ds, hcons, _, hne⟩ := Text.decimalChars_eq_cons hpos
  rw [hcons] at hvalue hdigits ⊢
  have hwhole : WholeDigits [d] := by
    refine ⟨fun c hc => hdigits c ?_, .inr ⟨d, [], rfl, hne⟩⟩
    exact List.mem_cons.mpr (.inl (List.mem_singleton.mp hc))
  -- A single digit has no point after it.
  cases ds with
  | nil =>
    refine (ofChars?_exponent hwhole).trans ?_
    rw [exponentOf?_signedDecimal, hvalue, Option.map_some, List.length_singleton]
    congr 2
    omega
  | cons e rest =>
    refine (ofChars?_point_exponent hwhole (List.cons_ne_nil e rest)
      fun c hc => hdigits c (List.mem_cons_of_mem d hc)).trans ?_
    rw [exponentOf?_signedDecimal, List.singleton_append, hvalue, Option.map_some]
    simp only [List.length_cons]
    congr 2
    omega

end Numeral

theorem layout_positional_iff {e : Int} :
    Number.layout.positional e = true ↔ -5 < e ∧ e ≤ 16 := by
  simp [Number.layout]

theorem ofChars?_fraction (x : Finite) :
    Numeral.ofChars? (x.chars Number.layout) = some (fractionNumeral x) := by
  unfold Finite.chars fractionNumeral
  dsimp only
  by_cases hzero : x.units = 0
  · have hwhole : Numeral.WholeDigits ['0'] := Numeral.wholeDigits_decimalChars 0
    rw [if_pos hzero, if_pos hzero]
    exact Numeral.ofChars?_point hwhole (List.cons_ne_nil '0' []) hwhole.1
  · have hpos := Nat.pos_of_ne_zero hzero
    have hreads := Binary64.readsAs_shortestDecimal .even hpos x.representable
    have hsignificand := Binary64.significand_pos_of_readsAs hpos x.representable hreads
    rw [if_neg hzero, if_neg hzero]
    rw [show Number.layout.tie = .even from rfl]
    show Numeral.ofChars? (Numeral.signChars x.negative ++ _) = _
    generalize shortestDecimal .even x.units = decimal at hsignificand ⊢
    have hlength := Text.length_decimalChars_pos decimal.significand
    by_cases hpositional : Number.layout.positional
        ((decimalChars decimal.significand).length + decimal.exponent) = true
    · have hrange := layout_positional_iff.mp hpositional
      rw [if_pos hpositional, show Number.layout.keepsPoint = true from rfl,
        Numeral.ofChars?_placePoint hsignificand, add_sub_cancel_left]
      by_cases hwhole : 0 ≤ decimal.exponent
      · rw [if_pos (by omega), if_pos ⟨hwhole, hrange.2⟩]
      · rw [if_neg (by omega), if_neg fun h => hwhole h.1]
    · -- A whole number has a digit before its point, so it is too large rather than too small.
      have hrange := mt layout_positional_iff.mpr hpositional
      rw [if_neg hpositional, show Number.layout.exponentSign = "+" from rfl,
        Numeral.ofChars?_withExponent hsignificand, if_neg (by omega), Int.sub_add_cancel,
        add_sub_cancel_left]

/-- The text of a number spells its numeral. -/
theorem ofChars?_write (n : Number) : Numeral.ofChars? n.write.toList = some n.numeral := by
  cases n with
  | fraction x =>
    show Numeral.ofChars? (String.ofList (x.chars Number.layout)).toList = _
    rw [String.toList_ofList]
    exact ofChars?_fraction x
  | integer i hi =>
    have hread (negative : Bool) (n : Nat) :
        Numeral.ofChars? (Numeral.signChars negative ++ decimalChars n) =
          some (.integer negative n) := by
      have hsplit : Numeral.ofChars? (Numeral.signChars negative ++ (decimalChars n ++ [])) = _ :=
        Numeral.ofChars?_eq_withTail? (Numeral.wholeDigits_decimalChars n) (by simp)
      rw [List.append_nil] at hsplit
      rw [hsplit, Numeral.withTail?, Text.ofDecimalChars_decimalChars]
    cases i with
    | ofNat n =>
      show Numeral.ofChars? (Text.decimal n).toList = _
      rw [Text.toList_decimal]
      exact hread false n
    | negSucc n =>
      show Numeral.ofChars? ("-" ++ Text.decimal (n + 1)).toList = _
      have hneg : (Number.integer (Int.negSucc n) hi).numeral = .integer true (n + 1) := by
        simp [Number.numeral, Int.negSucc_lt_zero]
      rw [String.toList_append, Text.toList_decimal, hneg]
      exact hread true (n + 1)

end AdmissionGate.Json

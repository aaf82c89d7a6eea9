import AdmissionGate.Proofs.Text.Digits
import AdmissionGate.Timestamp.Rfc3339

/-!
# Proofs/Timestamp/Rfc3339 — the text of a timestamp reads back

Each part of the text is read back by the reader of that part, whatever follows it, except that a
fraction asks for something that is no digit and no point.  What is read has a text again.
-/

namespace AdmissionGate

theorem Date.of?_eq_self (d : Date) : Date.of? d.year d.month d.day = some d := dif_pos d.valid

theorem Date.of?_eq_some {year : Int} {month day : Nat} {d : Date}
    (h : Date.of? year month day = some d) : d.year = year := by
  unfold Date.of? at h
  split_ifs at h
  cases h
  rfl

theorem Date.day_le (d : Date) : d.day ≤ 31 := by
  have hmonth : daysInMonth d.year d.month ≤ 31 := by
    unfold daysInMonth
    split_ifs <;> decide
  exact Nat.le_trans d.valid.2.2.2 hmonth

theorem TimeOfDay.of?_eq_self (t : TimeOfDay) :
    TimeOfDay.of? t.hour t.minute t.second t.nanosecond = some t := dif_pos t.valid

namespace Timestamp

variable {rest : List Char}

/-! ## Parts -/

theorem readDigits?_append {cs : List Char} (hcs : ∀ c ∈ cs, c.isDigit = true) :
    readDigits? cs.length (cs ++ rest) = some (Text.ofDecimalChars cs, rest) := by
  unfold readDigits?
  rw [List.take_left, List.drop_left]
  exact if_pos ⟨rfl, List.all_eq_true.mpr hcs⟩

theorem readDigits?_paddedDecimal {width n : Nat} (hwidth : 0 < width) (h : n < 10 ^ width) :
    readDigits? width ((Text.paddedDecimal width n).toList ++ rest) = some (n, rest) := by
  have hdigits : ∀ c ∈ (Text.paddedDecimal width n).toList, c.isDigit = true :=
    fun c hc => Text.isDigit_of_mem_paddedDecimal hc
  have hread : readDigits? _ (_ ++ rest) = _ := readDigits?_append hdigits
  rwa [Text.length_paddedDecimal hwidth h, Text.ofDecimalChars_paddedDecimal] at hread

theorem readDigits?_twoDigits {n : Nat} (h : n < 100) :
    readDigits? 2 ((twoDigits n).toList ++ rest) = some (n, rest) :=
  readDigits?_paddedDecimal (by decide) h

theorem readChar?_cons (c : Char) : readChar? c (c :: rest) = some rest :=
  if_pos rfl

theorem append_zeros_dropWhile (digits : List Char) :
    ∃ k, digits = (digits.reverse.dropWhile (· == '0')).reverse ++ List.replicate k '0' := by
  refine ⟨(digits.reverse.takeWhile (· == '0')).length, ?_⟩
  have hzeros : digits.reverse.takeWhile (· == '0') =
      List.replicate (digits.reverse.takeWhile (· == '0')).length '0' := by
    refine List.eq_replicate_of_mem fun c hc => ?_
    exact eq_of_beq (List.mem_takeWhile_imp (p := (· == '0')) hc)
  have hsplit := List.takeWhile_append_dropWhile (p := (· == '0')) (l := digits.reverse)
  calc
    digits = digits.reverse.reverse := (List.reverse_reverse _).symm
    _ = (digits.reverse.dropWhile (· == '0')).reverse ++
        (digits.reverse.takeWhile (· == '0')).reverse := by rw [← List.reverse_append, hsplit]
    _ = _ := by rw [hzeros, List.reverse_replicate, List.length_replicate]

theorem readFraction?_point {digits : List Char} (hne : digits ≠ [])
    (hdigits : ∀ c ∈ digits, c.isDigit = true) (hrest : ∀ c ∈ rest.head?, c.isDigit = false) :
    readFraction? ('.' :: (digits ++ rest)) =
      some (Text.ofDecimalChars
        (digits.take 9 ++ List.replicate (9 - (digits.take 9).length) '0'), rest) := by
  -- The fraction ends where the digits do.
  have hstop : rest.takeWhile Char.isDigit = [] ∧ rest.dropWhile Char.isDigit = rest := by
    cases rest with
    | nil => exact ⟨rfl, rfl⟩
    | cons c rest =>
      have hc : ¬ c.isDigit = true := Bool.eq_false_iff.mp (hrest c rfl)
      exact ⟨List.takeWhile_cons_of_neg hc, List.dropWhile_cons_of_neg hc⟩
  have htake : (digits ++ rest).takeWhile Char.isDigit = digits := by
    rw [List.takeWhile_append_of_pos hdigits, hstop.1, List.append_nil]
  have hdrop : (digits ++ rest).dropWhile Char.isDigit = rest := by
    rw [List.dropWhile_append_of_pos hdigits, hstop.2]
  have hempty : ¬ digits.isEmpty = true := fun h => hne (List.isEmpty_iff.mp h)
  unfold readFraction?
  split
  next heq =>
    obtain ⟨_, rfl⟩ := List.cons.inj heq
    dsimp only
    rw [htake, hdrop, if_neg hempty]
  next hpoint => exact absurd rfl (hpoint _)

theorem readFraction?_of_no_point (hrest : ∀ c ∈ rest.head?, c ≠ '.') :
    readFraction? rest = some (0, rest) := by
  unfold readFraction?
  split
  · exact absurd rfl (hrest '.' rfl)
  · rfl

theorem readFraction?_fractionText {nanosecond : Nat} (h : nanosecond < 1000000000)
    (hrest : ∀ c ∈ rest.head?, c.isDigit = false ∧ c ≠ '.') :
    readFraction? ((fractionText nanosecond).toList ++ rest) = some (nanosecond, rest) := by
  unfold fractionText
  by_cases hzero : nanosecond = 0
  · rw [if_pos hzero, hzero]
    exact readFraction?_of_no_point fun c hc => (hrest c hc).2
  rw [if_neg hzero]
  dsimp only
  have hlength : (Text.paddedDecimal 9 nanosecond).toList.length = 9 :=
    Text.length_paddedDecimal (by decide) h
  have hvalue : Text.ofDecimalChars (Text.paddedDecimal 9 nanosecond).toList = nanosecond :=
    Text.ofDecimalChars_paddedDecimal
  have hdigits : ∀ c ∈ (Text.paddedDecimal 9 nanosecond).toList, c.isDigit = true :=
    fun c hc => Text.isDigit_of_mem_paddedDecimal hc
  generalize (Text.paddedDecimal 9 nanosecond).toList = digits at hlength hvalue hdigits ⊢
  obtain ⟨k, hk⟩ := append_zeros_dropWhile digits
  generalize (digits.reverse.dropWhile (· == '0')).reverse = kept at hk ⊢
  subst hk
  rw [List.length_append, List.length_replicate] at hlength
  have hkept : ∀ c ∈ kept, c.isDigit = true := fun c hc => hdigits c (List.mem_append_left _ hc)
  -- A fraction that is not zero keeps a digit.
  have hne : kept ≠ [] := by
    rintro rfl
    rw [List.nil_append, Text.ofDecimalChars_zeros] at hvalue
    exact hzero hvalue.symm
  have hnine : kept.take 9 ++ List.replicate (9 - (kept.take 9).length) '0' =
      kept ++ List.replicate k '0' := by
    rw [List.take_of_length_le (by omega), show 9 - kept.length = k by omega]
  have htext : ("." ++ String.ofList kept).toList ++ rest = '.' :: (kept ++ rest) := by
    rw [String.toList_append, String.toList_ofList, String.toList_ofList]
    rfl
  rw [htext]
  refine (readFraction?_point hne hkept fun c hc => (hrest c hc).1).trans ?_
  rw [hnine, hvalue]

/-- An offset is read from a sign, the hours and the minutes. -/
theorem readOffset?_signed (sign : Char) {hours minutes : Nat} (hhours : hours < 24)
    (hminutes : minutes < 60) :
    readOffset? (sign :: ((twoDigits hours).toList ++ ':' :: (twoDigits minutes).toList)) =
      if sign = '+' then some (3600 * hours + 60 * minutes : Int)
      else if sign = '-' then some (-(3600 * hours + 60 * minutes : Int)) else none := by
  have hrange : ([] : List Char).isEmpty = true ∧ hours < 24 ∧ minutes < 60 :=
    ⟨rfl, hhours, hminutes⟩
  have hlast : readDigits? 2 ((twoDigits minutes).toList ++ []) = some (minutes, []) :=
    readDigits?_twoDigits (by omega)
  rw [List.append_nil] at hlast
  -- A single letter stands for no offset at all, but here more characters follow.
  unfold readOffset?
  split
  next h => simp at h
  next h => simp at h
  next heq =>
    obtain ⟨rfl, rfl⟩ := List.cons.inj heq
    rw [readDigits?_twoDigits (by omega)]
    dsimp only [Option.bind_eq_bind, Option.bind_some]
    rw [readChar?_cons, Option.bind_some, hlast, Option.bind_some]
    exact if_pos hrange
  next h => cases h

theorem toList_offsetText {offset : Int} (h : offset ≠ 0) :
    (offsetText offset).toList = (if offset < 0 then '-' else '+') ::
      ((twoDigits (offset.natAbs / 60 / 60)).toList ++
        ':' :: (twoDigits (offset.natAbs / 60 % 60)).toList) := by
  have hsign : (if offset < 0 then "-" else "+").toList = [if offset < 0 then '-' else '+'] := by
    split_ifs <;> rfl
  unfold offsetText
  rw [if_neg h]
  simp only [String.toList_append, List.append_assoc, hsign]
  rfl

theorem readOffset?_offsetText {offset : Int} (hwhole : offset.natAbs % 60 = 0)
    (hday : offset.natAbs < 86400) : readOffset? (offsetText offset).toList = some offset := by
  by_cases hzero : offset = 0
  · rw [hzero]
    rfl
  rw [toList_offsetText hzero, readOffset?_signed _ (by omega) (by omega)]
  by_cases hneg : offset < 0
  · rw [if_pos hneg, if_neg (by decide), if_pos rfl]
    congr 1
    omega
  · rw [if_neg hneg, if_pos rfl]
    congr 1
    omega

/-- No offset goes on with a fraction. -/
theorem head_offsetText {offset : Int} :
    ∀ c ∈ (offsetText offset).toList.head?, c.isDigit = false ∧ c ≠ '.' := by
  by_cases hzero : offset = 0
  · rw [hzero]
    intro c hc
    cases hc
    exact ⟨rfl, by decide⟩
  · rw [toList_offsetText hzero]
    intro c hc
    cases hc
    split_ifs <;> exact ⟨rfl, by decide⟩

/-- An offset that is read has whole minutes and is shorter than a day. -/
theorem bounds_of_readOffset? {cs : List Char} {offset : Int} (h : readOffset? cs = some offset) :
    offset.natAbs % 60 = 0 ∧ offset.natAbs < 86400 := by
  unfold readOffset? at h
  split at h
  next =>
    cases h
    decide
  next =>
    cases h
    decide
  next =>
    obtain ⟨⟨hours, rest⟩, _, h⟩ := Option.bind_eq_some_iff.mp h
    obtain ⟨rest, _, h⟩ := Option.bind_eq_some_iff.mp h
    obtain ⟨⟨minutes, rest⟩, _, h⟩ := Option.bind_eq_some_iff.mp h
    dsimp only at h
    split_ifs at h with hrange hplus hminus
    · cases h
      omega
    · cases h
      omega
  next => cases h

/-! ## Whole timestamps -/

theorem toRfc3339?_eq_none_iff {t : Timestamp} : t.toRfc3339? = none ↔ ¬ t.Writable := by
  unfold toRfc3339?
  split_ifs with h
  · exact iff_of_false nofun (not_not_intro h)
  · exact iff_of_true rfl h

/-- The text of a timestamp reads as that timestamp. -/
theorem ofRfc3339?_toRfc3339? {t : Timestamp} {text : String} (h : t.toRfc3339? = some text) :
    ofRfc3339? text = some t := by
  have hwritable : t.Writable :=
    Decidable.byContradiction fun hn => nomatch h.symm.trans (toRfc3339?_eq_none_iff.mpr hn)
  unfold toRfc3339? at h
  rw [if_pos hwritable] at h
  obtain ⟨hyear, hwhole, hday⟩ := hwritable
  have hdate := t.date.valid
  have hdayLe := t.date.day_le
  have htime := t.time.valid
  have hchars : text.toList =
      (Text.paddedDecimal 4 t.date.year.toNat).toList ++ '-' :: ((twoDigits t.date.month).toList ++
        '-' :: ((twoDigits t.date.day).toList ++ 'T' :: ((twoDigits t.time.hour).toList ++
          ':' :: ((twoDigits t.time.minute).toList ++ ':' :: ((twoDigits t.time.second).toList ++
            ((fractionText t.time.nanosecond).toList ++ (offsetText t.offset).toList)))))) := by
    have hdash : "-".toList = ['-'] := rfl
    have hcolon : ":".toList = [':'] := rfl
    have hT : "T".toList = ['T'] := rfl
    rw [← Option.some.inj h]
    simp only [String.toList_append, List.append_assoc, hdash, hcolon, hT, List.cons_append,
      List.nil_append]
  -- Each reader takes its part off the front of what is left.
  unfold ofRfc3339?
  rw [hchars]
  refine Option.bind_eq_some_iff.mpr ⟨_, readDigits?_paddedDecimal (by decide) (by omega), ?_⟩
  refine Option.bind_eq_some_iff.mpr ⟨_, readChar?_cons '-', ?_⟩
  refine Option.bind_eq_some_iff.mpr ⟨_, readDigits?_twoDigits (by omega), ?_⟩
  refine Option.bind_eq_some_iff.mpr ⟨_, readChar?_cons '-', ?_⟩
  refine Option.bind_eq_some_iff.mpr ⟨_, readDigits?_twoDigits (by omega), ?_⟩
  refine Option.bind_eq_some_iff.mpr ⟨_, (show readSeparator? ('T' :: _) = _ from rfl), ?_⟩
  refine Option.bind_eq_some_iff.mpr ⟨_, readDigits?_twoDigits (by omega), ?_⟩
  refine Option.bind_eq_some_iff.mpr ⟨_, readChar?_cons ':', ?_⟩
  refine Option.bind_eq_some_iff.mpr ⟨_, readDigits?_twoDigits (by omega), ?_⟩
  refine Option.bind_eq_some_iff.mpr ⟨_, readChar?_cons ':', ?_⟩
  refine Option.bind_eq_some_iff.mpr ⟨_, readDigits?_twoDigits (by omega), ?_⟩
  refine Option.bind_eq_some_iff.mpr ⟨_, readFraction?_fractionText htime.2.2.2 head_offsetText, ?_⟩
  refine Option.bind_eq_some_iff.mpr ⟨_, readOffset?_offsetText hwhole hday, ?_⟩
  rw [Int.toNat_of_nonneg hyear]
  refine Option.bind_eq_some_iff.mpr ⟨_, t.date.of?_eq_self, ?_⟩
  rw [if_neg (show t.time.second ≠ 60 by omega)]
  exact Option.bind_eq_some_iff.mpr ⟨_, t.time.of?_eq_self, rfl⟩

/-- A timestamp that is read has a text. -/
theorem writable_of_ofRfc3339? {t : Timestamp} {text : String} (h : ofRfc3339? text = some t) :
    t.Writable := by
  unfold ofRfc3339? at h
  -- Of what is read, only the year and the offset decide whether the time has a text.
  obtain ⟨⟨year, rest⟩, _, h⟩ := Option.bind_eq_some_iff.mp h
  obtain ⟨rest, _, h⟩ := Option.bind_eq_some_iff.mp h
  obtain ⟨⟨month, rest⟩, _, h⟩ := Option.bind_eq_some_iff.mp h
  obtain ⟨rest, _, h⟩ := Option.bind_eq_some_iff.mp h
  obtain ⟨⟨day, rest⟩, _, h⟩ := Option.bind_eq_some_iff.mp h
  obtain ⟨rest, _, h⟩ := Option.bind_eq_some_iff.mp h
  obtain ⟨⟨hour, rest⟩, _, h⟩ := Option.bind_eq_some_iff.mp h
  obtain ⟨rest, _, h⟩ := Option.bind_eq_some_iff.mp h
  obtain ⟨⟨minute, rest⟩, _, h⟩ := Option.bind_eq_some_iff.mp h
  obtain ⟨rest, _, h⟩ := Option.bind_eq_some_iff.mp h
  obtain ⟨⟨second, rest⟩, _, h⟩ := Option.bind_eq_some_iff.mp h
  obtain ⟨⟨nanosecond, rest⟩, _, h⟩ := Option.bind_eq_some_iff.mp h
  obtain ⟨offset, hoffset, h⟩ := Option.bind_eq_some_iff.mp h
  obtain ⟨date, hdate, h⟩ := Option.bind_eq_some_iff.mp h
  have hwritable (time : TimeOfDay) : Writable ⟨date, time, offset⟩ := by
    refine ⟨?_, bounds_of_readOffset? hoffset⟩
    rw [Date.of?_eq_some hdate]
    exact Int.natCast_nonneg year
  split_ifs at h
  · obtain ⟨time, _, h⟩ := Option.bind_eq_some_iff.mp h
    dsimp only at h
    split_ifs at h
    cases h
    exact hwritable time
  · obtain ⟨time, _, h⟩ := Option.bind_eq_some_iff.mp h
    cases h
    exact hwritable time

end Timestamp

end AdmissionGate

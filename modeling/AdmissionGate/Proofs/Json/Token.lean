import AdmissionGate.Json.Token
import AdmissionGate.Json.Writer
import AdmissionGate.Proofs.Json.Number

/-!
# Proofs/Json/Token — the tokens of written text

The text of a value is made of pieces, each of which the scanner turns into one token: brackets,
words, numbers and quoted strings, with blanks between them.  Each lemma says what scanning a piece
comes to, whatever follows; a number or a word asks that what follows does not go on with it.
-/

namespace AdmissionGate.Json

theorem toList_lineBreak (indent : Nat) :
    (lineBreak indent).toList = '\n' :: List.replicate indent ' ' := by
  have hblanks (cs : List Char) : ("\n" ++ String.ofList cs).toList = '\n' :: cs := by
    rw [String.toList_append, String.toList_ofList, String.toList_ofList]
    rfl
  exact hblanks _

namespace Scanner

variable {s : Scanner} {tokens : List Token} {c : Char} {cs rest : List Char}

/-- Scans characters to the end. -/
def finish (s : Scanner) (cs : List Char) : Option Scanner := (cs.foldlM step s).bind flush

theorem finish_cons (s : Scanner) (c : Char) (cs : List Char) :
    s.finish (c :: cs) = (s.step c).bind (·.finish cs) := by
  unfold finish
  rw [List.foldlM_cons, Option.bind_eq_bind, Option.bind_assoc]

theorem finish_of_step {s' : Scanner} (h : s.step c = some s') :
    s.finish (c :: cs) = s'.finish cs := by
  rw [finish_cons, h, Option.bind_some]

/-- Scans characters that come between tokens, after tokens that are given last one first. -/
def scan (tokens : List Token) (cs : List Char) : Option Scanner :=
  finish ⟨.between, tokens⟩ cs

theorem tokens?_eq_scan (cs : List Char) :
    tokens? cs = (scan [] cs).map (·.tokens.reverse) := by
  unfold tokens? scan finish initial
  cases cs.foldlM step ⟨.between, []⟩ with
  | none => rfl
  | some s =>
    show (s.flush).bind (fun s => some s.tokens.reverse) = _
    rw [Option.bind_some, Option.map_eq_bind]
    rfl

/-! ## Blanks and brackets -/

theorem scan_bracket {t : Token}
    (h : ∀ tokens, start ⟨.between, tokens⟩ c = some ⟨.between, t :: tokens⟩) :
    scan tokens (c :: cs) = scan (t :: tokens) cs :=
  finish_of_step (h tokens)

theorem scan_blanks (hcs : ∀ c ∈ cs, c = ' ' ∨ c = '\n') :
    scan tokens (cs ++ rest) = scan tokens rest := by
  induction cs with
  | nil => rfl
  | cons c cs ih =>
    obtain ⟨hc, hcs⟩ := List.forall_mem_cons.mp hcs
    rw [← ih hcs]
    rcases hc with rfl | rfl <;> exact finish_of_step rfl

theorem scan_lineBreak (indent : Nat) :
    scan tokens ((lineBreak indent).toList ++ rest) = scan tokens rest := by
  apply scan_blanks
  rw [toList_lineBreak]
  intro c hc
  rcases List.mem_cons.mp hc with hc | hc
  · exact .inr hc
  · exact .inl (List.mem_replicate.mp hc).2

/-- No printable character of ASCII is blank. -/
theorem toNat_of_isBlank (h : Text.isBlank c = true) : c.toNat ≤ 0x20 ∨ 0x85 ≤ c.toNat := by
  simp only [Text.isBlank, Bool.or_eq_true, Bool.and_eq_true, decide_eq_true_eq, beq_iff_eq] at h
  omega

/-- Between tokens a blank is passed over or refused: some blanks are none of JSON. -/
theorem start_of_isBlank (h : Text.isBlank c = true) : s.start c = some s ∨ s.start c = none := by
  have hrange := toNat_of_isBlank h
  -- No blank lies among the visible characters of ASCII, which all tokens start with.
  have hne {d : Char} (hd : 0x20 < d.toNat ∧ d.toNat < 0x85) : c ≠ d := by
    rintro rfl
    omega
  have hdigit : c.isDigit = true → 48 ≤ c.toNat ∧ c.toNat ≤ 57 := by
    simp [Char.isDigit, UInt32.le_iff_toNat_le]
  have hlower : c.isLower = true → 97 ≤ c.toNat ∧ c.toNat ≤ 122 := by
    simp [Char.isLower, UInt32.le_iff_toNat_le]
  have hminus : (c == '-') = false := beq_eq_false_iff_ne.mpr (hne (by decide))
  unfold start
  by_cases hspace : c = ' ' ∨ c = '\t' ∨ c = '\n' ∨ c = '\r'
  · exact .inl (if_pos hspace)
  · rw [if_neg hspace, if_neg (hne (by decide)), if_neg (hne (by decide)), if_neg (hne (by decide)),
      if_neg (hne (by decide)), if_neg (hne (by decide)), if_neg (hne (by decide)),
      if_neg (hne (by decide)), hminus, Bool.or_false, if_neg (mt hdigit (by omega)),
      if_neg (mt hlower (by omega))]
    exact .inr rfl

theorem scan_of_isBlank (tokens : List Token) (hcs : ∀ c ∈ cs, Text.isBlank c = true) :
    scan tokens cs = some ⟨.between, tokens⟩ ∨ scan tokens cs = none := by
  induction cs with
  | nil => exact .inl rfl
  | cons c cs ih =>
    obtain ⟨hc, hcs⟩ := List.forall_mem_cons.mp hcs
    have hstep : scan tokens (c :: cs) = (start ⟨.between, tokens⟩ c).bind (·.finish cs) :=
      finish_cons _ c cs
    rw [hstep]
    rcases start_of_isBlank (s := ⟨.between, tokens⟩) hc with h | h
    · rw [h]
      exact ih hcs
    · rw [h]
      exact .inr rfl

/-! ## Where words and numbers end -/

/-- What follows does not start with a character of a number or a word. -/
def Delimited (rest : List Char) : Prop :=
  ∀ c ∈ rest.head?, isNumeric c = false ∧ c.isLower = false

/-- A scanner that can end its token goes on as if it had, where no character belongs to it. -/
theorem finish_eq_scan (h : s.flush = some ⟨.between, tokens⟩) (hrest : Delimited rest) :
    s.finish rest = scan tokens rest := by
  cases rest with
  | nil => exact h
  | cons c rest =>
    obtain ⟨hnumeric, hlower⟩ := hrest c rfl
    -- A token that is complete ends with the next character, which starts another.
    have hstep : s.step c = start ⟨.between, tokens⟩ c := by
      obtain ⟨mode, tokens'⟩ := s
      cases mode with
      | between =>
        cases h
        rfl
      | number lexeme => simp only [step, hnumeric, h, Option.bind_some, Bool.false_eq_true, if_false]
      | word lexeme => simp only [step, hlower, h, Option.bind_some, Bool.false_eq_true, if_false]
      | string read => cases h
      | escape read => cases h
      | unit read digits => cases h
    rw [finish_cons, hstep]
    exact (finish_cons ⟨.between, tokens⟩ c rest).symm

theorem scan_null (hrest : Delimited rest) :
    scan tokens ("null".toList ++ rest) = scan (.null :: tokens) rest :=
  finish_eq_scan (s := ⟨.word ['l', 'l', 'u', 'n'], tokens⟩) rfl hrest

theorem scan_true (hrest : Delimited rest) :
    scan tokens ("true".toList ++ rest) = scan (.boolean true :: tokens) rest :=
  finish_eq_scan (s := ⟨.word ['e', 'u', 'r', 't'], tokens⟩) rfl hrest

theorem scan_false (hrest : Delimited rest) :
    scan tokens ("false".toList ++ rest) = scan (.boolean false :: tokens) rest :=
  finish_eq_scan (s := ⟨.word ['e', 's', 'l', 'a', 'f'], tokens⟩) rfl hrest

/-! ## Numbers -/

theorem finish_number {lexeme : List Char} (hcs : ∀ c ∈ cs, isNumeric c = true) :
    finish ⟨.number lexeme, tokens⟩ (cs ++ rest) =
      finish ⟨.number (cs.reverse ++ lexeme), tokens⟩ rest := by
  induction cs generalizing lexeme with
  | nil => rfl
  | cons c cs ih =>
    obtain ⟨hc, hcs⟩ := List.forall_mem_cons.mp hcs
    have hstep : step ⟨.number lexeme, tokens⟩ c = some ⟨.number (c :: lexeme), tokens⟩ :=
      if_pos hc
    rw [List.cons_append, finish_of_step hstep, ih hcs, List.reverse_cons, List.append_assoc]
    rfl

/-- The spelling of a numeral starts with a digit or a minus sign. -/
theorem step_of_ofChars? {numeral : Numeral} (h : Numeral.ofChars? (c :: cs) = some numeral) :
    step ⟨.between, tokens⟩ c = some ⟨.number [c], tokens⟩ := by
  -- A numeral starts with its sign or with a digit, or it is not read at all.
  have hc : c = '-' ∨ c.isDigit = true := by
    by_contra hne
    obtain ⟨hminus, hdigit⟩ := not_or.mp hne
    unfold Numeral.ofChars? at h
    split at h
    next negative rest heq =>
    split at heq
    next hcons => exact hminus (List.cons.inj hcons).1
    next =>
      obtain ⟨rfl, rfl⟩ := Prod.mk.inj heq
      simp [hdigit] at h
  rcases hc with rfl | hdigit
  · rfl
  · -- No digit is a blank, a bracket or a quote.
    have hne (d : Char) (hd : d.isDigit = false) : c ≠ d := by
      rintro rfl
      rw [hd] at hdigit
      cases hdigit
    have hstart : start ⟨.between, tokens⟩ c =
        if c.isDigit || c == '-' then some ⟨.number [c], tokens⟩
        else if c.isLower then some ⟨.word [c], tokens⟩ else none := by
      unfold start
      rw [if_neg (by simp [hne ' ' rfl, hne '\t' rfl, hne '\n' rfl, hne '\r' rfl]),
        if_neg (hne '[' rfl), if_neg (hne ']' rfl), if_neg (hne '\x7b' rfl),
        if_neg (hne '\x7d' rfl), if_neg (hne ':' rfl), if_neg (hne ',' rfl), if_neg (hne '"' rfl)]
    show start _ c = _
    rw [hstart, hdigit]
    rfl

theorem scan_numeral {numeral : Numeral} (hread : Numeral.ofChars? cs = some numeral)
    (hcs : ∀ c ∈ cs, isNumeric c = true) (hrest : Delimited rest) :
    scan tokens (cs ++ rest) = scan (.number numeral :: tokens) rest := by
  cases cs with
  | nil => cases hread
  | cons c cs =>
    unfold scan
    rw [List.cons_append, finish_of_step (step_of_ofChars? hread),
      finish_number (List.forall_mem_cons.mp hcs).2]
    apply finish_eq_scan _ hrest
    show (Numeral.ofChars? (cs.reverse ++ [c]).reverse).map _ = _
    rw [List.reverse_append, List.reverse_reverse, List.reverse_singleton, List.singleton_append,
      hread]
    rfl

theorem isNumeric_of_isDigit (h : c.isDigit = true) : isNumeric c = true := by
  unfold isNumeric
  rw [h]
  rfl

theorem isNumeric_of_mem_signedDecimal {i : Int} (h : c ∈ (Text.signedDecimal i).toList) :
    isNumeric c = true := by
  cases i with
  | ofNat n =>
    rw [Text.signedDecimal, Text.toList_decimal] at h
    exact isNumeric_of_isDigit (Text.isDigit_of_mem_decimalChars h)
  | negSucc n =>
    rw [Text.signedDecimal, String.toList_append, Text.toList_decimal] at h
    rcases List.mem_append.mp h with h | h
    · rw [List.mem_singleton.mp h]
      rfl
    · exact isNumeric_of_isDigit (Text.isDigit_of_mem_decimalChars h)

theorem isNumeric_of_mem_placePoint {keepsPoint : Bool} {digits : List Char} {before : Int}
    (hdigits : ∀ c ∈ digits, isNumeric c = true) :
    ∀ c ∈ Binary64.placePoint keepsPoint digits before, isNumeric c = true := by
  have hzeros (k : Nat) : ∀ c ∈ List.replicate k '0', isNumeric c = true := by
    intro c hc
    rw [(List.mem_replicate.mp hc).2]
    rfl
  have hzero : ∀ c ∈ ['.', '0'], isNumeric c = true :=
    List.forall_mem_cons.mpr ⟨rfl, List.forall_mem_singleton.mpr rfl⟩
  unfold Binary64.placePoint
  split_ifs with hbefore hlength hpoint
  · exact List.forall_mem_cons.mpr ⟨rfl, List.forall_mem_cons.mpr
      ⟨rfl, List.forall_mem_append.mpr ⟨hzeros _, hdigits⟩⟩⟩
  · exact List.forall_mem_append.mpr ⟨List.forall_mem_append.mpr ⟨hdigits, hzeros _⟩, hzero⟩
  · exact List.forall_mem_append.mpr
      ⟨List.forall_mem_append.mpr ⟨hdigits, hzeros _⟩, fun c hc => nomatch hc⟩
  · exact List.forall_mem_append.mpr ⟨fun c hc => hdigits c (List.mem_of_mem_take hc),
      List.forall_mem_cons.mpr ⟨rfl, fun c hc => hdigits c (List.mem_of_mem_drop hc)⟩⟩

theorem isNumeric_of_mem_withExponent {sign : String} {digits : List Char} {exponent : Int}
    (hmark : ∀ c ∈ sign.toList, isNumeric c = true) (hdigits : ∀ c ∈ digits, isNumeric c = true) :
    ∀ c ∈ Binary64.withExponent sign digits exponent, isNumeric c = true := by
  have hsign : ∀ c ∈ (if 0 ≤ exponent then sign else "").toList, isNumeric c = true := by
    split_ifs
    · exact hmark
    · exact fun c hc => nomatch hc
  have hexponent : ∀ c ∈ (if 0 ≤ exponent then sign else "").toList ++
      (Text.signedDecimal exponent).toList, isNumeric c = true :=
    List.forall_mem_append.mpr ⟨hsign, fun c => isNumeric_of_mem_signedDecimal⟩
  unfold Binary64.withExponent
  refine List.forall_mem_append.mpr ⟨?_, List.forall_mem_cons.mpr ⟨rfl, hexponent⟩⟩
  match digits, hdigits with
  | [], h => exact h
  | [_], h => exact h
  | d :: e :: rest, h =>
    obtain ⟨hd, hrest⟩ := List.forall_mem_cons.mp h
    exact List.forall_mem_cons.mpr ⟨hd, List.forall_mem_cons.mpr ⟨rfl, hrest⟩⟩

/-- Doubles are written in characters of numbers in every layout whose exponents are. -/
theorem isNumeric_of_mem_chars {layout : Binary64.Layout}
    (hmark : ∀ c ∈ layout.exponentSign.toList, isNumeric c = true) (x : Binary64.Finite) :
    ∀ c ∈ x.chars layout, isNumeric c = true := by
  have hdigits (n : Nat) : ∀ c ∈ Text.decimalChars n, isNumeric c = true :=
    fun c hc => isNumeric_of_isDigit (Text.isDigit_of_mem_decimalChars hc)
  have hsign : ∀ c ∈ (if x.negative then ['-'] else []), isNumeric c = true := by
    split_ifs
    · exact List.forall_mem_singleton.mpr rfl
    · exact fun c hc => nomatch hc
  unfold Binary64.Finite.chars
  dsimp only
  by_cases hzero : x.units = 0
  · rw [if_pos hzero]
    exact List.forall_mem_append.mpr ⟨hsign, isNumeric_of_mem_placePoint (hdigits 0)⟩
  · rw [if_neg hzero]
    refine List.forall_mem_append.mpr ⟨hsign, ?_⟩
    split
    · exact isNumeric_of_mem_placePoint (hdigits _)
    · exact isNumeric_of_mem_withExponent hmark (hdigits _)

theorem isNumeric_of_mem_write (n : Number) : ∀ c ∈ n.write.toList, isNumeric c = true := by
  cases n with
  | integer i hi => exact fun c => isNumeric_of_mem_signedDecimal
  | fraction x =>
    show ∀ c ∈ (String.ofList (x.chars Number.layout)).toList, isNumeric c = true
    rw [String.toList_ofList]
    have hmark : ∀ c ∈ "+".toList, isNumeric c = true := List.forall_mem_singleton.mpr rfl
    exact isNumeric_of_mem_chars hmark x

theorem scan_number (n : Number) (hrest : Delimited rest) :
    scan tokens (n.write.toList ++ rest) = scan (.number n.numeral :: tokens) rest :=
  scan_numeral (ofChars?_write n) (isNumeric_of_mem_write n) hrest

/-! ## Strings -/

/-- The scanner inside of a string with these characters, last one first. -/
def within (chars : List Char) (tokens : List Token) : Scanner :=
  ⟨.string ⟨chars, none, false⟩, tokens⟩

theorem step_unit (chars digits : List Char) {d : Char} (hlength : digits.length < 3)
    (hd : Text.isHexDigit d = true) :
    step ⟨.unit ⟨chars, none, false⟩ digits, tokens⟩ d =
      some ⟨.unit ⟨chars, none, false⟩ (digits ++ [d]), tokens⟩ := by
  simp only [step, hlength, hd, if_true]

/-- Four digits of base sixteen after `u` are read as the code unit that they denote. -/
theorem finish_unit (chars : List Char) {d₁ d₂ d₃ d₄ : Char} {unit : Nat}
    (hdigits : ∀ d ∈ [d₁, d₂, d₃, d₄], Text.isHexDigit d = true)
    (hunit : Text.ofHexChars? [d₁, d₂, d₃, d₄] = some unit) :
    (within chars tokens).finish ('\\' :: 'u' :: d₁ :: d₂ :: d₃ :: d₄ :: rest) =
      finish ⟨.string (Partial.pushUnit ⟨chars, none, false⟩ unit), tokens⟩ rest := by
  obtain ⟨h₁, h₂, h₃, _⟩ : _ ∧ _ ∧ _ ∧ _ := by simpa using hdigits
  have hlast : step ⟨.unit ⟨chars, none, false⟩ [d₁, d₂, d₃], tokens⟩ d₄ =
      some ⟨.string (Partial.pushUnit ⟨chars, none, false⟩ unit), tokens⟩ := by
    show (Text.ofHexChars? [d₁, d₂, d₃, d₄]).map _ = _
    rw [hunit]
    rfl
  have hopen : (within chars tokens).step '\\' = some ⟨.escape ⟨chars, none, false⟩, tokens⟩ := rfl
  have hu : step ⟨.escape ⟨chars, none, false⟩, tokens⟩ 'u' =
      some ⟨.unit ⟨chars, none, false⟩ [], tokens⟩ := rfl
  calc
    _ = finish ⟨.unit ⟨chars, none, false⟩ [], tokens⟩ (d₁ :: d₂ :: d₃ :: d₄ :: rest) :=
      (finish_of_step hopen).trans (finish_of_step hu)
    _ = finish ⟨.unit ⟨chars, none, false⟩ [d₁], tokens⟩ (d₂ :: d₃ :: d₄ :: rest) :=
      finish_of_step (step_unit chars [] (by simp) h₁)
    _ = finish ⟨.unit ⟨chars, none, false⟩ [d₁, d₂, d₃], tokens⟩ (d₄ :: rest) :=
      (finish_of_step (step_unit chars [d₁] (by simp) h₂)).trans
        (finish_of_step (step_unit chars [d₁, d₂] (by simp) h₃))
    _ = _ := finish_of_step hlast

/-- Control characters are written with four digits of base sixteen. -/
theorem paddedHex_of_control {unit : Nat} (h : unit < 128) :
    ∃ d₁ d₂ d₃ d₄, (Text.paddedHex 4 unit).toList = [d₁, d₂, d₃, d₄] ∧
      (∀ d ∈ [d₁, d₂, d₃, d₄], Text.isHexDigit d = true) ∧
      Text.ofHexChars? [d₁, d₂, d₃, d₄] = some unit := by
  have hhigh : unit / 16 < 16 := by omega
  have hlow : unit % 16 < 16 := by omega
  refine ⟨'0', '0', Nat.digitChar (unit / 16), Nat.digitChar (unit % 16), ?_, ?_, ?_⟩
  -- There are few control characters, so their numerals are looked at one by one.
  · unfold Text.paddedHex
    rw [String.toList_ofList]
    clear hhigh hlow
    revert unit
    decide
  · have hzero : Text.isHexDigit '0' = true := rfl
    have hfirst := Text.isHexDigit_digitChar hhigh
    have hsecond := Text.isHexDigit_digitChar hlow
    simp only [List.forall_mem_cons, hzero, hfirst, hsecond, true_and]
    exact List.forall_mem_nil _
  · have hzero : Text.hexValue? '0' = some 0 := rfl
    unfold Text.ofHexChars?
    simp only [List.foldlM_cons, List.foldlM_nil, hzero, Text.hexValue?_digitChar hhigh,
      Text.hexValue?_digitChar hlow, Option.map_some, Option.bind_eq_bind, Option.bind_some,
      Option.pure_def]
    congr 1
    omega

/-- What stands for a character inside of quotes is read as that character. -/
theorem finish_escapeChar (chars : List Char) :
    (within chars tokens).finish (escapeChar c ++ rest) =
      (within (c :: chars) tokens).finish rest := by
  unfold escapeChar
  split_ifs with hquote hslash hb ht hn hf hr hcontrol
  any_goals
    subst c
    exact (finish_of_step rfl).trans (finish_of_step rfl)
  · obtain ⟨d₁, d₂, d₃, d₄, hhex, hdigits, hunit⟩ :=
      paddedHex_of_control (Nat.lt_trans hcontrol (by decide))
    -- A control character is no half of a surrogate pair.
    have hpush : Partial.pushUnit ⟨chars, none, false⟩ c.toNat = ⟨c :: chars, none, false⟩ := by
      unfold Partial.pushUnit
      dsimp only
      rw [if_neg (by omega), if_neg (by omega), Char.ofNat_toNat]
    rw [hhex]
    refine (finish_unit chars hdigits hunit).trans ?_
    rw [hpush]
    rfl
  · apply finish_of_step
    unfold within step
    simp only [hquote, hslash, hcontrol, if_false]
    rfl

theorem finish_escaped (chars : List Char) :
    (within chars tokens).finish (cs.flatMap escapeChar ++ rest) =
      (within (cs.reverse ++ chars) tokens).finish rest := by
  induction cs generalizing chars with
  | nil => rfl
  | cons c cs ih =>
    rw [List.flatMap_cons, List.append_assoc, finish_escapeChar, ih, List.reverse_cons,
      List.append_assoc]
    rfl

theorem scan_quote (text : String) :
    scan tokens ((quote text).toList ++ rest) = scan (.string (some text) :: tokens) rest := by
  have hopen : step ⟨.between, tokens⟩ '"' = some (within [] tokens) := rfl
  have hclose : (within (text.toList.reverse ++ []) tokens).step '"' =
      some ⟨.between, .string (some text) :: tokens⟩ := by
    have htext : Partial.text? ⟨text.toList.reverse ++ [], none, false⟩ = some text := by
      show some (String.ofList (text.toList.reverse ++ []).reverse) = _
      rw [List.append_nil, List.reverse_reverse, String.ofList_toList]
    show some (emit _ (.string (Partial.text? _))) = _
    rw [htext]
    rfl
  unfold scan quote
  rw [String.toList_ofList, List.append_assoc, List.cons_append, finish_of_step hopen,
    finish_escaped]
  exact finish_of_step hclose

end Scanner

end AdmissionGate.Json

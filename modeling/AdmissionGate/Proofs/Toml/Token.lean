import AdmissionGate.Proofs.Json.Token
import AdmissionGate.Toml.Token

/-!
# Proofs/Toml/Token — the tokens of written text

Tokens are written one after the other.  A bare token or a string is read back when a mark follows
it, that is a token of one character which belongs to no other.
-/

namespace AdmissionGate.Toml

/-- A character between double quotes: quotes, backslashes and control characters are escaped. -/
def escapeChar (c : Char) : List Char :=
  if c = '\x22' ∨ c = '\\' then ['\\', c]
  else if isControl c then '\\' :: 'u' :: (Text.paddedHex 4 c.toNat).toList
  else [c]

def Token.chars : Token → List Char
  | .equals => ['=']
  | .comma => [',']
  | .dot => ['.']
  | .openBracket => ['[']
  | .closeBracket => [']']
  | .openBrace => ['\x7b']
  | .closeBrace => ['\x7d']
  | .blank c => [c]
  | .lineBreak => ['\n']
  | .bare lexeme => lexeme
  | .string _ text => '\x22' :: (text.toList.flatMap escapeChar ++ ['\x22'])

def charsOf (ts : List Token) : List Char := ts.flatMap Token.chars

/-- Marks with the characters that they are written as. -/
inductive IsMark : Token → Char → Prop
  | equals : IsMark .equals '='
  | comma : IsMark .comma ','
  | openBracket : IsMark .openBracket '['
  | closeBracket : IsMark .closeBracket ']'
  | openBrace : IsMark .openBrace '\x7b'
  | closeBrace : IsMark .closeBrace '\x7d'
  | lineBreak : IsMark .lineBreak '\n'

namespace Scanner

variable {s s' : Scanner} {tokens ts us : List Token} {t : Token} {c : Char} {cs rest : List Char}

def scanFrom (s : Scanner) (cs : List Char) : Option Scanner := (cs.foldlM step s).bind finish

/-- Scans characters that come between tokens, after tokens that are given last one first. -/
def scan (tokens : List Token) (cs : List Char) : Option Scanner := scanFrom ⟨.between, tokens⟩ cs

theorem scanFrom_of_step (h : s.step c = some s') : s.scanFrom (c :: cs) = s'.scanFrom cs := by
  unfold scanFrom
  rw [List.foldlM_cons, h]
  rfl

/-- A mark ends what comes before it. -/
def Delimited (rest : List Char) : Prop := ∀ c ∈ rest.head?, ∃ t, IsMark t c

theorem delimited_cons (h : IsMark t c) (rest : List Char) : Delimited (c :: rest) := by
  intro d hd
  obtain rfl := Option.some.inj hd
  exact ⟨t, h⟩

theorem scan_mark (h : IsMark t c) : scan tokens (c :: rest) = scan (t :: tokens) rest := by
  cases h <;> exact scanFrom_of_step rfl

/-! ## 1. Bare tokens -/

theorem start_of_not_endsBare (h : endsBare c = false) : s.start c = s.goto (.bare [c]) := by
  have hnot : c ∉ [' ', '\t', '\n', '\r', '=', ',', '.', '[', ']', '\x7b', '\x7d', '#', '\x22',
      '\x27'] := by simpa [endsBare] using h
  simp only [List.mem_cons, List.not_mem_nil, or_false, not_or] at hnot
  unfold start
  simp [hnot]

theorem scanFrom_bare {lexeme : List Char} (h : ∀ c ∈ cs, endsBare c = false) :
    scanFrom ⟨.bare lexeme, tokens⟩ (cs ++ rest) =
      scanFrom ⟨.bare (cs.reverse ++ lexeme), tokens⟩ rest := by
  induction cs generalizing lexeme with
  | nil => rfl
  | cons c cs ih =>
    obtain ⟨hc, hcs⟩ := List.forall_mem_cons.mp h
    have hstep : step ⟨.bare lexeme, tokens⟩ c = some ⟨.bare (c :: lexeme), tokens⟩ := by
      show (if endsBare c = true then _ else _) = _
      rw [hc]
      rfl
    rw [List.cons_append, scanFrom_of_step hstep, ih hcs, List.reverse_cons, List.append_assoc]
    rfl

/-- A bare token ends where a mark follows or nothing does. -/
theorem scan_bare {lexeme : List Char} (hne : lexeme ≠ [])
    (h : ∀ c ∈ lexeme, endsBare c = false) (hrest : Delimited rest) :
    scan tokens (lexeme ++ rest) = scan (.bare lexeme :: tokens) rest := by
  obtain ⟨c, cs, rfl⟩ := List.exists_cons_of_ne_nil hne
  obtain ⟨hc, hcs⟩ := List.forall_mem_cons.mp h
  have hstart : step ⟨.between, tokens⟩ c = some ⟨.bare [c], tokens⟩ :=
    congrArg some (start_of_not_endsBare hc)
  have hlexeme : (cs.reverse ++ [c]).reverse = c :: cs := by
    rw [List.reverse_append, List.reverse_reverse]
    rfl
  unfold scan
  rw [List.cons_append, scanFrom_of_step hstart, scanFrom_bare hcs]
  -- That the token is over shows in the character after it, which is read once more as its own.
  cases rest with
  | nil =>
    show some (emit _ (.bare (cs.reverse ++ [c]).reverse)) = _
    rw [hlexeme]
    rfl
  | cons d rest =>
    obtain ⟨t, ht⟩ := hrest d rfl
    have hends : endsBare d = true := by cases ht <;> decide
    have hstep : step ⟨.bare (cs.reverse ++ [c]), tokens⟩ d =
        step ⟨.between, .bare (c :: cs) :: tokens⟩ d := by
      show (if endsBare d = true then _ else _) = _
      rw [if_pos hends, hlexeme]
      rfl
    unfold scanFrom
    rw [List.foldlM_cons, List.foldlM_cons, hstep]

/-! ## 2. Strings -/

/-- The scanner inside of a string with these characters, last one first. -/
def within (chars : List Char) (tokens : List Token) : Scanner := ⟨.line .double chars, tokens⟩

theorem step_code (chars digits : List Char) {d : Char} (hlength : digits.length < 3)
    (hd : Text.isHexDigit d = true) :
    step ⟨.code false chars digits 4, tokens⟩ d =
      some ⟨.code false chars (digits ++ [d]) 4, tokens⟩ := by
  have hdue : (digits ++ [d]).length < 4 := by
    rw [List.length_append, List.length_singleton]
    omega
  show (if (!Text.isHexDigit d) = true then _
    else if (digits ++ [d]).length < 4 then _ else _) = _
  rw [hd, if_pos hdue]
  rfl

/-- Four digits of base sixteen after `u` are read as the character that they denote. -/
theorem scanFrom_code (chars : List Char) {d₁ d₂ d₃ d₄ d : Char}
    (hdigits : ∀ d ∈ [d₁, d₂, d₃, d₄], Text.isHexDigit d = true)
    (hcode : (Text.ofHexChars? [d₁, d₂, d₃, d₄]).bind ofCode? = some d) :
    (within chars tokens).scanFrom ('\\' :: 'u' :: d₁ :: d₂ :: d₃ :: d₄ :: rest) =
      (within (d :: chars) tokens).scanFrom rest := by
  obtain ⟨h₁, h₂, h₃, h₄⟩ : _ ∧ _ ∧ _ ∧ _ := by simpa using hdigits
  have hlast : step ⟨.code false chars [d₁, d₂, d₃] 4, tokens⟩ d₄ =
      some (within (d :: chars) tokens) := by
    show (if (!Text.isHexDigit d₄) = true then _
      else if [d₁, d₂, d₃, d₄].length < 4 then _
      else ((Text.ofHexChars? [d₁, d₂, d₃, d₄]).bind ofCode?).map _) = _
    rw [h₄, hcode]
    rfl
  calc
    _ = scanFrom ⟨.code false chars [] 4, tokens⟩ (d₁ :: d₂ :: d₃ :: d₄ :: rest) :=
      (scanFrom_of_step rfl).trans (scanFrom_of_step rfl)
    _ = scanFrom ⟨.code false chars [d₁] 4, tokens⟩ (d₂ :: d₃ :: d₄ :: rest) :=
      scanFrom_of_step (step_code chars [] (by simp) h₁)
    _ = scanFrom ⟨.code false chars [d₁, d₂, d₃] 4, tokens⟩ (d₄ :: rest) :=
      (scanFrom_of_step (step_code chars [d₁] (by simp) h₂)).trans
        (scanFrom_of_step (step_code chars [d₁, d₂] (by simp) h₃))
    _ = _ := scanFrom_of_step hlast

/-- What stands for a character between quotes is read as that character. -/
theorem scanFrom_escapeChar (chars : List Char) :
    (within chars tokens).scanFrom (escapeChar c ++ rest) =
      (within (c :: chars) tokens).scanFrom rest := by
  unfold escapeChar
  split_ifs with hescaped hcontrol
  · rcases hescaped with rfl | rfl <;> exact (scanFrom_of_step rfl).trans (scanFrom_of_step rfl)
  · have hcode : c.toNat < 128 := by
      have hrange := hcontrol
      simp only [isControl, Bool.or_eq_true, Bool.and_eq_true, decide_eq_true_eq,
        beq_iff_eq] at hrange
      omega
    -- Control characters are written by their codes, in four digits of base sixteen.
    obtain ⟨d₁, d₂, d₃, d₄, hhex, hdigits, hunit⟩ := Json.Scanner.paddedHex_of_control hcode
    have hchar : ofCode? c.toNat = some c := by
      unfold ofCode?
      rw [if_pos (.inl (by omega)), Char.ofNat_toNat]
    rw [hhex]
    apply scanFrom_code chars hdigits
    rw [hunit]
    exact hchar
  · obtain ⟨hquote, hslash⟩ := not_or.mp hescaped
    apply scanFrom_of_step
    show (if c = '\x22' then _ else if c = '\\' ∧ Quote.double = .double then _
      else if isControl c = true then _ else _) = _
    rw [if_neg hquote, if_neg (mt And.left hslash), if_neg hcontrol]
    rfl

theorem scanFrom_escaped (chars : List Char) :
    (within chars tokens).scanFrom (cs.flatMap escapeChar ++ rest) =
      (within (cs.reverse ++ chars) tokens).scanFrom rest := by
  induction cs generalizing chars with
  | nil => rfl
  | cons c cs ih =>
    rw [List.flatMap_cons, List.append_assoc, scanFrom_escapeChar, ih, List.reverse_cons,
      List.append_assoc]
    rfl

theorem exists_escapeChar_eq_cons (c : Char) : ∃ d ds, escapeChar c = d :: ds ∧ d ≠ '\x22' := by
  unfold escapeChar
  split_ifs with hescaped
  · exact ⟨_, _, rfl, by decide⟩
  · exact ⟨_, _, rfl, by decide⟩
  · exact ⟨c, [], rfl, (not_or.mp hescaped).1⟩

/-- The first character after a quote is read like those after it, unless it is a quote. -/
theorem scanFrom_openedOnce {d : Char} (h : d ≠ '\x22') :
    scanFrom ⟨.openedOnce .double, tokens⟩ (d :: cs) = (within [] tokens).scanFrom (d :: cs) := by
  have hstep : step ⟨.openedOnce .double, tokens⟩ d = step (within [] tokens) d := if_neg h
  unfold scanFrom
  rw [List.foldlM_cons, List.foldlM_cons, hstep]

/-- An empty string could go on with a third quote, but not with a mark. -/
theorem scanFrom_openedTwice (hrest : Delimited rest) :
    scanFrom ⟨.openedTwice .double, tokens⟩ rest = scan (.string false "" :: tokens) rest := by
  cases rest with
  | nil => rfl
  | cons d rest =>
    obtain ⟨t, ht⟩ := hrest d rfl
    have hquote : d ≠ '\x22' := by cases ht <;> decide
    have hstep : step ⟨.openedTwice .double, tokens⟩ d =
        step ⟨.between, .string false "" :: tokens⟩ d := if_neg hquote
    unfold scan scanFrom
    rw [List.foldlM_cons, List.foldlM_cons, hstep]

theorem scan_string (text : String) (hrest : Delimited rest) :
    scan tokens ((Token.string false text).chars ++ rest) =
      scan (.string false text :: tokens) rest := by
  have hopen : step ⟨.between, tokens⟩ '\x22' = some ⟨.openedOnce .double, tokens⟩ := rfl
  have hclose : step (within (text.toList.reverse ++ []) tokens) '\x22' =
      some ⟨.between, .string false text :: tokens⟩ := by
    show some (emit _ (.string false (String.ofList (text.toList.reverse ++ []).reverse))) = _
    rw [List.append_nil, List.reverse_reverse, String.ofList_toList]
    rfl
  unfold scan
  show scanFrom _ ('\x22' :: ((text.toList.flatMap escapeChar ++ ['\x22']) ++ rest)) = _
  rw [scanFrom_of_step hopen, List.append_assoc]
  -- Two quotation marks alone could open a string of several lines.
  cases htext : text.toList with
  | nil =>
    obtain rfl : text = "" := String.toList_eq_nil_iff.mp htext
    exact (scanFrom_of_step rfl).trans (scanFrom_openedTwice hrest)
  | cons c cs =>
    obtain ⟨d, ds, hescape, hd⟩ := exists_escapeChar_eq_cons c
    have hfirst : (c :: cs).flatMap escapeChar = d :: (ds ++ cs.flatMap escapeChar) := by
      rw [List.flatMap_cons, hescape]
      rfl
    rw [hfirst, List.cons_append, scanFrom_openedOnce hd, ← List.cons_append, ← hfirst, ← htext,
      scanFrom_escaped]
    exact scanFrom_of_step hclose

/-! ## 3. Lists of tokens -/

/-- Holds of tokens that are read back from their characters, up to a mark. -/
def Readable (ts : List Token) : Prop :=
  ∀ tokens rest, Delimited rest →
    scan tokens (charsOf ts ++ rest) = scan (ts.reverse ++ tokens) rest

theorem readable_nil : Readable [] := fun _ _ _ => rfl

theorem readable_bare {lexeme : List Char} (hne : lexeme ≠ [])
    (h : ∀ c ∈ lexeme, endsBare c = false) : Readable [.bare lexeme] := by
  intro tokens rest hrest
  show scan tokens ((lexeme ++ []) ++ rest) = _
  rw [List.append_nil]
  exact scan_bare hne h hrest

theorem readable_string (text : String) : Readable [.string false text] := by
  intro tokens rest hrest
  show scan tokens (((Token.string false text).chars ++ []) ++ rest) = _
  rw [List.append_nil]
  exact scan_string text hrest

theorem chars_of_isMark (h : IsMark t c) : t.chars = [c] := by
  cases h <;> rfl

theorem readable_cons (h : IsMark t c) (hts : Readable ts) : Readable (t :: ts) := by
  intro tokens rest hrest
  unfold charsOf
  rw [List.flatMap_cons, chars_of_isMark h, List.append_assoc, List.singleton_append, scan_mark h]
  have hscan := hts (t :: tokens) rest hrest
  rw [List.reverse_cons, List.append_assoc]
  exact hscan

/-- Tokens may be followed by others that start with a mark. -/
theorem readable_append (hts : Readable ts) (h : IsMark t c) (hus : Readable us) :
    Readable (ts ++ t :: us) := by
  intro tokens rest hrest
  have hchars : charsOf (ts ++ t :: us) ++ rest =
      charsOf ts ++ (c :: (charsOf us ++ rest)) := by
    unfold charsOf
    rw [List.flatMap_append, List.flatMap_cons, chars_of_isMark h]
    simp only [List.append_assoc, List.cons_append, List.nil_append]
  rw [hchars, hts tokens _ (delimited_cons h _), scan_mark h, hus _ _ hrest, List.reverse_append,
    List.reverse_cons]
  simp only [List.append_assoc, List.cons_append, List.nil_append]

theorem readable_intercalate {parts : List (List Token)} (h : ∀ part ∈ parts, Readable part) :
    Readable ([.comma].intercalate parts) := by
  induction parts with
  | nil => exact readable_nil
  | cons part others ih =>
    obtain ⟨hpart, hothers⟩ := List.forall_mem_cons.mp h
    cases others with
    | nil => rwa [List.intercalate_singleton]
    | cons next more =>
      rw [List.intercalate_cons_cons, List.append_assoc, List.singleton_append]
      exact readable_append hpart .comma (ih hothers)

end Scanner

/-- A text of readable tokens is divided into these tokens. -/
theorem tokens?_charsOf {ts : List Token} (h : Scanner.Readable ts)
    (hmark : (charsOf ts).head? ≠ some '\ufeff') :
    tokens? (String.ofList (charsOf ts)) = some ts := by
  have hscan := h [] [] nofun
  rw [List.append_nil, List.append_nil] at hscan
  have htokens : ((charsOf ts).foldlM Scanner.step .initial).bind
      (fun s => s.finish.bind fun s => some s.tokens.reverse) = some ts := by
    rw [← Option.bind_assoc]
    show (Scanner.scan [] (charsOf ts)).bind _ = _
    rw [hscan]
    show some ts.reverse.reverse = _
    rw [List.reverse_reverse]
  unfold tokens?
  rw [String.toList_ofList]
  dsimp only
  -- Only a byte order mark would be passed over.
  split
  next heq =>
    rw [heq] at hmark
    exact absurd rfl hmark
  next => exact htokens

end AdmissionGate.Toml

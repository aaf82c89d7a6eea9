/-!
# Text/Blank — blank characters and trimming

A character is blank when it has the Unicode property `White_Space`.  A text is blank when all its
characters are; trimming removes the blanks at both ends and nothing else.
-/

namespace AdmissionGate.Text

/-- Blank characters: the 25 code points with the Unicode property `White_Space`. -/
def isBlank (c : Char) : Bool :=
  let n := c.toNat
  (0x09 ≤ n && n ≤ 0x0d) || n == 0x20 || n == 0x85 || n == 0xa0 || n == 0x1680 ||
    (0x2000 ≤ n && n ≤ 0x200a) || n == 0x2028 || n == 0x2029 || n == 0x202f || n == 0x205f ||
    n == 0x3000

/-- Holds of texts that have no character besides blanks; the empty text is one. -/
def allBlank (text : String) : Bool :=
  text.toList.all isBlank

def Blank (text : String) : Prop := ∀ c ∈ text.toList, isBlank c = true

theorem allBlank_iff {text : String} : allBlank text = true ↔ Blank text :=
  List.all_eq_true

/-- Drops the blanks at both ends. -/
def trimChars (cs : List Char) : List Char :=
  ((cs.dropWhile isBlank).reverse.dropWhile isBlank).reverse

/-- The text without the blanks at its two ends. -/
def trim (text : String) : String :=
  String.ofList (trimChars text.toList)

/-- Holds when the characters of `part` stand in a row somewhere in a list. -/
def occursInChars (part : List Char) : List Char → Bool
  | [] => part.isEmpty
  | c :: rest => part.isPrefixOf (c :: rest) || occursInChars part rest

/-- Holds when `part` stands somewhere in `text`, character for character. -/
def occursIn (part text : String) : Bool :=
  occursInChars part.toList text.toList

end AdmissionGate.Text

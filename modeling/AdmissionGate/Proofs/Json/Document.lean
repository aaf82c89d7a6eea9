import AdmissionGate.Json.Document
import AdmissionGate.Proofs.Json.Token

/-!
# Proofs/Json/Document — reading back the indented text of a value

The text of a value is divided into the tokens of its document, and the stack machine builds that
document from them.  Arrays and objects share one argument on parts between brackets.
-/

namespace AdmissionGate.Json

/-! ## The tokens of a document -/

namespace Document

mutual

/-- The tokens that spell a document. -/
def tokens : Document → List Token
  | .null => [.null]
  | .boolean b => [.boolean b]
  | .number n => [.number n]
  | .string s => [.string s]
  | .array items => .openArray :: [.comma].intercalate (itemTokens items) ++ [.closeArray]
  | .object members =>
    .openObject :: [.comma].intercalate (memberTokens members) ++ [.closeObject]

def itemTokens : List Document → List (List Token)
  | [] => []
  | item :: rest => item.tokens :: itemTokens rest

def memberTokens : List (Option String × Document) → List (List Token)
  | [] => []
  | (key, value) :: rest => (.string key :: .colon :: value.tokens) :: memberTokens rest

end

theorem tokens_eq_cons (d : Document) : ∃ t ts, d.tokens = t :: ts ∧ t ≠ .closeArray := by
  cases d <;> exact ⟨_, _, rfl, nofun⟩

end Document

namespace Stage

variable {stack : List Frame} {rest : List Token}

def run (stage : Stage) (ts : List Token) : Option Stage := ts.foldlM step stage

theorem run_cons {stage next : Stage} {t : Token} (h : stage.step t = some next) :
    stage.run (t :: rest) = next.run rest := by
  unfold run
  rw [List.foldlM_cons, h]
  rfl

/-- Where an item may stand the array may also end, which no value starts with. -/
theorem run_itemOrEnd {t : Token} {ts : List Token} (h : t ≠ .closeArray) :
    (Stage.itemOrEnd stack).run (t :: ts) = (Stage.value (.array [] :: stack)).run (t :: ts) := by
  have hstep : (Stage.itemOrEnd stack).step t = (Stage.value (.array [] :: stack)).step t := by
    cases t <;> first | rfl | exact absurd rfl h
  unfold run
  rw [List.foldlM_cons, List.foldlM_cons, hstep]

mutual

/-- The tokens of a document complete it. -/
theorem run_tokens (d : Document) (stack : List Frame) (rest : List Token) :
    (Stage.value stack).run (d.tokens ++ rest) = (Stage.ended stack d).run rest := by
  match d with
  | .null | .boolean _ | .number _ | .string _ | .array [] | .object [] => rfl
  | .array (item :: items) =>
    have hparts := run_items (item :: items) (List.cons_ne_nil _ _) [] stack rest
    rw [Document.tokens, List.cons_append, List.cons_append, run_cons rfl, List.append_assoc,
      List.singleton_append]
    refine Eq.trans ?_ hparts
    -- The first token of the first item tells it from the end of the array.
    obtain ⟨t, ts, ht, hne⟩ := Document.tokens_eq_cons item
    rw [Document.itemTokens, ht, List.intercalate_cons_cons_left]
    exact run_itemOrEnd hne
  | .object ((k, v) :: members) =>
    have hparts := run_members ((k, v) :: members) (List.cons_ne_nil _ _) [] stack rest
    rw [Document.tokens, List.cons_append, List.cons_append, run_cons rfl, List.append_assoc,
      List.singleton_append]
    refine Eq.trans ?_ hparts
    rw [Document.memberTokens, List.intercalate_cons_cons_left, List.cons_append, run_cons rfl,
      run_cons rfl]

/-- The tokens of further items complete an array. -/
theorem run_items (items : List Document) (hne : items ≠ []) (done : List Document)
    (stack : List Frame) (rest : List Token) :
    (Stage.value (.array done :: stack)).run
        ([.comma].intercalate (Document.itemTokens items) ++ .closeArray :: rest) =
      (Stage.ended stack (.array (done.reverse ++ items))).run rest := by
  match items with
  | [] => exact absurd rfl hne
  | [item] =>
    rw [Document.itemTokens, Document.itemTokens, List.intercalate_singleton,
      run_tokens item, run_cons rfl, List.reverse_cons]
  | item :: next :: items =>
    have hparts := run_items (next :: items) (List.cons_ne_nil _ _) (item :: done) stack rest
    -- The item that ends before the comma joins those that are done.
    rw [Document.itemTokens] at hparts
    rw [Document.itemTokens, Document.itemTokens, List.intercalate_cons_cons, List.append_assoc,
      List.append_assoc, run_tokens item, List.singleton_append, run_cons rfl, hparts,
      List.reverse_cons, List.append_assoc, List.singleton_append]

/-- The tokens of further members complete an object. -/
theorem run_members (members : List (Option String × Document)) (hne : members ≠ [])
    (done : List (Option String × Document)) (stack : List Frame) (rest : List Token) :
    (Stage.key stack done).run
        ([.comma].intercalate (Document.memberTokens members) ++ .closeObject :: rest) =
      (Stage.ended stack (.object (done.reverse ++ members))).run rest := by
  match members with
  | [] => exact absurd rfl hne
  | [(k, v)] =>
    rw [Document.memberTokens, Document.memberTokens, List.intercalate_singleton,
      List.cons_append, run_cons rfl, List.cons_append, run_cons rfl, run_tokens v,
      run_cons rfl, List.reverse_cons]
  -- The key and the colon come first, then the value runs with the members left over.
  | (k, v) :: (l, w) :: members =>
    have hparts :=
      run_members ((l, w) :: members) (List.cons_ne_nil _ _) ((k, v) :: done) stack rest
    rw [Document.memberTokens] at hparts
    rw [Document.memberTokens, Document.memberTokens, List.intercalate_cons_cons,
      List.append_assoc, List.append_assoc, List.cons_append, run_cons rfl, List.cons_append,
      run_cons rfl, run_tokens v, List.singleton_append, run_cons rfl, hparts,
      List.reverse_cons, List.append_assoc, List.singleton_append]

end

end Stage

theorem Document.ofTokens?_tokens (d : Document) : ofTokens? d.tokens = some d := by
  have hrun := Stage.run_tokens d [] []
  rw [List.append_nil] at hrun
  show ((Stage.value []).run d.tokens).bind Stage.document? = some d
  rw [hrun]
  rfl

/-! ## The document of a value -/

mutual

/-- The document that the text of a value spells. -/
def toDocument : Json → Document
  | .null => .null
  | .boolean b => .boolean b
  | .number n => .number n.numeral
  | .string s => .string (some s)
  | .array items => .array (itemDocuments items)
  | .object members => .object (memberDocuments members)

def itemDocuments : List Json → List Document
  | [] => []
  | item :: rest => item.toDocument :: itemDocuments rest

def memberDocuments : List (String × Json) → List (Option String × Document)
  | [] => []
  | (key, value) :: rest => (some key, value.toDocument) :: memberDocuments rest

end

/-! ## Texts that spell tokens -/

/-- A text is divided into these tokens wherever nothing goes on with the last of them. -/
def Spells (text : String) (ts : List Token) : Prop :=
  ∀ tokens rest, Scanner.Delimited rest →
    Scanner.scan tokens (text.toList ++ rest) = Scanner.scan (ts.reverse ++ tokens) rest

section Parts

variable {parts : List String} {spelled : List (List Token)}

/-- Parts with commas and line breaks between them spell their tokens with commas between. -/
theorem spells_separated (h : List.Forall₂ Spells parts spelled) (indent : Nat) :
    Spells (("," ++ lineBreak indent).intercalate parts) ([.comma].intercalate spelled) := by
  induction h with
  | nil =>
    intro tokens rest _
    rw [String.intercalate_nil, List.intercalate_nil]
    rfl
  | @cons part ts parts' spelled' hpart hparts ih =>
    cases hparts with
    | nil =>
      rw [String.intercalate_singleton, List.intercalate_singleton]
      exact hpart
    | @cons next ts' parts' spelled' hnext hparts =>
      intro tokens rest hrest
      -- Each part but the last is delimited by the comma after it.
      have hcomma (text : String) : ("," ++ lineBreak indent ++ text).toList =
          ',' :: ((lineBreak indent).toList ++ text.toList) := by
        rw [String.toList_append, String.toList_append]
        rfl
      rw [String.intercalate_cons_cons, List.intercalate_cons_cons, String.append_assoc,
        String.toList_append, hcomma, List.append_assoc, hpart _ _ (fun c hc => ?_),
        List.cons_append, Scanner.scan_bracket (fun _ => rfl), List.append_assoc,
        Scanner.scan_lineBreak, ih _ _ hrest]
      · simp only [List.reverse_append, List.reverse_cons, List.append_assoc, List.cons_append,
          List.nil_append]
      · cases hc
        exact ⟨rfl, rfl⟩

/-- Parts between brackets spell their tokens between those of the brackets. -/
theorem spells_bracketLines {opening closing : String} {opener closer : Char}
    {openToken closeToken : Token} (hopening : opening.toList = [opener])
    (hclosing : closing.toList = [closer])
    (hopen : ∀ tokens, Scanner.start ⟨.between, tokens⟩ opener =
      some ⟨.between, openToken :: tokens⟩)
    (hclose : ∀ tokens, Scanner.start ⟨.between, tokens⟩ closer =
      some ⟨.between, closeToken :: tokens⟩)
    (h : List.Forall₂ Spells parts spelled) (indent : Nat) :
    Spells (bracketLines indent opening closing parts)
      (openToken :: [.comma].intercalate spelled ++ [closeToken]) := by
  intro tokens rest hrest
  unfold bracketLines
  cases h with
  | nil =>
    rw [List.isEmpty_nil, if_pos rfl, String.toList_append, hopening, hclosing]
    exact (Scanner.scan_bracket hopen).trans (Scanner.scan_bracket hclose)
  | @cons part ts parts spelled hpart hparts =>
    -- The last part has no comma after it; the line break delimits it.
    have hbreak : Scanner.Delimited ((lineBreak indent).toList ++ closer :: rest) := by
      rw [toList_lineBreak]
      intro c hc
      cases hc
      exact ⟨rfl, rfl⟩
    have hbody := spells_separated (List.Forall₂.cons hpart hparts) (indent + 2)
    rw [List.isEmpty_cons, if_neg Bool.false_ne_true]
    simp only [String.toList_append, hopening, hclosing, List.append_assoc, List.cons_append,
      List.nil_append]
    rw [Scanner.scan_bracket hopen, Scanner.scan_lineBreak, hbody _ _ hbreak,
      Scanner.scan_lineBreak, Scanner.scan_bracket hclose]
    simp only [List.reverse_append, List.reverse_cons, List.reverse_nil, List.append_assoc,
      List.cons_append, List.nil_append]

end Parts

mutual

theorem spells_indented (value : Json) (indent : Nat) :
    Spells (value.indented indent) value.toDocument.tokens := by
  match value with
  | .null => exact fun tokens rest hrest => Scanner.scan_null hrest
  | .boolean true => exact fun tokens rest hrest => Scanner.scan_true hrest
  | .boolean false => exact fun tokens rest hrest => Scanner.scan_false hrest
  | .number n => exact fun tokens rest hrest => Scanner.scan_number n hrest
  | .string text => exact fun tokens rest _ => Scanner.scan_quote text
  | .array items =>
    exact spells_bracketLines rfl rfl (fun _ => rfl) (fun _ => rfl)
      (spells_indentedItems items (indent + 2)) indent
  | .object members =>
    exact spells_bracketLines rfl rfl (fun _ => rfl) (fun _ => rfl)
      (spells_indentedMembers members (indent + 2)) indent

theorem spells_indentedItems (items : List Json) (indent : Nat) :
    List.Forall₂ Spells (indentedItems indent items)
      (Document.itemTokens (itemDocuments items)) := by
  match items with
  | [] => exact .nil
  | item :: rest => exact .cons (spells_indented item indent) (spells_indentedItems rest indent)

theorem spells_indentedMembers (members : List (String × Json)) (indent : Nat) :
    List.Forall₂ Spells (indentedMembers indent members)
      (Document.memberTokens (memberDocuments members)) := by
  match members with
  | [] => exact .nil
  | (key, value) :: members =>
    refine .cons (fun tokens rest hrest => ?_) (spells_indentedMembers members indent)
    have hcolon (text : String) : (": " ++ text).toList = ':' :: ' ' :: text.toList := by
      rw [String.toList_append]
      rfl
    have hblank (tokens : List Token) (cs : List Char) :
        Scanner.scan tokens (' ' :: cs) = Scanner.scan tokens cs :=
      Scanner.finish_of_step rfl
    rw [String.append_assoc, String.toList_append, hcolon, List.append_assoc, Scanner.scan_quote,
      List.cons_append, Scanner.scan_bracket (fun _ => rfl), List.cons_append, hblank,
      spells_indented value indent _ _ hrest]
    simp only [List.reverse_cons, List.append_assoc, List.cons_append, List.nil_append]

end

/-- A text with the tokens of a document is read as that document. -/
theorem Document.ofText?_of_tokens? {text : String} {d : Document}
    (h : tokens? text.toList = some d.tokens) : ofText? text = some d := by
  unfold ofText?
  rw [h]
  exact ofTokens?_tokens d

/-- The indented text of a value spells the document of that value. -/
theorem Document.ofText?_pretty (value : Json) :
    ofText? value.pretty = some value.toDocument := by
  have hscan := spells_indented value 0 [] [] (fun c hc => nomatch hc)
  rw [List.append_nil, List.append_nil] at hscan
  have htokens : tokens? value.pretty.toList = some value.toDocument.tokens := by
    rw [Scanner.tokens?_eq_scan]
    show (Scanner.scan [] (value.indented 0).toList).map _ = _
    rw [hscan]
    show some (value.toDocument.tokens.reverse).reverse = _
    rw [List.reverse_reverse]
  exact ofText?_of_tokens? htokens

/-! ## Texts without tokens -/

/-- A text that is read as a value has more to it than blanks. -/
theorem not_blank_of_ofText? {text : String} {value : Json} (h : ofText? text = some value) :
    ¬ Text.Blank text := by
  intro hblank
  unfold ofText? Document.ofText? at h
  rw [Scanner.tokens?_eq_scan] at h
  rcases Scanner.scan_of_isBlank [] hblank with hscan | hscan
  · rw [hscan] at h
    cases h
  · rw [hscan] at h
    cases h

end AdmissionGate.Json

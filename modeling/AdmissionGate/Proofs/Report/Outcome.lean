import AdmissionGate.Proofs.Report.Lines

/-!
# Proofs/Report/Outcome — what the explained text and Markdown say of one report

Both list the findings of a report in order, and a reader finds the same in their lines.  Without
findings Markdown goes by the verdict but the text does not look at it, so the two tell the same
unless the report is a denial without findings.
-/

namespace AdmissionGate.Report

/-! ## 1. What is told -/

/-- What both reports tell of a finding. -/
structure Told where
  predicate : String
  message : String
  help : Option String
deriving DecidableEq

def Entry.told (e : Entry) : Told := ⟨e.predicate, e.message, e.help⟩

/-- The piece of a text in which something is told. -/
def Told.InText (t : Told) (piece : String) : Prop :=
  piece = "  - " ++ t.predicate ++ ": " ++ t.message ++ "\n" ++
    (t.help.map fun help => "    help: " ++ help ++ "\n").getD ""

/-- A section of Markdown in which something is told, along with some code. -/
def Told.InMarkdown (t : Told) (piece : String) : Prop :=
  ∃ code, piece = "### `" ++ t.predicate ++ "`\n\n- code: `" ++ code ++ "`\n- " ++ t.message ++
    "\n" ++ (t.help.map fun help => "- help: " ++ help ++ "\n").getD "" ++ "\n"

/-- Holds of a text that has one piece after the other under its title, and tells one thing in
each. -/
def Lists (tells : Told → String → Prop) (title : String) (told : List Told) (text : String) :
    Prop :=
  ∃ pieces, List.Forall₂ tells told pieces ∧ text = title ++ String.join pieces

theorem lists_of_entries {tells : Told → String → Prop} {write : Entry → String}
    (h : ∀ e : Entry, tells e.told (write e)) (title : String) (entries : List Entry) :
    Lists tells title (entries.map Entry.told) (title ++ String.join (entries.map write)) := by
  refine ⟨entries.map write, ?_, rfl⟩
  rw [List.forall₂_map_left_iff, List.forall₂_map_right_iff, List.forall₂_same]
  exact fun e _ => h e

theorem Entry.inText (e : Entry) : e.told.InText e.toText := by
  unfold Told.InText Entry.toText Entry.told
  cases e.help <;> rfl

theorem Entry.inMarkdown (e : Entry) : e.told.InMarkdown e.toMarkdown := by
  refine ⟨e.code, ?_⟩
  unfold Entry.toMarkdown Entry.told
  cases e.help <;> rfl

/-! ## 2. Notes -/

def ClosesWith (note text : String) : Prop := note.toList <:+ text.toList

/-- The row of a text that says that nothing failed. -/
def passedRow (r : Report) : String :=
  "All " ++ Text.decimal r.summary.predicatesEvaluated.toNat ++ " predicates passed."

def passedText (r : Report) : String := "\n" ++ r.passedRow ++ "\n"

/-- Holds of a report whose explained text and Markdown tell the same. -/
structure TellsSame (r : Report) : Prop where
  /-- Both list the findings, in order, if there are any. -/
  listed : r.entries ≠ [] →
    Lists Told.InText (r.headerText ++ "\nFailed predicates:\n") (r.entries.map Entry.told)
      (r.toText true) ∧
    Lists Told.InMarkdown (r.markdownHeader ++ "## Failed predicates\n\n")
      (r.entries.map Entry.told) r.toMarkdown
  /-- If there are none, both close with a note that nothing failed, or neither does. -/
  noted : r.entries = [] →
    (ClosesWith r.passedText (r.toText true) ↔ ClosesWith (markdownNote .allow) r.toMarkdown) ∧
    (ClosesWith (markdownNote .allow) r.toMarkdown ↔ r.verdict = .allow)
  /-- Neither says of a denial that nothing failed. -/
  denied : r.verdict = .deny →
    r.toText true ≠ r.headerText ++ r.passedText ∧
      ¬ ClosesWith (markdownNote .allow) r.toMarkdown

variable {r : Report}

theorem toText_of_entries (h : r.entries ≠ []) : r.toText true =
    r.headerText ++ "\nFailed predicates:\n" ++ String.join (r.entries.map Entry.toText) := by
  show r.headerText ++ r.explanationText = _
  unfold explanationText
  rw [if_neg (mt List.isEmpty_iff.mp h), String.append_assoc]

theorem toMarkdown_of_entries (h : r.entries ≠ []) : r.toMarkdown =
    r.markdownHeader ++ "## Failed predicates\n\n" ++
      String.join (r.entries.map Entry.toMarkdown) := by
  unfold toMarkdown
  rw [if_neg (mt List.isEmpty_iff.mp h), String.append_assoc]

theorem toText_of_no_entries (h : r.entries = []) :
    r.toText true = r.headerText ++ r.passedText := by
  show r.headerText ++ r.explanationText = _
  unfold explanationText passedText passedRow
  rw [h]
  apply String.toList_inj.mp
  simp

theorem toMarkdown_of_no_entries (h : r.entries = []) :
    r.toMarkdown = r.markdownHeader ++ markdownNote r.verdict := by
  unfold toMarkdown
  rw [h]
  rfl

theorem closesWith_append (text note : String) : ClosesWith note (text ++ note) := by
  unfold ClosesWith
  rw [String.toList_append]
  exact List.suffix_append _ _

theorem closesWith_passedText (h : r.entries = []) : ClosesWith r.passedText (r.toText true) := by
  rw [toText_of_no_entries h]
  exact closesWith_append _ _

theorem ClosesWith.of_length_le {note note' text : String} (h : ClosesWith note text)
    (h' : ClosesWith note' text) (hlength : note.toList.length ≤ note'.toList.length) :
    ClosesWith note note' :=
  List.suffix_of_suffix_length_le h h' hlength

theorem Entry.toMarkdown_closesWith_blank (e : Entry) : ClosesWith "\n\n" e.toMarkdown := by
  have htext : ∃ text, e.toMarkdown = text ++ "\n\n" := by
    unfold toMarkdown
    cases e.help with
    | none =>
      refine ⟨"### `" ++ e.predicate ++ "`\n\n- code: `" ++ e.code ++ "`\n- " ++ e.message, ?_⟩
      apply String.toList_inj.mp
      simp
    | some help =>
      refine ⟨"### `" ++ e.predicate ++ "`\n\n- code: `" ++ e.code ++ "`\n- " ++ e.message ++
        "\n- help: " ++ help, ?_⟩
      apply String.toList_inj.mp
      simp
  obtain ⟨text, htext⟩ := htext
  rw [htext]
  exact closesWith_append _ _

theorem toMarkdown_closesWith_blank (h : r.entries ≠ []) : ClosesWith "\n\n" r.toMarkdown := by
  obtain ⟨others, last, hentries⟩ := (List.eq_nil_or_concat' r.entries).resolve_left h
  rw [toMarkdown_of_entries h, hentries]
  unfold ClosesWith
  rw [String.toList_append, String.toList_join, List.map_append, List.flatMap_append,
    List.map_singleton, List.flatMap_singleton, ← List.append_assoc]
  exact List.suffix_append_of_suffix last.toMarkdown_closesWith_blank

theorem closesWith_markdownNote_iff :
    ClosesWith (markdownNote .allow) r.toMarkdown ↔ r.entries = [] ∧ r.verdict = .allow := by
  constructor
  · intro hcloses
    by_cases hnone : r.entries = []
    · refine ⟨hnone, ?_⟩
      cases hverdict : r.verdict with
      | allow => rfl
      | deny =>
        -- Both notes would close the report, and the shorter one the longer one.
        rw [toMarkdown_of_no_entries hnone, hverdict] at hcloses
        have hnotes := hcloses.of_length_le (closesWith_append _ _) (by decide)
        exact absurd hnotes (by unfold ClosesWith; decide)
    · -- Sections end in a blank line, which no note does.
      have hnotes := (toMarkdown_closesWith_blank hnone).of_length_le hcloses (by decide)
      exact absurd hnotes (by unfold ClosesWith; decide)
  · rintro ⟨hnone, hallow⟩
    rw [toMarkdown_of_no_entries hnone, hallow]
    exact closesWith_append _ _

theorem toText_eq_passed_iff : r.toText true = r.headerText ++ r.passedText ↔ r.entries = [] := by
  refine ⟨fun heq => ?_, toText_of_no_entries⟩
  by_contra hsome
  rw [toText_of_entries hsome, String.append_assoc] at heq
  -- The title of the list differs from the note in its first letter.
  have hchars := congrArg String.toList heq
  simp [passedText, passedRow] at hchars

/-- The explained text and Markdown tell the same of every report but a denial without findings. -/
theorem tellsSame_iff : r.TellsSame ↔ (r.entries = [] → r.verdict = .allow) := by
  constructor
  · intro h hnone
    -- The text closes with the note whatever the verdict is, and Markdown has to do the same.
    have hmarkdown := (h.noted hnone).1.mp (closesWith_passedText hnone)
    exact (closesWith_markdownNote_iff.mp hmarkdown).2
  · intro hallow
    refine ⟨fun hsome => ?_, fun hnone => ?_, fun hdeny => ⟨fun hpassed => ?_, fun hcloses => ?_⟩⟩
    · rw [toText_of_entries hsome, toMarkdown_of_entries hsome]
      exact ⟨lists_of_entries Entry.inText _ _, lists_of_entries Entry.inMarkdown _ _⟩
    · have hmarkdown := closesWith_markdownNote_iff.mpr ⟨hnone, hallow hnone⟩
      exact ⟨iff_of_true (closesWith_passedText hnone) hmarkdown,
        iff_of_true hmarkdown (hallow hnone)⟩
    · have hnone := toText_eq_passed_iff.mp hpassed
      rw [hallow hnone] at hdeny
      cases hdeny
    · rw [(closesWith_markdownNote_iff.mp hcloses).2] at hdeny
      cases hdeny

/-! ## 3. Reading the lines -/

/-- What a row goes on with after a marker, if it starts with that. -/
def after? (marker row : String) : Option String :=
  (row.toList.dropPrefix? marker.toList).map String.ofList

/-- What rows of a text tell from the first of them on: the predicate up to a colon and the message
after it, and the help in the next row. -/
def textTelling? : List String → Option Told
  | [] => none
  | row :: rest => (after? "  - " row).map fun said =>
    { predicate := .ofList (said.toList.takeWhile (· ≠ ':'))
      message := .ofList ((said.toList.dropWhile (· ≠ ':')).drop 2)
      help := rest.head?.bind (after? "    help: ") }

/-- What rows of Markdown tell from the first of them on: the predicate in a heading, the message in
the third row below it and the help in the fourth. -/
def markdownTelling? : List String → Option Told
  | heading :: _ :: _ :: item :: rest => do
    let name ← after? "### `" heading
    let message ← after? "- " item
    return {
      predicate := .ofList name.toList.dropLast
      message := message
      help := rest.head?.bind (after? "- help: ") }
  | _ => none

/-- Everything that is told somewhere in the rows, in order. -/
def readings (read : List String → Option Told) (rows : List String) : List Told :=
  rows.tails.filterMap read

/-- Holds of a report whose lines can be read back: nothing in it is broken, and no predicate holds
the colon that ends it in a text. -/
structure Legible (r : Report) : Prop extends r.OnOneLine where
  predicates : ∀ e ∈ r.entries, ':' ∉ e.predicate.toList

theorem after?_append (marker text : String) : after? marker (marker ++ text) = some text := by
  unfold after?
  rw [String.toList_append, List.dropPrefix?_append_of_beq _ (beq_self_eq_true _), Option.map_some,
    String.ofList_toList]

section

variable {read : List String → Option Told} {marker : String}

theorem readings_append_of_unmarked
    (hread : ∀ row rest, after? marker row = none → read (row :: rest) = none) {rows : List String}
    (h : ∀ row ∈ rows, after? marker row = none) (rest : List String) :
    readings read (rows ++ rest) = readings read rest := by
  induction rows with
  | nil => rfl
  | cons row rows ih =>
    obtain ⟨hrow, hrows⟩ := List.forall_mem_cons.mp h
    unfold readings at ih ⊢
    rw [List.cons_append, List.tails_cons, List.filterMap_cons_none (hread _ _ hrow), ih hrows]

theorem readings_cons_of_told {row : String} {rest : List String} {t : Told}
    (h : read (row :: rest) = some t) : readings read (row :: rest) = t :: readings read rest := by
  unfold readings
  rw [List.tails_cons, List.filterMap_cons_some h]

end

theorem textTelling?_of_unmarked (row : String) (rest : List String)
    (h : after? "  - " row = none) : textTelling? (row :: rest) = none := by
  show (after? "  - " row).map _ = none
  rw [h, Option.map_none]

theorem markdownTelling?_of_unmarked (row : String) (rest : List String)
    (h : after? "### `" row = none) : markdownTelling? (row :: rest) = none := by
  unfold markdownTelling?
  split
  · rename_i heq
    cases heq
    rw [h]
    rfl
  · rfl

theorem help_of_next {marker : String} {help? : Option String} {rest : List String}
    (h : rest.head?.bind (after? marker) = none) :
    ((help?.map (marker ++ ·)).toList ++ rest).head?.bind (after? marker) = help? := by
  cases help? with
  | none => exact h
  | some help => exact after?_append marker help

theorem textTelling?_textRows {e : Entry} (hcolon : ':' ∉ e.predicate.toList) {rest : List String}
    (h : rest.head?.bind (after? "    help: ") = none) :
    textTelling? (e.textRows ++ rest) = some e.told := by
  -- The predicate has no colon, so the first one is that between it and the message.
  have hpredicate : ∀ c ∈ e.predicate.toList, decide (c ≠ ':') = true := fun c hc =>
    decide_eq_true fun heq => hcolon (heq ▸ hc)
  have hsaid : (e.predicate ++ ": " ++ e.message).toList =
      e.predicate.toList ++ ':' :: ' ' :: e.message.toList := by
    simp
  have htake : (e.predicate ++ ": " ++ e.message).toList.takeWhile (· ≠ ':') =
      e.predicate.toList := by
    rw [hsaid, List.takeWhile_append_of_pos hpredicate]
    exact List.append_nil _
  have hdrop : (e.predicate ++ ": " ++ e.message).toList.dropWhile (· ≠ ':') =
      ':' :: ' ' :: e.message.toList := by
    rw [hsaid, List.dropWhile_append_of_pos hpredicate]
    rfl
  have hrow : "  - " ++ e.predicate ++ ": " ++ e.message =
      "  - " ++ (e.predicate ++ ": " ++ e.message) := by
    simp only [String.append_assoc]
  unfold Entry.textRows Entry.told
  rw [hrow, List.cons_append]
  show (after? "  - " ("  - " ++ _)).map _ = _
  rw [after?_append, Option.map_some, htake, hdrop, help_of_next h, String.ofList_toList]
  show some (Told.mk _ (String.ofList e.message.toList) _) = _
  rw [String.ofList_toList]

theorem markdownTelling?_markdownRows (e : Entry) (rest : List String) :
    markdownTelling? (e.markdownRows ++ rest) = some e.told := by
  have hblank : ("" :: rest).head?.bind (after? "- help: ") = none := rfl
  have hheading : "### `" ++ e.predicate ++ "`" = "### `" ++ (e.predicate ++ "`") :=
    String.append_assoc ..
  have hname : (e.predicate ++ "`").toList.dropLast = e.predicate.toList := by
    rw [String.toList_append]
    exact List.dropLast_concat
  unfold Entry.markdownRows Entry.told
  rw [List.append_assoc, List.append_assoc, hheading]
  simp only [List.cons_append, List.nil_append]
  show (after? "### `" ("### `" ++ _)).bind _ = _
  rw [after?_append, Option.bind_some, hname]
  show (after? "- " ("- " ++ e.message)).bind _ = _
  rw [after?_append, Option.bind_some, help_of_next hblank, String.ofList_toList]
  rfl

theorem readings_textRows {entries : List Entry} (h : ∀ e ∈ entries, ':' ∉ e.predicate.toList) :
    readings textTelling? (entries.flatMap Entry.textRows) = entries.map Entry.told := by
  induction entries with
  | nil => rfl
  | cons e rest ih =>
    obtain ⟨he, hrest⟩ := List.forall_mem_cons.mp h
    -- What follows an entry is another one, or nothing: its help is not taken from there.
    have hnext : (rest.flatMap Entry.textRows).head?.bind (after? "    help: ") = none := by
      cases rest with
      | nil => rfl
      | cons next others =>
        show after? "    help: " ("  - " ++ next.predicate ++ ": " ++ next.message) = none
        simp [after?, List.dropPrefix?]
    have hhelp : ∀ row ∈ (e.help.map ("    help: " ++ ·)).toList, after? "  - " row = none := by
      intro row hrow
      obtain ⟨help, _, rfl⟩ := Option.map_eq_some_iff.mp (Option.mem_toList.mp hrow)
      simp [after?, List.dropPrefix?]
    have hfirst := textTelling?_textRows he hnext
    rw [List.flatMap_cons, List.map_cons, ← ih hrest]
    unfold Entry.textRows at hfirst ⊢
    rw [List.cons_append] at hfirst ⊢
    rw [readings_cons_of_told hfirst, readings_append_of_unmarked textTelling?_of_unmarked hhelp]

theorem readings_markdownRows (entries : List Entry) :
    readings markdownTelling? (entries.flatMap Entry.markdownRows) = entries.map Entry.told := by
  induction entries with
  | nil => rfl
  | cons e rest ih =>
    have hbody : ∀ row ∈ ["", "- code: `" ++ e.code ++ "`", "- " ++ e.message] ++
        (e.help.map ("- help: " ++ ·)).toList ++ [""], after? "### `" row = none := by
      intro row hrow
      simp only [List.mem_append, List.mem_cons, List.not_mem_nil, or_false, Option.mem_toList,
        Option.map_eq_some_iff] at hrow
      obtain ((rfl | rfl | rfl) | ⟨help, _, rfl⟩) | rfl := hrow <;> simp [after?, List.dropPrefix?]
    have hfirst := markdownTelling?_markdownRows e (rest.flatMap Entry.markdownRows)
    rw [List.flatMap_cons, List.map_cons, ← ih]
    exact (readings_cons_of_told hfirst).trans
      (congrArg _ (readings_append_of_unmarked markdownTelling?_of_unmarked hbody _))

theorem readings_explained (h : r.Legible) :
    readings textTelling? (Text.lines (r.toText true)) = r.entries.map Entry.told := by
  have hsingle := List.forall_mem_append.mpr
    ⟨singleLine_headerRows h.policy, singleLine_explanationRows h.toOnOneLine⟩
  have hheader : ∀ row ∈ r.headerRows, after? "  - " row = none := by
    simp [headerRows, after?, List.dropPrefix?]
  rw [toText_true_eq, Text.lines_ended_of_single hsingle,
    readings_append_of_unmarked textTelling?_of_unmarked hheader]
  unfold explanationRows
  by_cases hnone : r.entries = []
  · have hnote : ∀ row ∈ ["", r.passedRow], after? "  - " row = none := by
      simp [passedRow, after?, List.dropPrefix?]
    rw [hnone]
    exact readings_append_of_unmarked textTelling?_of_unmarked hnote []
  · have htitles : ∀ row ∈ ["", "Failed predicates:"], after? "  - " row = none := by decide
    rw [if_neg (mt List.isEmpty_iff.mp hnone), ← readings_textRows h.predicates]
    exact readings_append_of_unmarked textTelling?_of_unmarked htitles _

theorem readings_markdown (h : r.OnOneLine) :
    readings markdownTelling? (Text.lines r.toMarkdown) = r.entries.map Entry.told := by
  have hheader : ∀ row ∈ r.markdownHeaderRows, after? "### `" row = none := by
    unfold markdownHeaderRows
    cases r.summary.profile <;> simp [after?, List.dropPrefix?]
  rw [toMarkdown_eq, Text.lines_ended_of_single (singleLine_markdownRows h)]
  unfold markdownRows
  rw [readings_append_of_unmarked markdownTelling?_of_unmarked hheader]
  by_cases hnone : r.entries = []
  · rw [hnone]
    cases r.verdict <;> rfl
  · have htitles : ∀ row ∈ ["## Failed predicates", ""], after? "### `" row = none := by decide
    rw [if_neg (mt List.isEmpty_iff.mp hnone), ← readings_markdownRows]
    exact readings_append_of_unmarked markdownTelling?_of_unmarked htitles _

theorem passedRow_mem_iff (h : r.OnOneLine) :
    r.passedRow ∈ Text.lines (r.toText true) ↔ r.entries = [] := by
  have hsingle := List.forall_mem_append.mpr
    ⟨singleLine_headerRows h.policy, singleLine_explanationRows h⟩
  rw [toText_true_eq, Text.lines_ended_of_single hsingle]
  constructor
  · intro hmem
    by_contra hsome
    -- The first letter sets the note apart from all rows that there are.
    have hinitial : ∀ row ∈ r.headerRows ++ r.explanationRows, row.toList.head? ≠ some 'A' := by
      intro row hrow
      unfold explanationRows headerRows at hrow
      rw [if_neg (mt List.isEmpty_iff.mp hsome)] at hrow
      simp only [Entry.textRows, List.mem_append, List.mem_cons, List.not_mem_nil, or_false,
        List.mem_flatMap, Option.mem_toList, Option.map_eq_some_iff] at hrow
      obtain (rfl | rfl) | rfl | rfl | ⟨e, _, rfl | ⟨help, _, rfl⟩⟩ := hrow <;> simp
    exact hinitial _ hmem (by simp [passedRow])
  · intro hnone
    refine List.mem_append_right _ ?_
    unfold explanationRows
    rw [hnone]
    exact List.mem_cons_of_mem _ List.mem_cons_self

theorem noteRow_mem_iff (h : r.OnOneLine) :
    noteRow .allow ∈ Text.lines r.toMarkdown ↔ r.entries = [] ∧ r.verdict = .allow := by
  rw [toMarkdown_eq, Text.lines_ended_of_single (singleLine_markdownRows h)]
  -- The note is told by its first letter, with which no other row starts.
  have hheader : ∀ row ∈ r.markdownHeaderRows, row.toList.head? ≠ some 'A' := by
    unfold markdownHeaderRows
    cases r.summary.profile <;> simp
  unfold markdownRows
  rw [List.mem_append, or_iff_right fun hmem => hheader _ hmem rfl]
  by_cases hnone : r.entries = []
  · rw [hnone]
    cases r.verdict <;> decide
  · rw [if_neg (mt List.isEmpty_iff.mp hnone)]
    have hinitial : ∀ row ∈ "## Failed predicates" :: "" :: r.entries.flatMap Entry.markdownRows,
        row.toList.head? ≠ some 'A' := by
      intro row hrow
      simp only [Entry.markdownRows, List.mem_append, List.mem_cons, List.not_mem_nil, or_false,
        List.mem_flatMap, Option.mem_toList, Option.map_eq_some_iff] at hrow
      obtain rfl | rfl | ⟨e, _, ((rfl | rfl | rfl | rfl) | ⟨help, _, rfl⟩) | rfl⟩ := hrow <;> simp
    exact iff_of_false (fun hmem => hinitial _ hmem rfl) fun hpassed => hnone hpassed.1

/-! ## 4. One outcome -/

/-- The explained text and Markdown tell the same outcome of every report but a denial without
findings.  Where nothing in a report breaks its lines, the same findings are read back from both,
and a line says that nothing failed whenever the text has no findings but in Markdown only if the
request was allowed. -/
theorem explained_text_and_markdown_agree (r : Report) :
    (r.TellsSame ↔ (r.entries = [] → r.verdict = .allow)) ∧
    (r.Legible →
      readings textTelling? (Text.lines (r.toText true)) = r.entries.map Entry.told ∧
      readings markdownTelling? (Text.lines r.toMarkdown) = r.entries.map Entry.told ∧
      (r.passedRow ∈ Text.lines (r.toText true) ↔ r.entries = []) ∧
      (noteRow .allow ∈ Text.lines r.toMarkdown ↔ r.entries = [] ∧ r.verdict = .allow)) :=
  ⟨tellsSame_iff, fun h => ⟨readings_explained h, readings_markdown h.toOnOneLine,
    passedRow_mem_iff h.toOnOneLine, noteRow_mem_iff h.toOnOneLine⟩⟩

/-- A denial with these entries. -/
def denialWith (entries : List Entry) : Report where
  verdict := .deny
  failed := entries.map Entry.predicate
  entries := entries
  summary := { policy := "p", enforceEncodedPayload := false, predicatesEvaluated := 9 }

/-- An entry with help and one that has none, and no known predicate. -/
def twoEntries : List Entry :=
  [⟨"a", "c", "m: n", some "h"⟩, ⟨"", "", "help: ", none⟩]

theorem two_entries_are_told_twice :
    (denialWith twoEntries).TellsSame ∧ (denialWith twoEntries).Legible ∧
      readings textTelling? (Text.lines ((denialWith twoEntries).toText true)) =
        [⟨"a", "m: n", some "h"⟩, ⟨"", "help: ", none⟩] ∧
      readings markdownTelling? (Text.lines (denialWith twoEntries).toMarkdown) =
        [⟨"a", "m: n", some "h"⟩, ⟨"", "help: ", none⟩] := by
  have hlegible : (denialWith twoEntries).Legible := by
    refine ⟨⟨by decide, nofun, ?_⟩, by decide⟩
    refine List.forall_mem_cons.mpr ⟨⟨by decide, by decide, by decide, by decide⟩, ?_⟩
    exact List.forall_mem_singleton.mpr ⟨by decide, by decide, by decide, nofun⟩
  obtain ⟨htells, hread⟩ := explained_text_and_markdown_agree (denialWith twoEntries)
  obtain ⟨htext, hmarkdown, _⟩ := hread hlegible
  exact ⟨htells.mpr nofun, hlegible, htext, hmarkdown⟩

/-- The text of a denial without findings says that everything passed, and Markdown does not. -/
theorem denial_without_entries_is_told_as_passed :
    (denialWith []).verdict = .deny ∧
      (denialWith []).toText true =
        "Policy Decision: DENY\nPolicy: p\n\nAll 9 predicates passed.\n" ∧
      ¬ ClosesWith (markdownNote .allow) (denialWith []).toMarkdown ∧
      ¬ (denialWith []).TellsSame := by
  refine ⟨rfl, by decide +kernel, fun hcloses => ?_, fun htells => ?_⟩
  · exact absurd (closesWith_markdownNote_iff.mp hcloses).2 (by decide)
  · exact absurd (tellsSame_iff.mp htells rfl) (by decide)

end AdmissionGate.Report

import AdmissionGate.Proofs.Consistency
import AdmissionGate.Proofs.Json.Token
import AdmissionGate.Proofs.Text.Lines
import AdmissionGate.Receipt.Render

/-!
# Proofs/Report/Lines — the lines of reports

A report is a list of rows, a line break after each.  Where nothing that it shows holds a line
break, its lines are the rows.
-/

namespace AdmissionGate

/-! ## 1. Rows of reports -/

namespace Report

open Text (SingleLine)

def Entry.textRows (e : Entry) : List String :=
  ("  - " ++ e.predicate ++ ": " ++ e.message) :: (e.help.map ("    help: " ++ ·)).toList

def Entry.markdownRows (e : Entry) : List String :=
  ["### `" ++ e.predicate ++ "`", "", "- code: `" ++ e.code ++ "`", "- " ++ e.message] ++
    (e.help.map ("- help: " ++ ·)).toList ++ [""]

def headerRows (r : Report) : List String :=
  ["Policy Decision: " ++ r.verdict.label, "Policy: " ++ r.summary.policy]

def explanationRows (r : Report) : List String :=
  if r.entries.isEmpty then
    ["", "All " ++ Text.decimal r.summary.predicatesEvaluated.toNat ++ " predicates passed."]
  else "" :: "Failed predicates:" :: r.entries.flatMap Entry.textRows

def markdownHeaderRows (r : Report) : List String :=
  ["# Fogguard decision", "", "- Verdict: **" ++ r.verdict.label ++ "**",
    "- Policy: `" ++ r.summary.policy ++ "`"] ++
    (r.summary.profile.map fun profile => "- Profile: `" ++ profile ++ "`").toList ++
    ["- Encoded payload check: " ++ (if r.summary.enforceEncodedPayload then "enforced" else "off"),
      "- Predicates evaluated: " ++ Text.decimal r.summary.predicatesEvaluated.toNat, ""]

/-- The row of the note that stands for the sections when there is no entry. -/
def noteRow : Verdict → String
  | .allow => "All predicates passed."
  | .deny => "Denied without findings."

def markdownRows (r : Report) : List String :=
  r.markdownHeaderRows ++
    if r.entries.isEmpty then [noteRow r.verdict]
    else "## Failed predicates" :: "" :: r.entries.flatMap Entry.markdownRows

theorem join_map_eq_ended {text : Entry → String} {rows : Entry → List String}
    (h : ∀ e, text e = Text.ended (rows e)) (entries : List Entry) :
    String.join (entries.map text) = Text.ended (entries.flatMap rows) := by
  induction entries with
  | nil => rfl
  | cons e rest ih =>
    rw [List.flatMap_cons, Text.ended_append, ← ih, ← h]
    apply String.toList_inj.mp
    rw [List.map_cons, String.toList_append, String.toList_join, String.toList_join,
      List.flatMap_cons]

theorem Entry.toText_eq (e : Entry) : e.toText = Text.ended e.textRows := by
  unfold Entry.toText Entry.textRows
  apply String.toList_inj.mp
  cases e.help <;> simp [Text.ended]

theorem Entry.toMarkdown_eq (e : Entry) : e.toMarkdown = Text.ended e.markdownRows := by
  unfold Entry.toMarkdown Entry.markdownRows
  apply String.toList_inj.mp
  cases e.help <;> simp [Text.ended]

theorem toText_false_eq (r : Report) : r.toText false = Text.ended r.headerRows := by
  unfold toText headerText headerRows
  apply String.toList_inj.mp
  simp [Text.ended]

theorem toText_true_eq (r : Report) :
    r.toText true = Text.ended (r.headerRows ++ r.explanationRows) := by
  have hexplanation : r.explanationText = Text.ended r.explanationRows := by
    unfold explanationText explanationRows
    rw [join_map_eq_ended Entry.toText_eq]
    apply String.toList_inj.mp
    split_ifs <;> simp [Text.ended]
  have hheader := toText_false_eq r
  unfold toText at hheader ⊢
  rw [Text.ended_append, ← hexplanation, ← hheader]
  simp

theorem toMarkdown_eq (r : Report) : r.toMarkdown = Text.ended r.markdownRows := by
  have hheader : r.markdownHeader = Text.ended r.markdownHeaderRows := by
    unfold markdownHeader markdownHeaderRows
    apply String.toList_inj.mp
    cases r.summary.profile <;> simp [Text.ended]
  have hnote : markdownNote r.verdict = Text.ended [noteRow r.verdict] := by
    cases r.verdict <;> rfl
  unfold toMarkdown markdownRows
  rw [Text.ended_append, ← hheader, join_map_eq_ended Entry.toMarkdown_eq, hnote]
  apply String.toList_inj.mp
  split_ifs <;> simp [Text.ended]

/-! ## 2. Rows on one line -/

theorem singleLine_ofList {characters : List Char} (h : '\n' ∉ characters) :
    SingleLine (.ofList characters) := by
  unfold SingleLine
  rwa [String.toList_ofList]

theorem singleLine_append {a b : String} : SingleLine (a ++ b) ↔ SingleLine a ∧ SingleLine b := by
  unfold SingleLine
  rw [String.toList_append, List.mem_append, not_or]

/-- The characters around a text are given as such, so that a literal is not decoded. -/
theorem singleLine_between {before after : List Char} {text : String} (hbefore : '\n' ∉ before)
    (h : SingleLine text) (hafter : '\n' ∉ after) :
    SingleLine (.ofList before ++ text ++ .ofList after) := by
  rw [singleLine_append, singleLine_append]
  exact ⟨⟨singleLine_ofList hbefore, h⟩, singleLine_ofList hafter⟩

theorem singleLine_intercalate {separator : String} (hseparator : SingleLine separator)
    {texts : List String} (h : ∀ text ∈ texts, SingleLine text) :
    SingleLine (separator.intercalate texts) := by
  induction texts with
  | nil =>
    rw [String.intercalate_nil]
    decide
  | cons text rest ih =>
    obtain ⟨htext, hrest⟩ := List.forall_mem_cons.mp h
    cases rest with
    | nil => rwa [String.intercalate_singleton]
    | cons next others =>
      rw [String.intercalate_cons_cons, singleLine_append, singleLine_append]
      exact ⟨⟨htext, hseparator⟩, ih hrest⟩

theorem singleLine_of_isNumeric {text : String}
    (h : ∀ c ∈ text.toList, Json.Scanner.isNumeric c = true) : SingleLine text := by
  intro hmem
  have hbreak := h _ hmem
  revert hbreak
  decide

theorem singleLine_signedDecimal (i : Int) : SingleLine (Text.signedDecimal i) :=
  singleLine_of_isNumeric fun _ => Json.Scanner.isNumeric_of_mem_signedDecimal

theorem singleLine_plain (x : Binary64) : SingleLine x.plain := by
  cases x with
  | nan => decide
  | infinite negative => cases negative <;> decide
  | finite x =>
    apply singleLine_of_isNumeric
    show ∀ c ∈ (String.ofList (x.chars Binary64.plainLayout)).toList, _
    rw [String.toList_ofList]
    have hmark : ∀ c ∈ "".toList, Json.Scanner.isNumeric c = true := List.forall_mem_nil _
    exact Json.Scanner.isNumeric_of_mem_chars hmark x

structure Entry.OnOneLine (e : Entry) : Prop where
  predicate : SingleLine e.predicate
  code : SingleLine e.code
  message : SingleLine e.message
  help : ∀ help ∈ e.help, SingleLine help

/-- Holds of a report in which no text that it shows has a line break. -/
structure OnOneLine (r : Report) : Prop where
  policy : SingleLine r.summary.policy
  profile : ∀ profile ∈ r.summary.profile, SingleLine profile
  entries : ∀ e ∈ r.entries, e.OnOneLine

theorem Entry.singleLine_textRows {e : Entry} (h : e.OnOneLine) :
    ∀ row ∈ e.textRows, SingleLine row := by
  unfold Entry.textRows
  refine List.forall_mem_cons.mpr ⟨?_, fun row hrow => ?_⟩
  · simp only [singleLine_append]
    exact ⟨⟨⟨by decide, h.predicate⟩, by decide⟩, h.message⟩
  · obtain ⟨help, hhelp, rfl⟩ := Option.map_eq_some_iff.mp (Option.mem_toList.mp hrow)
    exact singleLine_append.mpr ⟨by decide, h.help help hhelp⟩

theorem Entry.singleLine_markdownRows {e : Entry} (h : e.OnOneLine) :
    ∀ row ∈ e.markdownRows, SingleLine row := by
  unfold Entry.markdownRows
  simp only [List.forall_mem_append, List.forall_mem_cons, singleLine_append]
  refine ⟨⟨⟨⟨⟨by decide, h.predicate⟩, by decide⟩, by decide, ⟨⟨by decide, h.code⟩, by decide⟩,
    ⟨by decide, h.message⟩, fun _ hrow => nomatch hrow⟩, fun row hrow => ?_⟩, by decide,
    fun _ hrow => nomatch hrow⟩
  obtain ⟨help, hhelp, rfl⟩ := Option.map_eq_some_iff.mp (Option.mem_toList.mp hrow)
  exact singleLine_append.mpr ⟨by decide, h.help help hhelp⟩

theorem singleLine_decimal (n : Nat) : SingleLine (Text.decimal n) :=
  singleLine_signedDecimal n

theorem singleLine_label (v : Verdict) : SingleLine v.label := by
  cases v <;> decide

variable {r : Report}

theorem singleLine_headerRows (h : SingleLine r.summary.policy) :
    ∀ row ∈ r.headerRows, SingleLine row := by
  unfold headerRows
  simp only [List.forall_mem_cons, singleLine_append]
  exact ⟨⟨by decide, singleLine_label _⟩, ⟨by decide, h⟩, fun _ hrow => nomatch hrow⟩

theorem singleLine_explanationRows (h : r.OnOneLine) :
    ∀ row ∈ r.explanationRows, SingleLine row := by
  unfold explanationRows
  split_ifs
  · simp only [List.forall_mem_cons, singleLine_append]
    exact ⟨by decide, ⟨⟨by decide, singleLine_decimal _⟩, by decide⟩, fun _ hrow => nomatch hrow⟩
  · simp only [List.forall_mem_cons, List.forall_mem_flatMap]
    exact ⟨by decide, by decide, fun e he => Entry.singleLine_textRows (h.entries e he)⟩

theorem singleLine_markdownRows (h : r.OnOneLine) : ∀ row ∈ r.markdownRows, SingleLine row := by
  have hprofile : ∀ row ∈ (r.summary.profile.map fun profile =>
      "- Profile: `" ++ profile ++ "`").toList, SingleLine row := by
    intro row hrow
    obtain ⟨profile, hmem, rfl⟩ := Option.map_eq_some_iff.mp (Option.mem_toList.mp hrow)
    simp only [singleLine_append]
    exact ⟨⟨by decide, h.profile profile hmem⟩, by decide⟩
  have hheader : ∀ row ∈ r.markdownHeaderRows, SingleLine row := by
    have henforced :
        SingleLine (if r.summary.enforceEncodedPayload then "enforced" else "off") := by
      cases r.summary.enforceEncodedPayload <;> decide
    unfold markdownHeaderRows
    simp only [List.forall_mem_append, List.forall_mem_cons, singleLine_append]
    exact ⟨⟨⟨by decide, by decide, ⟨⟨by decide, singleLine_label _⟩, by decide⟩,
      ⟨⟨by decide, h.policy⟩, by decide⟩, fun _ hrow => nomatch hrow⟩, hprofile⟩,
      ⟨by decide, henforced⟩, ⟨by decide, singleLine_decimal _⟩, by decide,
      fun _ hrow => nomatch hrow⟩
  unfold markdownRows
  refine List.forall_mem_append.mpr ⟨hheader, ?_⟩
  split_ifs
  · cases r.verdict <;> decide
  · simp only [List.forall_mem_cons, List.forall_mem_flatMap]
    exact ⟨by decide, by decide, fun e he => Entry.singleLine_markdownRows (h.entries e he)⟩

/-! ## 3. Rows that start with a marker -/

theorem filter_flatMap_rows {rows : Entry → List String} {heading : Entry → String}
    {marked : String → Bool} (h : ∀ e, (rows e).filter marked = [heading e])
    (entries : List Entry) : (entries.flatMap rows).filter marked = entries.map heading := by
  rw [List.filter_flatMap, List.map_eq_flatMap]
  exact List.flatMap_congr fun e _ => h e

/-- The rows of a text that start with a dash are the first rows of the entries. -/
theorem filter_explainedRows (r : Report) :
    (r.headerRows ++ r.explanationRows).filter (fun row => "  - ".toList.isPrefixOf row.toList) =
      r.entries.map fun e => "  - " ++ e.predicate ++ ": " ++ e.message := by
  have hheader : r.headerRows.filter (fun row => "  - ".toList.isPrefixOf row.toList) = [] := by
    simp [headerRows, List.isPrefixOf]
  have hentry (e : Entry) : e.textRows.filter (fun row => "  - ".toList.isPrefixOf row.toList) =
      ["  - " ++ e.predicate ++ ": " ++ e.message] := by
    unfold Entry.textRows
    cases e.help <;> simp [List.isPrefixOf]
  rw [List.filter_append, hheader, List.nil_append]
  unfold explanationRows
  by_cases hnone : r.entries = []
  · rw [hnone]
    simp [List.isPrefixOf]
  · have htitles : ["", "Failed predicates:"].filter
        (fun row => "  - ".toList.isPrefixOf row.toList) = [] := by decide
    rw [if_neg (mt List.isEmpty_iff.mp hnone)]
    show (["", "Failed predicates:"] ++ r.entries.flatMap Entry.textRows).filter _ = _
    rw [List.filter_append, htitles, List.nil_append, filter_flatMap_rows hentry]

theorem filter_markdownRows (r : Report) :
    r.markdownRows.filter (fun row => "###".toList.isPrefixOf row.toList) =
      r.entries.map fun e => "### `" ++ e.predicate ++ "`" := by
  have hheader : r.markdownHeaderRows.filter
      (fun row => "###".toList.isPrefixOf row.toList) = [] := by
    unfold markdownHeaderRows
    cases r.summary.profile <;> simp [List.isPrefixOf]
  have hentry (e : Entry) : e.markdownRows.filter (fun row => "###".toList.isPrefixOf row.toList) =
      ["### `" ++ e.predicate ++ "`"] := by
    unfold Entry.markdownRows
    cases e.help <;> simp [List.isPrefixOf]
  unfold markdownRows
  rw [List.filter_append, hheader, List.nil_append]
  -- Without entries there is a note in their place, which is no heading.
  by_cases hnone : r.entries = []
  · rw [hnone]
    cases r.verdict <;> decide
  · have htitles : ["## Failed predicates", ""].filter
        (fun row => "###".toList.isPrefixOf row.toList) = [] := by decide
    rw [if_neg (mt List.isEmpty_iff.mp hnone)]
    show (["## Failed predicates", ""] ++ r.entries.flatMap Entry.markdownRows).filter _ = _
    rw [List.filter_append, htitles, List.nil_append, filter_flatMap_rows hentry]

end Report

/-! ## 4. Receipts of evaluations -/

open Text (SingleLine)

/-- Holds of a receipt whose reports have the lines that its verdict and its failed predicates call
for and no others of their kinds. -/
structure Receipt.KeepsLines (r : Receipt) : Prop where
  plain : Text.lines ((Report.ofReceipt r).toText false) =
    ["Policy Decision: " ++ r.verdict.label, "Policy: " ++ r.summary.policy]
  explained : List.Forall₂ (fun line id => ("  - " ++ id ++ ": ").toList <+: line.toList)
    (Text.linesFrom "  - " ((Report.ofReceipt r).toText true)) r.failed
  markdown : Text.linesFrom "###" (Report.ofReceipt r).toMarkdown =
    r.failed.map fun id => "### `" ++ id ++ "`"

/-- Holds of a request and a policy when what their reports show of them has no line break.  An
intent or a domain is shown when it is refused; a payload never is. -/
structure ShownOnOneLine (r : Request) (p : ResolvedPolicy) : Prop where
  name : SingleLine p.name
  profile : ∀ profile ∈ p.profile, SingleLine profile
  intent : r.intent ∉ p.policy.intents → SingleLine r.intent
  domain : r.domain ∉ p.policy.domains → SingleLine r.domain

section

variable {r : Request} {p : ResolvedPolicy} {startedAt finishedAt : Timestamp}

theorem singleLine_heuristics (signals : Payload.Signals) :
    SingleLine (", ".intercalate (signals.fired.map Heuristic.name)) := by
  have hname : ∀ text ∈ signals.fired.map Heuristic.name, SingleLine text := by
    intro text htext
    obtain ⟨heuristic, -, rfl⟩ := List.mem_map.mp htext
    cases heuristic <;> exact Report.singleLine_ofList (by decide)
  exact Report.singleLine_intercalate (Report.singleLine_ofList (by decide)) hname

theorem singleLine_message (h : ShownOnOneLine r p) {q : Predicate}
    (hq : ¬ q.Condition r p.policy) : SingleLine (q.finding r p.policy).message := by
  have hexcess (field bound value limit : String) (hfield : SingleLine field)
      (hbound : SingleLine bound) (hvalue : SingleLine value) (hlimit : SingleLine limit) :
      SingleLine (field ++ " " ++ value ++ " exceeds " ++ bound ++ " " ++ limit) := by
    simp only [Report.singleLine_append]
    exact ⟨⟨⟨⟨⟨⟨hfield, by decide⟩, hvalue⟩, by decide⟩, hbound⟩, by decide⟩, hlimit⟩
  have hamount := Report.singleLine_signedDecimal
  cases q with
  | pauseBeforePropagate =>
    show SingleLine "request did not attest a pause before propagating"
    exact Report.singleLine_ofList (by decide)
  | intentAllowed => exact Report.singleLine_between (by decide) (h.intent hq) (by decide)
  | domainAllowed => exact Report.singleLine_between (by decide) (h.domain hq) (by decide)
  | ttlWithinLimit => exact hexcess _ _ _ _ (by decide) (by decide) (hamount _) (hamount _)
  | childrenWithinLimit => exact hexcess _ _ _ _ (by decide) (by decide) (hamount _) (hamount _)
  | concurrencyWithinLimit => exact hexcess _ _ _ _ (by decide) (by decide) (hamount _) (hamount _)
  | rateWithinLimit =>
    exact hexcess _ _ _ _ (by decide) (by decide) (Report.singleLine_plain _)
      (Report.singleLine_plain _)
  | ttlPositive => exact Report.singleLine_between (by decide) (hamount _) (by decide)
  | notEncodedPayload =>
    show SingleLine ("payload looks encoded (" ++ ", ".intercalate _ ++ ")")
    exact Report.singleLine_between (by decide) (singleLine_heuristics _) (by decide)

theorem onOneLine_entry (h : ShownOnOneLine r p) {q : Predicate}
    (hq : ¬ q.Condition r p.policy) :
    Report.Entry.OnOneLine ⟨(q.finding r p.policy).predicate, (q.finding r p.policy).code,
      (q.finding r p.policy).message, (q.finding r p.policy).help⟩ := by
  have hid : SingleLine q.id := by cases q <;> exact Report.singleLine_ofList (by decide)
  have hcode (c : Code) : SingleLine c.name := by
    cases c <;> exact Report.singleLine_ofList (by decide)
  have hhelp (text : String) (htext : SingleLine text) : ∀ help ∈ some text, SingleLine help := by
    rintro _ ⟨rfl⟩
    exact htext
  refine ⟨?_, ?_, singleLine_message h hq, ?_⟩
  · show SingleLine (q.finding r p.policy).predicate
    rwa [finding_predicate]
  · cases q <;> exact hcode _
  · cases q <;> exact hhelp _ (Report.singleLine_ofList (by decide))

theorem onOneLine_report (h : ShownOnOneLine r p) :
    (Report.ofReceipt (Receipt.ofDecision (evaluate r p.policy) p startedAt
      finishedAt)).OnOneLine := by
  refine ⟨h.name, h.profile, fun e he => ?_⟩
  obtain ⟨f, hf, rfl⟩ := List.mem_map.mp he
  obtain ⟨q, rfl, hq⟩ := exists_of_mem_findings hf
  exact onOneLine_entry h hq

theorem length_lines_toText_iff {report : Report} :
    (Text.lines (report.toText false)).length = 2 ↔ SingleLine report.summary.policy := by
  have hlabel : Text.lines ("Policy Decision: " ++ report.verdict.label ++ "\n") =
      ["Policy Decision: " ++ report.verdict.label] :=
    Text.lines_of_single (Report.singleLine_append.mpr ⟨by decide, Report.singleLine_label _⟩)
  rw [Report.toText_false_eq, Text.lines_ended]
  unfold Report.headerRows SingleLine
  rw [List.flatMap_cons, List.flatMap_singleton, hlabel, List.length_append, Text.length_lines_row,
    ← List.count_eq_zero]
  have hcount : ("Policy: " ++ report.summary.policy).toList.count '\n' =
      report.summary.policy.toList.count '\n' := by
    rw [String.toList_append, List.count_append]
    exact Nat.zero_add _
  rw [hcount, List.length_singleton]
  omega

theorem keepsLines_ofDecision (h : ShownOnOneLine r p) :
    (Receipt.ofDecision (evaluate r p.policy) p startedAt finishedAt).KeepsLines := by
  have hreport : (Report.ofReceipt (Receipt.ofDecision (evaluate r p.policy) p startedAt
      finishedAt)).OnOneLine := onOneLine_report h
  have hheader := Report.singleLine_headerRows hreport.policy
  have hfailed : (evaluate r p.policy).findings.map Finding.predicate =
      (evaluate r p.policy).failed.map Predicate.id := findings_predicates
  -- Findings name the failed predicates in order, so their rows are those of the failed ids.
  refine ⟨?_, ?_, ?_⟩
  · rw [Report.toText_false_eq]
    exact Text.lines_ended_of_single hheader
  · have hrows := List.forall_mem_append.mpr
      ⟨hheader, Report.singleLine_explanationRows hreport⟩
    unfold Text.linesFrom
    rw [Report.toText_true_eq, Text.lines_ended_of_single hrows, Report.filter_explainedRows]
    show List.Forall₂ _ (((evaluate r p.policy).findings.map _).map _)
      ((evaluate r p.policy).failed.map Predicate.id)
    rw [← hfailed, List.map_map, List.forall₂_map_left_iff, List.forall₂_map_right_iff,
      List.forall₂_same]
    intro f _
    show _ <+: ("  - " ++ f.predicate ++ ": " ++ f.message).toList
    have hline : ("  - " ++ f.predicate ++ ": " ++ f.message).toList =
        ("  - " ++ f.predicate ++ ": ").toList ++ f.message.toList := String.toList_append
    rw [hline]
    exact List.prefix_append _ _
  · unfold Text.linesFrom
    rw [Report.toMarkdown_eq, Text.lines_ended_of_single (Report.singleLine_markdownRows hreport),
      Report.filter_markdownRows]
    show ((evaluate r p.policy).findings.map _).map _ =
      ((evaluate r p.policy).failed.map Predicate.id).map _
    rw [← hfailed, List.map_map, List.map_map]
    rfl

end

/-- The reports of an evaluation have the lines that the decision calls for whenever nothing that
they show has a line break, whatever the payload holds.  A text without explanation has two lines
just when the name of the policy has no line break. -/
theorem unbroken_texts_keep_lines (r : Request) (p : ResolvedPolicy)
    (startedAt finishedAt : Timestamp) :
    (ShownOnOneLine r p →
      (Receipt.ofDecision (evaluate r p.policy) p startedAt finishedAt).KeepsLines) ∧
    ((Text.lines ((Report.ofReceipt (Receipt.ofDecision (evaluate r p.policy) p startedAt
      finishedAt)).toText false)).length = 2 ↔ SingleLine p.name) :=
  ⟨keepsLines_ofDecision, length_lines_toText_iff⟩

/-- A request whose intent and domain imitate lines of a report.  Only its payload has line
breaks. -/
def imitatingRequest : Request where
  intent := "  - ttl_positive: 0"
  domain := "### `ttl_positive`"
  ttl := 1
  payload := some "%0A\n  - ttl_positive: 0\n"
  pauseAttested := true

/-- A policy whose name and profile imitate lines of a report. -/
def imitatingPolicy : ResolvedPolicy where
  name := "Policy Decision: ALLOW"
  profile := some "All 9 predicates passed."
  policy := { limits := { maxTtl := 1 }, enforceEncodedPayload := true }

/-- Three predicates fail, and the reports show the intent and the domain but have no line more. -/
theorem imitating_texts_keep_lines :
    (evaluate imitatingRequest imitatingPolicy.policy).failed =
      [.intentAllowed, .domainAllowed, .notEncodedPayload] ∧
    ShownOnOneLine imitatingRequest imitatingPolicy ∧
      (Receipt.ofDecision (evaluate imitatingRequest imitatingPolicy.policy) imitatingPolicy
        leapDay leapDay).KeepsLines := by
  have h : ShownOnOneLine imitatingRequest imitatingPolicy := by
    refine ⟨Report.singleLine_ofList (by decide), ?_, fun _ => ?_, fun _ => ?_⟩
    · rintro _ ⟨rfl⟩
      exact Report.singleLine_ofList (by decide)
    · exact Report.singleLine_ofList (by decide)
    · exact Report.singleLine_ofList (by decide)
  exact ⟨by decide +kernel, h,
    (unbroken_texts_keep_lines imitatingRequest imitatingPolicy leapDay leapDay).1 h⟩

/-- A request whose intent goes on with lines like those of a report. -/
def forgingRequest : Request where
  intent := "x\n  - ttl_positive: 0\n### `ttl_positive`"
  domain := "github.com"
  ttl := 1
  pauseAttested := true

/-- A policy whose name goes on with a line like those of a report. -/
def forgedPolicy : ResolvedPolicy where
  name := "open\nPolicy Decision: ALLOW"
  profile := none
  policy := { domains := .ofList ["github.com"], limits := { maxTtl := 1 } }

def forgedReceipt : Receipt :=
  Receipt.ofDecision (evaluate forgingRequest forgedPolicy.policy) forgedPolicy leapDay leapDay

theorem entries_forgedReceipt : (Report.ofReceipt forgedReceipt).entries =
    [⟨"intent_allowed", "intent_not_allowlisted",
      "intent 'x\n  - ttl_positive: 0\n### `ttl_positive`' is not in the wholesome intents " ++
        "allowlist",
      some "Declare an allowlisted intent, or ask the policy owner to add this one."⟩] := by
  decide +kernel

/-- A broken name adds a line to a text, and a broken intent adds an entry to an explained text and
a section to Markdown. -/
theorem broken_texts_forge_lines :
    forgedReceipt.failed = ["intent_allowed"] ∧
    Text.lines ((Report.ofReceipt forgedReceipt).toText false) =
      ["Policy Decision: DENY", "Policy: open", "Policy Decision: ALLOW"] ∧
    Text.linesFrom "  - " ((Report.ofReceipt forgedReceipt).toText true) =
      ["  - intent_allowed: intent 'x", "  - ttl_positive: 0"] ∧
    Text.linesFrom "###" (Report.ofReceipt forgedReceipt).toMarkdown =
      ["### `intent_allowed`", "### `ttl_positive`' is not in the wholesome intents allowlist"] ∧
    ¬ forgedReceipt.KeepsLines := by
  have hplain : Text.lines ((Report.ofReceipt forgedReceipt).toText false) =
      ["Policy Decision: DENY", "Policy: open", "Policy Decision: ALLOW"] := by
    rw [Report.toText_false_eq, Text.lines_ended]
    decide +kernel
  refine ⟨by decide +kernel, hplain, ?_, ?_, fun h => ?_⟩
  · unfold Text.linesFrom
    rw [Report.toText_true_eq, Text.lines_ended]
    unfold Report.explanationRows
    rw [entries_forgedReceipt]
    decide +kernel
  · unfold Text.linesFrom
    rw [Report.toMarkdown_eq, Text.lines_ended]
    unfold Report.markdownRows
    rw [entries_forgedReceipt]
    decide +kernel
  · have hlength := congrArg List.length (hplain.symm.trans h.plain)
    exact absurd hlength (by decide)

end AdmissionGate

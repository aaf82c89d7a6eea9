import AdmissionGate.Command.Gate
import AdmissionGate.Proofs.Check
import AdmissionGate.Proofs.Consistency
import AdmissionGate.Proofs.Files.Session
import AdmissionGate.Proofs.Receipt.RoundTrip
import AdmissionGate.Proofs.Text.Lines

/-!
# Proofs/Command/Gate — what a check leaves behind

Up to its verdict a check only writes to its log.  So an error before that leaves the files and the
output as they were, and what has been read is what the files held at the start.
-/

namespace AdmissionGate

/-! ## 1. What a check reads -/

namespace Session

variable {s s' s'' : Session} {policy path : String}

def HasFile (s : Session) (path : String) : Prop :=
  ∃ entry, s.files.find s.workingDirectory path = .ok entry ∧ entry.kind = .file

/-- Holds of what a policy argument stands for: a file, whose format follows its name, or a preset
where there is no file of that name. -/
inductive ReadsPolicy (s : Session) (policy : String) : PolicySource → Prop
  | file {text : String} : s.files.read s.workingDirectory policy = .ok text →
      ReadsPolicy s policy (.text text (.ofFileName policy))
  | preset : ¬ s.HasFile policy → policy ∈ Preset.names → ReadsPolicy s policy (.preset policy)

inductive ReadsRequest (s : Session) : RequestSource → String → Prop
  | text (text : String) : ReadsRequest s (.text text) text
  | file {path text : String} : s.files.read s.workingDirectory path = .ok text →
      ReadsRequest s (.file path) text
  | input {text : String} : s.readInput = .ok text → ReadsRequest s .input text

/-- Holds of the outputs that the check of the texts read can have, at times of the clock. -/
def Decides (s : Session) (a : CheckArguments) (output : CheckOutput) : Prop :=
  ∃ policy, s.ReadsPolicy a.policy policy ∧ ∃ request, s.ReadsRequest a.request request ∧
    ∃ startedAt, s.Shows startedAt ∧ ∃ finishedAt, s.Shows finishedAt ∧
      runCheck ⟨policy, request, a.flags⟩ startedAt finishedAt = .ok output

theorem hasFile_of_read {text : String} (h : s.files.read s.workingDirectory path = .ok text) :
    s.HasFile path :=
  ⟨.file text, FileTree.find_of_read h, rfl⟩

theorem ReadsPolicy.unique {source source' : PolicySource} (h : s.ReadsPolicy policy source)
    (h' : s.ReadsPolicy policy source') : source = source' := by
  cases h with
  | file hread =>
    cases h' with
    | file hread' => rw [Except.ok.inj (hread.symm.trans hread')]
    | preset hnone => exact absurd (hasFile_of_read hread) hnone
  | preset hnone =>
    cases h' with
    | file hread' => exact absurd (hasFile_of_read hread') hnone
    | preset => rfl

theorem ReadsRequest.unique {source : RequestSource} {text text' : String}
    (h : s.ReadsRequest source text) (h' : s.ReadsRequest source text') : text = text' := by
  cases h with
  | text => cases h' with | text => rfl
  | file hread => cases h' with | file hread' => exact Except.ok.inj (hread.symm.trans hread')
  | input hread => cases h' with | input hread' => exact Except.ok.inj (hread.symm.trans hread')

/-! ## 2. Programs that only write to the log -/

/-- Holds of two sessions when the second is the first after rows of the log, and later. -/
structure Logs (s s' : Session) : Prop where
  files : s'.files = s.files
  workingDirectory : s'.workingDirectory = s.workingDirectory
  readInput : s'.readInput = s.readInput
  output : s'.output = s.output
  errorOutput : ∃ rows, s'.errorOutput = s.errorOutput ++ Text.ended rows
  shows : ∀ time, s'.Shows time → s.Shows time

theorem Logs.refl (s : Session) : s.Logs s :=
  ⟨rfl, rfl, rfl, rfl, ⟨[], String.append_empty.symm⟩, fun _ => id⟩

theorem Logs.trans (h : s.Logs s') (h' : s'.Logs s'') : s.Logs s'' := by
  obtain ⟨rows, hrows⟩ := h.errorOutput
  obtain ⟨rows', hrows'⟩ := h'.errorOutput
  refine ⟨h'.files.trans h.files, h'.workingDirectory.trans h.workingDirectory,
    h'.readInput.trans h.readInput, h'.output.trans h.output, ⟨rows ++ rows', ?_⟩,
    fun time htime => h.shows time (h'.shows time htime)⟩
  rw [hrows', hrows, Text.ended_append, String.append_assoc]

theorem logs_readClock (s : Session) : s.Logs s.readClock.2 := by
  have hshows (time : Timestamp) : s.readClock.2.Shows time → s.Shows time :=
    shows_of_shows_readClock
  unfold readClock at hshows ⊢
  revert hshows
  cases s.later <;> exact fun hshows =>
    ⟨rfl, rfl, rfl, rfl, ⟨[], String.append_empty.symm⟩, hshows⟩

theorem exists_line_eq_ended (e : LogEvent) (time : String) :
    ∃ row, e.line time = Text.ended [row] :=
  ⟨_, (Text.ended_singleton _).symm⟩

theorem logs_write (verbose : Bool) (e : LogEvent) (s : Session) :
    s.Logs ((LogEvent.write (m := StateM Session) verbose e).run s).2 := by
  cases verbose with
  | false => exact Logs.refl s
  | true =>
    obtain ⟨row, hrow⟩ := exists_line_eq_ended e (LogEvent.timeText s.readClock.1)
    have hclock := logs_readClock s
    have htold : s.readClock.2.Logs { s.readClock.2 with
        errorOutput := s.readClock.2.errorOutput ++ Text.ended [row] } :=
      ⟨rfl, rfl, rfl, rfl, ⟨[row], rfl⟩, fun _ => id⟩
    rw [← hrow] at htold
    exact hclock.trans htold

theorem logs_writeAll (verbose : Bool) (events : List LogEvent) (s : Session) :
    s.Logs ((LogEvent.writeAll (m := StateM Session) verbose events).run s).2 := by
  induction events generalizing s with
  | nil => exact Logs.refl s
  | cons e events ih =>
    have hfirst := logs_write verbose e s
    exact hfirst.trans (ih ((LogEvent.write (m := StateM Session) verbose e).run s).2)

end Session

namespace Gate

open Session (Logs)

variable {s : Session} {α β : Type}

section

variable {x : ExceptT CommandError (StateM Session) α}
  {f : α → ExceptT CommandError (StateM Session) β} {s' : Session}

theorem run_bind_of_ok {a : α} (h : x.run.run s = (.ok a, s')) :
    (x >>= f).run.run s = (f a).run.run s' := by
  rw [ExceptT.run_bind, StateT.run_bind, h]
  rfl

theorem run_bind_of_error {e : CommandError} (h : x.run.run s = (.error e, s')) :
    (x >>= f).run.run s = (.error e, s') := by
  rw [ExceptT.run_bind, StateT.run_bind, h]
  rfl

end

/-- Holds of a program that, wherever it starts with nothing done but logging, does nothing but
logging, and finds the value that a property singles out, or fails when there is none. -/
def Settles (s : Session) (program : ExceptT CommandError (StateM Session) α) (P : α → Prop) :
    Prop :=
  ∀ s₁, s.Logs s₁ → ∃ s₂, s.Logs s₂ ∧
    ((∃ x, program.run.run s₁ = (.ok x, s₂) ∧ P x) ∨
      (∃ e, program.run.run s₁ = (.error e, s₂)) ∧ ∀ x, ¬ P x)

namespace Settles

theorem pure {P : α → Prop} {x : α} (h : P x) : Settles s (pure x) P :=
  fun s₁ hs => ⟨s₁, hs, .inl ⟨x, rfl, h⟩⟩

theorem throw {P : α → Prop} (e : CommandError) (h : ∀ x, ¬ P x) : Settles s (throw e) P :=
  fun s₁ hs => ⟨s₁, hs, .inr ⟨⟨e, rfl⟩, h⟩⟩

theorem bind {x : ExceptT CommandError (StateM Session) α}
    {f : α → ExceptT CommandError (StateM Session) β} {P : α → Prop} {Q : α → β → Prop}
    (hx : Settles s x P) (hunique : ∀ a a', P a → P a' → a = a')
    (hf : ∀ a, P a → Settles s (f a) (Q a)) :
    Settles s (x >>= f) fun b => ∃ a, P a ∧ Q a b := by
  intro s₁ hs₁
  obtain ⟨s₂, hs₂, ⟨a, hrun, ha⟩ | ⟨⟨e, hrun⟩, hnone⟩⟩ := hx s₁ hs₁
  · obtain ⟨s₃, hs₃, hresult⟩ := hf a ha s₂ hs₂
    refine ⟨s₃, hs₃, ?_⟩
    rw [run_bind_of_ok hrun]
    refine hresult.imp ?_ ?_
    · rintro ⟨b, hb, hq⟩
      exact ⟨b, hb, a, ha, hq⟩
    · rintro ⟨he, hnone⟩
      refine ⟨he, ?_⟩
      rintro b ⟨a', ha', hq⟩
      exact hnone b (hunique a' a ha' ha ▸ hq)
  · refine ⟨s₂, hs₂, .inr ⟨⟨e, run_bind_of_error hrun⟩, ?_⟩⟩
    rintro b ⟨a, ha, -⟩
    exact hnone a ha

section

variable {f : α → ExceptT CommandError (StateM Session) β} {P : β → Prop}

/-- A step that cannot fail and does nothing but logging comes before the rest. -/
theorem after {step : StateM Session α} (R : α → Prop)
    (hstep : ∀ s₁, s.Logs s₁ → s₁.Logs (step.run s₁).2 ∧ R (step.run s₁).1)
    (hf : ∀ a, R a → Settles s (f a) P) : Settles s (liftM step >>= f) P := by
  intro s₁ hs₁
  obtain ⟨hlogs, hresult⟩ := hstep s₁ hs₁
  exact hf _ hresult _ (hs₁.trans hlogs)

end

section

variable {P : α → Prop} {path : String}

theorem log {rest : Unit → ExceptT CommandError (StateM Session) α} (verbose : Bool) (e : LogEvent)
    (hrest : Settles s (rest ()) P) :
    Settles s (liftM (LogEvent.write (m := StateM Session) verbose e) >>= rest) P :=
  after (fun _ => True) (fun s₁ _ => ⟨Session.logs_write verbose e s₁, trivial⟩) fun _ _ => hrest

theorem logAll {rest : Unit → ExceptT CommandError (StateM Session) α} (verbose : Bool)
    (events : List LogEvent) (hrest : Settles s (rest ()) P) :
    Settles s (liftM (LogEvent.writeAll (m := StateM Session) verbose events) >>= rest) P :=
  after (fun _ => True) (fun s₁ _ => ⟨Session.logs_writeAll verbose events s₁, trivial⟩)
    fun _ _ => hrest

theorem now {rest : Timestamp → ExceptT CommandError (StateM Session) α}
    (hrest : ∀ time, s.Shows time → Settles s (rest time) P) :
    Settles s (liftM (Host.now (m := StateM Session)) >>= rest) P :=
  after s.Shows
    (fun s₁ hs₁ => ⟨Session.logs_readClock s₁, hs₁.shows _ (Session.shows_readClock s₁)⟩) hrest

theorem read {rest : Except FileError String → ExceptT CommandError (StateM Session) α}
    (hrest : Settles s (rest (s.files.read s.workingDirectory path)) P) :
    Settles s (liftM (Host.read (m := StateM Session) path) >>= rest) P := by
  refine after (· = s.files.read s.workingDirectory path) (fun s₁ hs₁ => ⟨Logs.refl s₁, ?_⟩) ?_
  · show s₁.files.read s₁.workingDirectory path = _
    rw [hs₁.files, hs₁.workingDirectory]
  · rintro _ rfl
    exact hrest

theorem readInput {rest : Except FileError String → ExceptT CommandError (StateM Session) α}
    (hrest : Settles s (rest s.readInput) P) :
    Settles s (liftM (Host.input (m := StateM Session)) >>= rest) P := by
  refine after (· = s.readInput) (fun s₁ hs₁ => ⟨Logs.refl s₁, hs₁.readInput⟩) ?_
  rintro _ rfl
  exact hrest

theorem isFile {rest : Bool → ExceptT CommandError (StateM Session) α}
    (hfile : s.HasFile path → Settles s (rest true) P)
    (hnone : ¬ s.HasFile path → Settles s (rest false) P) :
    Settles s (liftM (Host.isFile (m := StateM Session) path) >>= rest) P := by
  refine after (fun found => found = true ↔ s.HasFile path) (fun s₁ hs₁ => ⟨Logs.refl s₁, ?_⟩) ?_
  · show (((s₁.files.find s₁.workingDirectory path).toOption.map Entry.kind) == some .file) =
      true ↔ _
    rw [hs₁.files, hs₁.workingDirectory]
    unfold Session.HasFile
    cases s.files.find s.workingDirectory path with
    | error e => simp [Except.toOption]
    | ok entry => simp [Except.toOption]
  · intro found hfound
    cases found with
    | true => exact hfile (hfound.mp rfl)
    | false => exact hnone (mt hfound.mpr Bool.noConfusion)

end

end Settles

theorem settles_readPolicy (verbose : Bool) (policy : String) :
    Settles s (readPolicy verbose policy) (s.ReadsPolicy policy) := by
  -- A file goes before a preset of its name.
  refine Settles.isFile (fun hfile => ?_) fun hnone => ?_
  · refine Settles.log verbose _ (Settles.read ?_)
    cases hread : s.files.read s.workingDirectory policy with
    | ok text => exact Settles.pure (.file hread)
    | error e =>
      refine Settles.throw _ fun source hsource => ?_
      cases hsource with
      | file hread' => cases hread.symm.trans hread'
      | preset hnone => exact hnone hfile
  · show Settles s (if policy ∈ Preset.names then _ else _) _
    by_cases hpreset : policy ∈ Preset.names
    · rw [if_pos hpreset]
      exact Settles.log verbose _ (Settles.pure (.preset hnone hpreset))
    · rw [if_neg hpreset]
      refine Settles.throw _ fun source hsource => ?_
      cases hsource with
      | file hread => exact hnone (Session.hasFile_of_read hread)
      | preset _ hpreset' => exact hpreset hpreset'

theorem settles_readRequest (verbose : Bool) (source : RequestSource) :
    Settles s (readRequest verbose source) (s.ReadsRequest source) := by
  -- A text given as such is not looked for, so only files and input can fail.
  cases source with
  | text text => exact Settles.pure (.text text)
  | file path =>
    refine Settles.log verbose _ (Settles.read ?_)
    cases hread : s.files.read s.workingDirectory path with
    | ok text => exact Settles.pure (.file hread)
    | error e =>
      refine Settles.throw _ fun text htext => ?_
      cases htext with
      | file hread' => cases hread.symm.trans hread'
  | input =>
    refine Settles.log verbose _ (Settles.readInput ?_)
    cases hread : s.readInput with
    | ok text => exact Settles.pure (.input hread)
    | error e =>
      refine Settles.throw _ fun text htext => ?_
      cases htext with
      | input hread' => cases hread.symm.trans hread'

theorem settles_settle (verbose : Bool) (a : CheckArguments) :
    Settles s (settle verbose a) (s.Decides a) := by
  refine Settles.bind (settles_readPolicy verbose a.policy)
    (fun _ _ => Session.ReadsPolicy.unique) fun policy _ => ?_
  refine Settles.bind (settles_readRequest verbose a.request)
    (fun _ _ => Session.ReadsRequest.unique) fun request _ => ?_
  refine Settles.now fun startedAt hstarted => Settles.logAll verbose _ ?_
  cases hdecide : decideCheck ⟨policy, request, a.flags⟩ with
  | ok ruling =>
    refine Settles.now fun finishedAt hfinished => Settles.pure ?_
    exact ⟨startedAt, hstarted, finishedAt, hfinished,
      runCheck_eq_ok_iff_ruling.mpr ⟨ruling, hdecide, rfl⟩⟩
  | error e =>
    -- No time makes up for a broken request.
    refine Settles.throw _ ?_
    rintro output ⟨startedAt', -, finishedAt', -, houtput⟩
    obtain ⟨ruling, hruling, -⟩ := runCheck_eq_ok_iff_ruling.mp houtput
    cases hdecide.symm.trans hruling

/-! ## 3. Reports -/

theorem run_lift_bind (step : StateM Session α)
    (f : α → ExceptT CommandError (StateM Session) β) :
    (liftM step >>= f).run = step >>= fun a => (f a).run := rfl

theorem onlyFiles_makeReportDirectory (path : String) :
    Session.OnlyFiles (makeReportDirectory (m := StateM Session) path).run := by
  unfold makeReportDirectory
  cases Path.parents path with
  | nil => exact .of_unchanged fun _ => rfl
  | cons directory around =>
    dsimp only
    rw [run_lift_bind]
    refine (Session.OnlyFiles.makeDirectories (directory :: around)).bind fun result => ?_
    cases result <;> exact .of_unchanged fun _ => rfl

/-- Reports touch nothing but the files, and one that has been written can be read. -/
theorem run_writeReport (path : String) (receipt : Receipt) (s : Session) :
    ∃ files, ((writeReport (m := StateM Session) path receipt).run.run s).2 = { s with files } ∧
      (((writeReport (m := StateM Session) path receipt).run.run s).1 = .ok () →
        ∃ text, receipt.serialize? = some text ∧
          files.read s.workingDirectory path = .ok text) := by
  obtain ⟨files, hfiles⟩ := onlyFiles_makeReportDirectory path s
  unfold writeReport
  -- Making the directories changes files only, and nothing is written where it fails.
  cases hrun : (makeReportDirectory (m := StateM Session) path).run.run s with
  | mk result s₁ =>
    rw [hrun] at hfiles
    replace hfiles : s₁ = { s with files } := hfiles
    subst hfiles
    cases result with
    | error e =>
      rw [run_bind_of_error hrun]
      exact ⟨files, rfl, fun hok => nomatch hok⟩
    | ok =>
      rw [run_bind_of_ok hrun]
      cases hserialize : receipt.serialize? with
      | none => exact ⟨files, rfl, fun hok => nomatch hok⟩
      | some text =>
        have hstep : (Host.write (m := StateM Session) path text).run { s with files } =
            { s with files }.update (files.write s.workingDirectory path text) := rfl
        dsimp only
        rw [run_lift_bind, StateT.run_bind, hstep]
        cases hwrite : files.write s.workingDirectory path text with
        | error e => exact ⟨files, rfl, fun hok => nomatch hok⟩
        | ok files' => exact ⟨files', rfl, fun _ => ⟨text, rfl, FileTree.read_of_write hwrite⟩⟩

/-- Where the file of a report could be written, the directories around it are there. -/
theorem run_makeReportDirectory_of_locate {path : String} {names : List String} {s : Session}
    (h : s.files.locate s.workingDirectory path = .ok names) :
    (makeReportDirectory (m := StateM Session) path).run.run s = (.ok (), s) := by
  unfold makeReportDirectory
  cases hparents : Path.parents path with
  | nil => rfl
  | cons directory around =>
    obtain ⟨names', hlocate, hdirectory⟩ := FileTree.locate_parent hparents h
    have hrun := Session.run_makeDirectories_of_directory hlocate hdirectory around
    dsimp only
    rw [run_lift_bind, StateT.run_bind, hrun]
    rfl

/-- A report is written where a file could be, if it has a text. -/
theorem run_writeReport_of_write {path text text' : String} {receipt : Receipt} {s : Session}
    {files : FileTree} (htext : receipt.serialize? = some text)
    (h : s.files.write s.workingDirectory path text' = .ok files) :
    ((writeReport (m := StateM Session) path receipt).run.run s).1 = .ok () := by
  obtain ⟨names, hlocate, hslash, hfile, -⟩ := FileTree.write_eq_ok h
  have hwrite := FileTree.write_of_locate hlocate hslash hfile text
  have hstep : (Host.write (m := StateM Session) path text).run s =
      s.update (s.files.write s.workingDirectory path text) := rfl
  -- No directory is missing, so the files are still as they were when the text is written.
  unfold writeReport
  rw [run_bind_of_ok (run_makeReportDirectory_of_locate hlocate), htext]
  dsimp only
  rw [run_lift_bind, StateT.run_bind, hstep, hwrite]
  rfl

theorem run_writeReport? (a : CheckArguments) (receipt : Receipt) (s : Session) :
    ∃ files, ((writeReport? (m := StateM Session) a receipt).run.run s).2 = { s with files } ∧
      (a.report = none → files = s.files) ∧
      (((writeReport? (m := StateM Session) a receipt).run.run s).1 = .ok () →
        ∀ path ∈ a.report, ∃ text, receipt.serialize? = some text ∧
          files.read s.workingDirectory path = .ok text) := by
  unfold writeReport?
  cases a.report with
  | none => exact ⟨s.files, rfl, fun _ => rfl, fun _ path hpath => nomatch hpath⟩
  | some path =>
    obtain ⟨files, hfiles, hread⟩ := run_writeReport path receipt s
    refine ⟨files, hfiles, fun hnone => (nomatch hnone), fun hok path' hpath => ?_⟩
    rw [← Option.some.inj hpath]
    exact hread hok

theorem run_showReceipt_of_ok {a : CheckArguments} {receipt : Receipt} {text : String}
    (h : receipt.render a.explain a.format = .ok text) (s : Session) :
    (showReceipt (m := StateM Session) a receipt).run.run s =
      (.ok receipt.verdict.exitCode, { s with output := s.output ++ text }) := by
  unfold showReceipt
  rw [h]
  rfl

theorem run_showReceipt_of_error {a : CheckArguments} {receipt : Receipt} {e : RenderError}
    (h : receipt.render a.explain a.format = .error e) (s : Session) :
    (showReceipt (m := StateM Session) a receipt).run.run s = (.error (.render e), s) := by
  unfold showReceipt
  rw [h]
  rfl

end Gate

/-! ## 4. The contract -/

namespace Session

/-- Holds when writing a receipt to a path fails, after nothing but logging. -/
def CannotReport (s : Session) (path : String) (receipt : Receipt) : Prop :=
  ∃ s', s.Logs s' ∧
    ∃ e, ((Gate.writeReport (m := StateM Session) path receipt).run.run s').1 = .error e

/-- Holds when the error output has got a line that starts like those of errors. -/
def TellsError (s s' : Session) : Prop :=
  ∃ told, s'.errorOutput = s.errorOutput ++ told ∧ Text.linesFrom "fogguard error:" told ≠ []

end Session

namespace Gate

/-- The ways in which a check can end. -/
inductive Ends (a : CheckArguments) (s : Session) : Except CommandError UInt32 × Session → Prop
  | undecided {s' : Session} (e : CommandError) : s.Logs s' → (∀ output, ¬ s.Decides a output) →
      Ends a s (.error e, s')
  | lost {s' : Session} {output : CheckOutput} (e : CommandError) (files : FileTree) :
      s.Logs s' → s.Decides a output →
      (∃ path ∈ a.report, s.CannotReport path output.receipt) ∨
        (∃ error, output.receipt.render a.explain a.format = .error error) →
      Ends a s (.error e, { s' with files })
  | shown {s' : Session} {output : CheckOutput} {text : String} {files : FileTree} :
      s.Logs s' → s.Decides a output → output.receipt.render a.explain a.format = .ok text →
      (a.report = none → files = s.files) →
      (∀ path ∈ a.report, ∃ text, output.receipt.serialize? = some text ∧
        files.read s.workingDirectory path = .ok text) →
      Ends a s (.ok output.receipt.verdict.exitCode,
        { s' with files, output := s'.output ++ text })

theorem cannotReport_of_error {a : CheckArguments} {s s' : Session} {receipt : Receipt}
    {e : CommandError} (hlogs : s.Logs s')
    (h : ((writeReport? (m := StateM Session) a receipt).run.run s').1 = .error e) :
    ∃ path ∈ a.report, s.CannotReport path receipt := by
  unfold writeReport? at h
  cases hpath : a.report with
  | none =>
    rw [hpath] at h
    cases h
  | some path =>
    rw [hpath] at h
    exact ⟨path, rfl, s', hlogs, e, h⟩

theorem ends_check (verbose : Bool) (a : CheckArguments) (s : Session) :
    Ends a s ((check (m := StateM Session) verbose a).run.run s) := by
  unfold check
  obtain ⟨s₁, hs₁, ⟨output, hrun, hdecides⟩ | ⟨⟨e, hrun⟩, hnone⟩⟩ :=
    settles_settle verbose a s (Session.Logs.refl s)
  -- Once there is a decision, only the report and the rendering can fail.
  · rw [run_bind_of_ok hrun]
    obtain ⟨files, hfiles, hunchanged, hread⟩ := run_writeReport? a output.receipt s₁
    cases hreport : (writeReport? (m := StateM Session) a output.receipt).run.run s₁ with
    | mk result s₂ =>
      rw [hreport] at hfiles hread
      replace hfiles : s₂ = { s₁ with files } := hfiles
      subst hfiles
      cases result with
      | error e =>
        rw [run_bind_of_error hreport]
        exact .lost e files hs₁ hdecides (.inl (cannotReport_of_error hs₁ (by rw [hreport])))
      | ok =>
        rw [run_bind_of_ok hreport]
        cases hrender : output.receipt.render a.explain a.format with
        | error error =>
          rw [run_showReceipt_of_error hrender]
          exact .lost _ files hs₁ hdecides (.inr ⟨error, hrender⟩)
        | ok text =>
          rw [run_showReceipt_of_ok hrender]
          rw [hs₁.files] at hunchanged
          rw [hs₁.workingDirectory] at hread
          show Ends a s (_, { s₁ with files, output := s₁.output ++ text })
          exact .shown hs₁ hdecides hrender hunchanged (hread rfl)
  · rw [run_bind_of_error hrun]
    exact .undecided e hs₁ hnone

end Gate

/-- What a check promises of its exit code and of the session that it leaves. -/
structure CheckContract (a : CheckArguments) (s : Session) (code : UInt32) (s' : Session) :
    Prop where
  exits : code = 0 ∨ code = 1 ∨ code = 2
  allows : code = 0 → ∃ output, s.Decides a output ∧ output.receipt.verdict = .allow
  denies : code = 2 → ∃ output, s.Decides a output ∧ output.receipt.verdict = .deny
  /-- Without a verdict nothing is written but the error. -/
  undecided : (∀ output, ¬ s.Decides a output) → code = 1 ∧ s'.files = s.files
  errs : code = 1 → s'.output = s.output ∧ s.TellsError s'
  /-- A verdict is shown whole, after the report that is asked for. -/
  decided : code ≠ 1 → ∃ output, s.Decides a output ∧
    code = output.receipt.verdict.exitCode ∧
    (∃ shown, output.receipt.render a.explain a.format = .ok shown ∧
      s'.output = s.output ++ shown) ∧
    (a.report = none → s'.files = s.files) ∧
    ∀ path ∈ a.report, ∃ text, output.receipt.render a.explain .json = .ok (text ++ "\n") ∧
      s'.files.read s'.workingDirectory path = .ok text
  /-- A verdict is lost only to a report that cannot be written, never where a file could be written
  as things are, or to a clock out of range. -/
  lost : code = 1 → ∀ output, s.Decides a output →
    (∃ path ∈ a.report,
      (∃ output, s.Decides a output ∧ s.CannotReport path output.receipt) ∧
        ∀ text files, s.files.write s.workingDirectory path text ≠ .ok files) ∨
      ∃ time, s.Shows time ∧ ¬ time.Writable

section

variable {a : CheckArguments} {s s' : Session}

theorem tellsError (h : s.Logs s') (e : CommandError) (files : FileTree) :
    s.TellsError { s' with files, errorOutput := s'.errorOutput ++ e.line } := by
  obtain ⟨rows, hrows⟩ := h.errorOutput
  refine ⟨Text.ended rows ++ e.line, ?_, ?_⟩
  · show s'.errorOutput ++ e.line = _
    rw [hrows, String.append_assoc]
  · have hline : Text.linesFrom "fogguard error:" e.line ≠ [] := by
      unfold CommandError.line
      have hspace : "fogguard error: " = "fogguard error:" ++ " " := by decide
      rw [hspace, String.append_assoc, String.append_assoc]
      exact Text.linesFrom_ne_nil (by decide) (by decide)
    unfold Text.linesFrom at hline ⊢
    rw [Text.lines_ended_append, List.filter_append]
    exact List.append_ne_nil_of_right_ne_nil _ hline

theorem toJson?_eq_none_of_render {receipt : Receipt} {explain : Bool} {format : OutputFormat}
    {e : RenderError} (h : receipt.render explain format = .error e) : receipt.toJson? = none := by
  cases hjson : receipt.toJson? with
  | none => rfl
  | some value =>
    cases format <;> simp [Receipt.render, Receipt.serialize?, Receipt.toYaml?, hjson] at h

theorem not_writable_of_toJson? {output : CheckOutput} (h : s.Decides a output)
    (hnone : output.receipt.toJson? = none) : ∃ time, s.Shows time ∧ ¬ time.Writable := by
  obtain ⟨policy, -, request, -, startedAt, hstarted, finishedAt, hfinished, hrun⟩ := h
  have hunwritable := Receipt.toJson?_eq_none_iff.mp hnone
  obtain ⟨_, _, _, _, _, _, _, hreceipt⟩ := decides_of_runCheck hrun
  rw [hreceipt] at hunwritable
  by_cases hwritable : startedAt.Writable
  · exact ⟨finishedAt, hfinished, fun h => hunwritable ⟨hwritable, h⟩⟩
  · exact ⟨startedAt, hstarted, hwritable⟩

theorem write_ne_ok_of_cannotReport {path text : String} {receipt : Receipt}
    (htext : receipt.serialize? = some text) (h : s.CannotReport path receipt) (text' : String)
    (files : FileTree) : s.files.write s.workingDirectory path text' ≠ .ok files := by
  intro hwrite
  obtain ⟨s', hlogs, e, herror⟩ := h
  rw [← hlogs.files, ← hlogs.workingDirectory] at hwrite
  rw [Gate.run_writeReport_of_write htext hwrite] at herror
  cases herror

theorem contract_of_ends {code : UInt32} (h : Gate.Ends a s (.ok code, s')) :
    CheckContract a s code s' := by
  cases h with
  | @shown s₁ output text files hlogs hdecides hrender hunchanged hread =>
    have hverdict : output.receipt.verdict.exitCode ≠ 1 ∧
        (output.receipt.verdict.exitCode = 0 → output.receipt.verdict = .allow) ∧
        (output.receipt.verdict.exitCode = 2 → output.receipt.verdict = .deny) := by
      cases output.receipt.verdict <;> decide
    obtain ⟨hcode, hallow, hdeny⟩ := hverdict
    -- The report holds what is rendered as JSON, less the line break at its end.
    have hreport : ∀ path ∈ a.report, ∃ text,
        output.receipt.render a.explain .json = .ok (text ++ "\n") ∧
          files.read s₁.workingDirectory path = .ok text := by
      intro path hpath
      obtain ⟨text, hserialize, htext⟩ := hread path hpath
      rw [← hlogs.workingDirectory] at htext
      refine ⟨text, ?_, htext⟩
      unfold Receipt.render
      simp only [hserialize]
    exact {
      exits := by cases output.receipt.verdict <;> decide
      allows := fun h => ⟨output, hdecides, hallow h⟩
      denies := fun h => ⟨output, hdecides, hdeny h⟩
      undecided := fun hnone => absurd hdecides (hnone output)
      errs := fun h => absurd h hcode
      decided := fun _ => ⟨output, hdecides, rfl, ⟨text, hrender, by rw [hlogs.output]⟩,
        hunchanged, hreport⟩
      lost := fun h => absurd h hcode }

/-- Where a receipt is lost, a report cannot be written whatever it holds, or a time has no text. -/
theorem losses_of_decides {output : CheckOutput} (hdecides : s.Decides a output)
    (hlost : (∃ path ∈ a.report, s.CannotReport path output.receipt) ∨
      ∃ error, output.receipt.render a.explain a.format = .error error) :
    (∃ path ∈ a.report,
      (∃ output, s.Decides a output ∧ s.CannotReport path output.receipt) ∧
        ∀ text files, s.files.write s.workingDirectory path text ≠ .ok files) ∨
      ∃ time, s.Shows time ∧ ¬ time.Writable := by
  rcases hlost with ⟨path, hpath, hcannot⟩ | ⟨error, herror⟩
  · -- Without a text of the receipt nothing is written, but then it is a time that has none.
    cases htext : output.receipt.serialize? with
    | none => exact .inr (not_writable_of_toJson? hdecides (Option.map_eq_none_iff.mp htext))
    | some text =>
      exact .inl ⟨path, hpath, ⟨output, hdecides, hcannot⟩,
        write_ne_ok_of_cannotReport htext hcannot⟩
  · exact .inr (not_writable_of_toJson? hdecides (toJson?_eq_none_of_render herror))

theorem contract_of_ends_error {e : CommandError} (h : Gate.Ends a s (.error e, s')) :
    CheckContract a s errorExitCode { s' with errorOutput := s'.errorOutput ++ e.line } := by
  have hexits : errorExitCode ≠ 0 ∧ errorExitCode ≠ 2 := by decide
  cases h with
  | undecided _ hlogs hnone =>
    exact {
      exits := .inr (.inl rfl)
      allows := fun h => absurd h hexits.1
      denies := fun h => absurd h hexits.2
      undecided := fun _ => ⟨rfl, hlogs.files⟩
      errs := fun _ => ⟨hlogs.output, tellsError hlogs e _⟩
      decided := fun h => absurd rfl h
      lost := fun _ output hdecides => absurd hdecides (hnone output) }
  | @lost s₁ output _ files hlogs hdecides hlost =>
    exact {
      exits := .inr (.inl rfl)
      allows := fun h => absurd h hexits.1
      denies := fun h => absurd h hexits.2
      undecided := fun hnone => absurd hdecides (hnone output)
      errs := fun _ => ⟨hlogs.output, tellsError hlogs e files⟩
      decided := fun h => absurd rfl h
      lost := fun _ _ _ => losses_of_decides hdecides hlost }

end

theorem contract_of_run (verbose : Bool) (a : CheckArguments) (s : Session) :
    CheckContract a s ((Command.run (m := StateM Session) verbose (.check a)).run s).1
      ((Command.run (m := StateM Session) verbose (.check a)).run s).2 := by
  have hends := Gate.ends_check verbose a s
  unfold Command.run
  dsimp only
  rw [StateT.run_bind]
  cases hrun : (Gate.check (m := StateM Session) verbose a).run.run s with
  | mk result s' =>
    rw [hrun] at hends
    cases result with
    | ok code => exact contract_of_ends hends
    | error e => exact contract_of_ends_error hends

/-- Every check keeps its contract, and so does every command line that is read as a check.  One
that cannot be read exits like an error, and leaves output and files as they were. -/
theorem check_keeps_contract :
    (∀ (verbose : Bool) (a : CheckArguments) (s : Session),
      CheckContract a s ((Command.run (m := StateM Session) verbose (.check a)).run s).1
        ((Command.run (m := StateM Session) verbose (.check a)).run s).2) ∧
    ∀ (arguments : List String) (s : Session),
      (∀ verbose a, Invocation.ofArguments arguments = .ok ⟨verbose, .check a⟩ →
        CheckContract a s ((CommandLine.run (m := StateM Session) arguments).run s).1
          ((CommandLine.run (m := StateM Session) arguments).run s).2) ∧
      ∀ e, Invocation.ofArguments arguments = .error (.usage e) →
        ((CommandLine.run (m := StateM Session) arguments).run s).1 = 1 ∧
        ((CommandLine.run (m := StateM Session) arguments).run s).2.output = s.output ∧
        ((CommandLine.run (m := StateM Session) arguments).run s).2.files = s.files := by
  refine ⟨contract_of_run, fun arguments s => ⟨fun verbose a h => ?_, fun e h => ?_⟩⟩
  · unfold CommandLine.run
    rw [h]
    exact contract_of_run verbose a s
  · unfold CommandLine.run
    rw [h]
    exact ⟨rfl, rfl, rfl⟩

/-- A machine without any file. -/
def bareSession : Session where
  files := .empty
  clock := leapDay

theorem not_decides_absent (output : CheckOutput) :
    ¬ bareSession.Decides { policy := "absent" } output := by
  rintro ⟨source, hsource, -⟩
  cases hsource with
  | file hfile =>
    have hnone : bareSession.files.read bareSession.workingDirectory "absent" =
        .error .notFound := by decide +kernel
    cases hnone.symm.trans hfile
  | preset _ hpreset => exact absurd hpreset (by decide)

/-- A request that every preset admits. -/
def modestText : String :=
  "\x7b\"intent\":\"research\",\"domain\":\"arxiv.org\",\"ttl\":1,\"children\":0," ++
    "\"concurrency\":1,\"rate\":1,\"pauseBeforePropagate\":true\x7d"

/-- Checks the request, tells what happens and writes a report to a directory that is not there. -/
def reportingLine : List String :=
  ["-v", "check", "--policy", "strict", "--data", modestText, "--report-out", "out/receipt.json"]

def reportingArguments : CheckArguments where
  policy := "strict"
  request := .text modestText
  report := some "out/receipt.json"

/-- The exit code of the reporting line and what it leaves of the bare machine. -/
def reported : UInt32 × Session :=
  (CommandLine.run (m := StateM Session) reportingLine).run bareSession

/-- A check that admits a request shows and writes its receipt, a check under a policy that is
missing fails, and so does a command line without a policy. -/
theorem command_lines_keep_contract :
    (Invocation.ofArguments reportingLine = .ok ⟨true, .check reportingArguments⟩ ∧
      reported.1 = 0 ∧ ∃ output, bareSession.Decides reportingArguments output ∧
        output.receipt.verdict = .allow ∧
        output.receipt.render false .text = .ok reported.2.output ∧
        ∃ text, output.receipt.render false .json = .ok (text ++ "\n") ∧
          reported.2.files.read reported.2.workingDirectory "out/receipt.json" = .ok text) ∧
    (Invocation.ofArguments ["check", "--policy", "absent"] =
        .ok ⟨false, .check { policy := "absent" }⟩ ∧
      ((CommandLine.run (m := StateM Session) ["check", "--policy", "absent"]).run
        bareSession).1 = 1) ∧
    Invocation.ofArguments ["check"] = .error (.usage (.missing "--policy")) ∧
      ((CommandLine.run (m := StateM Session) ["check"]).run bareSession).1 = 1 := by
  have hreporting : Invocation.ofArguments reportingLine =
      .ok ⟨true, .check reportingArguments⟩ := by decide +kernel
  have hread : Invocation.ofArguments ["check", "--policy", "absent"] =
      .ok ⟨false, .check { policy := "absent" }⟩ := by decide +kernel
  have husage : Invocation.ofArguments ["check"] = .error (.usage (.missing "--policy")) := by
    decide +kernel
  refine ⟨⟨hreporting, ?_⟩, ⟨hread, ?_⟩, husage,
    ((check_keeps_contract.2 ["check"] bareSession).2 _ husage).1⟩
  · have hcontract : CheckContract reportingArguments bareSession reported.1 reported.2 :=
      (check_keeps_contract.2 reportingLine bareSession).1 _ _ hreporting
    have hcode : reported.1 = 0 := by decide +kernel
    have hdecided : reported.1 ≠ 1 := by
      rw [hcode]
      decide
    obtain ⟨output, hdecides, hexit, ⟨shown, hshown, houtput⟩, -, hreport⟩ :=
      hcontract.decided hdecided
    obtain ⟨text, htext, hfile⟩ := hreport _ rfl
    refine ⟨hcode, output, hdecides, ?_, ?_, text, htext, hfile⟩
    · rw [hcode] at hexit
      revert hexit
      cases output.receipt.verdict <;> decide
    · rw [houtput]
      show _ = Except.ok ("" ++ shown)
      rw [String.empty_append]
      exact hshown
  · have hcontract :=
      (check_keeps_contract.2 ["check", "--policy", "absent"] bareSession).1 _ _ hread
    exact (hcontract.undecided not_decides_absent).1

end AdmissionGate

import AdmissionGate.Files.Session
import AdmissionGate.Proofs.Files.Path

/-!
# Proofs/Files/Session — what operations do to a session

A text that has been written to a path is read back from it: the directories on the way to it are
not what was written.  Making directories touches nothing but the files, and nothing at all where
they stand already.
-/

namespace AdmissionGate

/-! ## 1. Trees -/

namespace FileTree

theorem get?_insert_self (t : FileTree) {names : List String} (hne : names ≠ []) (entry : Entry) :
    (t.insert names entry).get? names = some entry := by
  unfold get? insert
  rw [if_neg hne, List.lookup_cons, beq_self_eq_true]

theorem lookup_filter_ne {names other : List String} (hne : other ≠ names)
    (entries : List (List String × Entry)) :
    (entries.filter (·.1 ≠ names)).lookup other = entries.lookup other := by
  induction entries with
  | nil => rfl
  | cons pair rest ih =>
    obtain ⟨key, value⟩ := pair
    by_cases hkey : key = names
    · have hother : (other == key) = false := beq_eq_false_iff_ne.mpr (hkey ▸ hne)
      rw [List.filter_cons_of_neg (by simpa using hkey), ih, List.lookup_cons, hother]
    · rw [List.filter_cons_of_pos (by simpa using hkey), List.lookup_cons, List.lookup_cons, ih]

theorem get?_insert_of_ne (t : FileTree) {names other : List String} (hne : other ≠ names)
    (entry : Entry) : (t.insert names entry).get? other = t.get? other := by
  have hlookup := lookup_filter_ne hne t.entries
  unfold get? insert
  rw [List.lookup_cons, beq_eq_false_iff_ne.mpr hne, hlookup]

variable {t t' : FileTree} {current names : List String} {path text : String}

/-- A name is followed from a directory only, and only if it is not too long. -/
theorem follow_cons_eq_ok {start rest : List String} {name : String} :
    t.follow start (name :: rest) = .ok names ↔
      t.get? start = some .directory ∧ name.utf8ByteSize ≤ maxNameBytes ∧
        t.follow (step start name) rest = .ok names := by
  rw [follow]
  cases hstart : t.get? start with
  | none => simp
  | some entry =>
    cases entry with
    | directory =>
      by_cases hlong : maxNameBytes < name.utf8ByteSize
      · simp [hlong, Nat.not_le.mpr hlong]
      · simp [hlong, Nat.le_of_not_lt hlong]
    | file => simp
    | program => simp

/-- A file under the names that a walk ends at changes nothing on the way. -/
theorem follow_insert_file (hfile : t.get? names ≠ some .directory) {start rest : List String}
    (h : t.follow start rest = .ok names) :
    (t.insert names (.file text)).follow start rest = .ok names := by
  induction rest generalizing start with
  | nil => exact h
  | cons name rest ih =>
    obtain ⟨hstart, hname, hrest⟩ := follow_cons_eq_ok.mp h
    -- What a name is followed from is a directory, so it is not what was put in.
    have hne : start ≠ names := by
      rintro rfl
      exact hfile hstart
    apply follow_cons_eq_ok.mpr
    exact ⟨(get?_insert_of_ne t hne _).trans hstart, hname, ih hrest⟩

theorem write_eq_ok (h : t.write current path text = .ok t') :
    ∃ names, t.locate current path = .ok names ∧ Path.endsInSlash path = false ∧
      t.get? names ≠ some .directory ∧ t' = t.insert names (.file text) := by
  unfold write at h
  cases hlocate : t.locate current path with
  | error e =>
    rw [hlocate] at h
    cases h
  | ok names =>
    rw [hlocate] at h
    change (if Path.endsInSlash path = true then _ else _) = _ at h
    by_cases hslash : Path.endsInSlash path = true
    · rw [if_pos hslash] at h
      cases h
    · rw [if_neg hslash] at h
      refine ⟨names, rfl, Bool.eq_false_iff.mpr hslash, ?_⟩
      -- Whatever stands there is replaced, a directory apart.
      cases hget : t.get? names with
      | none =>
        rw [hget] at h
        exact ⟨by simp, (Except.ok.inj h).symm⟩
      | some entry =>
        rw [hget] at h
        cases entry with
        | directory => cases h
        | file earlier => exact ⟨by simp, (Except.ok.inj h).symm⟩
        | program => exact ⟨by simp, (Except.ok.inj h).symm⟩

theorem write_of_locate (hlocate : t.locate current path = .ok names)
    (hslash : Path.endsInSlash path = false) (hfile : t.get? names ≠ some .directory)
    (text : String) : t.write current path text = .ok (t.insert names (.file text)) := by
  unfold write
  rw [hlocate]
  simp only [bind, Except.bind, hslash, Bool.false_eq_true, if_false]

theorem read_of_write (h : t.write current path text = .ok t') :
    t'.read current path = .ok text := by
  obtain ⟨names, hlocate, hslash, hfile, rfl⟩ := write_eq_ok h
  have hne : names ≠ [] := by
    rintro rfl
    exact hfile rfl
  -- The way to the path is still the same, since a file is never on it.
  have hlocate' : (t.insert names (.file text)).locate current path = .ok names := by
    unfold locate at hlocate ⊢
    by_cases hempty : path.isEmpty = true
    · rw [if_pos hempty] at hlocate
      cases hlocate
    · rw [if_neg hempty] at hlocate ⊢
      exact follow_insert_file hfile hlocate
  have hfind : (t.insert names (.file text)).find current path = .ok (.file text) := by
    unfold find
    rw [hlocate']
    simp only [bind, Except.bind, get?_insert_self t hne, hslash]
    rfl
  unfold read
  rw [hfind]
  rfl

/-- A walk that goes on has come to a directory. -/
theorem directory_of_follow_append {more : List String} (hmore : more ≠ [])
    {start rest : List String} (h : t.follow start (rest ++ more) = .ok names) :
    ∃ directory, t.follow start rest = .ok directory ∧ t.get? directory = some .directory := by
  induction rest generalizing start with
  | nil =>
    obtain ⟨name, others, rfl⟩ := List.exists_cons_of_ne_nil hmore
    exact ⟨start, rfl, (follow_cons_eq_ok.mp h).1⟩
  | cons name rest ih =>
    obtain ⟨hstart, hname, hrest⟩ := follow_cons_eq_ok.mp h
    obtain ⟨directory, hdirectory, hget⟩ := ih hrest
    exact ⟨directory, follow_cons_eq_ok.mpr ⟨hstart, hname, hdirectory⟩, hget⟩

/-- Where a path leads somewhere, the directory around it is there. -/
theorem locate_parent {directory : String} {around : List String}
    (hparents : Path.parents path = directory :: around) (h : t.locate current path = .ok names) :
    ∃ names', t.locate current directory = .ok names' ∧ t.get? names' = some .directory := by
  obtain ⟨hdirectory, hpath, habsolute, more, hmore, hnames⟩ :=
    Path.exists_names_after_parent hparents
  unfold locate at h ⊢
  rw [hpath, if_neg Bool.false_ne_true, hnames] at h
  rw [hdirectory, if_neg Bool.false_ne_true, habsolute]
  exact directory_of_follow_append hmore h

theorem find_of_directory (hlocate : t.locate current path = .ok names)
    (h : t.get? names = some .directory) : t.find current path = .ok .directory := by
  unfold find
  rw [hlocate]
  simp only [bind, Except.bind, h]

theorem makeDirectory_of_directory (hlocate : t.locate current path = .ok names)
    (h : t.get? names = some .directory) :
    t.makeDirectory current path = .error .alreadyExists := by
  unfold makeDirectory
  rw [hlocate]
  simp only [bind, Except.bind, h]

/-- Reading a text means that a file is there. -/
theorem find_of_read (h : t.read current path = .ok text) :
    t.find current path = .ok (.file text) := by
  unfold read at h
  cases hfind : t.find current path with
  | error e =>
    rw [hfind] at h
    cases h
  | ok entry =>
    rw [hfind] at h
    cases entry with
    | file found => rw [Except.ok.inj h]
    | directory => cases h
    | program => cases h

end FileTree

/-! ## 2. Sessions -/

namespace Session

variable {s s' : Session}

/-- Holds of the times that the clock may show from now on. -/
def Shows (s : Session) (time : Timestamp) : Prop := time = s.clock ∨ time ∈ s.later

theorem shows_readClock (s : Session) : s.Shows s.readClock.1 := by
  unfold readClock
  cases s.later <;> exact .inl rfl

theorem shows_of_shows_readClock {time : Timestamp} (h : s.readClock.2.Shows time) :
    s.Shows time := by
  unfold readClock at h
  cases hlater : s.later with
  | nil =>
    rw [hlater] at h
    exact h
  | cons next rest =>
    rw [hlater] at h
    rw [Shows, hlater]
    exact .inr (List.mem_cons.mpr h)

/-- Holds of programs that touch nothing but the files. -/
def OnlyFiles {α : Type} (program : StateM Session α) : Prop :=
  ∀ s : Session, ∃ files, (program.run s).2 = { s with files }

namespace OnlyFiles

variable {α β : Type} {x : StateM Session α} {f : α → StateM Session β}

theorem of_unchanged (h : ∀ s, (x.run s).2 = s) : OnlyFiles x := fun s => ⟨s.files, h s⟩

theorem bind (hx : OnlyFiles x) (hf : ∀ a, OnlyFiles (f a)) : OnlyFiles (x >>= f) := by
  intro s
  obtain ⟨files, hfiles⟩ := hx s
  obtain ⟨files', hfiles'⟩ := hf (x.run s).1 (x.run s).2
  refine ⟨files', ?_⟩
  show ((f (x.run s).1).run (x.run s).2).2 = _
  rw [hfiles', hfiles]

theorem isDirectory (path : String) : OnlyFiles (Host.isDirectory path) :=
  of_unchanged fun _ => rfl

theorem makeDirectory (path : String) : OnlyFiles (Host.makeDirectory path) := by
  intro s
  show ∃ files, (s.update (s.files.makeDirectory s.workingDirectory path)).2 = _
  cases s.files.makeDirectory s.workingDirectory path with
  | ok files => exact ⟨files, rfl⟩
  | error e => exact ⟨s.files, rfl⟩

/-- The answer to a failed attempt to make a directory. -/
theorem settleFailure (path : String) (e : FileError) : OnlyFiles do
    if ← Host.isDirectory path then return .ok ()
    else return (.error e : Except FileError Unit) := by
  refine bind (isDirectory path) fun found => ?_
  cases found <;> exact of_unchanged fun _ => rfl

theorem ensureDirectory (path : String) : OnlyFiles (Host.ensureDirectory path) := by
  refine bind (makeDirectory path) fun result => ?_
  cases result with
  | ok => exact of_unchanged fun _ => rfl
  | error e => exact settleFailure path e

/-- Also where the making stops half-way. -/
theorem makeDirectories (paths : List String) : OnlyFiles (Host.makeDirectories paths) := by
  induction paths with
  | nil => exact of_unchanged fun _ => rfl
  | cons path around ih =>
    refine bind (makeDirectory path) fun result => ?_
    cases result with
    | ok => exact of_unchanged fun _ => rfl
    | error e =>
      cases e with
      | notFound =>
        refine bind ih fun result => ?_
        cases result with
        | ok => exact ensureDirectory path
        | error e => exact of_unchanged fun _ => rfl
      | _ => exact settleFailure path _

end OnlyFiles

/-- A directory that is there is left as it is. -/
theorem run_makeDirectories_of_directory {s : Session} {path : String} {names : List String}
    (hlocate : s.files.locate s.workingDirectory path = .ok names)
    (h : s.files.get? names = some .directory) (around : List String) :
    (Host.makeDirectories (m := StateM Session) (path :: around)).run s = (.ok (), s) := by
  have hmake : (Host.makeDirectory (m := StateM Session) path).run s =
      (.error .alreadyExists, s) := by
    show s.update (s.files.makeDirectory s.workingDirectory path) = _
    rw [FileTree.makeDirectory_of_directory hlocate h]
    rfl
  have hfound : (Host.isDirectory (m := StateM Session) path).run s = (true, s) := by
    show (((s.files.find s.workingDirectory path).toOption.map Entry.kind) == some .directory, s) =
      _
    rw [FileTree.find_of_directory hlocate h]
    rfl
  -- That something stands there already is no failure when it is a directory.
  unfold Host.makeDirectories
  rw [StateT.run_bind, hmake]
  show ((Host.isDirectory (m := StateM Session) path) >>= _).run s = _
  rw [StateT.run_bind, hfound]
  rfl

end Session

end AdmissionGate

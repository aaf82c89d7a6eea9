/-!
# Proofs/FirstFault — the first of several kinds of faults

The decoders and validators look for one kind of fault after another and report the first that they
meet.  Here a kind of fault is the set of errors that report it, and an order of checks is a list of
kinds.  The lemmas say which list a computation checks from the lists that its steps check, so that
each step is opened once and the whole is put together by `Reports.bind`.
-/

namespace AdmissionGate

variable {ε δ α β : Type}

/-! ## Steps of a computation that may fail -/

theorem bind_eq_ok {x : Except ε α} {f : α → Except ε β} {b : β} :
    (x >>= f) = .ok b ↔ ∃ a, x = .ok a ∧ f a = .ok b := by
  cases x with
  | error e =>
    show (Except.error e : Except ε β) = .ok b ↔ _
    simp
  | ok a =>
    show f a = .ok b ↔ _
    simp

theorem bind_eq_error {x : Except ε α} {f : α → Except ε β} {e : ε} :
    (x >>= f) = .error e ↔ x = .error e ∨ ∃ a, x = .ok a ∧ f a = .error e := by
  cases x with
  | error e' =>
    show (Except.error e' : Except ε β) = .error e ↔ _
    simp
  | ok a =>
    show f a = .error e ↔ _
    simp

theorem pure_eq_ok {a b : α} : (pure a : Except ε α) = .ok b ↔ a = b := by
  show (Except.ok a : Except ε α) = .ok b ↔ a = b
  simp

theorem map_eq_ok {x : Except ε α} {f : α → β} {b : β} :
    f <$> x = .ok b ↔ ∃ a, x = .ok a ∧ f a = b := by
  cases x with
  | error e =>
    show (Except.error e : Except ε β) = .ok b ↔ _
    simp
  | ok a =>
    show (Except.ok (f a) : Except ε β) = .ok b ↔ _
    simp

theorem map_eq_error {x : Except ε α} {f : α → β} {e : ε} :
    f <$> x = .error e ↔ x = .error e := by
  cases x with
  | error e' =>
    show (Except.error e' : Except ε β) = .error e ↔ _
    simp
  | ok a =>
    show (Except.ok (f a) : Except ε β) = .error e ↔ _
    simp

theorem mapError_eq_ok {x : Except ε α} {f : ε → δ} {a : α} :
    x.mapError f = .ok a ↔ x = .ok a := by
  unfold Except.mapError
  cases x <;> simp

theorem mapError_eq_error {x : Except ε α} {f : ε → δ} {d : δ} :
    x.mapError f = .error d ↔ ∃ e, x = .error e ∧ d = f e := by
  unfold Except.mapError
  cases x <;> simp [eq_comm]

theorem exists_ok_of_isSome {x : Except ε α} (h : x.toOption.isSome = true) : ∃ a, x = .ok a := by
  cases x with
  | error e => cases h
  | ok a => exact ⟨a, rfl⟩

theorem mapError_map {x : Except ε α} {f : α → β} {g : ε → δ} :
    (f <$> x).mapError g = f <$> x.mapError g := by
  cases x <;> rfl

/-! ## Kinds of faults in an order -/

/-- `e` is a fault of the first kind that has one. -/
def FirstFault : List (ε → Prop) → ε → Prop
  | [], _ => False
  | kind :: rest, e => kind e ∨ (∀ e', ¬ kind e') ∧ FirstFault rest e

/-- There is no fault of any of the kinds. -/
def NoFault (kinds : List (ε → Prop)) : Prop := ∀ kind ∈ kinds, ∀ e, ¬ kind e

variable {kinds first second : List (ε → Prop)} {kind : ε → Prop} {e : ε}

theorem noFault_nil : NoFault ([] : List (ε → Prop)) := by
  intro kind hkind
  cases hkind

theorem noFault_cons : NoFault (kind :: kinds) ↔ (∀ e, ¬ kind e) ∧ NoFault kinds := by
  unfold NoFault
  rw [List.forall_mem_cons]

theorem firstFault_append :
    FirstFault (first ++ second) e ↔ FirstFault first e ∨ NoFault first ∧ FirstFault second e := by
  -- Both lists are searched in one order, and the second only after all of the first.
  induction first with
  | nil => simp [FirstFault, noFault_nil]
  | cons kind rest ih =>
    rw [List.cons_append, FirstFault, FirstFault, ih, noFault_cons]
    constructor
    · rintro (h | ⟨hnone, h | ⟨hrest, h⟩⟩)
      · exact .inl (.inl h)
      · exact .inl (.inr ⟨hnone, h⟩)
      · exact .inr ⟨⟨hnone, hrest⟩, h⟩
    · rintro ((h | ⟨hnone, h⟩) | ⟨⟨hnone, hrest⟩, h⟩)
      · exact .inl h
      · exact .inr ⟨hnone, .inl h⟩
      · exact .inr ⟨hnone, .inr ⟨hrest, h⟩⟩

/-- A first fault is a fault of one of the kinds. -/
theorem FirstFault.exists_kind (h : FirstFault kinds e) : ∃ kind ∈ kinds, kind e := by
  induction kinds with
  | nil => cases h
  | cons kind rest ih =>
    rcases h with h | ⟨_, h⟩
    · exact ⟨kind, List.mem_cons_self, h⟩
    · obtain ⟨kind', hmem, h'⟩ := ih h
      exact ⟨kind', List.mem_cons_of_mem _ hmem, h'⟩

/-- Where there is a fault at all, there is a first one. -/
theorem forall_not_firstFault : (∀ e, ¬ FirstFault kinds e) ↔ NoFault kinds := by
  induction kinds with
  | nil => exact iff_of_true (fun _ h => h) noFault_nil
  | cons kind rest ih =>
    rw [noFault_cons, ← ih]
    constructor
    · intro h
      have hkind : ∀ e, ¬ kind e := fun e he => h e (.inl he)
      exact ⟨hkind, fun e he => h e (.inr ⟨hkind, he⟩)⟩
    · rintro ⟨hkind, hrest⟩ e (h | ⟨_, h⟩)
      · exact hkind e h
      · exact hrest e h

/-- Faults that are reported under other errors are still faults. -/
theorem forall_not_image_iff {p : ε → Prop} {f : ε → δ} :
    (∀ d, ¬ ∃ e, p e ∧ d = f e) ↔ ∀ e, ¬ p e := by
  constructor
  · intro h e he
    exact h _ ⟨e, he, rfl⟩
  · rintro h d ⟨e, he, _⟩
    exact h e he

/-! ## Computations that report the first fault -/

/-- The errors of a computation are the first faults of the kinds in the list. -/
def Reports (x : Except ε α) (kinds : List (ε → Prop)) : Prop :=
  ∀ e, x = .error e ↔ FirstFault kinds e

namespace Reports

variable {x : Except ε α} {f : α → Except ε β}

theorem pure (a : α) : Reports (Pure.pure a : Except ε α) [] := by
  intro e
  show (Except.ok a : Except ε α) = .error e ↔ False
  simp

theorem single (h : ∀ e, x = .error e ↔ kind e) : Reports x [kind] := by
  intro e
  rw [h e]
  simp [FirstFault]

theorem exists_ok_iff (h : Reports x kinds) : (∃ a, x = .ok a) ↔ NoFault kinds := by
  rw [← forall_not_firstFault]
  constructor
  · rintro ⟨a, rfl⟩ e he
    cases (h e).mpr he
  · intro hnone
    cases hx : x with
    | error e => exact absurd ((h e).mp hx) (hnone e)
    | ok a => exact ⟨a, rfl⟩

theorem exists_error_iff (h : Reports x kinds) :
    (∃ e, x = .error e) ↔ ∃ kind ∈ kinds, ∃ e, kind e := by
  constructor
  · rintro ⟨e, he⟩
    obtain ⟨kind, hmem, hkind⟩ := ((h e).mp he).exists_kind
    exact ⟨kind, hmem, e, hkind⟩
  · rintro ⟨kind, hmem, e, hkind⟩
    cases hx : x with
    | error e' => exact ⟨e', rfl⟩
    | ok a => exact absurd hkind (h.exists_ok_iff.mp ⟨a, hx⟩ kind hmem e)

theorem noFault (h : Reports x kinds) {a : α} (hx : x = .ok a) : NoFault kinds :=
  h.exists_ok_iff.mp ⟨a, hx⟩

/-- What a step and all that follows it check is checked by the two together, in this order. -/
theorem bind (hx : Reports x first) (hf : ∀ a, x = .ok a → Reports (f a) second) :
    Reports (x >>= f) (first ++ second) := by
  intro e
  rw [bind_eq_error, firstFault_append, hx e]
  constructor
  · rintro (h | ⟨a, ha, h⟩)
    · exact .inl h
    · exact .inr ⟨hx.noFault ha, (hf a ha e).mp h⟩
  -- A step without faults has come to some value, and the rest starts from it.
  · rintro (h | ⟨hnone, h⟩)
    · exact .inl h
    · obtain ⟨a, ha⟩ := hx.exists_ok_iff.mpr hnone
      exact .inr ⟨a, ha, (hf a ha e).mpr h⟩

theorem cons_of_none (hkind : ∀ e, ¬ kind e) (h : Reports x kinds) : Reports x (kind :: kinds) := by
  intro e
  rw [h e, FirstFault]
  constructor
  · intro he
    exact .inr ⟨hkind, he⟩
  · rintro (he | ⟨_, he⟩)
    · exact absurd he (hkind e)
    · exact he

theorem append_of_none (h : Reports x first) (hnone : NoFault second) :
    Reports x (first ++ second) := by
  intro e
  rw [h e, firstFault_append]
  constructor
  · exact .inl
  · rintro (he | ⟨_, he⟩)
    · exact he
    · exact absurd he (forall_not_firstFault.mpr hnone e)

end Reports

end AdmissionGate

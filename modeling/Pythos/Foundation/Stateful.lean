import Mathlib.Tactic.Common

/-!
# Programs that fail and keep their state

A method on a mutable receiver that returns a `Result` leaves a state behind in either case: `Stateful`
runs on a state to a result or an error, together with the state it leaves. `Ensures` is the weakest
precondition of a pair of postconditions, one for results and one for errors; each way of building a
program has a rule for it, stated as an equivalence, so that a program is executed symbolically by
rewriting.

A machine that steps on inputs has runs: `EachState` says that a condition holds in every state of a run, from
the first to the last, and `EachStep` that a condition on a state and an input holds at every step.
-/

namespace Pythos.Foundation

/-- A program over a state that returns or fails, and leaves a state in both cases. -/
def Stateful (ε σ α : Type) := σ → Except ε α × σ

namespace Stateful

variable {ε ε' σ τ α β : Type}

instance : Monad (Stateful ε σ) where
  pure value := fun state ↦ (.ok value, state)
  bind program next := fun state ↦
    match program state with
    | (.ok value, state) => next value state
    | (.error error, state) => (.error error, state)

/-- `return Err(error)`. -/
def fail (error : ε) : Stateful ε σ α := fun state ↦ (.error error, state)

/-- The state, to be read. -/
def read : Stateful ε σ σ := fun state ↦ (.ok state, state)

/-- A change of the state. -/
def modify (change : σ → σ) : Stateful ε σ Unit := fun state ↦ (.ok (), change state)

/-- A step that changes the state only when it succeeds. -/
def update (step : σ → Except ε (α × σ)) : Stateful ε σ α := fun state ↦
  match step state with
  | .ok (value, state) => (.ok value, state)
  | .error error => (.error error, state)

/-- A computation that does not touch the state, `result?`. -/
def ofExcept (result : Except ε α) : Stateful ε σ α := fun state ↦ (result, state)

/-- A program on a part of the state, with its errors wrapped. -/
def within (get : σ → τ) (put : τ → σ → σ) (wrap : ε' → ε) (program : Stateful ε' τ α) :
    Stateful ε σ α := fun state ↦
  match program (get state) with
  | (.ok value, part) => (.ok value, put part state)
  | (.error error, part) => (.error (wrap error), put part state)

/-- `if let Err(error) = program { handler }`. -/
def handle (program : Stateful ε σ α) (handler : ε → Stateful ε σ α) : Stateful ε σ α := fun state ↦
  match program state with
  | (.ok value, state) => (.ok value, state)
  | (.error error, state) => handler error state

/-- `let _ = program;`. -/
def attempt (program : Stateful ε' σ α) : Stateful ε σ Unit := fun state ↦
  (.ok (), (program state).2)

/-- A program that runs on a copy of the state, which replaces the state on success. -/
def staged (program : Stateful ε σ α) : Stateful ε σ α := fun state ↦
  match program state with
  | (.ok value, state') => (.ok value, state')
  | (.error error, _) => (.error error, state)

/-- A program whose result or error is turned into an answer, `match program { Ok(value) => ..,
Err(error) => .. }`. -/
def answer (program : Stateful ε' σ β) (accept : β → σ → α) (refuse : ε' → α) : Stateful ε σ α :=
  fun state ↦
    match program state with
    | (.ok value, state) => (.ok (accept value state), state)
    | (.error error, state) => (.ok (refuse error), state)

/-- The state that a constructor leaves when it succeeds. -/
def build (program : Stateful ε σ Unit) (state : σ) : Except ε σ :=
  match program state with
  | (.ok _, state) => .ok state
  | (.error error, _) => .error error

/-! ### Results -/

section Results

variable {state : σ} {value : α}

/-- What follows a program that returned. -/
theorem bind_of_ok {program : Stateful ε σ β} {next : β → Stateful ε σ α} {middle : β} {state' : σ}
    (h : program state = (.ok middle, state')) : (program >>= next) state = next middle state' := by
  show ((match program state with
    | (.ok middle, state) => next middle state
    | (.error error, state) => (.error error, state)) : Except ε α × σ) = _
  rw [h]

theorem within_snd {get : σ → τ} {put : τ → σ → σ} {wrap : ε' → ε} {program : Stateful ε' τ α} :
    (within get put wrap program state).2 = put (program (get state)).2 state := by
  unfold within
  rcases program (get state) with ⟨_ | _, _⟩ <;> rfl

end Results

/-! ### Weakest preconditions -/

/-- A program started in a state returns with one condition, or fails with another. -/
def Ensures (program : Stateful ε σ α) (post : α → σ → Prop) (fails : ε → σ → Prop)
    (state : σ) : Prop :=
  match program state with
  | (.ok value, state) => post value state
  | (.error error, state) => fails error state

section Rules

variable {post post' : α → σ → Prop} {fails fails' : ε → σ → Prop} {state : σ} {program : Stateful ε σ α}

@[simp] theorem ensures_pure {value : α} :
    Ensures (pure value : Stateful ε σ α) post fails state ↔ post value state :=
  Iff.rfl

@[simp] theorem ensures_fail {error : ε} :
    Ensures (fail error : Stateful ε σ α) post fails state ↔ fails error state :=
  Iff.rfl

@[simp] theorem ensures_bind {program : Stateful ε σ β} {next : β → Stateful ε σ α} :
    Ensures (program >>= next) post fails state ↔
      Ensures program (fun value state ↦ Ensures (next value) post fails state) fails state := by
  show (match (match program state with
    | (.ok value, state) => next value state
    | (.error error, state) => (.error error, state)) with
    | (.ok value, state) => post value state
    | (.error error, state) => fails error state) ↔ _
  unfold Ensures
  rcases program state with ⟨_ | _, _⟩ <;> rfl

@[simp] theorem ensures_read {post : σ → σ → Prop} :
    Ensures (read : Stateful ε σ σ) post fails state ↔ post state state :=
  Iff.rfl

@[simp] theorem ensures_modify {post : Unit → σ → Prop} {change : σ → σ} :
    Ensures (modify change : Stateful ε σ Unit) post fails state ↔ post () (change state) :=
  Iff.rfl

theorem ensures_update {step : σ → Except ε (α × σ)} :
    Ensures (update step) post fails state ↔
      (∀ value state', step state = .ok (value, state') → post value state') ∧
        ∀ error, step state = .error error → fails error state := by
  unfold Ensures update
  cases hstep : step state with
  | error error => simp
  | ok result =>
    obtain ⟨value, state'⟩ := result
    simp

theorem ensures_ofExcept {result : Except ε α} :
    Ensures (ofExcept result) post fails state ↔
      (∀ value, result = .ok value → post value state) ∧
        ∀ error, result = .error error → fails error state := by
  unfold Ensures ofExcept
  cases result <;> simp

theorem ensures_ofExcept_ok {value : α} :
    Ensures (ofExcept (.ok value)) post fails state ↔ post value state := Iff.rfl

theorem ensures_within {get : σ → τ} {put : τ → σ → σ} {wrap : ε' → ε}
    {program : Stateful ε' τ α} :
    Ensures (within get put wrap program) post fails state ↔
      Ensures program (fun value part ↦ post value (put part state))
        (fun error part ↦ fails (wrap error) (put part state)) (get state) := by
  unfold Ensures within
  rcases program (get state) with ⟨_ | _, _⟩ <;> rfl

theorem ensures_handle {handler : ε → Stateful ε σ α} :
    Ensures (handle program handler) post fails state ↔
      Ensures program post (fun error state ↦ Ensures (handler error) post fails state) state := by
  unfold Ensures handle
  rcases program state with ⟨_ | _, _⟩ <;> rfl

@[simp] theorem ensures_attempt {program : Stateful ε' σ β} {post : Unit → σ → Prop} :
    Ensures (attempt program : Stateful ε σ Unit) post fails state ↔ post () (program state).2 :=
  Iff.rfl

theorem ensures_staged :
    Ensures (staged program) post fails state ↔
      Ensures program post (fun error _ ↦ fails error state) state := by
  unfold Ensures staged
  rcases program state with ⟨_ | _, _⟩ <;> rfl

theorem ensures_answer {program : Stateful ε' σ β} {accept : β → σ → α} {refuse : ε' → α} :
    Ensures (answer program accept refuse : Stateful ε σ α) post fails state ↔
      Ensures program (fun value state ↦ post (accept value state) state)
        (fun error state ↦ post (refuse error) state) state := by
  unfold Ensures answer
  rcases program state with ⟨_ | _, _⟩ <;> rfl

theorem ensures_ite {condition : Prop} [Decidable condition] {first second : Stateful ε σ α} :
    Ensures (if condition then first else second) post fails state ↔
      (condition → Ensures first post fails state) ∧
        (¬ condition → Ensures second post fails state) := by
  split_ifs with h <;> simp [h]

/-- A guarantee by the result of the run. -/
theorem ensures_iff : Ensures program post fails state ↔
    (∀ value, (program state).1 = .ok value → post value (program state).2) ∧
      ∀ error, (program state).1 = .error error → fails error (program state).2 := by
  unfold Ensures
  rcases program state with ⟨_ | _, _⟩ <;> simp

theorem Ensures.of_ok {value : α} (h : Ensures program post fails state)
    (hok : (program state).1 = .ok value) : post value (program state).2 :=
  (ensures_iff.mp h).1 value hok

theorem Ensures.of_error {error : ε} (h : Ensures program post fails state)
    (herror : (program state).1 = .error error) : fails error (program state).2 :=
  (ensures_iff.mp h).2 error herror

theorem Ensures.mono (h : Ensures program post fails state)
    (hpost : ∀ value state, post value state → post' value state)
    (hfails : ∀ error state, fails error state → fails' error state) :
    Ensures program post' fails' state :=
  ensures_iff.mpr ⟨fun _ hok ↦ hpost _ _ (h.of_ok hok), fun _ herror ↦ hfails _ _ (h.of_error herror)⟩

/-- A weaker condition on what a program returns. -/
theorem Ensures.next (h : Ensures program post fails state)
    (hpost : ∀ value state, post value state → post' value state) : Ensures program post' fails state :=
  h.mono hpost fun _ _ h ↦ h

/-- A weaker condition on what a program returns, with nothing said of its failures. -/
theorem Ensures.imp (h : Ensures program post fails state)
    (hpost : ∀ value state, post value state → post' value state) :
    Ensures program post' (fun _ _ ↦ True) state :=
  h.mono hpost fun _ _ _ ↦ trivial

/-- A weaker condition on what a program returns that cannot fail. -/
theorem Ensures.always (h : Ensures program post (fun _ _ ↦ False) state)
    (hpost : ∀ value state, post value state → post' value state) : Ensures program post' fails state :=
  h.mono hpost fun _ _ ↦ False.elim

/-- A program on a copy leaves the state as it was when it fails. -/
theorem Ensures.of_staged (h : Ensures program post (fun _ _ ↦ True) state)
    (hfails : ∀ error, fails error state) : Ensures (staged program) post fails state :=
  ensures_staged.mpr (h.mono (fun _ _ hpost ↦ hpost) fun error _ _ ↦ hfails error)

theorem Ensures.build_eq_ok {program : Stateful ε σ Unit} {post : Unit → σ → Prop} {state' : σ}
    (h : Ensures program post fails state) (hbuild : build program state = .ok state') :
    post () state' := by
  unfold build at hbuild
  unfold Ensures at h
  split at hbuild <;> simp_all

/-- A constructor that cannot fail. -/
theorem Ensures.exists_build {program : Stateful ε σ Unit} {post : Unit → σ → Prop}
    (h : Ensures program post (fun _ _ ↦ False) state) :
    ∃ state', build program state = .ok state' ∧ post () state' := by
  unfold build
  unfold Ensures at h
  split <;> simp_all

/-- Two guarantees of one run hold together. -/
theorem Ensures.and (h : Ensures program post fails state) (h' : Ensures program post' fails' state) :
    Ensures program (fun value state ↦ post value state ∧ post' value state)
      (fun error state ↦ fails error state ∧ fails' error state) state :=
  ensures_iff.mpr ⟨fun _ hok ↦ ⟨h.of_ok hok, h'.of_ok hok⟩,
    fun _ herror ↦ ⟨h.of_error herror, h'.of_error herror⟩⟩

/-- A run returns or fails, and leaves a state with the condition of the case. -/
theorem Ensures.cases (h : Ensures program post fails state) :
    (∃ value, (program state).1 = .ok value ∧ post value (program state).2) ∨
      ∃ error, (program state).1 = .error error ∧ fails error (program state).2 := by
  cases hrun : (program state).1 with
  | ok value => exact Or.inl ⟨value, rfl, h.of_ok hrun⟩
  | error error => exact Or.inr ⟨error, rfl, h.of_error hrun⟩

/-- A condition that both postconditions imply holds of the state that the program leaves. -/
theorem Ensures.final {invariant : σ → Prop}
    (h : Ensures program (fun _ ↦ invariant) (fun _ ↦ invariant) state) :
    invariant (program state).2 := by
  rcases h.cases with ⟨_, -, hstate⟩ | ⟨_, -, hstate⟩ <;> exact hstate

theorem ensures_final : Ensures program (fun _ final ↦ (program state).2 = final)
    (fun _ final ↦ (program state).2 = final) state :=
  ensures_iff.mpr ⟨fun _ _ ↦ rfl, fun _ _ ↦ rfl⟩

/-- Conditions that always hold are ensured by every program. -/
theorem ensures_of_forall (hpost : ∀ value state, post value state)
    (hfails : ∀ error state, fails error state) : Ensures program post fails state :=
  ensures_iff.mpr ⟨fun _ _ ↦ hpost _ _, fun _ _ ↦ hfails _ _⟩

end Rules

/-! ### Preserved conditions -/

/-- A program keeps a condition on the state, whether it returns or fails. -/
def Preserves (invariant : σ → Prop) (program : Stateful ε σ α) : Prop :=
  ∀ state, invariant state → Ensures program (fun _ ↦ invariant) (fun _ ↦ invariant) state

namespace Preserves

variable {invariant : σ → Prop}

theorem pure (value : α) : Preserves invariant (Pure.pure value : Stateful ε σ α) :=
  fun _ h ↦ h

theorem fail (error : ε) : Preserves invariant (Stateful.fail error : Stateful ε σ α) :=
  fun _ h ↦ h

theorem read : Preserves invariant (Stateful.read : Stateful ε σ σ) :=
  fun _ h ↦ h

theorem ofExcept (result : Except ε α) :
    Preserves invariant (Stateful.ofExcept result : Stateful ε σ α) :=
  fun _ h ↦ ensures_ofExcept.mpr ⟨fun _ _ ↦ h, fun _ _ ↦ h⟩

theorem bind {program : Stateful ε σ β} {next : β → Stateful ε σ α}
    (hprogram : Preserves invariant program) (hnext : ∀ value, Preserves invariant (next value)) :
    Preserves invariant (program >>= next) := by
  intro state h
  rw [ensures_bind]
  exact (hprogram state h).next fun value state' h' ↦ hnext value state' h'

/-- A step that keeps the condition, before a program that starts from it. -/
theorem andThen {program : Stateful ε σ β} {next : β → Stateful ε σ α} {post : α → σ → Prop}
    {fails : ε → σ → Prop} {state : σ} (hprogram : Preserves invariant program)
    (hfails : ∀ error state, invariant state → fails error state) (hstate : invariant state)
    (hnext : ∀ value state, invariant state → Ensures (next value) post fails state) :
    Ensures (program >>= next) post fails state :=
  ensures_bind.mpr ((hprogram state hstate).mono hnext hfails)

theorem ite {condition : Prop} [Decidable condition] {first second : Stateful ε σ α}
    (hfirst : Preserves invariant first) (hsecond : Preserves invariant second) :
    Preserves invariant (if condition then first else second) := by
  intro state h
  rw [ensures_ite]
  exact ⟨fun _ ↦ hfirst state h, fun _ ↦ hsecond state h⟩

/-- A program on a part keeps a condition that no value of the part affects. -/
theorem within {get : σ → τ} {put : τ → σ → σ} {wrap : ε' → ε} {program : Stateful ε' τ α}
    (h : ∀ part state, invariant state → invariant (put part state)) :
    Preserves invariant (Stateful.within get put wrap program) := by
  intro state hstate
  rw [ensures_within]
  exact ensures_of_forall (fun _ part ↦ h part state hstate) fun _ part ↦ h part state hstate

theorem handle {program : Stateful ε σ α} {handler : ε → Stateful ε σ α}
    (hprogram : Preserves invariant program) (hhandler : ∀ error, Preserves invariant (handler error)) :
    Preserves invariant (Stateful.handle program handler) := by
  intro state h
  rw [ensures_handle]
  exact (hprogram state h).mono (fun _ _ h' ↦ h') fun error state' h' ↦ hhandler error state' h'

theorem attempt {program : Stateful ε' σ β} (h : Preserves invariant program) :
    Preserves invariant (Stateful.attempt program : Stateful ε σ Unit) :=
  fun state hstate ↦ ensures_attempt.mpr (Ensures.final (h state hstate))

end Preserves

end Stateful

/-! ### Runs of a state machine -/

section Runs

variable {σ ι : Type*} (step : σ → ι → σ)

/-- A condition holds in every state of a run. -/
def EachState (holds : σ → Prop) : σ → List ι → Prop
  | state, [] => holds state
  | state, input :: rest => holds state ∧ EachState holds (step state input) rest

/-- A condition holds at every step of a run. -/
def EachStep (meets : σ → ι → Prop) : σ → List ι → Prop
  | _, [] => True
  | state, input :: rest => meets state input ∧ EachStep meets (step state input) rest

variable {step}

/-- What every step keeps or extends, a run does: the last state is related to the first. -/
theorem EachStep.foldl_induction {meets : σ → ι → Prop} (relation : σ → σ → Prop)
    (hrefl : ∀ state, relation state state)
    (htrans : ∀ first second third, relation first second → relation second third → relation first third)
    (hstep : ∀ state input, meets state input → relation state (step state input)) (inputs : List ι) :
    ∀ {state : σ}, EachStep step meets state inputs → relation state (inputs.foldl step state) := by
  induction inputs with
  | nil => exact fun _ ↦ hrefl _
  | cons input inputs ih =>
    intro state h
    exact htrans _ _ _ (hstep state input h.1) (ih h.2)

/-- When a step from a good state is good exactly under a condition, a run from a good state is good
throughout exactly when all its steps meet the condition. -/
theorem eachState_iff_eachStep (invariant : σ → Prop) {holds : σ → Prop} {meets : σ → ι → Prop}
    {allowed : ι → Prop}
    (hstep : ∀ state input, invariant state → holds state → allowed input →
      invariant (step state input) ∧ (holds (step state input) ↔ meets state input)) (inputs : List ι) :
    ∀ {state : σ}, invariant state → holds state → (∀ input ∈ inputs, allowed input) →
      (EachState step holds state inputs ↔ EachStep step meets state inputs) := by
  induction inputs with
  | nil => exact fun _ hholds _ ↦ iff_of_true hholds trivial
  | cons input inputs ih =>
    intro state hinvariant hholds hallowed
    obtain ⟨hinvariant', hiff⟩ := hstep state input hinvariant hholds (hallowed input List.mem_cons_self)
    have hrest := fun hholds' ↦ ih hinvariant' hholds' fun other hother ↦
      hallowed other (List.mem_cons_of_mem _ hother)
    constructor
    · rintro ⟨-, hstates⟩
      have hholds' : holds (step state input) := by
        cases inputs with
        | nil => exact hstates
        | cons next inputs => exact hstates.1
      exact ⟨hiff.mp hholds', (hrest hholds').mp hstates⟩
    · rintro ⟨hmeets, hsteps⟩
      have hholds' := hiff.mpr hmeets
      exact ⟨hholds, (hrest hholds').mpr hsteps⟩

end Runs

end Pythos.Foundation

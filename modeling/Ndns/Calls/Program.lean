import Mathlib.Tactic.TypeStar
import Mathlib.Logic.Basic

/-!
# Finite Programs over Atomic Calls

A `Program` is a finite tree of atomic calls to an environment: each call names a request and
continues with the answer to it, and a program ends by returning a value or by throwing.  Nothing
is said about what a call does; a `Handler` supplies that, so one program can be run on its own,
run against a failing environment, or interleaved with another program one call at a time.

`Returns` is the sequential big-step relation for normal termination.  Its rules peel a program
apart along its binds, and the frame rules carry an invariant of the single calls to a whole run.
-/

namespace Ndns.Calls

/-- Programs that make calls, and then return a value or throw a fault. -/
inductive Program {Call : Type} (Answer : Call → Type) (Fault Value : Type) : Type where
  | done (value : Value)
  | raise (fault : Fault)
  | call (request : Call) (next : Answer request → Program Answer Fault Value)

/-- What one call answers and how it changes the state. -/
abbrev Handler {Call : Type} (Answer : Call → Type) (State : Type) :=
  (request : Call) → State → Answer request × State

namespace Program

variable {Call : Type} {Answer : Call → Type} {Fault Value Result State : Type}

/-- Sequencing: the second program starts where the first one returns. -/
def bind : Program Answer Fault Value → (Value → Program Answer Fault Result) →
    Program Answer Fault Result
  | .done value, rest => rest value
  | .raise fault, _ => .raise fault
  | .call request next, rest => .call request fun answer ↦ (next answer).bind rest

instance : Monad (Program Answer Fault) where
  pure := .done
  bind := bind

/-- Run a handler for the fault a program throws. -/
def tryCatch : Program Answer Fault Value → (Fault → Program Answer Fault Value) →
    Program Answer Fault Value
  | .done value, _ => .done value
  | .raise fault, recover => recover fault
  | .call request next, recover => .call request fun answer ↦ (next answer).tryCatch recover

instance : MonadExceptOf Fault (Program Answer Fault) where
  throw := .raise
  tryCatch := tryCatch

@[simp]
theorem pure_bind (value : Value) (rest : Value → Program Answer Fault Result) :
    (pure value : Program Answer Fault Value) >>= rest = rest value := rfl

/-- A single call as a program. -/
def request (request : Call) : Program Answer Fault (Answer request) :=
  .call request .done

/-- Sequential execution. -/
def run (handle : Handler Answer State) :
    Program Answer Fault Value → State → Except Fault Value × State
  | .done value, state => (.ok value, state)
  | .raise fault, state => (.error fault, state)
  | .call request next, state =>
      (next (handle request state).1).run handle (handle request state).2

/-- The program returns `value` normally and leaves `state'`. -/
def Returns (handle : Handler Answer State) (program : Program Answer Fault Value)
    (state : State) (value : Value) (state' : State) : Prop :=
  program.run handle state = (.ok value, state')

variable {handle : Handler Answer State}

@[simp]
theorem run_pure (value : Value) (state : State) :
    (pure value : Program Answer Fault Value).run handle state = (.ok value, state) := rfl

@[simp]
theorem run_throw (fault : Fault) (state : State) :
    (throw fault : Program Answer Fault Value).run handle state = (.error fault, state) := rfl

theorem run_bind (program : Program Answer Fault Value)
    (rest : Value → Program Answer Fault Result) (state : State) :
    (program >>= rest).run handle state =
      match program.run handle state with
      | (.ok value, state') => (rest value).run handle state'
      | (.error fault, state') => (.error fault, state') := by
  change (program.bind rest).run handle state = _
  induction program generalizing state with
  | done value => rfl
  | raise fault => rfl
  | call request next ih => simpa only [bind, run] using ih _ _

theorem run_map (change : Value → Result) (program : Program Answer Fault Value) (state : State) :
    (change <$> program).run handle state =
      match program.run handle state with
      | (.ok value, state') => (.ok (change value), state')
      | (.error fault, state') => (.error fault, state') :=
  run_bind program (fun value ↦ pure (change value)) state

theorem run_tryCatch (program : Program Answer Fault Value)
    (recover : Fault → Program Answer Fault Value) (state : State) :
    (program.tryCatch recover).run handle state =
      match program.run handle state with
      | (.ok value, state') => (.ok value, state')
      | (.error fault, state') => (recover fault).run handle state' := by
  induction program generalizing state with
  | done value => rfl
  | raise fault => rfl
  | call request next ih => simpa only [tryCatch, run] using ih _ _

@[simp]
theorem run_request (call : Call) (state : State) :
    (request call : Program Answer Fault (Answer call)).run handle state =
      (.ok (handle call state).1, (handle call state).2) := rfl

/-! ## Normal termination -/

@[simp]
theorem returns_pure {value result : Value} {state state' : State} :
    (pure value : Program Answer Fault Value).Returns handle state result state' ↔
      value = result ∧ state = state' := by
  simp [Returns]

@[simp]
theorem returns_throw {fault : Fault} {result : Value} {state state' : State} :
    (throw fault : Program Answer Fault Value).Returns handle state result state' ↔ False := by
  simp [Returns]

@[simp]
theorem returns_request {call : Call} {answer : Answer call} {state state' : State} :
    (request call : Program Answer Fault (Answer call)).Returns handle state answer state' ↔
      handle call state = (answer, state') := by
  simp [Returns, Prod.ext_iff]

@[simp]
theorem returns_bind {program : Program Answer Fault Value}
    {rest : Value → Program Answer Fault Result} {state state' : State} {result : Result} :
    (program >>= rest).Returns handle state result state' ↔
      ∃ value middle, program.Returns handle state value middle ∧
        (rest value).Returns handle middle result state' := by
  unfold Returns
  rw [run_bind]
  rcases program.run handle state with ⟨_ | value, middle⟩
  · simp
  · constructor
    · exact fun h ↦ ⟨value, middle, rfl, h⟩
    · rintro ⟨_, _, h, hrest⟩
      cases h
      exact hrest

/-- A known run decides what a program returns. -/
theorem returns_iff_of_run {program : Program Answer Fault Value} {state state' state'' : State}
    {value result : Value} (h : program.run handle state = (.ok value, state')) :
    program.Returns handle state result state'' ↔ value = result ∧ state' = state'' := by
  simp [Returns, h]

/-- Execution is deterministic, so a normal result is unique. -/
theorem Returns.unique {program : Program Answer Fault Value} {state left right : State}
    {value value' : Value} (h : program.Returns handle state value left)
    (h' : program.Returns handle state value' right) : value = value' ∧ left = right := by
  unfold Returns at h h'
  rw [h] at h'
  simpa using h'

/-! ## Frame rules -/

/-- Every call the program can make satisfies `allowed`, whatever the answers are. -/
def CallsOnly (allowed : Call → Prop) : Program Answer Fault Value → Prop
  | .done _ => True
  | .raise _ => True
  | .call request next => allowed request ∧ ∀ answer, (next answer).CallsOnly allowed

@[simp]
theorem callsOnly_pure {allowed : Call → Prop} (value : Value) :
    (pure value : Program Answer Fault Value).CallsOnly allowed := trivial

@[simp]
theorem callsOnly_throw {allowed : Call → Prop} (fault : Fault) :
    (throw fault : Program Answer Fault Value).CallsOnly allowed := trivial

@[simp]
theorem callsOnly_request {allowed : Call → Prop} {call : Call} :
    (request call : Program Answer Fault (Answer call)).CallsOnly allowed ↔ allowed call :=
  ⟨fun h ↦ h.1, fun h ↦ ⟨h, fun _ ↦ trivial⟩⟩

theorem CallsOnly.mono {allowed allowed' : Call → Prop} {program : Program Answer Fault Value}
    (h : program.CallsOnly allowed) (himp : ∀ {call}, allowed call → allowed' call) :
    program.CallsOnly allowed' := by
  induction program with
  | done value => trivial
  | raise fault => trivial
  | call request next ih => exact ⟨himp h.1, fun answer ↦ ih answer (h.2 answer)⟩

theorem CallsOnly.bind {allowed : Call → Prop} {program : Program Answer Fault Value}
    {rest : Value → Program Answer Fault Result} (hprogram : program.CallsOnly allowed)
    (hrest : ∀ value, (rest value).CallsOnly allowed) :
    (program >>= rest).CallsOnly allowed := by
  change (program.bind rest).CallsOnly allowed
  induction program with
  | done value => exact hrest value
  | raise fault => trivial
  | call request next ih => exact ⟨hprogram.1, fun answer ↦ ih answer (hprogram.2 answer)⟩

theorem CallsOnly.tryCatch {allowed : Call → Prop} {program : Program Answer Fault Value}
    {recover : Fault → Program Answer Fault Value} (hprogram : program.CallsOnly allowed)
    (hrecover : ∀ fault, (recover fault).CallsOnly allowed) :
    (program.tryCatch recover).CallsOnly allowed := by
  induction program with
  | done value => trivial
  | raise fault => exact hrecover fault
  | call request next ih => exact ⟨hprogram.1, fun answer ↦ ih answer (hprogram.2 answer)⟩

/-- A program runs the same over two states of which one is embedded in the other, as far as its
calls do. -/
theorem CallsOnly.run_embed {allowed : Call → Prop} {Whole : Type} {handle' : Handler Answer Whole}
    {embed : State → Whole}
    (hcall : ∀ call state, allowed call →
      handle' call (embed state) = ((handle call state).1, embed (handle call state).2))
    {program : Program Answer Fault Value} (hprogram : program.CallsOnly allowed) (state : State) :
    program.run handle' (embed state) =
      ((program.run handle state).1, embed (program.run handle state).2) := by
  induction program generalizing state with
  | done value => rfl
  | raise fault => rfl
  | call request next ih =>
      rw [run, hcall request state hprogram.1]
      exact ih _ (hprogram.2 _) _

/-- A relation that every allowed call respects holds between the ends of a run. -/
theorem CallsOnly.run_rel {allowed : Call → Prop} {Related : State → State → Prop}
    (hrefl : ∀ state, Related state state)
    (htrans : ∀ {first second third}, Related first second → Related second third →
      Related first third)
    (hcall : ∀ call state, allowed call → Related state (handle call state).2)
    {program : Program Answer Fault Value} (hprogram : program.CallsOnly allowed)
    (state : State) : Related state (program.run handle state).2 := by
  induction program generalizing state with
  | done value => exact hrefl state
  | raise fault => exact hrefl state
  | call request next ih =>
      exact htrans (hcall request state hprogram.1) (ih _ (hprogram.2 _) _)

end Program

end Ndns.Calls

import Ndns.Calls.Program

/-!
# Contracts of Programs

`Ensures` follows one run of a program: every call is allowed in the state it is made in, and the
way the program ends, by a value or by a fault, satisfies the postcondition in the last state.  A
program has one rule for each of its constructions, so the contract of an operation is put together
from the contracts of its parts, whether or not they end normally.

An invariant that the allowed calls keep holds in every state a run goes through.
-/

namespace Ndns.Calls

namespace Program

variable {Call : Type} {Answer : Call → Type} {Fault Value Result State : Type}
  {handle : Handler Answer State}

/-- The run from a state makes allowed calls only, and its end satisfies the postcondition. -/
def Ensures (handle : Handler Answer State) (allowed : Call → State → Prop)
    (post : Except Fault Value → State → Prop) : Program Answer Fault Value → State → Prop
  | .done value, state => post (.ok value) state
  | .raise fault, state => post (.error fault) state
  | .call request next, state => allowed request state ∧
      (next (handle request state).1).Ensures handle allowed post (handle request state).2

variable {allowed allowed' : Call → State → Prop} {post post' : Except Fault Value → State → Prop}
  {state : State}

@[simp]
theorem ensures_pure {value : Value} :
    (pure value : Program Answer Fault Value).Ensures handle allowed post state ↔
      post (.ok value) state := Iff.rfl

@[simp]
theorem ensures_throw {fault : Fault} :
    (throw fault : Program Answer Fault Value).Ensures handle allowed post state ↔
      post (.error fault) state := Iff.rfl

theorem Ensures.mono {program : Program Answer Fault Value}
    (h : program.Ensures handle allowed post state)
    (hallowed : ∀ request state, allowed request state → allowed' request state)
    (hpost : ∀ outcome state, post outcome state → post' outcome state) :
    program.Ensures handle allowed' post' state := by
  induction program generalizing state with
  | done value => exact hpost _ _ h
  | raise fault => exact hpost _ _ h
  | call request next ih => exact ⟨hallowed _ _ h.1, ih _ h.2⟩

theorem Ensures.weaken {program : Program Answer Fault Value}
    (h : program.Ensures handle allowed post state)
    (hpost : ∀ outcome state, post outcome state → post' outcome state) :
    program.Ensures handle allowed post' state :=
  h.mono (fun _ _ hcall ↦ hcall) hpost

/-- Sequencing: the second program takes over where the first one returns. -/
theorem ensures_bind {program : Program Answer Fault Value}
    {rest : Value → Program Answer Fault Result}
    {post : Except Fault Result → State → Prop} :
    (program >>= rest).Ensures handle allowed post state ↔
      program.Ensures handle allowed (fun outcome state' ↦ match outcome with
        | .ok value => (rest value).Ensures handle allowed post state'
        | .error fault => post (.error fault) state') state := by
  change (program.bind rest).Ensures handle allowed post state ↔ _
  induction program generalizing state with
  | done value => rfl
  | raise fault => rfl
  | call request next ih => exact and_congr_right fun _ ↦ ih _

theorem Ensures.bind {program : Program Answer Fault Value}
    {rest : Value → Program Answer Fault Result} {post : Except Fault Result → State → Prop}
    {middle : Except Fault Value → State → Prop}
    (hprogram : program.Ensures handle allowed middle state)
    (hrest : ∀ value state', middle (.ok value) state' →
      (rest value).Ensures handle allowed post state')
    (hfault : ∀ fault state', middle (.error fault) state' → post (.error fault) state') :
    (program >>= rest).Ensures handle allowed post state := by
  rw [ensures_bind]
  refine hprogram.weaken fun outcome state' hmiddle ↦ ?_
  cases outcome with
  | ok value => exact hrest value state' hmiddle
  | error fault => exact hfault fault state' hmiddle

/-- Recovery: the handler takes over where the program throws. -/
theorem Ensures.tryCatch {program : Program Answer Fault Value}
    {recover : Fault → Program Answer Fault Value} {middle : Except Fault Value → State → Prop}
    (hprogram : program.Ensures handle allowed middle state)
    (hvalue : ∀ value state', middle (.ok value) state' → post (.ok value) state')
    (hrecover : ∀ fault state', middle (.error fault) state' →
      (recover fault).Ensures handle allowed post state') :
    (program.tryCatch recover).Ensures handle allowed post state := by
  induction program generalizing state with
  | done value => exact hvalue _ _ hprogram
  | raise fault => exact hrecover _ _ hprogram
  | call request next ih => exact ⟨hprogram.1, ih _ hprogram.2⟩

/-- What a contract says about the run as a whole. -/
theorem Ensures.run {program : Program Answer Fault Value}
    (h : program.Ensures handle allowed post state) :
    post (program.run handle state).1 (program.run handle state).2 := by
  induction program generalizing state with
  | done value => exact h
  | raise fault => exact h
  | call request next ih => exact ih _ h.2

/-- When nothing is asked of the calls, a contract is about the end of the run. -/
theorem ensures_of_run {program : Program Answer Fault Value}
    (h : post (program.run handle state).1 (program.run handle state).2) :
    program.Ensures handle (fun _ _ ↦ True) post state := by
  induction program generalizing state with
  | done value => exact h
  | raise fault => exact h
  | call request next ih => exact ⟨trivial, ih _ h⟩

/-- A program whose calls are of a kind ends as it runs. -/
theorem CallsOnly.ensures {kind : Call → Prop} {program : Program Answer Fault Value}
    (h : program.CallsOnly kind) (state : State) :
    program.Ensures handle (fun request _ ↦ kind request)
      (fun outcome state' ↦ program.run handle state = (outcome, state')) state := by
  induction program generalizing state with
  | done value => rfl
  | raise fault => rfl
  | call request next ih => exact ⟨h.1, ih _ (h.2 _) _⟩

/-- Two contracts of one run. -/
theorem Ensures.and {program : Program Answer Fault Value}
    (h : program.Ensures handle allowed post state)
    (h' : program.Ensures handle allowed' post' state) :
    program.Ensures handle (fun request state ↦ allowed request state ∧ allowed' request state)
      (fun outcome state ↦ post outcome state ∧ post' outcome state) state := by
  induction program generalizing state with
  | done value => exact ⟨h, h'⟩
  | raise fault => exact ⟨h, h'⟩
  | call request next ih => exact ⟨⟨h.1, h'.1⟩, ih _ h.2 h'.2⟩

/-! ## Ends -/

/-- However its calls are answered, the program ends in this way. -/
def Ends (ending : Except Fault Value → Prop) : Program Answer Fault Value → Prop
  | .done value => ending (.ok value)
  | .raise fault => ending (.error fault)
  | .call _ next => ∀ answer, (next answer).Ends ending

variable {ending : Except Fault Value → Prop}

@[simp]
theorem ends_pure {value : Value} :
    (pure value : Program Answer Fault Value).Ends ending ↔ ending (.ok value) := Iff.rfl

@[simp]
theorem ends_throw {fault : Fault} :
    (throw fault : Program Answer Fault Value).Ends ending ↔ ending (.error fault) := Iff.rfl

theorem ends_request {request : Call} {ending : Except Fault (Answer request) → Prop}
    (h : ∀ answer, ending (.ok answer)) :
    (Program.request request : Program Answer Fault (Answer request)).Ends ending := h

theorem Ends.weaken {ending' : Except Fault Value → Prop} {program : Program Answer Fault Value}
    (h : program.Ends ending) (hending : ∀ outcome, ending outcome → ending' outcome) :
    program.Ends ending' := by
  induction program with
  | done value => exact hending _ h
  | raise fault => exact hending _ h
  | call request next ih => exact fun answer ↦ ih answer (h answer)

theorem Ends.bind {program : Program Answer Fault Value}
    {rest : Value → Program Answer Fault Result} {ending' : Except Fault Result → Prop}
    (h : program.Ends ending) (hrest : ∀ value, ending (.ok value) → (rest value).Ends ending')
    (hfault : ∀ fault, ending (.error fault) → ending' (.error fault)) :
    (program >>= rest).Ends ending' := by
  change (program.bind rest).Ends ending'
  induction program with
  | done value => exact hrest value h
  | raise fault => exact hfault fault h
  | call request next ih => exact fun answer ↦ ih answer (h answer)

theorem Ends.tryCatch {program : Program Answer Fault Value}
    {recover : Fault → Program Answer Fault Value} {ending' : Except Fault Value → Prop}
    (h : program.Ends ending) (hvalue : ∀ value, ending (.ok value) → ending' (.ok value))
    (hrecover : ∀ fault, ending (.error fault) → (recover fault).Ends ending') :
    (program.tryCatch recover).Ends ending' := by
  induction program with
  | done value => exact hvalue value h
  | raise fault => exact hrecover fault h
  | call request next ih => exact fun answer ↦ ih answer (h answer)

theorem Ends.run {program : Program Answer Fault Value} (h : program.Ends ending) (state : State) :
    ending (program.run handle state).1 := by
  induction program generalizing state with
  | done value => exact h
  | raise fault => exact h
  | call request next ih => exact ih _ (h _) _

/-- What the ends of a program have in common holds of the end of each contract of it. -/
theorem Ensures.and_ends {program : Program Answer Fault Value}
    (h : program.Ensures handle allowed post state) (hends : program.Ends ending) :
    program.Ensures handle allowed (fun outcome state ↦ post outcome state ∧ ending outcome)
      state := by
  induction program generalizing state with
  | done value => exact ⟨h, hends⟩
  | raise fault => exact ⟨h, hends⟩
  | call request next ih => exact ⟨h.1, ih _ h.2 (hends _)⟩

/-! ## Invariants -/

variable {invariant : State → Prop}

/-- An invariant that the allowed calls keep holds at every call and at the end. -/
theorem Ensures.keeps {program : Program Answer Fault Value}
    (h : program.Ensures handle allowed post state) (hstart : invariant state)
    (hcall : ∀ request state, invariant state → allowed request state →
      invariant (handle request state).2) :
    program.Ensures handle
      (fun request state ↦ allowed request state ∧ invariant (handle request state).2)
      (fun outcome state ↦ post outcome state ∧ invariant state) state := by
  induction program generalizing state with
  | done value => exact ⟨h, hstart⟩
  | raise fault => exact ⟨h, hstart⟩
  | call request next ih =>
      have hnext := hcall request state hstart h.1
      exact ⟨⟨h.1, hnext⟩, ih _ h.2 hnext⟩

/-- The states a run goes through: the first one, and the one after each call. -/
def visited (handle : Handler Answer State) : Program Answer Fault Value → State → List State
  | .done _, state => [state]
  | .raise _, state => [state]
  | .call request next, state =>
      state :: (next (handle request state).1).visited handle (handle request state).2

/-- A property the calls of a run lead to holds in every state the run goes through. -/
theorem Ensures.visited {program : Program Answer Fault Value}
    (h : program.Ensures handle (fun request state ↦ invariant (handle request state).2) post state)
    (hstart : invariant state) : ∀ later ∈ program.visited handle state, invariant later := by
  induction program generalizing state with
  | done value => simpa [Program.visited] using hstart
  | raise fault => simpa [Program.visited] using hstart
  | call request next ih =>
      intro later hlater
      rcases List.mem_cons.mp hlater with rfl | hrest
      · exact hstart
      · exact ih _ h.2 h.1 later hrest

end Program

end Ndns.Calls

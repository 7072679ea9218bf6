import Ndns.Calls.Program

/-!
# Refinement of a Component

A component offers calls, and a `Specification` says of each call when it may be made, what it may
answer and what it does to an abstract state.  Each call is implemented by a program over the calls
of a lower level.  When every single implementation refines its specification, so does every
program that keeps to the preconditions: whatever it does on the implementation is something it may
do on the specification.
-/

namespace Ndns.Calls

/-- When the calls of a component may be made, and what they may answer and change. -/
structure Specification {Call : Type} (Answer : Call → Type) (Abstract : Type) where
  pre : Call → Abstract → Prop
  post : (request : Call) → Abstract → Answer request → Abstract → Prop

namespace Program

variable {Call Lower : Type} {Answer : Call → Type} {LowerAnswer : Lower → Type}
  {Fault Value Result Abstract State : Type}

/-! ## Programs over a specification -/

/-- What a program may do when its calls do what is specified. -/
inductive Behaves (spec : Specification Answer Abstract) :
    Program Answer Fault Value → Abstract → Except Fault Value → Abstract → Prop
  | done {value : Value} {abstract : Abstract} :
      Behaves spec (.done value) abstract (.ok value) abstract
  | raise {fault : Fault} {abstract : Abstract} :
      Behaves spec (.raise fault) abstract (.error fault) abstract
  | call {request : Call} {next : Answer request → Program Answer Fault Value}
      {abstract middle last : Abstract} {answer : Answer request} {outcome : Except Fault Value}
      (hpost : spec.post request abstract answer middle)
      (hrest : Behaves spec (next answer) middle outcome last) :
      Behaves spec (.call request next) abstract outcome last

/-- The program makes no call outside its precondition, whatever was answered before. -/
def Respects (spec : Specification Answer Abstract) :
    Program Answer Fault Value → Abstract → Prop
  | .done _, _ => True
  | .raise _, _ => True
  | .call request next, abstract => spec.pre request abstract ∧
      ∀ answer middle, spec.post request abstract answer middle → (next answer).Respects spec middle

/-! ## Implementations -/

variable (implementation : (request : Call) → Program LowerAnswer Fault (Answer request))

/-- The program with each call replaced by its implementation. -/
def implement : Program Answer Fault Value → Program LowerAnswer Fault Value
  | .done value => .done value
  | .raise fault => .raise fault
  | .call request next => implementation request >>= fun answer ↦ (next answer).implement

/-- Within its precondition each implementation returns, with an answer and a state that its
specification allows. -/
def Refines (handle : Handler LowerAnswer State) (spec : Specification Answer Abstract)
    (represents : State → Abstract → Prop) : Prop :=
  ∀ request state abstract, represents state abstract → spec.pre request abstract →
    ∃ answer state' abstract', (implementation request).Returns handle state answer state' ∧
      spec.post request abstract answer abstract' ∧ represents state' abstract'

variable {implementation} {spec : Specification Answer Abstract} {abstract : Abstract} {handle : Handler LowerAnswer State}
  {represents : State → Abstract → Prop}

/-- Every run of a program on the implementation is one of its behaviours on the specification. -/
theorem Refines.run (h : Refines implementation handle spec represents)
    {program : Program Answer Fault Value} {state : State} (hstate : represents state abstract)
    (hrespects : program.Respects spec abstract) :
    ∃ last, program.Behaves spec abstract
        ((program.implement implementation).run handle state).1 last ∧
      represents ((program.implement implementation).run handle state).2 last := by
  induction program generalizing state abstract with
  | done value => exact ⟨abstract, .done, hstate⟩
  | raise fault => exact ⟨abstract, .raise, hstate⟩
  | call request next ih =>
      obtain ⟨answer, middle, abstract', hreturns, hpost, hmiddle⟩ :=
        h request state abstract hstate hrespects.1
      obtain ⟨last, hrest, hlast⟩ := ih answer hmiddle (hrespects.2 answer abstract' hpost)
      have hrun : ((Program.call request next).implement implementation).run handle state =
          ((next answer).implement implementation).run handle middle := by
        rw [implement, run_bind, hreturns]
      rw [hrun]
      exact ⟨last, .call hpost hrest, hlast⟩

end Program

end Ndns.Calls

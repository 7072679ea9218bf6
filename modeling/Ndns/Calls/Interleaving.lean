import Ndns.Calls.Program
import Mathlib.Data.List.Infix

/-!
# Two Programs over One State

Two programs take turns on a shared state: a schedule says which of them makes the next call.  To
reason about all schedules, each program is compared with an `Automaton` of its own.  The automaton
has phases, says what holds of the shared state in a phase, and which phase a call leads to; a
program `Follows` it when every call it can make is one of these moves.  What two automata keep
together, two programs that follow them keep under every schedule.
-/

namespace Ndns.Calls

variable {Call : Type} {Answer : Call → Type} {Fault Value Result State : Type}

/-! ## Schedules -/

inductive Side where
  | left
  | right
deriving DecidableEq

namespace Program

/-- How a program has ended, if it has. -/
def outcome : Program Answer Fault Value → Option (Except Fault Value)
  | .done value => some (.ok value)
  | .raise fault => some (.error fault)
  | .call _ _ => none

/-- The call a program makes next. -/
def pending : Program Answer Fault Value → Option Call
  | .call request _ => some request
  | _ => none

/-- One call; a program that has ended stays as it is. -/
def step (handle : Handler Answer State) :
    Program Answer Fault Value → State → Program Answer Fault Value × State
  | .call request next, state => (next (handle request state).1, (handle request state).2)
  | program, state => (program, state)

end Program

/-- What is left of two programs, and the state they share. -/
structure Config {Call : Type} (Answer : Call → Type) (Fault Left Right State : Type) where
  left : Program Answer Fault Left
  right : Program Answer Fault Right
  state : State

namespace Config

variable {Left Right : Type}

/-- One call of the given side. -/
def step (handleLeft handleRight : Handler Answer State)
    (config : Config Answer Fault Left Right State) : Side → Config Answer Fault Left Right State
  | .left =>
      { config with
        left := (config.left.step handleLeft config.state).1
        state := (config.left.step handleLeft config.state).2 }
  | .right =>
      { config with
        right := (config.right.step handleRight config.state).1
        state := (config.right.step handleRight config.state).2 }

/-- The calls of a schedule one after another. -/
def run (handleLeft handleRight : Handler Answer State) (schedule : List Side)
    (config : Config Answer Fault Left Right State) : Config Answer Fault Left Right State :=
  schedule.foldl (step handleLeft handleRight) config

end Config

/-! ## Automata -/

/-- An abstract process: what holds of the state in each phase, and the moves from phase to phase
that go with its calls. -/
structure Automaton (Call Phase State : Type) where
  holds : Phase → State → Prop
  moves : Phase → Call → State → Phase → Prop

namespace Program

variable {Phase : Type}

/-- Every call the program can make where its phase holds is a move of the automaton, and what it
ends with suits the last phase. -/
def Follows (handle : Handler Answer State) (automaton : Automaton Call Phase State)
    (final : Phase → Except Fault Value → Prop) : Program Answer Fault Value → Phase → Prop
  | .done value, phase => final phase (.ok value)
  | .raise fault, phase => final phase (.error fault)
  | .call request next, phase => ∀ state, automaton.holds phase state →
      ∃ phase', automaton.moves phase request state phase' ∧
        (next (handle request state).1).Follows handle automaton final phase'

variable {handle : Handler Answer State} {automaton : Automaton Call Phase State}
  {final : Phase → Except Fault Value → Prop} {phase : Phase}

@[simp]
theorem follows_pure {value : Value} :
    (pure value : Program Answer Fault Value).Follows handle automaton final phase ↔
      final phase (.ok value) := Iff.rfl

@[simp]
theorem follows_throw {fault : Fault} :
    (throw fault : Program Answer Fault Value).Follows handle automaton final phase ↔
      final phase (.error fault) := Iff.rfl

theorem Follows.mono {final' : Phase → Except Fault Value → Prop}
    {program : Program Answer Fault Value} (h : program.Follows handle automaton final phase)
    (hfinal : ∀ phase result, final phase result → final' phase result) :
    program.Follows handle automaton final' phase := by
  induction program generalizing phase with
  | done value => exact hfinal _ _ h
  | raise fault => exact hfinal _ _ h
  | call request next ih =>
      intro state hholds
      obtain ⟨phase', hmoves, hnext⟩ := h state hholds
      exact ⟨phase', hmoves, ih _ hnext⟩

/-- An automaton is followed inside a larger one. -/
theorem Follows.embed {Phase' : Type} {automaton' : Automaton Call Phase' State}
    {final' : Phase' → Except Fault Value → Prop} {embed : Phase → Phase'}
    (hholds : ∀ phase state, automaton'.holds (embed phase) state → automaton.holds phase state)
    (hmoves : ∀ phase request state phase', automaton.moves phase request state phase' →
      automaton'.moves (embed phase) request state (embed phase'))
    (hfinal : ∀ phase result, final phase result → final' (embed phase) result)
    {program : Program Answer Fault Value} (h : program.Follows handle automaton final phase) :
    program.Follows handle automaton' final' (embed phase) := by
  induction program generalizing phase with
  | done value => exact hfinal _ _ h
  | raise fault => exact hfinal _ _ h
  | call request next ih =>
      intro state hstate
      obtain ⟨phase', hmove, hnext⟩ := h state (hholds _ _ hstate)
      exact ⟨embed phase', hmoves _ _ _ _ hmove, ih _ hnext⟩

/-- How a sequence ends after its first part has ended. -/
def AndThen (handle : Handler Answer State) (automaton : Automaton Call Phase State)
    (final : Phase → Except Fault Result → Prop) (rest : Value → Program Answer Fault Result)
    (phase : Phase) : Except Fault Value → Prop
  | .ok value => (rest value).Follows handle automaton final phase
  | .error fault => final phase (.error fault)

/-- The second part of a sequence goes on in the phase the first part ends in. -/
theorem Follows.bind {final : Phase → Except Fault Result → Prop}
    {program : Program Answer Fault Value} {rest : Value → Program Answer Fault Result}
    (h : program.Follows handle automaton (AndThen handle automaton final rest) phase) :
    (program >>= rest).Follows handle automaton final phase := by
  change (program.bind rest).Follows handle automaton final phase
  induction program generalizing phase with
  | done value => exact h
  | raise fault => exact h
  | call request next ih =>
      intro state hholds
      obtain ⟨phase', hmoves, hnext⟩ := h state hholds
      exact ⟨phase', hmoves, ih _ hnext⟩

/-- The handler of a fault goes on in the phase the fault was thrown in. -/
theorem Follows.tryCatch {program : Program Answer Fault Value}
    {recover : Fault → Program Answer Fault Value}
    (h : program.Follows handle automaton (fun phase result ↦
      match result with
      | .ok value => final phase (.ok value)
      | .error fault => (recover fault).Follows handle automaton final phase) phase) :
    (program.tryCatch recover).Follows handle automaton final phase := by
  induction program generalizing phase with
  | done value => exact h
  | raise fault => exact h
  | call request next ih =>
      intro state hholds
      obtain ⟨phase', hmoves, hnext⟩ := h state hholds
      exact ⟨phase', hmoves, ih _ hnext⟩

/-- A program that has ended ends as its phase says. -/
theorem Follows.of_outcome {program : Program Answer Fault Value} {result : Except Fault Value}
    (h : program.Follows handle automaton final phase) (houtcome : program.outcome = some result) :
    final phase result := by
  cases program with
  | done value =>
      cases houtcome
      exact h
  | raise fault =>
      cases houtcome
      exact h
  | call request next => cases houtcome

/-! ## Atomic programs -/

/-- A program that makes one call and then ends, whatever the answer is. -/
def IsAtomic (request : Call) (program : Program Answer Fault Value) : Prop :=
  ∃ next, program = .call request next ∧ ∀ answer, (next answer).outcome.isSome

/-- For an atomic program it is enough to look at its sequential run. -/
theorem IsAtomic.follows {request : Call} {program : Program Answer Fault Value}
    (hatomic : program.IsAtomic request)
    (h : ∀ state, automaton.holds phase state → ∃ phase',
      automaton.moves phase request state phase' ∧ final phase' (program.run handle state).1) :
    program.Follows handle automaton final phase := by
  obtain ⟨next, rfl, hends⟩ := hatomic
  intro state hholds
  obtain ⟨phase', hmoves, hfinal⟩ := h state hholds
  refine ⟨phase', hmoves, ?_⟩
  have hend := hends (handle request state).1
  rw [run] at hfinal
  cases hnext : next (handle request state).1 with
  | done value =>
      rw [hnext] at hfinal
      exact hfinal
  | raise fault =>
      rw [hnext] at hfinal
      exact hfinal
  | call other rest =>
      rw [hnext] at hend
      cases hend

/-- How an atomic program ends depends on the answer to its call only. -/
theorem IsAtomic.run_fst {Other : Type} {handle' : Handler Answer Other} {request : Call}
    {program : Program Answer Fault Value} (hatomic : program.IsAtomic request) {state : State}
    {state' : Other} (hanswer : (handle request state).1 = (handle' request state').1) :
    (program.run handle state).1 = (program.run handle' state').1 := by
  obtain ⟨next, rfl, hends⟩ := hatomic
  have hend := hends (handle' request state').1
  rw [run, run, hanswer]
  cases hnext : next (handle' request state').1 with
  | done value => rfl
  | raise fault => rfl
  | call other rest =>
      rw [hnext] at hend
      cases hend

end Program

/-! ## Two automata -/

section Together

variable {Left Right PhaseLeft PhaseRight : Type} {handleLeft handleRight : Handler Answer State}
  {automatonLeft : Automaton Call PhaseLeft State}
  {automatonRight : Automaton Call PhaseRight State}
  {finalLeft : PhaseLeft → Except Fault Left → Prop}
  {finalRight : PhaseRight → Except Fault Right → Prop}
  {together compatible : PhaseLeft → PhaseRight → State → Prop}

/-- What two automata keep together while they take turns, as long as they are compatible. -/
structure KeptTogether (handleLeft handleRight : Handler Answer State)
    (automatonLeft : Automaton Call PhaseLeft State)
    (automatonRight : Automaton Call PhaseRight State)
    (together compatible : PhaseLeft → PhaseRight → State → Prop) : Prop where
  holds : ∀ {left right state}, together left right state →
    automatonLeft.holds left state ∧ automatonRight.holds right state
  left : ∀ {left right state request left'}, together left right state →
    compatible left right state → automatonLeft.moves left request state left' →
      together left' right (handleLeft request state).2
  right : ∀ {left right state request right'}, together left right state →
    compatible left right state → automatonRight.moves right request state right' →
      together left right' (handleRight request state).2

/-- The two programs follow their automata, and these keep something together. -/
def Config.Keeps (handleLeft handleRight : Handler Answer State)
    (automatonLeft : Automaton Call PhaseLeft State)
    (automatonRight : Automaton Call PhaseRight State)
    (finalLeft : PhaseLeft → Except Fault Left → Prop)
    (finalRight : PhaseRight → Except Fault Right → Prop)
    (together : PhaseLeft → PhaseRight → State → Prop)
    (config : Config Answer Fault Left Right State) (left : PhaseLeft) (right : PhaseRight) :
    Prop :=
  config.left.Follows handleLeft automatonLeft finalLeft left ∧
    config.right.Follows handleRight automatonRight finalRight right ∧
    together left right config.state

/-- One turn. -/
theorem KeptTogether.step
    (h : KeptTogether handleLeft handleRight automatonLeft automatonRight together compatible)
    {config : Config Answer Fault Left Right State} {left : PhaseLeft} {right : PhaseRight}
    (hkeeps : config.Keeps handleLeft handleRight automatonLeft automatonRight finalLeft finalRight
      together left right) (hcompatible : compatible left right config.state) (side : Side) :
    ∃ left' right', (config.step handleLeft handleRight side).Keeps handleLeft handleRight
      automatonLeft automatonRight finalLeft finalRight together left' right' := by
  obtain ⟨hleft, hright, htogether⟩ := hkeeps
  obtain ⟨programLeft, programRight, state⟩ := config
  cases side with
  | left =>
      cases programLeft with
      | done value => exact ⟨left, right, hleft, hright, htogether⟩
      | raise fault => exact ⟨left, right, hleft, hright, htogether⟩
      | call request next =>
          obtain ⟨left', hmoves, hnext⟩ := hleft state (h.holds htogether).1
          exact ⟨left', right, hnext, hright, h.left htogether hcompatible hmoves⟩
  | right =>
      cases programRight with
      | done value => exact ⟨left, right, hleft, hright, htogether⟩
      | raise fault => exact ⟨left, right, hleft, hright, htogether⟩
      | call request next =>
          obtain ⟨right', hmoves, hnext⟩ := hright state (h.holds htogether).2
          exact ⟨left, right', hleft, hnext, h.right htogether hcompatible hmoves⟩

/-- A whole schedule, as long as the configurations on the way permit only compatible phases. -/
theorem KeptTogether.run
    (h : KeptTogether handleLeft handleRight automatonLeft automatonRight together compatible)
    {permits : Config Answer Fault Left Right State → Prop}
    (hpermits : ∀ {config left right}, config.Keeps handleLeft handleRight automatonLeft
      automatonRight finalLeft finalRight together left right → permits config →
        compatible left right config.state)
    {config : Config Answer Fault Left Right State} {left : PhaseLeft} {right : PhaseRight}
    (hkeeps : config.Keeps handleLeft handleRight automatonLeft automatonRight finalLeft finalRight
      together left right) {schedule : List Side}
    (hschedule : ∀ past, past <+: schedule → permits (config.run handleLeft handleRight past)) :
    ∃ left' right', (config.run handleLeft handleRight schedule).Keeps handleLeft handleRight
      automatonLeft automatonRight finalLeft finalRight together left' right' := by
  induction schedule generalizing config left right with
  | nil => exact ⟨left, right, hkeeps⟩
  | cons side rest ih =>
      obtain ⟨left', right', hstep⟩ :=
        h.step hkeeps (hpermits hkeeps (hschedule [] List.nil_prefix)) side
      refine ih hstep fun past hpast ↦ ?_
      exact hschedule (side :: past) (List.cons_prefix_cons.mpr ⟨rfl, hpast⟩)

end Together

end Ndns.Calls

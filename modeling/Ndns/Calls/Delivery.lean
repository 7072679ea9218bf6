import Ndns.Calls.Program

/-!
# Programs That Return

`Delivers` is total correctness: from each state that satisfies the precondition the program
returns normally, and what it returns satisfies the postcondition.  A program delivers as soon as it
returns at all and each of its normal returns is known to be right, so the rules for normal
termination can be used for the second half.
-/

namespace Ndns.Calls

namespace Program

variable {Call : Type} {Answer : Call → Type} {Fault Value Result State : Type}

/-- From each state that satisfies the precondition the program returns, and the value and the last
state satisfy the postcondition. -/
def Delivers (handle : Handler Answer State) (pre : State → Prop)
    (program : Program Answer Fault Value) (post : Value → State → Prop) : Prop :=
  ∀ state, pre state → ∃ value state', program.Returns handle state value state' ∧
    post value state'

variable {handle : Handler Answer State} {pre : State → Prop} {post post' : Value → State → Prop}
  {program : Program Answer Fault Value}

theorem delivers_pure {value : Value} (h : ∀ state, pre state → post value state) :
    Delivers handle pre (pure value : Program Answer Fault Value) post :=
  fun state hpre ↦ ⟨value, state, returns_pure.mpr ⟨rfl, rfl⟩, h state hpre⟩

theorem Delivers.weaken (h : Delivers handle pre program post)
    (hpost : ∀ value state, post value state → post' value state) :
    Delivers handle pre program post' := by
  intro state hpre
  obtain ⟨value, state', hreturns, hend⟩ := h state hpre
  exact ⟨value, state', hreturns, hpost value state' hend⟩

/-- Sequencing: the first postcondition is the precondition of what follows. -/
theorem Delivers.bind {rest : Value → Program Answer Fault Result} {last : Result → State → Prop}
    (h : Delivers handle pre program post)
    (hrest : ∀ value, Delivers handle (post value) (rest value) last) :
    Delivers handle pre (program >>= rest) last := by
  intro state hpre
  obtain ⟨value, middle, hreturns, hmiddle⟩ := h state hpre
  obtain ⟨result, state', hresult, hend⟩ := hrest value middle hmiddle
  exact ⟨result, state', returns_bind.mpr ⟨value, middle, hreturns, hresult⟩, hend⟩

/-- A program that returns satisfies what is known of each of its returns. -/
theorem Delivers.and_returns (h : Delivers handle pre program post)
    (hreturns : ∀ state value state', pre state → program.Returns handle state value state' →
      post' value state') :
    Delivers handle pre program fun value state ↦ post value state ∧ post' value state := by
  intro state hpre
  obtain ⟨value, state', hresult, hend⟩ := h state hpre
  exact ⟨value, state', hresult, hend, hreturns state value state' hpre hresult⟩

/-- Execution is deterministic, so every normal return satisfies the postcondition. -/
theorem Delivers.returns (h : Delivers handle pre program post) {state state' : State}
    {value : Value} (hpre : pre state) (hreturns : program.Returns handle state value state') :
    post value state' := by
  obtain ⟨value', state'', hreturns', hend⟩ := h state hpre
  obtain ⟨rfl, rfl⟩ := hreturns'.unique hreturns
  exact hend

end Program

end Ndns.Calls

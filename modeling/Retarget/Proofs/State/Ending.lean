import Retarget.Proofs.State.Changes

/-!
# How actions end

An action ends well where it succeeds with a given property of what it gives and of the state that
it leaves, or fails with a given property of its fault and of the state. It `Ends` as expected where
its faults are, and `Upholds` a law where it leaves a lawful state even when it fails.
-/

namespace Retarget

variable {ε σ α β : Type}

/-- An action that succeeds leaves what is described, and so does one that fails. -/
def EndsIn (failing : ε → σ → Prop) (action : EStateM ε σ α) (before : σ)
    (post : α → σ → Prop) : Prop :=
  match action before with
  | .ok value after => post value after
  | .error fault after => failing fault after

/-- An action that succeeds leaves what is described, and one that fails does so as expected. -/
abbrev Ends (expected : ε → Prop) (action : EStateM ε σ α) (before : σ)
    (post : α → σ → Prop) : Prop :=
  EndsIn (fun fault _ => expected fault) action before post

/-- An action that succeeds leaves what is described, and one that fails leaves a lawful state. -/
abbrev Upholds (lawful : σ → Prop) (action : EStateM ε σ α) (before : σ)
    (post : α → σ → Prop) : Prop :=
  EndsIn (fun _ => lawful) action before post

namespace EndsIn

variable {failing : ε → σ → Prop} {action : EStateM ε σ α} {next : α → EStateM ε σ β} {before : σ}
  {middle : α → σ → Prop} {post : β → σ → Prop}

/-- A run that goes on as another one ends as it does. -/
theorem of_eq {other : EStateM ε σ α} {state : σ} (same : action before = other state)
    (ends : EndsIn failing other state middle) : EndsIn failing action before middle := by
  unfold EndsIn
  rw [same]
  exact ends

theorem of_eq_ok {value : α} {after : σ} (done : action before = .ok value after)
    (held : middle value after) : EndsIn failing action before middle := by
  unfold EndsIn
  rw [done]
  exact held

theorem of_eq_error {fault : ε} {after : σ} (failed : action before = .error fault after)
    (known : failing fault after) : EndsIn failing action before middle := by
  unfold EndsIn
  rw [failed]
  exact known

theorem post_of_eq_ok {value : α} {after : σ} (ends : EndsIn failing action before middle)
    (done : action before = .ok value after) : middle value after := by
  unfold EndsIn at ends
  rw [done] at ends
  exact ends

theorem failing_of_eq_error {fault : ε} {after : σ} (ends : EndsIn failing action before middle)
    (failed : action before = .error fault after) : failing fault after := by
  unfold EndsIn at ends
  rw [failed] at ends
  exact ends

theorem pure {value : β} (held : post value before) :
    EndsIn failing (Pure.pure value : EStateM ε σ β) before post :=
  held

theorem throw {fault : ε} (held : failing fault before) :
    EndsIn failing (throw fault : EStateM ε σ β) before post :=
  held

theorem liftExcept_of_eq_ok {result : Except ε β} {value : β} (done : result = .ok value)
    (held : post value before) :
    EndsIn failing (liftExcept result : EStateM ε σ β) before post := by
  rw [done]
  exact held

section

variable (ends : EndsIn failing action before middle)

include ends

/-- Other things may be said of what is given and of the faults, from a look at how the action
succeeds. -/
theorem imp {other : ε → σ → Prop} {stronger : α → σ → Prop}
    (more : ∀ value after, action before = .ok value after → middle value after →
      stronger value after) (implies : ∀ fault after, failing fault after → other fault after) :
    EndsIn other action before stronger := by
  unfold EndsIn
  cases outcome : action before with
  | ok value after => exact more value after outcome (ends.post_of_eq_ok outcome)
  | error fault after => exact implies fault after (ends.failing_of_eq_error outcome)

theorem strengthen {stronger : α → σ → Prop}
    (more : ∀ value after, action before = .ok value after → middle value after →
      stronger value after) : EndsIn failing action before stronger :=
  ends.imp more fun _ _ => id

theorem mono {weaker : α → σ → Prop}
    (implies : ∀ value after, middle value after → weaker value after) :
    EndsIn failing action before weaker :=
  ends.strengthen fun value after _ => implies value after

end

theorem bind (first : EndsIn failing action before middle)
    (rest : ∀ value state, middle value state → EndsIn failing (next value) state post) :
    EndsIn failing (action >>= next) before post := by
  cases outcome : action before with
  | ok value state =>
    exact .of_eq (bind_of_eq_ok outcome) (rest value state (first.post_of_eq_ok outcome))
  | error fault state =>
    exact .of_eq_error (bind_of_eq_error outcome) (first.failing_of_eq_error outcome)

theorem get_bind {next : σ → EStateM ε σ β} (rest : EndsIn failing (next before) before post) :
    EndsIn failing (get >>= next) before post :=
  rest

theorem modify_bind {change : σ → σ} {next : PUnit → EStateM ε σ β}
    (rest : EndsIn failing (next ⟨⟩) (change before) post) :
    EndsIn failing (modify change >>= next) before post :=
  rest

/-- What each action of a list leaves to the next holds after all of them. -/
theorem forM {holds : List α → σ → Prop} {action : α → EStateM ε σ PUnit}
    (each : ∀ value rest state, holds (value :: rest) state →
      EndsIn failing (action value) state fun _ after => holds rest after) {values : List α}
    (start : holds values before) :
    EndsIn failing (values.forM action) before fun _ after => holds [] after := by
  induction values generalizing before with
  | nil => exact .pure start
  | cons value rest ih =>
    exact (each value rest before start).bind fun _ state held => ih held

/-- What each action of a list keeps holds after all of them. -/
theorem forM_of_mem {holds : σ → Prop} {values : List α} {action : α → EStateM ε σ PUnit}
    (each : ∀ value ∈ values, ∀ state, holds state →
      EndsIn failing (action value) state fun _ after => holds after)
    (start : holds before) :
    EndsIn failing (values.forM action) before fun _ after => holds after := by
  induction values generalizing before with
  | nil => exact .pure start
  | cons value rest ih =>
    refine (each value List.mem_cons_self before start).bind fun _ state held => ?_
    exact ih (fun other member => each other (List.mem_cons_of_mem _ member)) held

/-- More may be expected. -/
theorem weaken {expected other : ε → Prop} (ends : Ends expected action before middle)
    (implies : ∀ fault, expected fault → other fault) : Ends other action before middle :=
  ends.imp (fun _ _ _ => id) fun fault _ => implies fault

theorem finalState_of_post {lawful : σ → Prop} (upholds : Upholds lawful action before middle)
    (implies : ∀ value after, middle value after → lawful after) :
    lawful (finalState (action before)) := by
  cases outcome : action before with
  | ok value after => exact implies value after (upholds.post_of_eq_ok outcome)
  | error fault after => exact upholds.failing_of_eq_error outcome

end EndsIn

end Retarget

import Mathlib

/-!
# What actions do to their state

An action that fails keeps the state it reached, so what holds of a whole run must hold of failing
runs too. `Changes` says of an action that every run of it, failing or not, ends in a state related
to the one it began in; for a reflexive and transitive relation it composes along actions.
-/

namespace Retarget

variable {ε σ α β : Type}

/-- The state that a run ends in, whether it fails or not. -/
def finalState : EStateM.Result ε σ α → σ
  | .ok _ state | .error _ state => state

theorem bind_of_eq_ok {action : EStateM ε σ α} {next : α → EStateM ε σ β} {value : α}
    {before middle : σ} (done : action before = .ok value middle) :
    (action >>= next) before = next value middle := by
  change EStateM.bind action next before = _
  rw [EStateM.bind, done]

theorem bind_of_eq_error {action : EStateM ε σ α} {next : α → EStateM ε σ β} {fault : ε}
    {before middle : σ} (failed : action before = .error fault middle) :
    (action >>= next) before = .error fault middle := by
  change EStateM.bind action next before = _
  rw [EStateM.bind, failed]

/-- A sequence of two actions succeeds where both do, one after the other. -/
theorem bind_eq_ok {action : EStateM ε σ α} {next : α → EStateM ε σ β} {value : β}
    {before after : σ} :
    (action >>= next) before = .ok value after ↔
      ∃ first middle, action before = .ok first middle ∧ next first middle = .ok value after := by
  change EStateM.bind action next before = _ ↔ _
  unfold EStateM.bind
  cases outcome : action before with
  | ok first middle =>
    constructor
    · exact fun rest => ⟨first, middle, rfl, rest⟩
    · rintro ⟨_, _, same, rest⟩
      cases same
      exact rest
  | error fault middle =>
    constructor
    · exact fun impossible => by cases impossible
    · rintro ⟨_, _, impossible, _⟩
      cases impossible

/-- A result that depends on another one is there where both are. -/
theorem except_bind_eq_ok {first : Except ε α} {next : α → Except ε β} {value : β} :
    first >>= next = .ok value ↔ ∃ given, first = .ok given ∧ next given = .ok value := by
  cases first with
  | ok given =>
    constructor
    · exact fun rest => ⟨given, rfl, rest⟩
    · rintro ⟨_, same, rest⟩
      cases same
      exact rest
  | error fault =>
    constructor
    · exact nofun
    · rintro ⟨_, impossible, _⟩
      cases impossible

theorem pure_eq_ok {value result : α} {before after : σ} :
    (pure value : EStateM ε σ α) before = .ok result after ↔ value = result ∧ before = after := by
  constructor
  · intro same
    cases same
    exact ⟨rfl, rfl⟩
  · rintro ⟨rfl, rfl⟩
    rfl

theorem liftExcept_eq_ok {result : Except ε α} {value : α} {before after : σ} :
    (liftExcept result : EStateM ε σ α) before = .ok value after ↔
      result = .ok value ∧ before = after := by
  cases result with
  | ok given =>
    rw [Except.ok.injEq]
    exact pure_eq_ok
  | error fault => exact ⟨nofun, nofun⟩

theorem get_eq_ok (state : σ) : (get : EStateM ε σ σ) state = .ok state state := rfl

theorem modify_eq_ok (change : σ → σ) (state : σ) :
    (modify change : EStateM ε σ PUnit) state = .ok () (change state) := rfl

theorem map_eq_ok {action : EStateM ε σ α} {change : α → β} {result : β} {before after : σ} :
    (change <$> action) before = .ok result after ↔
      ∃ value, action before = .ok value after ∧ change value = result := by
  rw [map_eq_pure_bind, bind_eq_ok]
  constructor
  · rintro ⟨value, middle, done, finished⟩
    obtain ⟨same, rfl⟩ := pure_eq_ok.mp finished
    exact ⟨value, done, same⟩
  · rintro ⟨value, done, rfl⟩
    exact ⟨value, after, done, rfl⟩

theorem finalState_map (change : α → β) (action : EStateM ε σ α) (state : σ) :
    finalState ((change <$> action) state) = finalState (action state) := by
  rw [map_eq_pure_bind]
  cases outcome : action state with
  | error fault after => rw [bind_of_eq_error outcome]; rfl
  | ok value after => rw [bind_of_eq_ok outcome]; rfl

theorem finalState_andThen (action : EStateM ε σ α) (value : β) (state : σ) :
    finalState ((do let _ ← action; return value : EStateM ε σ β) state) =
      finalState (action state) := by
  rw [bind_pure_comp]
  exact finalState_map _ action state

/-- Every run of an action ends in a state related to the one it began in. -/
def Changes (related : σ → σ → Prop) (action : EStateM ε σ α) : Prop :=
  ∀ state, related state (finalState (action state))

namespace Changes

variable {related : σ → σ → Prop}

theorem of_eq_ok {action : EStateM ε σ α} (changes : Changes related action) {value : α}
    {before after : σ} (done : action before = .ok value after) : related before after := by
  have reached := changes before
  rw [done] at reached
  exact reached

theorem pure [Std.Refl related] (value : α) :
    Changes related (Pure.pure value : EStateM ε σ α) :=
  fun state => Std.Refl.refl state

theorem throw [Std.Refl related] (fault : ε) :
    Changes related (throw fault : EStateM ε σ α) :=
  fun state => Std.Refl.refl state

theorem liftExcept [Std.Refl related] (result : Except ε α) :
    Changes related (liftExcept result : EStateM ε σ α) := by
  cases result with
  | ok value => exact Changes.pure value
  | error fault => exact Changes.throw fault

theorem modify {change : σ → σ} (changed : ∀ state, related state (change state)) :
    Changes related (modify change : EStateM ε σ PUnit) :=
  changed

theorem modifyGet {change : σ → α × σ} (changed : ∀ state, related state (change state).2) :
    Changes related (modifyGet change : EStateM ε σ α) :=
  changed

/-- What an action is followed by goes on from where the action ends. -/
theorem andThen [IsTrans σ related] {action : EStateM ε σ α} {next : α → EStateM ε σ β}
    {start state : σ} (first : related start (finalState (action state)))
    (rest : ∀ value, Changes related (next value)) :
    related start (finalState ((action >>= next) state)) := by
  cases outcome : action state with
  | ok value middle =>
    rw [outcome] at first
    rw [bind_of_eq_ok outcome]
    exact IsTrans.trans _ _ _ first (rest value middle)
  | error fault middle =>
    rw [outcome] at first
    rw [bind_of_eq_error outcome]
    exact first

theorem bind [IsTrans σ related] {action : EStateM ε σ α} {next : α → EStateM ε σ β}
    (first : Changes related action) (rest : ∀ value, Changes related (next value)) :
    Changes related (action >>= next) :=
  fun state => andThen (first state) rest

/-- An action that begins with a look at its state may use what it sees. -/
theorem get_bind {next : σ → EStateM ε σ β}
    (rest : ∀ state, related state (finalState (next state state))) :
    Changes related ((MonadState.get : EStateM ε σ σ) >>= next) :=
  rest

/-- Actions of a list, one after the other. -/
theorem forM [IsTrans σ related] [Std.Refl related] {values : List α}
    {action : α → EStateM ε σ PUnit} (each : ∀ value ∈ values, Changes related (action value)) :
    Changes related (values.forM action) := by
  induction values with
  | nil => exact Changes.pure PUnit.unit
  | cons value rest ih =>
    obtain ⟨first, others⟩ := List.forall_mem_cons.mp each
    exact bind first fun _ => ih others

theorem map [IsTrans σ related] [Std.Refl related] {action : EStateM ε σ α} {change : α → β}
    (first : Changes related action) : Changes related (change <$> action) :=
  bind first fun _ => Changes.pure _

end Changes

end Retarget

import Retarget.Proofs.State.Changes

/-!
# Two runs side by side

Two actions are run from two states. Where both succeed, what they give and the states they leave
are related (`Together`). Nothing is said of runs that fail, so actions may be compared that are
bounded in different ways, as long as both finish. Actions that are kept in step by one relation of
states, and that give the same value, agree (`Agrees`).
-/

namespace Retarget

variable {ε σ α β γ δ : Type}

/-- Where both actions succeed, what they give and the states they leave are related. -/
def Together (first : EStateM ε σ α) (left : σ) (second : EStateM ε σ β) (right : σ)
    (post : α → β → σ → σ → Prop) : Prop :=
  ∀ value other next beside, first left = .ok value next → second right = .ok other beside →
    post value other next beside

namespace Together

variable {first : EStateM ε σ α} {second : EStateM ε σ β} {left right : σ}
  {middle : α → β → σ → σ → Prop} {post : γ → δ → σ → σ → Prop}

theorem pure {value : γ} {other : δ} (held : post value other left right) :
    Together (Pure.pure value : EStateM ε σ γ) left (Pure.pure other : EStateM ε σ δ) right post := by
  rintro _ _ _ _ ⟨⟩ ⟨⟩
  exact held

theorem throw_right (fault : ε) {first : EStateM ε σ γ} :
    Together first left (throw fault : EStateM ε σ δ) right post :=
  fun _ _ _ _ _ failed => by cases failed

theorem throw_left (fault : ε) {second : EStateM ε σ δ} :
    Together (throw fault : EStateM ε σ γ) left second right post :=
  fun _ _ _ _ done => by cases done

theorem modified {change change' : σ → σ} {post : PUnit → PUnit → σ → σ → Prop}
    (held : post ⟨⟩ ⟨⟩ (change left) (change' right)) :
    Together (modify change : EStateM ε σ PUnit) left (modify change') right post := by
  rintro _ _ _ _ ⟨⟩ ⟨⟩
  exact held

theorem mono {weaker : α → β → σ → σ → Prop} (both : Together first left second right middle)
    (implies : ∀ value other next beside, middle value other next beside →
      weaker value other next beside) : Together first left second right weaker :=
  fun value other next beside done also => implies value other next beside
    (both value other next beside done also)

theorem bind {rest : α → EStateM ε σ γ} {rest' : β → EStateM ε σ δ}
    (both : Together first left second right middle)
    (onward : ∀ value other next beside, middle value other next beside →
      Together (rest value) next (rest' other) beside post) :
    Together (first >>= rest) left (second >>= rest') right post := by
  intro value other next beside done also
  obtain ⟨given, reached, begun, done⟩ := bind_eq_ok.mp done
  obtain ⟨given', reached', begun', also⟩ := bind_eq_ok.mp also
  exact onward given given' reached reached' (both _ _ _ _ begun begun') value other next beside done
    also

theorem get_bind {rest : σ → EStateM ε σ γ} {rest' : σ → EStateM ε σ δ}
    (onward : Together (rest left) left (rest' right) right post) :
    Together (get >>= rest) left (get >>= rest') right post :=
  onward

theorem modify_bind {change change' : σ → σ} {rest : PUnit → EStateM ε σ γ}
    {rest' : PUnit → EStateM ε σ δ}
    (onward : Together (rest ⟨⟩) (change left) (rest' ⟨⟩) (change' right) post) :
    Together (modify change >>= rest) left (modify change' >>= rest') right post :=
  onward

theorem liftExcept_bind {result : Except ε α} {result' : Except ε β} {rest : α → EStateM ε σ γ}
    {rest' : β → EStateM ε σ δ}
    (onward : ∀ value other, result = .ok value → result' = .ok other →
      Together (rest value) left (rest' other) right post) :
    Together (liftExcept result >>= rest) left (liftExcept result' >>= rest') right post := by
  cases result with
  | error fault => exact fun _ _ _ _ failed => by cases failed
  | ok value =>
    cases result' with
    | error fault => exact fun _ _ _ _ _ failed => by cases failed
    | ok other => exact onward value other rfl rfl

/-- Lists of actions that correspond one by one. -/
theorem forM {related : α → β → Prop} {holds : σ → σ → Prop} {values : List α} {others : List β}
    {action : α → EStateM ε σ PUnit} {action' : β → EStateM ε σ PUnit}
    (pairs : List.Forall₂ related values others)
    (each : ∀ value other, related value other → ∀ left right, holds left right →
      Together (action value) left (action' other) right fun _ _ next beside => holds next beside)
    (start : holds left right) :
    Together (values.forM action) left (others.forM action') right
      fun _ _ next beside => holds next beside := by
  induction pairs generalizing left right with
  | nil => exact .pure start
  | cons here _ ih =>
    exact (each _ _ here left right start).bind fun _ _ _ _ held => ih held

end Together

/-- From related states, both actions give the same and leave related states. -/
def Agrees (related : σ → σ → Prop) (first second : EStateM ε σ α) : Prop :=
  ∀ left right, related left right → Together first left second right
    fun value other next beside => value = other ∧ related next beside

namespace Agrees

variable {related : σ → σ → Prop}

theorem pure (value : α) :
    Agrees related (Pure.pure value : EStateM ε σ α) (Pure.pure value) :=
  fun _ _ held => .pure ⟨rfl, held⟩

theorem throw (fault : ε) :
    Agrees related (throw fault : EStateM ε σ α) (throw fault) :=
  fun _ _ _ => .throw_left fault

theorem bind {first second : EStateM ε σ α} {rest rest' : α → EStateM ε σ β}
    (begin : Agrees related first second) (onward : ∀ value, Agrees related (rest value) (rest' value)) :
    Agrees related (first >>= rest) (second >>= rest') := by
  intro left right held
  refine (begin left right held).bind ?_
  rintro value _ next beside ⟨rfl, kept⟩
  exact onward value next beside kept

theorem modified {change change' : σ → σ}
    (kept : ∀ left right, related left right → related (change left) (change' right)) :
    Agrees related (modify change : EStateM ε σ PUnit) (modify change') :=
  fun left right held => .modified ⟨rfl, kept left right held⟩

end Agrees

end Retarget

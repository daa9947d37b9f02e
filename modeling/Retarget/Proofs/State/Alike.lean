import Retarget.Proofs.State.Changes

/-!
# Actions that end alike

Two actions that are run from one state end alike where they succeed together and leave one state,
or fail together by one fault and leave one state, for a reason that is known of that fault.
-/

namespace Retarget

variable {ε σ α β γ δ : Type}

/-- What two runs come to is the same, apart from what they give. -/
inductive Alike (reason : ε → σ → Prop) (post : α → β → σ → Prop) :
    EStateM.Result ε σ α → EStateM.Result ε σ β → Prop where
  | ok {value : α} {other : β} {after : σ} (held : post value other after) :
      Alike reason post (.ok value after) (.ok other after)
  | error {fault : ε} {after : σ} (known : reason fault after) :
      Alike reason post (.error fault after) (.error fault after)

namespace Alike

variable {reason wider : ε → σ → Prop} {middle : α → β → σ → Prop} {post : γ → δ → σ → Prop}
  {first : EStateM ε σ α} {second : EStateM ε σ β} {before : σ}

theorem of_eq_ok {value : α} {other : β} {after : σ} (done : first before = .ok value after)
    (also : second before = .ok other after) (held : middle value other after) :
    Alike reason middle (first before) (second before) := by
  rw [done, also]
  exact .ok held

theorem mono {weaker : α → β → σ → Prop} {left : EStateM.Result ε σ α}
    {right : EStateM.Result ε σ β} (alike : Alike reason middle left right)
    (blames : ∀ fault after, reason fault after → wider fault after)
    (implies : ∀ value other after, middle value other after → weaker value other after) :
    Alike wider weaker left right := by
  cases alike with
  | ok held => exact .ok (implies _ _ _ held)
  | error known => exact .error (blames _ _ known)

section

variable (both : Alike reason middle (first before) (second before))

include both

theorem bind {next : α → EStateM ε σ γ} {onward : β → EStateM ε σ δ}
    (rest : ∀ value other after, middle value other after →
      Alike reason post (next value after) (onward other after)) :
    Alike reason post ((first >>= next) before) ((second >>= onward) before) := by
  generalize here : first before = left at both
  generalize there : second before = right at both
  cases both with
  | ok held =>
    rw [bind_of_eq_ok here, bind_of_eq_ok there]
    exact rest _ _ _ held
  | error known =>
    rw [bind_of_eq_error here, bind_of_eq_error there]
    exact .error known

theorem map {give : α → γ} {post : γ → β → σ → Prop}
    (implies : ∀ value other after, middle value other after → post (give value) other after) :
    Alike reason post ((do return give (← first)) before) (second before) := by
  generalize here : first before = left at both
  generalize second before = right at both
  cases both with
  | ok held =>
    rw [bind_of_eq_ok here]
    exact .ok (implies _ _ _ held)
  | error known =>
    rw [bind_of_eq_error here]
    exact .error known

end

theorem get_bind {left : EStateM.Result ε σ α} {onward : σ → EStateM ε σ β}
    (rest : Alike reason middle left (onward before before)) :
    Alike reason middle left ((get >>= onward) before) :=
  rest

/-- One action that succeeds begins both runs. -/
theorem after_ok {value : α} {middle : σ} {next : α → EStateM ε σ γ} {onward : α → EStateM ε σ δ}
    (done : first before = .ok value middle)
    (rest : Alike reason post (next value middle) (onward value middle)) :
    Alike reason post ((first >>= next) before) ((first >>= onward) before) := by
  rw [bind_of_eq_ok done, bind_of_eq_ok done]
  exact rest

end Alike

end Retarget

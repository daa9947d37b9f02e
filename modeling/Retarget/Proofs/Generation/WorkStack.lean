import Retarget.Proofs.Generation.Recursion
import Retarget.Proofs.Target.Orderly

/-!
# The stack of pending work

Working a stack off gives what lowering by recursion gives. The invariant (`Follows`) compares a
stack with some work on top of it to the recursion on that work alone: where the recursion gives a
value, the machine goes on with the rest of the stack from the same state and on the same way, and
where it fails, the machine has failed in the same way.
-/

namespace Retarget.Generator

open List

/-- A run over work on top of a stack goes on like the answer to that work. -/
inductive Follows {α : Type} (job : Job) (steps : Nat) (path : List NodeId) (rest : List Work)
    (before : Generator) (result : EStateM.Result Fault Generator Bool)
    (known : α → Generator → Prop) : Option (Except Fault α × Generator) → Prop where
  | returned {value : α} {after : Generator} {remaining : Nat} (fewer : remaining ≤ steps)
      (holds : known value after) (retains : Retains before after)
      (worked : work job remaining path rest after = result) :
      Follows job steps path rest before result known (some (.ok value, after))
  | failed {fault : Fault} {after : Generator} (same : result = .error fault after) :
      Follows job steps path rest before result known (some (.error fault, after))

section Simulation

variable {steps : Nat} {path : List NodeId} {rest : List Work} {before : Generator}
  {result : EStateM.Result Fault Generator Bool} {id : NodeId} {job : Job}

/-- What the recursion on one node has to do with the machine that visits it. -/
def VisitFollows (job : Job) (steps : Nat) : Prop :=
  ∀ path id rest before result, work job steps path (.visit id :: rest) before = result →
    Ended result → Follows job steps path rest before result
      (fun code after => after.code? id = some code) (lowerDirectly job path id before)

theorem Follows.mono {α : Type} {more : Nat} {known : α → Generator → Prop}
    {answer : Option (Except Fault α × Generator)}
    (follows : Follows job steps path rest before result known answer) (le : steps ≤ more) :
    Follows job more path rest before result known answer := by
  cases follows with
  | returned fewer holds retains worked =>
    exact .returned (Nat.le_trans fewer le) holds retains worked
  | failed same => exact .failed same

/-- Work on top of more work, and what the recursion does with its value. -/
theorem Follows.bind {α β : Type} {way : List NodeId} {pending : List Work}
    {known : α → Generator → Prop} {known' : β → Generator → Prop} {action : Recursion α}
    {next : α → Recursion β} {middle : Generator}
    (follows : Follows job steps way pending middle result known (action middle))
    (goesOn : ∀ value after remaining, remaining ≤ steps → known value after →
      Retains middle after → work job remaining way pending after = result →
      Follows job remaining path rest before result known' (next value after)) :
    Follows job steps path rest before result known' ((action >>= next) middle) := by
  generalize given : action middle = answer at follows
  cases follows with
  | failed same =>
    rw [bind_of_error given]
    exact .failed same
  | @returned value after remaining fewer holds retains worked =>
    rw [bind_of_ok given]
    exact (goesOn value after remaining fewer holds retains worked).mono fewer

/-- Visits of several nodes follow the recursion on them, from left to right. -/
theorem visits_follow (each : ∀ fewer, fewer ≤ steps → VisitFollows job fewer)
    {operands : List NodeId}
    (worked : work job steps path (operands.map .visit ++ rest) before = result)
    (ended : Ended result) :
    Follows job steps path rest before result
      (fun codes after => operands.map after.code? = codes.map some)
      (operands.mapM (lowerDirectly job path) before) := by
  induction operands generalizing steps before with
  | nil => exact .returned (Nat.le_refl _) rfl (.refl before) worked
  | cons operand operands ih =>
    rw [mapM_cons]
    refine (each steps (Nat.le_refl _) path operand _ before result worked ended).bind ?_
    intro code middle remaining fewer holds retains onward
    refine (ih (fun few le => each few (Nat.le_trans le fewer)) onward).bind ?_
    intro codes after remaining' fewer' holds' retains' onward'
    refine .returned (Nat.le_refl _) ?_ (retains.trans retains') onward'
    rw [map_cons, map_cons, retains'.code operand code holds, holds']

/-- Work that makes the code of a node does what the recursion does. -/
theorem code_follows {way : List NodeId} {next : Work} {action : GeneratorM String}
    {middle : Generator} (sameCodes : Changes SameCodes action) (retains : Retains before middle)
    (unknown : before.code? id = none)
    (stepped : step job way next middle =
      match action middle with
      | .ok code after => .ok (path, []) (finalState (remember id code after))
      | .error fault after => .error fault after)
    (worked : work job (steps + 1) way (next :: rest) middle = result) :
    Follows job (steps + 1) path rest before result (fun code after => after.code? id = some code)
      ((do
        let code ← act action
        act (remember id code)
        return code : Recursion String) middle) := by
  have same := sameCodes middle
  cases made : action middle with
  | error fault after =>
    rw [made] at stepped
    rw [work_of_step_error stepped] at worked
    rw [bind_of_error (act_of_eq_error made)]
    exact .failed worked.symm
  | ok code after =>
    rw [made] at stepped same
    rw [work_of_step_ok stepped] at worked
    rw [bind_of_ok (act_of_eq_ok made), act_remember]
    refine .returned (Nat.le_succ steps) ?_ ?_ worked
    · rw [code?_remember, if_pos rfl]
    · exact (retains.trans (.of_sameCodes same)).remember unknown code

section

variable {middle : Generator} (retains : Retains before middle) (unknown : before.code? id = none)

include retains unknown

/-- The machine that takes the codes of a node's operands from the memo emits like the recursion. -/
theorem emit_follows {template : Template} {codes : List String}
    (known : (middle.graph.node id).operands.map middle.code? = codes.map some)
    (worked : work job steps (id :: path) (.emit id template :: rest) middle = result)
    (ended : Ended result) :
    Follows job steps path rest before result (fun code after => after.code? id = some code)
      ((do
        let code ← act (emitOver job.options id template codes)
        act (remember id code)
        return code : Recursion String) middle) := by
  cases steps with
  | zero => exact absurd worked.symm (ended middle)
  | succ steps =>
    have stepped : step job (id :: path) (.emit id template) middle = _ :=
      step_emit (id :: path) id template middle
    rw [emit_eq_emitOver known, erase_cons_head] at stepped
    exact code_follows (emitOver_sameCodes job.options id template codes) retains unknown stepped
      worked

/-- A replacement gives its code to the node whose place it took. -/
theorem share_follows {replacement : NodeId} {code : String}
    (known : middle.code? replacement = some code)
    (worked : work job steps (id :: path) (.share id replacement :: rest) middle = result)
    (ended : Ended result) :
    Follows job steps path rest before result (fun code after => after.code? id = some code)
      ((do act (remember id code); return code : Recursion String) middle) := by
  cases steps with
  | zero => exact absurd worked.symm (ended middle)
  | succ steps =>
    have stepped : step job (id :: path) (.share id replacement) middle = _ :=
      step_share (id :: path) id replacement middle
    rw [known, erase_cons_head] at stepped
    have silent : Changes SameCodes (pure code : GeneratorM String) := .pure code
    exact code_follows silent retains unknown stepped worked

end

/-- A visit follows the recursion. The induction is on the steps that the machine takes. -/
theorem visit_follows (appends : job.book.Appends) (steps : Nat) : VisitFollows job steps := by
  induction steps using Nat.strongRecOn with
  | ind steps ih =>
  intro path id rest before result worked ended
  cases steps with
  | zero => exact absurd worked.symm (ended before)
  | succ steps =>
    have each : ∀ fewer, fewer ≤ steps → VisitFollows job fewer :=
      fun fewer le => ih fewer (Nat.lt_succ_of_le le)
    have stepped : step job path (.visit id) before = _ := step_visit path id before
    rw [lowerDirectly_eq]
    cases unknown : before.code? id with
    | some code =>
      rw [unknown] at stepped
      rw [work_of_step_ok stepped] at worked
      exact .returned (Nat.le_succ steps) unknown (.refl before) worked
    | none =>
      rw [unknown] at stepped
      by_cases visited : id ∈ path
      · simp only [visited, Option.isSome_none, Bool.false_eq_true, ↓reduceIte] at stepped ⊢
        rw [work_of_step_error stepped] at worked
        exact .failed worked.symm
      simp only [visited, Option.isSome_none, Bool.false_eq_true, ↓reduceIte] at stepped ⊢
      cases role : (before.graph.node id).operation.role with
      | statement =>
        rw [role] at stepped
        rw [work_of_step_error stepped] at worked
        exact .failed worked.symm
      | leaf =>
        rw [role] at stepped
        exact code_follows (lowerLeaf_sameCodes job.options id _) (.refl before) unknown stepped
          worked
      | value =>
        rw [role] at stepped
        cases lowered : job.book.lower before.graph id with
        | error fault =>
          rw [lowered] at stepped
          rw [work_of_step_error stepped] at worked
          exact .failed worked.symm
        | ok lowering =>
          rw [lowered] at stepped
          cases lowering with
          | template template =>
            rw [work_of_step_ok stepped, append_assoc] at worked
            refine .mono ?_ (Nat.le_succ steps)
            refine (visits_follow each worked ended).bind ?_
            intro codes middle remaining fewer known retains onward
            rw [← retains.graph.operands_eq (Graph.lt_size_of_value role)] at known
            exact emit_follows retains unknown known onward ended
          | replaced graph replacement =>
            rw [work_of_step_ok stepped] at worked
            refine .mono ?_ (Nat.le_succ steps)
            have replaced : act (replace graph id replacement) before =
                some (.ok (), finalState (replace graph id replacement before)) := rfl
            dsimp only
            rw [bind_of_ok replaced]
            refine (each steps (Nat.le_refl _) _ _ _ _ result worked ended).bind ?_
            intro code middle remaining fewer known retains onward
            have kept : before.Retains (finalState (replace graph id replacement before)) :=
              ⟨appends.grows lowered, fun _ _ known => known⟩
            exact share_follows (kept.trans retains) unknown known onward ended

theorem work_nil (steps : Nat) (path : List NodeId) (generator : Generator) :
    work job steps path [] generator = .ok true generator := by
  cases steps <;> rfl

/-- What is left after a stack of one visit is what the recursion gives. -/
theorem root_follows (appends : job.book.Appends) {root : NodeId}
    (worked : work job steps [] [.visit root] before = result) (ended : Ended result) :
    (∃ code after, lowerDirectly job [] root before = some (.ok code, after) ∧
      after.code? root = some code ∧ result = .ok true after) ∨
    ∃ fault after, lowerDirectly job [] root before = some (.error fault, after) ∧
      result = .error fault after := by
  have follows := visit_follows appends steps [] root [] before result worked ended
  generalize lowerDirectly job [] root before = answer at follows
  cases follows with
  | failed same => exact .inr ⟨_, _, rfl, same⟩
  | returned _ known _ rest =>
    rw [work_nil] at rest
    exact .inl ⟨_, _, rfl, known, rest.symm⟩

end Simulation

/-- The answer of a run that had steps enough. -/
def answer? : EStateM.Result Fault Generator (Option String) →
    Option (Except Fault String × Generator)
  | .ok (some code) after => some (.ok code, after)
  | .ok none _ => none
  | .error fault after => some (.error fault, after)

theorem lowerDirectly_of_lowerWithin {job : Job} (appends : job.book.Appends) {steps : Nat}
    {root : NodeId} {before : Generator} {found : Except Fault String × Generator}
    (done : answer? (lowerWithin job steps root before) = some found) :
    lowerDirectly job [] root before = some found := by
  unfold lowerWithin at done
  cases worked : work job steps [] [.visit root] before with
  | error fault after =>
    rw [bind_of_eq_error worked] at done
    cases done
    have ended : Ended (.error fault after) := fun _ impossible => by cases impossible
    rcases root_follows appends worked ended with ⟨_, _, _, _, same⟩ | ⟨_, _, given, same⟩
    · cases same
    · cases same
      exact given
  | ok enough after =>
    rw [bind_of_eq_ok worked] at done
    cases enough with
    | false => cases done
    | true =>
      have ended : Ended (.ok true after) := fun _ impossible => by cases impossible
      rcases root_follows appends worked ended with
        ⟨code, _, given, known, same⟩ | ⟨_, _, _, same⟩
      · cases same
        simp only [↓reduceIte] at done
        rw [bind_of_eq_ok (get_eq_ok after), known] at done
        exact given.trans done
      · cases same

/-- Whenever the stack of pending work is worked off, within whatever number of steps, it gives the
code or the fault that the recursion gives, and leaves the same state. -/
theorem lowerExpression_eq_lowerDirectly (job : Job) (appends : job.book.Appends) (root : NodeId)
    (before : Generator) :
    (∀ steps found, answer? (lowerWithin job steps root before) = some found →
      lowerDirectly job [] root before = some found) ∧
    (∀ code after, lowerExpression job root before = .ok code after →
      lowerDirectly job [] root before = some (.ok code, after)) ∧
    ∀ fault after, lowerExpression job root before = .error fault after →
      fault ≠ .graph .unfinished →
      lowerDirectly job [] root before = some (.error fault, after) := by
  have within : ∀ steps found, answer? (lowerWithin job steps root before) = some found →
      lowerDirectly job [] root before = some found :=
    fun _ _ => lowerDirectly_of_lowerWithin appends
  have looked : (get : GeneratorM Generator) before = .ok before before := rfl
  refine ⟨within, ?_, ?_⟩
  · intro code after lowered
    rw [lowerExpression, bind_of_eq_ok looked] at lowered
    obtain ⟨found, middle, done, finished⟩ := bind_eq_ok.mp lowered
    cases found with
    | none => cases finished
    | some found =>
      obtain ⟨rfl, rfl⟩ := pure_eq_ok.mp finished
      refine within (stepLimit before.graph) _ ?_
      rw [done]
      rfl
  · intro fault after failed limited
    rw [lowerExpression, bind_of_eq_ok looked] at failed
    cases done : lowerWithin job (stepLimit before.graph) root before with
    | error other middle =>
      rw [bind_of_eq_error done] at failed
      cases failed
      refine within (stepLimit before.graph) _ ?_
      rw [done]
      rfl
    | ok found middle =>
      rw [bind_of_eq_ok done] at failed
      cases found with
      | none =>
        cases failed
        exact absurd rfl limited
      | some code => cases failed

/-- The lesser of two variables, which portable C computes by a comparison and a choice. -/
def lesser : Generator where
  graph :=
    ⟨#[{ operation := .variable, format := .binary32, payload := .variable "x" },
      { operation := .variable, format := .binary32, payload := .variable "y" },
      { operation := .minimum, operands := [0, 1], format := .binary32 }]⟩
  document := Document.create .c {}

/-- Generation of portable C with the default options. -/
def portable : Job :=
  { target := Portable.target, book := Portable.book, options := {} }

theorem lowerDirectly_lesser :
    ∃ after, lowerExpression portable 2 lesser = .ok "((x < y) ? x : y)" after ∧
      lowerDirectly portable [] 2 lesser = some (.ok "((x < y) ? x : y)", after) := by
  have done : lowerExpression portable 2 lesser = .ok "((x < y) ? x : y)"
      (finalState (lowerExpression portable 2 lesser)) := by
    cbv
  exact ⟨_, done,
    (lowerExpression_eq_lowerDirectly portable Portable.book_orderly.appends 2 lesser).2.1 _ _ done⟩

end Retarget.Generator

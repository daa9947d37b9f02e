import Retarget.Proofs.Generation.Stepping
import Retarget.Proofs.Rule.Orderly

/-!
# Lowering by recursion

The plain recursive lowering of an expression (`lowerDirectly`): a node whose code is known has that
code, a node on the way to itself is a fault, a leaf is lowered in place, and any other node is
lowered by its rule, over the codes of its operands or as the node that takes its place. The stack
of pending work gives what the recursion gives, with the same final state, whenever it ends.
-/

namespace Retarget.Generator

/-- Actions that need not end: no answer, or a value or a fault with the state that it leaves. -/
abbrev Recursion := ExceptT Fault (StateT Generator Option)

/-- What a run gives and the state that it leaves. -/
def answer {α : Type} : EStateM.Result Fault Generator α → Except Fault α × Generator
  | .ok value after => (.ok value, after)
  | .error fault after => (.error fault, after)

/-- An action that ends. -/
def act {α : Type} (action : GeneratorM α) : Recursion α :=
  fun generator => some (answer (action generator))

/-- The code of a node, on the way from the given ones. -/
def lowerDirectly (job : Job) (path : List NodeId) (id : NodeId) : Recursion String := do
  let generator ← act get
  match generator.code? id with
  | some code => return code
  | none =>
    if id ∈ path then throw (.graph (.cycle id))
    else
      let node := generator.graph.node id
      match node.operation.role with
      | .statement => throw (.graph (.statementAsValue node.operation))
      | .leaf =>
        let code ← act (lowerLeaf job.options id node)
        act (remember id code)
        return code
      | .value =>
        match ← act (liftExcept (job.book.lower generator.graph id)) with
        | .template template =>
          -- Given by a tactic, a recursive call keeps no record of its place in the text.
          let codes ← node.operands.mapM
            ((by exact lowerDirectly job : List NodeId → NodeId → Recursion String) (id :: path))
          let code ← act (emitOver job.options id template codes)
          act (remember id code)
          return code
        | .replaced graph replacement =>
          act (replace graph id replacement)
          let code ← (by exact lowerDirectly job (id :: path) : NodeId → Recursion String) replacement
          act (remember id code)
          return code
partial_fixpoint

section Recursion

variable {α β : Type} {action : Recursion α} {next : α → Recursion β} {before middle : Generator}

theorem bind_of_ok {value : α} (given : action before = some (.ok value, middle)) :
    (action >>= next) before = next value middle := by
  change (action before).bind _ = _
  rw [given]
  rfl

theorem bind_of_error {fault : Fault} (given : action before = some (.error fault, middle)) :
    (action >>= next) before = some (.error fault, middle) := by
  change (action before).bind _ = _
  rw [given]
  rfl

end Recursion

/-- The codes that are known, the graph and the counts of uses stay as they are. -/
structure SameCodes (before after : Generator) : Prop where
  memo : after.memo = before.memo
  outerMemos : after.outerMemos = before.outerMemos
  graph : after.graph = before.graph
  uses : after.uses = before.uses

namespace SameCodes

instance : Std.Refl SameCodes := ⟨fun _ => ⟨rfl, rfl, rfl, rfl⟩⟩

instance : IsTrans Generator SameCodes :=
  ⟨fun _ _ _ left right => ⟨right.memo.trans left.memo, right.outerMemos.trans left.outerMemos,
    right.graph.trans left.graph, right.uses.trans left.uses⟩⟩

theorem code? {before after : Generator} (same : SameCodes before after) (id : NodeId) :
    after.code? id = before.code? id := by
  rw [Generator.code?, levels, same.memo, same.outerMemos]
  rfl

end SameCodes

theorem onDocument_sameCodes {α : Type} (action : DocumentM α) :
    Changes SameCodes (onDocument action) := by
  intro generator
  rw [finalState_onDocument]
  exact ⟨rfl, rfl, rfl, rfl⟩

theorem record_sameCodes (change : Session → Session) : Changes SameCodes (record change) :=
  .modify fun _ => ⟨rfl, rfl, rfl, rfl⟩

theorem sameCodes_permits : Permits SameCodes where
  records _ _ _ := ⟨rfl, rfl, rfl, rfl⟩
  header _ := onDocument_sameCodes _
  library _ := onDocument_sameCodes _
  alloc _ := onDocument_sameCodes _
  temporary _ _ := onDocument_sameCodes _
  constant _ _ _ := onDocument_sameCodes _
  table _ _ := onDocument_sameCodes _
  writes _ _ := onDocument_sameCodes _

theorem lowerLeaf_sameCodes (options : Options) (id : NodeId) (node : Node) :
    Changes SameCodes (lowerLeaf options id node) :=
  sameCodes_permits.lowerLeaf options id node

theorem emitOver_sameCodes (options : Options) (id : NodeId) (template : Template)
    (operands : List String) : Changes SameCodes (emitOver options id template operands) :=
  sameCodes_permits.emitOver options id template operands

/-- No code that is known is forgotten or exchanged, and the graph only grows. -/
structure Retains (before after : Generator) : Prop where
  graph : before.graph.Grows after.graph
  code : ∀ id code, before.code? id = some code → after.code? id = some code

namespace Retains

theorem refl (generator : Generator) : Retains generator generator :=
  ⟨.refl _, fun _ _ => id⟩

theorem trans {first second third : Generator} (left : Retains first second)
    (right : Retains second third) : Retains first third :=
  ⟨left.graph.trans right.graph, fun id code known => right.code id code (left.code id code known)⟩

theorem of_sameCodes {before after : Generator} (same : SameCodes before after) :
    Retains before after where
  graph := by
    rw [same.graph]
    exact .refl _
  code id code known := (same.code? id).trans known

end Retains

theorem code?_remember (generator : Generator) (id other : NodeId) (code : String) :
    (finalState (remember id code generator)).code? other =
      if id = other then some code else generator.code? other := by
  change (List.findSome? _ (generator.memo.insert id code :: generator.outerMemos)) = _
  rw [List.findSome?_cons, OrderedMap.get?_insert]
  by_cases same : id = other
  · simp only [same, ↓reduceIte]
  · simp only [same, ↓reduceIte]
    rfl

/-- What is remembered of a node without code takes no code away. -/
theorem Retains.remember {before middle : Generator} (retains : Retains before middle) {id : NodeId}
    (unknown : before.code? id = none) (code : String) :
    Retains before (finalState (remember id code middle)) where
  graph := retains.graph
  code other known given := by
    rw [code?_remember]
    have apart : ¬ id = other := by
      rintro rfl
      rw [unknown] at given
      cases given
    rw [if_neg apart]
    exact retains.code other known given

section Work

variable {path : List NodeId} {next : Work} {generator : Generator} {job : Job}

/-- The run has not run out of steps. -/
def Ended (result : EStateM.Result Fault Generator Bool) : Prop :=
  ∀ after, result ≠ .ok false after

theorem work_of_step_ok {steps : Nat} {onward : List NodeId} {more rest : List Work}
    {middle : Generator} (stepped : step job path next generator = .ok (onward, more) middle) :
    work job (steps + 1) path (next :: rest) generator =
      work job steps onward (more ++ rest) middle := by
  rw [work, bind_of_eq_ok stepped]

theorem work_of_step_error {steps : Nat} {rest : List Work} {middle : Generator} {fault : Fault}
    (stepped : step job path next generator = .error fault middle) :
    work job (steps + 1) path (next :: rest) generator = .error fault middle := by
  rw [work, bind_of_eq_error stepped]

/-- What a visit does. -/
theorem step_visit (path : List NodeId) (id : NodeId) (generator : Generator) :
    step job path (.visit id) generator =
      if (generator.code? id).isSome then .ok (path, []) generator
      else if id ∈ path then .error (.graph (.cycle id)) generator
      else
        let node := generator.graph.node id
        match node.operation.role with
        | .statement => .error (.graph (.statementAsValue node.operation)) generator
        | .leaf =>
          match lowerLeaf job.options id node generator with
          | .ok code middle => .ok (path, []) (finalState (remember id code middle))
          | .error fault middle => .error fault middle
        | .value =>
          match job.book.lower generator.graph id with
          | .ok (.template template) =>
            .ok (id :: path, node.operands.map .visit ++ [.emit id template]) generator
          | .ok (.replaced graph replacement) =>
            .ok (id :: path, [.visit replacement, .share id replacement])
              (finalState (replace graph id replacement generator))
          | .error fault => .error fault generator := by
  rw [step, bind_of_eq_ok (get_eq_ok generator)]
  by_cases known : (generator.code? id).isSome
  · simp only [known, ↓reduceIte]
    rfl
  by_cases visited : id ∈ path
  · simp only [known, visited, Bool.false_eq_true, ↓reduceIte]
    rfl
  simp only [known, visited, Bool.false_eq_true, ↓reduceIte]
  cases (generator.graph.node id).operation.role with
  | statement => rfl
  | leaf =>
    dsimp only
    cases lowered : lowerLeaf job.options id (generator.graph.node id) generator with
    | ok code middle => rw [bind_of_eq_ok lowered]; rfl
    | error fault middle => rw [bind_of_eq_error lowered]
  | value =>
    cases job.book.lower generator.graph id with
    | error fault => rfl
    | ok lowering => cases lowering <;> rfl

theorem step_emit (path : List NodeId) (id : NodeId) (template : Template)
    (generator : Generator) :
    step job path (.emit id template) generator =
      match emit job.options id template generator with
      | .ok code middle => .ok (path.erase id, []) (finalState (remember id code middle))
      | .error fault middle => .error fault middle := by
  rw [step]
  cases emitted : emit job.options id template generator with
  | ok code middle =>
    rw [bind_of_eq_ok emitted]
    rfl
  | error fault middle => rw [bind_of_eq_error emitted]

theorem step_share (path : List NodeId) (id replacement : NodeId) (generator : Generator) :
    step job path (.share id replacement) generator =
      match generator.code? replacement with
      | some code => .ok (path.erase id, []) (finalState (remember id code generator))
      | none => .error (.graph (.replacementNotLowered replacement)) generator := by
  rw [step, bind_of_eq_ok (get_eq_ok generator)]
  cases generator.code? replacement <;> rfl

/-- All that one piece of work can do. -/
inductive Outcome (job : Job) (path : List NodeId) (before : Generator) :
    Work → EStateM.Result Fault Generator (List NodeId × List Work) → Prop where
  | skip {id : NodeId} (known : (before.code? id).isSome = true) :
      Outcome job path before (.visit id) (.ok (path, []) before)
  | cycle {id : NodeId} (visited : id ∈ path) :
      Outcome job path before (.visit id) (.error (.graph (.cycle id)) before)
  | statement {id : NodeId} {operation : Operation} :
      Outcome job path before (.visit id) (.error (.graph (.statementAsValue operation)) before)
  | leaf {id : NodeId} {code : String} {middle : Generator} (unknown : before.code? id = none)
      (idle : id ∉ path) (role : (before.graph.node id).operation.role = .leaf)
      (same : SameCodes before middle) :
      Outcome job path before (.visit id)
        (.ok (path, []) (finalState (remember id code middle)))
  | leafFails {id : NodeId} {fault : Fault} {after : Generator}
      (failed : lowerLeaf job.options id (before.graph.node id) before = .error fault after) :
      Outcome job path before (.visit id) (.error fault after)
  | refuse {id : NodeId} {fault : Fault} (failed : job.book.lower before.graph id = .error fault) :
      Outcome job path before (.visit id) (.error fault before)
  | await {id : NodeId} {template : Template} (unknown : before.code? id = none) (idle : id ∉ path)
      (role : (before.graph.node id).operation.role = .value)
      (lowered : job.book.lower before.graph id = .ok (.template template)) :
      Outcome job path before (.visit id)
        (.ok (id :: path, (before.graph.node id).operands.map .visit ++ [.emit id template]) before)
  | replace {id new : NodeId} {later : Graph} (unknown : before.code? id = none) (idle : id ∉ path)
      (role : (before.graph.node id).operation.role = .value)
      (lowered : job.book.lower before.graph id = .ok (.replaced later new)) :
      Outcome job path before (.visit id)
        (.ok (id :: path, [.visit new, .share id new]) (finalState (replace later id new before)))
  | emit {id : NodeId} {template : Template} {code : String} {middle : Generator}
      (emitted : emit job.options id template before = .ok code middle) :
      Outcome job path before (.emit id template)
        (.ok (path.erase id, []) (finalState (remember id code middle)))
  | emitFails {id : NodeId} {template : Template} {fault : Fault} {after : Generator}
      (failed : Generator.emit job.options id template before = .error fault after) :
      Outcome job path before (.emit id template) (.error fault after)
  | share {id new : NodeId} {code : String} (known : before.code? new = some code) :
      Outcome job path before (.share id new)
        (.ok (path.erase id, []) (finalState (remember id code before)))
  | shareFails {id new : NodeId} :
      Outcome job path before (.share id new)
        (.error (.graph (.replacementNotLowered new)) before)

theorem visit_outcome (path : List NodeId) (id : NodeId) (before : Generator) :
    Outcome job path before (.visit id) (step job path (.visit id) before) := by
  rw [step_visit]
  cases unknown : before.code? id with
  | some code => exact .skip (by rw [unknown]; rfl)
  | none =>
    by_cases visited : id ∈ path
    · simp only [visited, Option.isSome_none, Bool.false_eq_true, ↓reduceIte]
      exact .cycle visited
    simp only [visited, Option.isSome_none, Bool.false_eq_true, ↓reduceIte]
    cases role : (before.graph.node id).operation.role with
    | statement => exact .statement
    | leaf =>
      dsimp only
      have same := lowerLeaf_sameCodes job.options id (before.graph.node id)
      cases lowered : lowerLeaf job.options id (before.graph.node id) before with
      | error fault middle => exact .leafFails lowered
      | ok code middle => exact .leaf unknown visited role (same.of_eq_ok lowered)
    | value =>
      dsimp only
      cases lowered : job.book.lower before.graph id with
      | error fault => exact .refuse lowered
      | ok lowering =>
        cases lowering with
        | template template => exact .await unknown visited role lowered
        | replaced later new => exact .replace unknown visited role lowered

/-- A piece of work does one of these things. -/
theorem step_outcome (path : List NodeId) (next : Work) (before : Generator) :
    Outcome job path before next (step job path next before) := by
  cases next with
  | visit id => exact visit_outcome path id before
  | emit id template =>
    rw [step_emit]
    cases emitted : emit job.options id template before with
    | error fault middle => exact .emitFails emitted
    | ok code middle => exact .emit emitted
  | share id new =>
    rw [step_share]
    cases known : before.code? new with
    | none => exact .shareFails
    | some code => exact .share known

theorem outcome_of_eq {before : Generator}
    {result : EStateM.Result Fault Generator (List NodeId × List Work)}
    (stepped : step job path next before = result) : Outcome job path before next result := by
  rw [← stepped]
  exact step_outcome path next before

/-- The operands of an emitted node have codes. -/
theorem isSome_code?_of_emit {options : Options} {id operand : NodeId} {template : Template}
    {code : String} {before after : Generator}
    (emitted : emit options id template before = .ok code after)
    (uses : operand ∈ (before.graph.node id).operands) : (before.code? operand).isSome = true := by
  change (liftExcept (before.operandCodes (before.graph.node id).operands) >>=
    emitOver options id template : GeneratorM String) before = _ at emitted
  obtain ⟨codes, _, lifted, _⟩ := bind_eq_ok.mp emitted
  obtain ⟨listed, rfl⟩ := liftExcept_eq_ok.mp lifted
  have found : before.code? operand ∈ codes.map some := by
    rw [← operandCodes_eq_ok.mp listed]
    exact List.mem_map_of_mem uses
  obtain ⟨_, _, same⟩ := List.mem_map.mp found
  rw [← same]
  rfl

/-- Emission takes the codes of the operands from where they are remembered. -/
theorem emit_eq_emitOver {options : Options} {id : NodeId} {template : Template}
    {codes : List String}
    (known : (generator.graph.node id).operands.map generator.code? = codes.map some) :
    emit options id template generator = emitOver options id template codes generator := by
  rw [emit, bind_of_eq_ok (get_eq_ok generator), operandCodes_eq_ok.mpr known]
  rfl

end Work

section Answers

variable {job : Job} {α : Type} {action : GeneratorM α} {value : α} {fault : Fault}
  {before after : Generator}

theorem act_of_eq_ok (done : action before = .ok value after) :
    act action before = some (.ok value, after) := by
  rw [act, done]
  rfl

theorem act_of_eq_error (failed : action before = .error fault after) :
    act action before = some (.error fault, after) := by
  rw [act, failed]
  rfl

/-- Gives an answer and remembers it. -/
theorem act_remember (id : NodeId) (code : String) (generator : Generator) :
    (do act (remember id code); return code : Recursion String) generator =
      some (.ok code, finalState (remember id code generator)) :=
  rfl

/-- What the recursion does first. -/
theorem lowerDirectly_eq (path : List NodeId) (id : NodeId) (generator : Generator) :
    lowerDirectly job path id generator =
      match generator.code? id with
      | some code => some (.ok code, generator)
      | none =>
        if id ∈ path then some (.error (.graph (.cycle id)), generator)
        else
          let node := generator.graph.node id
          match node.operation.role with
          | .statement => some (.error (.graph (.statementAsValue node.operation)), generator)
          | .leaf =>
            (do
              let code ← act (lowerLeaf job.options id node)
              act (remember id code)
              return code : Recursion String) generator
          | .value =>
            match job.book.lower generator.graph id with
            | .ok (.template template) =>
              (do
                let codes ← node.operands.mapM (lowerDirectly job (id :: path))
                let code ← act (emitOver job.options id template codes)
                act (remember id code)
                return code : Recursion String) generator
            | .ok (.replaced graph replacement) =>
              (do
                act (replace graph id replacement)
                let code ← lowerDirectly job (id :: path) replacement
                act (remember id code)
                return code : Recursion String) generator
            | .error fault => some (.error fault, generator) := by
  have looked : act get generator = some (.ok generator, generator) := rfl
  rw [lowerDirectly, bind_of_ok looked]
  cases generator.code? id with
  | some code => rfl
  | none =>
    by_cases visited : id ∈ path
    · simp only [visited, ↓reduceIte]
      rfl
    simp only [visited, ↓reduceIte]
    cases (generator.graph.node id).operation.role with
    | statement => rfl
    | leaf => rfl
    | value =>
      cases lowered : job.book.lower generator.graph id with
      | error fault => exact bind_of_error (act_of_eq_error rfl)
      | ok lowering =>
        have chosen : act (liftExcept (.ok lowering : Except Fault Lowering)) generator =
            some (.ok lowering, generator) := rfl
        simp only
        rw [bind_of_ok chosen]
        cases lowering <;> rfl

end Answers

end Retarget.Generator

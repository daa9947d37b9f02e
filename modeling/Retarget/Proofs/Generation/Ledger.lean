import Retarget.Generation.Function
import Retarget.Proofs.Output.Continuing

/-!
# A ledger of codes

A recorded run of generation notes what happens to the codes of nodes: scopes are opened and closed,
nodes get codes, and codes are used by other nodes, results and conditions. A ledger takes these
events in turn. It refuses a code for a node that has one in an open scope, and a second use of a
code that is an inline expression. Without its notes, a recorded run is a run of generation
(`Recorder.functions_erases`).
-/

namespace Retarget

/-- What happens to the codes of nodes. -/
inductive Event where
  /-- A function begins, and no code is known. -/
  | began
  /-- A scope is opened inside of those that are open. -/
  | opened
  /-- The innermost scope is closed, and its codes are forgotten. -/
  | closed
  /-- A leaf gets a code. -/
  | leaf (id : NodeId)
  /-- A node gets a code over those of its operands, inline or in a temporary. -/
  | wrote (id : NodeId) (operands : List NodeId) (inlined : Bool)
  /-- A node gets the code of the one that took its place. -/
  | handed (id replacement : NodeId)
  /-- The code of a node goes into a result or a condition. -/
  | used (id : NodeId)
deriving DecidableEq, Repr

/-- The nodes with a code in one scope, and whether it is an inline expression. -/
abbrev Holdings := List (NodeId × Bool)

/-- The codes that may be used. -/
structure Ledger where
  innermost : Holdings := []
  /-- The codes of the scopes around the innermost one. -/
  outer : List Holdings := []
  /-- The nodes whose inline expressions were used. -/
  spent : List NodeId := []
deriving DecidableEq, Repr

namespace Ledger

/-- The codes in each open scope, the innermost first. -/
def levels (ledger : Ledger) : List Holdings :=
  ledger.innermost :: ledger.outer

/-- Whether a node has a code in an open scope. -/
def knows (ledger : Ledger) (id : NodeId) : Bool :=
  ledger.levels.any fun level => id ∈ level.map Prod.fst

/-- Whether that code is an inline expression. -/
def inlines (ledger : Ledger) (id : NodeId) : Bool :=
  ledger.levels.any fun level => (id, true) ∈ level

/-- Uses the code of a node. An inline expression is used once. -/
def use (ledger : Ledger) (id : NodeId) : Option Ledger :=
  if ledger.knows id then
    if ledger.inlines id then
      if id ∈ ledger.spent then none else some { ledger with spent := id :: ledger.spent }
    else some ledger
  else none

/-- Gives a code to a node that has none. -/
def hold (ledger : Ledger) (id : NodeId) (inlined : Bool) : Option Ledger :=
  if ledger.knows id then none
  else
    some
      { ledger with
        innermost := (id, inlined) :: ledger.innermost
        spent := ledger.spent.filter (· ≠ id) }

/-- Takes an event in, or refuses it. -/
def enter (ledger : Ledger) : Event → Option Ledger
  | .began => some {}
  | .opened => some { ledger with innermost := [], outer := ledger.levels }
  | .closed =>
    match ledger.outer with
    | [] => none
    | innermost :: outer => some { ledger with innermost, outer }
  | .leaf id => ledger.hold id false
  | .wrote id operands inlined => do (← operands.foldlM use ledger).hold id inlined
  | .handed id replacement => do
    (← ledger.use replacement).hold id (ledger.inlines replacement)
  | .used id => ledger.use id

/-- The ledger after a list of events, unless it refuses one. -/
def balance (events : List Event) : Option Ledger :=
  events.foldlM enter {}

section

variable {ledger : Ledger} {id : NodeId}

theorem knows_iff : ledger.knows id = true ↔ ∃ level ∈ ledger.levels, id ∈ level.map Prod.fst := by
  simp only [knows, List.any_eq_true, decide_eq_true_eq]

theorem inlines_iff : ledger.inlines id = true ↔ ∃ level ∈ ledger.levels, (id, true) ∈ level := by
  simp only [inlines, List.any_eq_true, decide_eq_true_eq]

theorem notMem_of_not_knows (unknown : ledger.knows id = false) {level : Holdings}
    (open_ : level ∈ ledger.levels) : id ∉ level.map Prod.fst := by
  intro held
  rw [knows_iff.mpr ⟨level, open_, held⟩] at unknown
  cases unknown

end

end Ledger

/-- Whether a text is the name of a temporary of an open scope. -/
def Generator.isTemporary (generator : Generator) (text : String) : Bool :=
  generator.document.drafts.any fun draft =>
    !(generator.document.names.tables.table (draft.scope.own .variable)).isFree text

/-- The state of a recorded run of generation. -/
structure Recorded where
  generator : Generator
  /-- What has happened so far. -/
  log : List Event := []

/-- A recorded step of generation. -/
abbrev RecorderM := EStateM Fault Recorded

/-- What a piece of work does to the codes of nodes. -/
def Generator.Work.events (before after : Generator) : Work → List Event
  | .visit id => if (before.code? id).isNone && (after.code? id).isSome then [.leaf id] else []
  | .emit id _ =>
    [.wrote id (before.graph.node id).operands
      (!((after.code? id).any fun code => after.isTemporary code))]
  | .share id replacement => [.handed id replacement]

namespace Recorder

/-- Does a step of generation. -/
def act {α : Type} (action : GeneratorM α) : RecorderM α := fun state =>
  match action state.generator with
  | .ok value generator => .ok value { state with generator }
  | .error fault generator => .error fault { state with generator }

/-- Notes an event. -/
def note (event : Event) : RecorderM Unit :=
  modify fun state => { state with log := state.log ++ [event] }

/-- Does one piece of work. -/
def step (job : Job) (onTheWay : List NodeId) (next : Generator.Work) :
    RecorderM (List NodeId × List Generator.Work) := do
  let before := (← get).generator
  let result ← act (Generator.step job onTheWay next)
  (next.events before (← get).generator).forM note
  return result

/-- Works a stack of pending work off. -/
def work (job : Job) : Nat → List NodeId → List Generator.Work → RecorderM Bool
  | _, _, [] => return true
  | 0, _, _ :: _ => return false
  | steps + 1, onTheWay, next :: rest => do
    let (onTheWay, more) ← step job onTheWay next
    work job steps onTheWay (more ++ rest)

/-- Lowers the value of a node in at most the given number of steps. -/
def lowerWithin (job : Job) (steps : Nat) (root : NodeId) : RecorderM (Option String) := do
  if ← work job steps [] [.visit root] then
    match (← get).generator.code? root with
    | some code => return some code
    | none => throw (.graph (.noCode root))
  else return none

/-- Lowers the value of a node. -/
def lowerExpression (job : Job) (root : NodeId) : RecorderM String := do
  match ← lowerWithin job (Generator.stepLimit (← get).generator.graph) root with
  | some code => return code
  | none => throw (.graph .unfinished)

/-- The code of a value, to be used by a statement. -/
def useExpression (job : Job) (root : NodeId) : RecorderM String := do
  let code ← lowerExpression job root
  note (.used root)
  return code

/-- The second branch of a conditional. -/
def lowerElse (lower : NodeId → RecorderM Unit) : Option NodeId → RecorderM Unit
  | none => return
  | some no => do
    act (Generator.linkScope "else")
    note .closed
    note .opened
    lower no

/-- A conditional, each branch in a scope. -/
def lowerCondition (job : Job) (lower : NodeId → RecorderM Unit) (condition yes : NodeId)
    (no : Option NodeId) : RecorderM Unit := do
  let condition ← useExpression job condition
  act (Generator.write ("if (" ++ condition ++ ") "))
  act Generator.openScope
  note .opened
  lower yes
  lowerElse lower no
  act Generator.closeScope
  note .closed

/-- Lowers a statement. -/
def lowerStatement (job : Job) : Nat → NodeId → RecorderM Unit
  | 0, _ => throw (.graph .unfinished)
  | depth + 1, id => do
    let node := (← get).generator.graph.node id
    match node.operation with
    | .sequence => node.operands.forM (lowerStatement job depth)
    | .ret =>
      match node.operands with
      | [] => throw (.graph .returnWithoutValue)
      | value :: _ =>
        let code ← useExpression job value
        act (Generator.lowerResult job.options code)
    | .condition =>
      match node.operands with
      | [condition, yes] => lowerCondition job (lowerStatement job depth) condition yes none
      | [condition, yes, no] =>
        lowerCondition job (lowerStatement job depth) condition yes (some no)
      | operands => throw (.graph (.conditionOperands operands.length))
    | _ => discard (lowerExpression job id)

/-- Generates a C function. -/
def generateC (job : Job) (function : Function) : RecorderM Unit := do
  act (Generator.onDocument (Document.addHeader "stdint.h"))
  let arguments := function.arguments.map fun argument => (argument.name, argument.format)
  act (Generator.onNames do
    Naming.declare .function function.name (← Naming.alloc (.function function.result arguments)))
  act (Generator.write (Generator.cHead function))
  act Generator.openScope
  note .opened
  act (function.arguments.forM fun argument => Generator.reserve argument.name argument.format)
  act (modify ({ · with frame := some ⟨"", function.result⟩ }))
  lowerStatement job ((← get).generator.graph.size + 1) function.body
  act Generator.closeScope
  note .closed
  act (Generator.write "\n")

/-- Generates a function. -/
def generateFunction (job : Job) (function : Function) : RecorderM Unit := do
  act (Generator.record (·.startFunction function.name))
  act (Generator.promote job function)
  act (Generator.countUses function)
  note .began
  let before := (← get).generator.textSize
  generateC job function
  act (modify ({ · with frame := none }))
  let size := (← get).generator.textSize - before
  act (Generator.record (·.endFunction function.name size))

/-! ## Recorded runs without their notes -/

section Erasure

variable {α β : Type}

/-- What a recorded run comes to without its notes. -/
def erase : EStateM.Result Fault Recorded α → EStateM.Result Fault Generator α
  | .ok value state => .ok value state.generator
  | .error fault state => .error fault state.generator

/-- A recorded action does what another one does. -/
def Erases (recorded : RecorderM α) (action : GeneratorM α) : Prop :=
  ∀ state, erase (recorded state) = action state.generator

namespace Erases

variable {recorded : RecorderM α} {action : GeneratorM α}

theorem pure (value : α) : Erases (Pure.pure value) (Pure.pure value) :=
  fun _ => rfl

theorem throw (fault : Fault) :
    Erases (throw fault : RecorderM α) (throw fault : GeneratorM α) :=
  fun _ => rfl

theorem act (action : GeneratorM α) : Erases (act action) action := by
  intro state
  unfold Recorder.act
  cases action state.generator <;> rfl

theorem bind (first : Erases recorded action) {next : α → RecorderM β} {after : α → GeneratorM β}
    (rest : ∀ value, Erases (next value) (after value)) :
    Erases (recorded >>= next) (action >>= after) := by
  intro state
  have here := first state
  cases outcome : recorded state with
  | ok value middle =>
    rw [outcome] at here
    rw [bind_of_eq_ok outcome, bind_of_eq_ok here.symm]
    exact rest value middle
  | error fault middle =>
    rw [outcome] at here
    rw [bind_of_eq_error outcome, bind_of_eq_error here.symm]
    rfl

theorem bind_same (first : Erases recorded action) {next : α → RecorderM α}
    (rest : ∀ value, Erases (next value) (Pure.pure value)) : Erases (recorded >>= next) action := by
  have both := first.bind rest
  rw [bind_pure] at both
  exact both

theorem get_bind {next : Recorded → RecorderM α} {after : Generator → GeneratorM α}
    (rest : ∀ state, Erases (next state) (after state.generator)) :
    Erases (get >>= next) (get >>= after) :=
  fun state => rest state state

/-- A look at the state is not seen. -/
theorem look {next : Recorded → RecorderM α} (rest : ∀ state, Erases (next state) action) :
    Erases (get >>= next) action :=
  fun state => rest state state

/-- A note is not seen. -/
theorem note_bind (event : Event) {next : Unit → RecorderM α} (rest : Erases (next ()) action) :
    Erases (note event >>= next) action :=
  fun _ => rest _

theorem notes_bind (events : List Event) {next : Unit → RecorderM α}
    (rest : Erases (next ()) action) : Erases (events.forM note >>= next) action := by
  induction events with
  | nil => exact rest
  | cons event events ih => exact fun _ => ih _

theorem forM {values : List β} {recorded : β → RecorderM Unit} {action : β → GeneratorM Unit}
    (each : ∀ value, Erases (recorded value) (action value)) :
    Erases (values.forM recorded) (values.forM action) := by
  induction values with
  | nil => exact pure ()
  | cons value rest ih => exact bind (each value) fun _ => ih

end Erases

section Functions

variable (job : Job)

theorem step_erases (path : List NodeId) (next : Generator.Work) :
    Erases (step job path next) (Generator.step job path next) := by
  refine .look fun state => .bind_same (.act _) fun result => .look fun later => ?_
  exact .notes_bind _ (.pure result)

theorem work_erases (steps : Nat) (path : List NodeId) (stack : List Generator.Work) :
    Erases (work job steps path stack) (Generator.work job steps path stack) := by
  induction steps generalizing path stack with
  | zero => cases stack <;> exact .pure _
  | succ steps ih =>
    cases stack with
    | nil => exact .pure _
    | cons next rest => exact .bind (step_erases job path next) fun result => ih _ _

theorem lowerExpression_erases (root : NodeId) :
    Erases (lowerExpression job root) (Generator.lowerExpression job root) := by
  have within (steps : Nat) :
      Erases (lowerWithin job steps root) (Generator.lowerWithin job steps root) := by
    refine .bind (work_erases job _ _ _) fun enough => ?_
    cases enough with
    | false => exact .pure _
    | true =>
      refine .get_bind fun later => ?_
      cases later.generator.code? root with
      | none => exact .throw _
      | some code => exact .pure _
  refine .get_bind fun state => .bind (within _) fun found => ?_
  cases found with
  | none => exact .throw _
  | some code => exact .pure code

theorem useExpression_erases (root : NodeId) :
    Erases (useExpression job root) (Generator.lowerExpression job root) := by
  exact .bind_same (lowerExpression_erases job root) fun code => .note_bind _ (.pure code)

section Statements

variable {job} (language : job.options.language = .c)

theorem lowerElse_erases {recorded : NodeId → RecorderM Unit} {lower : NodeId → GeneratorM Unit}
    (each : ∀ id, Erases (recorded id) (lower id)) (no : Option NodeId) :
    Erases (lowerElse recorded no) (Generator.lowerElseC lower no) := by
  cases no with
  | none => exact .pure _
  | some no => exact .bind (.act _) fun _ => .note_bind _ (.note_bind _ (each no))

include language

theorem lowerCondition_erases {recorded : NodeId → RecorderM Unit}
    {lower : NodeId → GeneratorM Unit} (each : ∀ id, Erases (recorded id) (lower id))
    (condition yes : NodeId) (no : Option NodeId) :
    Erases (lowerCondition job recorded condition yes no)
      (Generator.lowerCondition job lower condition yes no) := by
  refine .bind (useExpression_erases job condition) fun code => ?_
  simp only [language]
  refine .bind (.act _) fun _ => .bind (.act _) fun _ => .note_bind _ ?_
  refine .bind (each yes) fun _ => .bind (lowerElse_erases each no) fun _ => ?_
  exact .bind_same (.act _) fun _ => .note_bind _ (.pure _)

theorem lowerStatement_erases (depth : Nat) (id : NodeId) :
    Erases (lowerStatement job depth id) (Generator.lowerStatement job depth id) := by
  induction depth generalizing id with
  | zero => exact .throw _
  | succ depth ih =>
    refine .get_bind fun state => ?_
    dsimp only
    generalize (state.generator.graph.node id).operation = operation,
      (state.generator.graph.node id).operands = operands
    cases operation with
    | sequence => exact .forM ih
    | ret =>
      cases operands with
      | nil => exact .throw _
      | cons value _ => exact .bind (useExpression_erases job value) fun code => .act _
    | condition =>
      match operands with
      | [condition, yes] => exact lowerCondition_erases language ih _ _ _
      | [condition, yes, no] => exact lowerCondition_erases language ih _ _ _
      | [] => exact .throw _
      | [_] => exact .throw _
      | _ :: _ :: _ :: _ :: _ => exact .throw _
    | _ => exact .bind (lowerExpression_erases job id) fun _ => .pure _

theorem generateFunction_erases (function : Function) :
    Erases (generateFunction job function) (Generator.generateFunction job function) := by
  have written : Erases (generateC job function) (Generator.writeFunction job function) := by
    unfold Generator.writeFunction
    rw [language]
    change Erases (generateC job function) (Generator.generateC job function)
    refine .bind (.act _) fun _ => .bind (.act _) fun _ => .bind (.act _) fun _ => ?_
    refine .bind (.act _) fun _ => .note_bind _ (.bind (.act _) fun _ => .bind (.act _) fun _ => ?_)
    rw [Generator.lowerBody, bind_assoc]
    refine .get_bind fun state => .bind (lowerStatement_erases language _ _) fun _ => ?_
    exact .bind (.act _) fun _ => .note_bind _ (.act _)
  refine .bind (.act _) fun _ => .bind (.act _) fun _ => .bind (.act _) fun _ => .note_bind _ ?_
  refine .get_bind fun state => .bind written fun _ => .bind (.act _) fun _ => ?_
  exact .get_bind fun later => .act _

/-- The recorded generation of functions is their generation. -/
theorem functions_erases (functions : List Function) :
    Erases (functions.forM (generateFunction job))
      (functions.forM (Generator.generateFunction job)) :=
  .forM (generateFunction_erases language)

end Statements

end Functions

end Erasure

end Recorder

end Retarget

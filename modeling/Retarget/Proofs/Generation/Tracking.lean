import Retarget.Proofs.Generation.Accounts
import Retarget.Proofs.Generation.Bounded
import Retarget.Proofs.Generation.Lowering

/-!
# Tracking the lowering of expressions

A recorded run that lowers an expression keeps an account of its pending work: the ledger knows the
nodes that have codes, scope by scope, and takes in what every step does (`Recorder.step_tracks`), so
it takes in what the whole run does (`Recorder.lowerExpression_tracks`).
-/

namespace Retarget

open List
open Generator (Work)

namespace Ledger

variable {ledger after : Ledger} {generator : Generator} {id : NodeId}

/-- A ledger knows the nodes that have codes, scope by scope. -/
def Mirrors (ledger : Ledger) (generator : Generator) : Prop :=
  List.Forall₂ (fun (level : Holdings) (memo : Memo) =>
    ∀ id, id ∈ level.map Prod.fst ↔ id ∈ memo.keys) ledger.levels generator.levels

theorem Mirrors.isSome_code? (mirrors : ledger.Mirrors generator) (id : NodeId) :
    (generator.code? id).isSome = ledger.knows id := by
  unfold Mirrors at mirrors
  unfold Generator.code? knows
  generalize ledger.levels = levels, generator.levels = memos at mirrors
  induction mirrors with
  | nil => rfl
  | @cons level memo _ _ here _ ih =>
    rw [findSome?_cons, any_cons, ← ih]
    have known := (here id).trans (OrderedMap.mem_keys memo id)
    cases found : memo.get? id with
    | some code =>
      have held : id ∈ level.map Prod.fst := known.mpr (by rw [found]; rfl)
      rw [decide_eq_true held]
      rfl
    | none =>
      have unheld : id ∉ level.map Prod.fst := fun held => by
        have impossible := known.mp held
        rw [found] at impossible
        cases impossible
      rw [decide_eq_false unheld]
      rfl

/-- A code that is remembered is held. -/
theorem Mirrors.remember (mirrors : ledger.Mirrors generator) {inlined : Bool} {code : String}
    (innermost : after.innermost = (id, inlined) :: ledger.innermost)
    (outer : after.outer = ledger.outer) :
    after.Mirrors { generator with memo := generator.memo.insert id code } := by
  obtain ⟨here, around⟩ := forall₂_cons.mp mirrors
  unfold Mirrors
  rw [levels, innermost, outer]
  refine .cons (fun other => ?_) around
  rw [map_cons, mem_cons, OrderedMap.mem_keys_insert, here other, Or.comm]

theorem balance_append {log : List Event} (balanced : balance log = some ledger)
    (events : List Event) : balance (log ++ events) = events.foldlM enter ledger := by
  unfold balance at *
  rw [foldlM_append, balanced]
  rfl

end Ledger

/-- A later scene of the same function, with the same statements written. -/
structure Scene.Later (before after : Scene) : Prop where
  base : after.base = before.base
  body : after.body = before.body
  written : after.written = before.written

theorem Scene.Later.refl (scene : Scene) : scene.Later scene :=
  ⟨rfl, rfl, rfl⟩

theorem Scene.Later.trans {first second third : Scene} (left : first.Later second)
    (right : second.Later third) : first.Later third :=
  ⟨right.base.trans left.base, right.body.trans left.body, right.written.trans left.written⟩

namespace Recorder

variable {stack : List Work} {next : Work}

/-- The ledger has taken in all that happened. -/
def Lawful (state : Recorded) : Prop :=
  ∃ ledger, Ledger.balance state.log = some ledger

/-- An account is kept of pending work. -/
structure Tracks (scene : Scene) (root : NodeId) (path : List NodeId) (stack : List Work)
    (state : Recorded) (ledger : Ledger) : Prop where
  balanced : Ledger.balance state.log = some ledger
  mirrors : ledger.Mirrors state.generator
  graph : state.generator.graph = scene.graph
  account : scene.Account state.generator.uses root stack ledger
  onTheWay : ∀ id ∈ Generator.pending stack, id ∈ path

/-- An account is kept of pending work in a later scene. -/
def Follows (scene : Scene) (root : NodeId) (path : List NodeId) (stack : List Work)
    (state : Recorded) : Prop :=
  ∃ later ledger, scene.Later later ∧ Tracks later root path stack state ledger

variable {job : Job} {scene : Scene} {root id : NodeId} {path : List NodeId} {rest : List Work}
  {state : Recorded} {ledger : Ledger} {after : Generator}

theorem Tracks.follows (tracks : Tracks scene root path stack state ledger) :
    Follows scene root path stack state :=
  ⟨scene, ledger, .refl scene, tracks⟩

theorem Tracks.finished (tracks : Tracks scene root path [] state ledger) :
    Tracks scene root [] [] state ledger :=
  ⟨tracks.balanced, tracks.mirrors, tracks.graph, tracks.account, forall_mem_nil _⟩

theorem Tracks.knows (tracks : Tracks scene root path stack state ledger) (id : NodeId) :
    ledger.knows id = (state.generator.code? id).isSome :=
  (tracks.mirrors.isSome_code? id).symm

/-! ## Steps -/

/-- The ledger takes in how the node that the next piece of work is about gets its code. -/
theorem Tracks.remember (tracks : Tracks scene root path (next :: rest) state ledger)
    {event : Event} {code : String} {inlined : Bool} {middle : Generator} {onward : List NodeId}
    {later : Ledger} (same : Generator.SameCodes state.generator middle)
    (stays : ∀ other ∈ path, other ∈ Generator.pending rest → other ∈ onward)
    (entered : ledger.enter event = some later)
    (innermost : later.innermost = (next.subject, inlined) :: ledger.innermost)
    (outer : later.outer = ledger.outer)
    (account : scene.Account state.generator.uses root rest later) :
    Tracks scene root onward rest
      ⟨{ middle with memo := middle.memo.insert next.subject code }, state.log ++ [event]⟩ later where
  balanced := by
    rw [Ledger.balance_append tracks.balanced, foldlM_cons, entered]
    rfl
  mirrors := by
    have known : ledger.Mirrors middle := by
      unfold Ledger.Mirrors Generator.levels
      rw [same.memo, same.outerMemos]
      exact tracks.mirrors
    exact known.remember innermost outer
  graph := same.graph.trans tracks.graph
  account := by
    rw [show Generator.uses { middle with memo := _ } = middle.uses from rfl, same.uses]
    exact account
  onTheWay other member :=
    stays other (tracks.onTheWay other (Scene.mem_pending_cons member)) member

/-- Work that brings no code is put on top, and the ledger has nothing to take in. -/
theorem Tracks.await (tracks : Tracks scene root path (.visit id :: rest) state ledger)
    (unknown : state.generator.code? id = none) (idle : id ∉ path)
    (role : (state.generator.graph.node id).operation.role = .value) (template : Template) :
    Tracks scene root (id :: path)
      ((state.generator.graph.node id).operands.map .visit ++ .emit id template :: rest) state
      ledger := by
  have absent : ledger.knows id = false := by
    rw [tracks.knows, unknown]
    rfl
  have outside : id ∉ Generator.pending rest := fun waits => idle (tracks.onTheWay id waits)
  rw [tracks.graph] at role ⊢
  refine ⟨tracks.balanced, tracks.mirrors, tracks.graph, ?_, ?_⟩
  · exact tracks.account.await absent outside role template
  · rw [Scene.pending_visits]
    exact forall_mem_cons.mpr ⟨mem_cons_self, fun other member =>
      mem_cons_of_mem _ (tracks.onTheWay other member)⟩

/-- A pair of nodes is added in a later scene. -/
theorem Tracks.replace (tame : job.book.Tame) (conserving : job.book.Conserving)
    (tracks : Tracks scene root path (.visit id :: rest) state ledger)
    (unknown : state.generator.code? id = none) (idle : id ∉ path)
    (role : (state.generator.graph.node id).operation.role = .value) {later : Graph} {new : NodeId}
    (lowered : job.book.lower state.generator.graph id = .ok (.replaced later new)) :
    Follows scene root (id :: path) (.visit new :: .share id new :: rest)
      ⟨finalState (Generator.replace later id new state.generator), state.log⟩ := by
  have absent : ledger.knows id = false := by
    rw [tracks.knows, unknown]
    rfl
  have outside : id ∉ Generator.pending rest := fun waits => idle (tracks.onTheWay id waits)
  have asked := tracks.account.stacked.warranted.1
  have sane := tracks.account.sane
  rw [tracks.graph] at role lowered
  have two := tame.length_of_replaced lowered
  cases tame.replaces lowered with
  | @intro first second isReplaced builds makes =>
    have conserves : scene.graph.Conserves id first second :=
      conserving.of_makes sane.patched.bare makes two fun operand uses =>
        sane.lt_size (sane.patched.needed_operand sane.grounded asked.needed uses)
    have account := tracks.account.join absent outside role isReplaced builds conserves
      (Graph.joins_shareTag scene.graph first second id)
    refine ⟨scene.join _ ⟨id, scene.graph.size⟩, ledger, ⟨rfl, rfl, rfl⟩, tracks.balanced,
      tracks.mirrors, rfl, account, ?_⟩
    exact forall_mem_cons.mpr ⟨mem_cons_self, fun other member =>
      mem_cons_of_mem _ (tracks.onTheWay other member)⟩

/-- The emitted code is an inline expression only for a value that is counted once. -/
theorem tally_le_one_of_inlined {code : String} {middle : Generator}
    (declared : 1 < Graph.tally state.generator.uses id → middle.view.Declares .variable code)
    (inlined : (!(((Generator.code? { middle with memo := middle.memo.insert id code } id).any
      fun text => Generator.isTemporary { middle with memo := middle.memo.insert id code } text)))
        = true) :
    Graph.tally state.generator.uses id ≤ 1 := by
  refine Nat.le_of_not_lt fun shared => ?_
  have known : Generator.code? { middle with memo := middle.memo.insert id code } id = some code :=
    (Generator.code?_remember middle id id code).trans (if_pos rfl)
  obtain ⟨draft, member, taken⟩ := declared shared
  have isTemporary :
      Generator.isTemporary { middle with memo := middle.memo.insert id code } code = true :=
    any_eq_true.mpr ⟨draft, member, by rw [Bool.not_eq_true']; exact taken⟩
  rw [known, Option.any_some, isTemporary] at inlined
  cases inlined

theorem mem_erase_of_pending (distinct : (Generator.pending stack).Nodup)
    (listed : stack = next :: rest) (opens : next.opened? = some id) {other : NodeId}
    (onTheWay : other ∈ path) (waits : other ∈ Generator.pending rest) : other ∈ path.erase id := by
  have front : Generator.pending stack = id :: Generator.pending rest := by
    rw [listed]
    exact filterMap_cons_some opens
  rw [front] at distinct
  refine (mem_erase_of_ne ?_).mpr onTheWay
  rintro rfl
  exact (nodup_cons.mp distinct).1 waits

/-- An account is kept of what is left after a step of generation, and the ledger takes in what the
step did. -/
theorem Tracks.steps (tame : job.book.Tame) (conserving : job.book.Conserving)
    {result : List NodeId × List Work}
    (tracks : Tracks scene root path (next :: rest) state ledger)
    (stepped : Generator.step job path next state.generator = .ok result after)
    (declared : ∀ id template code middle, next = .emit id template →
      Generator.emit job.options id template state.generator = .ok code middle →
      1 < Graph.tally state.generator.uses id → middle.view.Declares .variable code) :
    Follows scene root result.1 (result.2 ++ rest)
      ⟨after, state.log ++ next.events state.generator after⟩ := by
  have stays (other : NodeId) (onTheWay : other ∈ path) (_ : other ∈ Generator.pending rest) :
      other ∈ path := onTheWay
  cases Generator.outcome_of_eq stepped with
  | @skip id known =>
    have nothing : Work.events state.generator state.generator (.visit id) = [] := by
      obtain ⟨code, given⟩ := Option.isSome_iff_exists.mp known
      rw [Work.events, given]
      rfl
    rw [nothing, append_nil]
    exact Tracks.follows
      ⟨tracks.balanced, tracks.mirrors, tracks.graph, tracks.account.skip, tracks.onTheWay⟩
  | @leaf id code middle unknown idle role same =>
    have noted : Work.events state.generator (finalState (Generator.remember id code middle))
        (.visit id) = [.leaf id] := by
      rw [Work.events, unknown, Generator.code?_remember, if_pos rfl]
      rfl
    have absent : ledger.knows id = false := by
      rw [tracks.knows, unknown]
      rfl
    rw [tracks.graph] at role
    obtain ⟨later, entered, innermost, outer, account⟩ :=
      tracks.account.leaf absent (fun waits => idle (tracks.onTheWay id waits)) role
    rw [noted]
    exact (tracks.remember same stays entered innermost outer account).follows
  | @await id template unknown idle role _ =>
    have nothing : Work.events state.generator state.generator (.visit id) = [] := by
      rw [Work.events, unknown]
      rfl
    rw [nothing, append_nil, append_assoc]
    exact (tracks.await unknown idle role template).follows
  | @replace id new later unknown idle role lowered =>
    have nothing : Work.events state.generator
        (finalState (Generator.replace later id new state.generator)) (.visit id) = [] := by
      have still : (finalState (Generator.replace later id new state.generator)).code? id = none :=
        unknown
      rw [Work.events, unknown, still]
      rfl
    rw [nothing, append_nil]
    exact tracks.replace tame conserving unknown idle role lowered
  | @emit id template code middle emitted =>
    have single := tally_le_one_of_inlined (declared id template code middle rfl emitted)
    have known (operand : NodeId) (uses : operand ∈ (scene.graph.node id).operands) :
        ledger.knows operand = true := by
      rw [← tracks.graph] at uses
      rw [tracks.knows]
      exact Generator.isSome_code?_of_emit emitted uses
    obtain ⟨later, entered, innermost, outer, account⟩ := tracks.account.emit known single
    rw [← tracks.graph] at entered
    refine (tracks.remember ((Generator.emit_sameCodes _ _ _).of_eq_ok emitted) ?_ entered
      innermost outer account).follows
    exact fun other => mem_erase_of_pending tracks.account.stacked.distinct rfl rfl
  | @share id replacement code found =>
    have known : ledger.knows replacement = true := by
      rw [tracks.knows, found]
      rfl
    obtain ⟨later, entered, innermost, outer, account⟩ := tracks.account.share known
    refine (tracks.remember (Std.Refl.refl state.generator) ?_ entered innermost outer
      account).follows
    exact fun other => mem_erase_of_pending tracks.account.stacked.distinct rfl rfl

/-! ## Runs -/

theorem forM_note (events : List Event) (state : Recorded) :
    events.forM note state = .ok () { state with log := state.log ++ events } := by
  induction events generalizing state with
  | nil =>
    rw [append_nil]
    rfl
  | cons event events ih =>
    have noted : note event state = .ok () { state with log := state.log ++ [event] } := rfl
    change (note event >>= fun _ => events.forM note) state = _
    rw [bind_of_eq_ok noted, ih, append_assoc]
    rfl

/-- A recorded piece of work notes what it did where it succeeds. -/
theorem step_eq (path : List NodeId) (next : Work) (state : Recorded) :
    step job path next state =
      match Generator.step job path next state.generator with
      | .ok result after =>
        .ok result ⟨after, state.log ++ next.events state.generator after⟩
      | .error fault after => .error fault { state with generator := after } := by
  unfold step
  rw [bind_of_eq_ok (get_eq_ok state)]
  cases stepped : Generator.step job path next state.generator with
  | error fault after =>
    have acted : act (Generator.step job path next) state =
        .error fault { state with generator := after } := by
      unfold act
      rw [stepped]
    rw [bind_of_eq_error acted]
  | ok result after =>
    have acted : act (Generator.step job path next) state =
        .ok result { state with generator := after } := by
      unfold act
      rw [stepped]
    rw [bind_of_eq_ok acted, bind_of_eq_ok (get_eq_ok _), bind_of_eq_ok (forM_note _ _)]
    rfl

section

variable (language : job.options.language = .c) (orderly : job.book.Orderly)
  (tame : job.book.Tame) (conserving : job.book.Conserving)
include language orderly tame conserving

/-- A recorded step keeps an account of what is left, and the ledger takes in what it did. -/
theorem step_tracks {next : Work} (sound : state.generator.Sound job)
    (justified : next.Justified job.book state.generator.graph)
    (tracks : Tracks scene root path (next :: rest) state ledger) :
    Upholds Lawful (step job path next) state fun result after =>
      Follows scene root result.1 (result.2 ++ rest) after ∧
        Generator.Leads job state.generator after.generator ∧
        ∀ more ∈ result.2, more.Justified job.book after.generator.graph := by
  have safe := Generator.step_safe sound language orderly path next justified
  unfold Upholds EndsIn
  rw [step_eq]
  cases stepped : Generator.step job path next state.generator with
  | error fault after => exact ⟨ledger, tracks.balanced⟩
  | ok result after =>
    refine ⟨tracks.steps tame conserving stepped ?_,
      safe.ends result after stepped⟩
    rintro id template code middle rfl emitted
    exact ((Generator.emit_safe sound language orderly justified).ends code middle emitted).2.2

theorem work_tracks (steps : Nat) {stack : List Work} (sound : state.generator.Sound job)
    (justified : ∀ next ∈ stack, next.Justified job.book state.generator.graph)
    (tracks : Tracks scene root path stack state ledger) :
    Upholds Lawful (work job steps path stack) state fun enough after =>
      Lawful after ∧ (enough = true → Follows scene root [] [] after) := by
  induction steps generalizing scene path stack state ledger with
  | zero =>
    cases stack with
    | nil => exact .pure ⟨⟨ledger, tracks.balanced⟩, fun _ => tracks.finished.follows⟩
    | cons next rest => exact .pure ⟨⟨ledger, tracks.balanced⟩, nofun⟩
  | succ steps ih =>
    cases stack with
    | nil => exact .pure ⟨⟨ledger, tracks.balanced⟩, fun _ => tracks.finished.follows⟩
    | cons next rest =>
      obtain ⟨here, others⟩ := forall_mem_cons.mp justified
      refine (step_tracks language orderly tame conserving sound here tracks).bind ?_
      rintro ⟨onward, more⟩ after ⟨⟨later, ledger, passed, tracks⟩, leads, added⟩
      refine (ih leads.sound (fun work member => ?_) tracks).mono ?_
      · rcases mem_append.mp member with new | old
        · exact added work new
        · exact (others work old).mono leads.evolves.graph
      · rintro enough finished ⟨lawful, follows⟩
        refine ⟨lawful, fun isEnough => ?_⟩
        obtain ⟨last, ledger, later', tracks⟩ := follows isEnough
        exact ⟨last, ledger, passed.trans later', tracks⟩

end

end Recorder

end Retarget

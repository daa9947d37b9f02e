import Retarget.Proofs.Generation.InScope
import Retarget.Proofs.Generation.Tracking
import Retarget.Proofs.Source.Turns

/-!
# Keeping the ledger along statements

Between two statements of a function no work is pending, and the codes in every open scope are settled
(`Recorder.Kept`). A statement uses its value once, for it is written once: the statements that it is
made of take places of their own, one after the other (`Recorder.Lowers`).
-/

namespace Retarget

open List

namespace Scene

/-- A statement of the body has used its value. -/
def write (scene : Scene) (statement : NodeId) : Scene :=
  { scene with written := statement :: scene.written }

/-- A later scene of the same function, in which statements at some places may have been written
since. -/
structure Advances (before after : Scene) (low high : NodeId) : Prop where
  base : after.base = before.base
  body : after.body = before.body
  written : ∀ statement ∈ after.written,
    statement ∈ before.written ∨ low ≤ statement ∧ statement ≤ high

/-- No statement is written at the places that another one takes. -/
def Clear (scene : Scene) (start : NodeId → NodeId) (id : NodeId) : Prop :=
  ∀ statement ∈ scene.written, statement < start id ∨ id < statement

section

variable {first second third : Scene} {low high : NodeId} {start : NodeId → NodeId}
  {id inner : NodeId}

theorem Later.advances (later : first.Later second) (low high : NodeId) :
    first.Advances second low high where
  base := later.base
  body := later.body
  written _ member := .inl (later.written ▸ member)

theorem Advances.trans (left : first.Advances second low high)
    (right : second.Advances third low high) : first.Advances third low high where
  base := right.base.trans left.base
  body := right.body.trans left.body
  written statement member := (right.written statement member).elim (left.written statement) .inr

/-- The places of a part are among those of the whole. -/
theorem Advances.widen {lower upper : NodeId} (advances : first.Advances second lower upper)
    (after : low ≤ lower) (before : upper ≤ high) : first.Advances second low high where
  base := advances.base
  body := advances.body
  written statement member := (advances.written statement member).imp_right fun between =>
    ⟨Nat.le_trans after between.1, Nat.le_trans between.2 before⟩

theorem Advances.clear (advances : first.Advances second low high) (clear : first.Clear start id)
    (apart : high < start id ∨ id < low) : second.Clear start id := by
  intro statement member
  rcases advances.written statement member with old | ⟨above, below⟩
  · exact clear statement old
  · rcases apart with before | after
    · exact .inl (Nat.lt_of_le_of_lt below before)
    · exact .inr (Nat.lt_of_lt_of_le after above)

theorem Clear.fresh (clear : first.Clear start id) (begins : start id ≤ id) :
    id ∉ first.written :=
  fun member => (clear id member).elim (Nat.not_lt_of_le begins) (Nat.lt_irrefl id)

theorem Clear.part (clear : first.Clear start id) (after : start id ≤ start inner)
    (before : inner < id) : first.Clear start inner := by
  intro statement member
  rcases clear statement member with early | late
  · exact .inl (Nat.lt_of_lt_of_le early after)
  · exact .inr (Nat.lt_trans before late)

end

/-- Codes stay settled when a statement is written. -/
theorem Settled.write {scene : Scene} {spent : List NodeId} {stack : List Generator.Work}
    {level : Holdings} (settled : scene.Settled spent stack level) (statement : NodeId) :
    (scene.write statement).Settled spent stack level := by
  have lonely {id : NodeId} (before : scene.Lonely stack level id) :
      (scene.write statement).Lonely stack level id :=
    ⟨before.lone, fun user client =>
      before.clients user ⟨client.reached, client.role, client.uses⟩⟩
  constructor
  case needed => exact settled.needed
  case parts => exact settled.parts
  case lone => exact fun id inlined inside => lonely (settled.lone id inlined inside)
  case handed => exact fun swap member inlined => lonely (settled.handed swap member inlined)
  case used =>
    intro id inlined member
    cases settled.used id inlined member with
    | operand held uses => exact .operand held uses
    | value done uses => exact .value (mem_cons_of_mem _ done) uses
    | replacement known same held => exact .replacement known same held

end Scene

namespace Recorder

/-- Between two statements of a function, the ledger is right about the codes that are known. -/
structure Keeps (scene : Scene) (state : Recorded) (ledger : Ledger) : Prop where
  balanced : Ledger.balance state.log = some ledger
  mirrors : ledger.Mirrors state.generator
  graph : state.generator.graph = scene.graph
  sane : scene.Sane
  counted : scene.base.Counted scene.body scene.graph scene.swaps state.generator.uses
  settled : ∀ level ∈ ledger.levels, scene.Settled ledger.spent [] level

/-- Some ledger is right about the codes that are known. -/
def Kept (scene : Scene) (state : Recorded) : Prop :=
  ∃ ledger, Keeps scene state ledger

variable {job : Job} {scene : Scene} {state : Recorded} {ledger : Ledger} {after : Generator}

theorem Kept.lawful (kept : Kept scene state) : Lawful state :=
  kept.imp fun _ keeps => keeps.balanced

theorem Tracks.keeps {root : NodeId} (tracks : Tracks scene root [] [] state ledger) :
    Keeps scene state ledger where
  balanced := tracks.balanced
  mirrors := tracks.mirrors
  graph := tracks.graph
  sane := tracks.account.sane
  counted := tracks.account.counted
  settled := forall_mem_cons.mpr ⟨tracks.account.innermost, tracks.account.outer⟩

/-! ## Values of statements -/

section Value

variable {statement value : NodeId} (reached : scene.Reached statement)
  (role : (scene.base.node statement).operation.role = .statement)
  (uses : value ∈ (scene.base.node statement).operands)
include reached role uses

/-- Work begins at the value of a statement. -/
theorem Keeps.tracks (keeps : Keeps scene state ledger) :
    Tracks scene value [] [.visit value] state ledger := by
  have sane := keeps.sane
  have inside := sane.grounded value (reached.tail uses)
  obtain ⟨innermost, outer⟩ := forall_mem_cons.mp keeps.settled
  refine ⟨keeps.balanced, keeps.mirrors, keeps.graph, ?_, forall_mem_nil _⟩
  constructor
  case sane => exact sane
  case counted => exact keeps.counted
  case stacked =>
    constructor
    case rooted => exact ⟨statement, reached, role, uses⟩
    case warranted =>
      refine ⟨⟨.inl (reached.tail uses), .inl rfl, fun swap member has => ?_⟩, trivial⟩
      exact absurd inside (Nat.not_lt_of_le (sane.patched.lt_size_of_has member has).1)
    case distinct => exact .nil
    case values => exact forall_mem_nil _
    case shares => simp
  case unknown => exact forall_mem_nil _
  case innermost => exact innermost.mono (List.Subset.refl _) nofun
  case outer => exact outer

/-- The ledger takes in that a statement which is not written yet uses its value. -/
theorem Keeps.use (keeps : Keeps scene state ledger) (fresh : statement ∉ scene.written)
    (known : (state.generator.code? value).isSome = true) :
    Kept (scene.write statement) { state with log := state.log ++ [.used value] } := by
  have unspent (inlined : ledger.inlines value = true) : value ∉ ledger.spent := by
    obtain ⟨level, open_, held⟩ := Ledger.inlines_iff.mp inlined
    exact (keeps.settled level open_).value keeps.sane reached role fresh uses held
  obtain ⟨spent, used, added⟩ :=
    Ledger.use_of_unspent ((keeps.mirrors.isSome_code? value).symm.trans known) unspent
  have written : ∀ other ∈ (scene.write statement).written, scene.Reached other ∧
      (scene.base.node other).operation.role = .statement :=
    forall_mem_cons.mpr ⟨⟨reached, role⟩, keeps.sane.written⟩
  refine ⟨{ ledger with spent }, ?_, keeps.mirrors, keeps.graph, ?_, keeps.counted, ?_⟩
  · rw [Ledger.balance_append keeps.balanced, foldlM_cons, Ledger.enter, used]
    rfl
  · exact ⟨keeps.sane.grounded, keeps.sane.patched, written⟩
  · intro level open_
    refine ((keeps.settled level open_).write statement).respend fun other held member => ?_
    rcases added other member with old | rfl
    · exact .inl old
    · exact .inr (.value mem_cons_self uses)

end Value

theorem Erases.eq_ok {α : Type} {recorded : RecorderM α} {action : GeneratorM α}
    (erases : Erases recorded action) {value : α} {finished : Recorded}
    (done : recorded state = .ok value finished) :
    action state.generator = .ok value finished.generator := by
  rw [← erases state, done]
  rfl

section Expression

variable (language : job.options.language = .c) (orderly : job.book.Orderly)
  (tame : job.book.Tame) (conserving : job.book.Conserving)
include language orderly tame conserving

section

variable {statement value : NodeId} (reached : scene.Reached statement)
  (role : (scene.base.node statement).operation.role = .statement)
  (uses : value ∈ (scene.base.node statement).operands)

include reached role uses

/-- A recorded run that lowers the value of a statement leaves a ledger that is right. -/
theorem lowerExpression_keeps (sound : state.generator.Sound job) (kept : Kept scene state) :
    Upholds Lawful (lowerExpression job value) state fun _ after =>
      ∃ later ledger, scene.Later later ∧ Keeps later after ledger ∧
        (after.generator.code? value).isSome = true := by
  obtain ⟨ledger, keeps⟩ := kept
  have started : ∀ next ∈ [Generator.Work.visit value],
      next.Justified job.book state.generator.graph :=
    forall_mem_singleton.mpr trivial
  have within (steps : Nat) : Upholds Lawful (lowerWithin job steps value) state fun found after =>
      Lawful after ∧ (found.isSome = true → ∃ later ledger, scene.Later later ∧
        Keeps later after ledger ∧ (after.generator.code? value).isSome = true) := by
    refine (work_tracks language orderly tame conserving steps sound started
      (keeps.tracks reached role uses)).bind ?_
    rintro enough after ⟨lawful, follows⟩
    cases enough with
    | false => exact .pure ⟨lawful, nofun⟩
    | true =>
      obtain ⟨later, ledger, passed, tracks⟩ := follows rfl
      refine EndsIn.get_bind ?_
      cases known : after.generator.code? value with
      | none => exact .throw lawful
      | some code =>
        refine .pure ⟨lawful, fun _ => ⟨later, ledger, passed, tracks.keeps, ?_⟩⟩
        rw [known]
        rfl
  refine EndsIn.get_bind ((within _).bind ?_)
  rintro found after ⟨lawful, done⟩
  cases found with
  | none => exact .throw lawful
  | some code => exact .pure (done rfl)

/-- The ledger takes in that a statement uses its value. -/
theorem useExpression_keeps (fresh : statement ∉ scene.written) (sound : state.generator.Sound job)
    (kept : Kept scene state) :
    Upholds Lawful (useExpression job value) state fun code after =>
      (∃ later, scene.Advances later statement statement ∧ Kept later after) ∧
        Generator.Leads job state.generator after.generator ∧
        after.generator.Expresses job value code := by
  have used : Upholds Lawful (useExpression job value) state fun _ after =>
      ∃ later, scene.Advances later statement statement ∧ Kept later after := by
    refine (lowerExpression_keeps language orderly tame conserving reached role uses sound
      kept).bind ?_
    rintro code after ⟨⟨_, _, graph, swaps, _⟩, ledger, ⟨rfl, rfl, rfl⟩, keeps, known⟩
    let later : Scene := { scene with graph, swaps }
    refine ⟨later.write statement, ⟨rfl, rfl, ?_⟩,
      @Keeps.use later _ _ _ _ reached role uses keeps fresh known⟩
    exact forall_mem_cons.mpr ⟨.inr ⟨Nat.le_refl _, Nat.le_refl _⟩, fun _ => .inl⟩
  refine used.strengthen fun code after done kept => ⟨kept, ?_⟩
  exact (Generator.lowerExpression_safe sound language orderly value).ends code _
    ((useExpression_erases job value).eq_ok done)

end

end Expression

/-! ## Scopes -/

section Scopes

variable {α β : Type}

theorem act_upholds (lawful : Lawful state) (action : GeneratorM α) :
    Upholds Lawful (act action) state fun value after => ∃ generator,
      action state.generator = .ok value generator ∧ after = { state with generator } := by
  unfold Upholds EndsIn act
  cases action state.generator with
  | error fault generator => exact lawful
  | ok value generator => exact ⟨generator, rfl, rfl⟩

theorem note_bind {event : Event} {next : Unit → RecorderM β} {post : β → Recorded → Prop}
    (rest : Upholds Lawful (next ()) { state with log := state.log ++ [event] } post) :
    Upholds Lawful (note event >>= next) state post :=
  rest

/-- What happens apart from codes does not matter. -/
theorem Kept.sameCodes (kept : Kept scene state) (same : Generator.SameCodes state.generator after) :
    Kept scene { state with generator := after } := by
  obtain ⟨ledger, keeps⟩ := kept
  refine ⟨ledger, keeps.balanced, ?_, same.graph.trans keeps.graph, keeps.sane, ?_, keeps.settled⟩
  · unfold Ledger.Mirrors Generator.levels
    rw [same.memo, same.outerMemos]
    exact keeps.mirrors
  · rw [same.uses]
    exact keeps.counted

theorem Kept.act (kept : Kept scene state) {action : GeneratorM α}
    {post : α → Generator → Prop} (safe : Generator.Safe job action state.generator post)
    (same : Changes Generator.SameCodes action) :
    Upholds Lawful (act action) state fun value after =>
      Kept scene after ∧ post value after.generator := by
  refine (act_upholds kept.lawful action).mono ?_
  rintro value _ ⟨after, done, rfl⟩
  exact ⟨kept.sameCodes (same.of_eq_ok done), safe.ends value after done⟩

theorem settled_nil (scene : Scene) (spent : List NodeId) (stack : List Generator.Work) :
    scene.Settled spent stack [] where
  needed := forall_mem_nil _
  parts _ _ := forall_mem_nil _
  lone _ impossible := by cases impossible
  handed _ _ impossible := by cases impossible
  used _ impossible := by cases impossible

/-- A scope is opened, in which no code is known. -/
theorem Kept.push (kept : Kept scene state) (memo : after.memo = OrderedMap.empty)
    (outer : after.outerMemos = state.generator.levels)
    (graph : after.graph = state.generator.graph) (uses : after.uses = state.generator.uses) :
    Kept scene ⟨after, state.log ++ [.opened]⟩ := by
  obtain ⟨ledger, keeps⟩ := kept
  refine ⟨{ ledger with innermost := [], outer := ledger.levels }, ?_, ?_,
    graph.trans keeps.graph, keeps.sane, ?_, ?_⟩
  · rw [Ledger.balance_append keeps.balanced]
    rfl
  · unfold Ledger.Mirrors Generator.levels
    rw [memo, outer]
    exact .cons (fun _ => ⟨nofun, nofun⟩) keeps.mirrors
  · rw [uses]
    exact keeps.counted
  · exact forall_mem_cons.mpr ⟨settled_nil _ _ _, keeps.settled⟩

/-- The innermost scope is closed, and its codes are forgotten. -/
theorem Kept.pop (kept : Kept scene state) (around : state.generator.outerMemos = after.levels)
    (graph : after.graph = state.generator.graph) (uses : after.uses = state.generator.uses) :
    Kept scene ⟨after, state.log ++ [.closed]⟩ := by
  obtain ⟨ledger, keeps⟩ := kept
  obtain ⟨_, outside⟩ := forall₂_cons.mp keeps.mirrors
  rw [around] at outside
  cases listed : ledger.outer with
  | nil =>
    rw [listed] at outside
    cases outside
  | cons innermost outer =>
    rw [listed] at outside
    refine ⟨{ ledger with innermost, outer }, ?_, outside, graph.trans keeps.graph, keeps.sane,
      ?_, ?_⟩
    · rw [Ledger.balance_append keeps.balanced, foldlM_cons, Ledger.enter, listed]
      rfl
    · rw [uses]
      exact keeps.counted
    · intro level open_
      refine keeps.settled level (mem_cons_of_mem _ ?_)
      rw [listed]
      exact open_

theorem Kept.openScope (kept : Kept scene state)
    (done : Generator.openScope state.generator = .ok () after) :
    Kept scene ⟨after, state.log ++ [.opened]⟩ := by
  cases done
  exact kept.push rfl rfl rfl rfl

variable {outer : Generator} (inside : Generator.Inside job outer state.generator)
include inside

theorem Kept.closeScope (kept : Kept scene state)
    (done : Generator.closeScope state.generator = .ok () after) :
    Kept scene ⟨after, state.log ++ [.closed]⟩ := by
  obtain ⟨_, middle, popped, closed⟩ := bind_eq_ok.mp done
  cases Generator.popMemo_eq_ok inside.memos popped
  obtain ⟨document, _, rfl⟩ := Generator.onDocument_eq_ok closed
  exact kept.pop inside.memos rfl rfl

theorem Kept.linkScope {transition : String} (kept : Kept scene state)
    (done : Generator.linkScope transition state.generator = .ok () after) :
    Kept scene ⟨after, state.log ++ [.closed] ++ [.opened]⟩ := by
  obtain ⟨_, middle, popped, linked⟩ := bind_eq_ok.mp done
  cases Generator.popMemo_eq_ok inside.memos popped
  obtain ⟨_, middle, changed, pushed⟩ := bind_eq_ok.mp linked
  obtain ⟨document, _, rfl⟩ := Generator.onDocument_eq_ok changed
  cases pushed
  have closed : Kept scene
      ⟨{ state.generator with memo := outer.memo, outerMemos := outer.outerMemos, document },
        state.log ++ [.closed]⟩ :=
    kept.pop inside.memos rfl rfl
  exact closed.push rfl rfl rfl rfl

end Scopes

/-! ## Statements -/

/-- A statement is lowered in every scene of a function in which none of its places is written. -/
def Lowers (job : Job) (base : Graph) (body : NodeId) (start : NodeId → NodeId)
    (action : RecorderM Unit) (id : NodeId) : Prop :=
  ∀ ⦃scene : Scene⦄ ⦃state : Recorded⦄, scene.base = base → scene.body = body →
    scene.Clear start id → state.generator.Sound job → Kept scene state →
    Upholds Lawful action state fun _ after =>
      (∃ later, scene.Advances later (start id) id ∧ Kept later after) ∧
        Generator.Leads job state.generator after.generator

section Statements

variable {base : Graph} {body : NodeId} {start : NodeId → NodeId} {id : NodeId}
  (language : job.options.language = .c) (orderly : job.book.Orderly)
  (tame : job.book.Tame) (conserving : job.book.Conserving)
include language orderly tame conserving

/-- A conditional uses its value and then lowers its branches, the second one in a scope beside the
first. -/
theorem lowerCondition_lowers {lower : NodeId → RecorderM Unit} {value yes : NodeId}
    {other : Option NodeId} (reached : base.Reaches body id)
    (role : (base.node id).operation.role = .statement)
    (uses : value ∈ (base.node id).operands) (begins : start id ≤ id)
    (first : Lowers job base body start (lower yes) yes)
    (second : ∀ no ∈ other, Lowers job base body start (lower no) no)
    (within : start id ≤ start yes ∧ yes < id)
    (beside : ∀ no ∈ other, (start id ≤ start no ∧ no < id) ∧ yes < start no) :
    Lowers job base body start (lowerCondition job lower value yes other) id := by
  rintro scene state rfl rfl clear sound kept
  refine (useExpression_keeps language orderly tame conserving reached role uses
    (clear.fresh begins) sound kept).bind ?_
  rintro code used ⟨⟨written, wrote, kept⟩, leads, expresses⟩
  have clearPart {part : NodeId} (after : start id ≤ start part) (before : part < id) :
      written.Clear start part :=
    wrote.clear (clear.part after before) (.inr before)
  refine (kept.act (Generator.write_safe leads.sound (.condition expresses))
    (Generator.onDocument_sameCodes _)).bind ?_
  rintro _ begun ⟨kept, leads₁, _⟩
  refine (act_upholds kept.lawful _).bind ?_
  rintro _ _ ⟨opened, done, rfl⟩
  have inside := leads₁.sound.openScope done
  refine note_bind ((first wrote.base wrote.body (clearPart within.1 within.2) inside.sound
    (kept.openScope done)).bind ?_)
  rintro _ lowered ⟨⟨later, advances, kept⟩, leads₂⟩
  have inside := inside.trans leads₂
  have rest : Upholds Lawful (lowerElse lower other) lowered fun _ after =>
      (∃ last, later.Advances last (start id) id ∧ Kept last after) ∧
        Generator.Inside job begun.generator after.generator := by
    cases other with
    | none => exact .pure ⟨⟨later, (Scene.Later.refl later).advances _ _, kept⟩, inside⟩
    | some no =>
      obtain ⟨⟨after, before⟩, apart⟩ := beside no rfl
      refine (act_upholds kept.lawful _).bind ?_
      rintro _ _ ⟨linked, done, rfl⟩
      have inside' := inside.linkScope done
      refine note_bind (note_bind ((second no rfl (advances.base.trans wrote.base)
        (advances.body.trans wrote.body) (advances.clear (clearPart after before) (.inl apart))
        inside'.sound (kept.linkScope inside done)).mono ?_))
      rintro _ finished ⟨⟨last, onward, kept⟩, leads₃⟩
      exact ⟨⟨last, onward.widen after (Nat.le_of_lt before), kept⟩, inside'.trans leads₃⟩
  refine rest.bind ?_
  rintro _ finished ⟨⟨last, onward, kept⟩, inside⟩
  refine (act_upholds kept.lawful _).bind ?_
  rintro _ _ ⟨closed, done, rfl⟩
  have whole : scene.Advances last (start id) id :=
    (wrote.widen begins (Nat.le_refl _)).trans
      ((advances.widen within.1 (Nat.le_of_lt within.2)).trans onward)
  have kept := kept.closeScope inside done
  exact ⟨⟨last, whole, kept⟩, leads.trans (leads₁.trans (inside.closeScope done).1)⟩

/-- What is left of a sequence of statements, while those before it are written. -/
structure Remains (job : Job) (scene : Scene) (start : NodeId → NodeId) (id : NodeId)
    (rest : List NodeId) (state : Recorded) : Prop where
  parts : rest ⊆ (scene.base.node id).parts
  turns : rest.Pairwise fun earlier later => earlier < start later
  sound : state.generator.Sound job
  kept : ∃ later, scene.Advances later (start id) id ∧ Kept later state ∧
    ∀ part ∈ rest, later.Clear start part

omit language orderly tame conserving in
/-- Statements that are lowered in turn keep the ledger right. -/
theorem forM_keeps {lower : NodeId → RecorderM Unit} {limit : Nat}
    (inTurn : base.InTurn limit start) (inside : id < limit)
    (each : ∀ part ∈ (base.node id).parts, Lowers job base body start (lower part) part)
    (whole : scene.base = base) (same : scene.body = body) (clear : scene.Clear start id)
    (sound : state.generator.Sound job) (kept : Kept scene state) :
    Upholds Lawful ((base.node id).parts.forM lower) state fun _ after =>
      ∃ later, scene.Advances later (start id) id ∧ Kept later after := by
  subst whole same
  have within (part : NodeId) (member : part ∈ (scene.base.node id).parts) :=
    (inTurn.parts id inside part member).2
  have step (part : NodeId) (rest : List NodeId) (state : Recorded)
      (remains : Remains job scene start id (part :: rest) state) :
      Upholds Lawful (lower part) state fun _ after => Remains job scene start id rest after := by
    obtain ⟨member, others⟩ := cons_subset.mp remains.parts
    obtain ⟨before, turns⟩ := pairwise_cons.mp remains.turns
    obtain ⟨later, advances, kept, clear⟩ := remains.kept
    obtain ⟨clearHere, clearRest⟩ := forall_mem_cons.mp clear
    obtain ⟨low, high⟩ := within part member
    refine (each part member advances.base advances.body clearHere remains.sound kept).mono ?_
    rintro _ after ⟨⟨last, onward, kept⟩, leads⟩
    refine ⟨others, turns, leads.sound, last, ?_, kept, fun other left => ?_⟩
    · exact advances.trans (onward.widen low (Nat.le_of_lt high))
    · exact onward.clear (clearRest other left) (.inl (before other left))
  refine (EndsIn.forM step ⟨List.Subset.refl _, inTurn.turns id inside, sound, scene, ?_, kept,
    fun part member => clear.part (within part member).1 (within part member).2⟩).mono ?_
  · exact (Scene.Later.refl scene).advances _ _
  · rintro _ after ⟨_, _, _, later, advances, kept, _⟩
    exact ⟨later, advances, kept⟩

omit orderly tame conserving in
theorem lowerResult_sameCodes (code : String) :
    Changes Generator.SameCodes (Generator.lowerResult job.options code) := by
  refine .get_bind fun generator => ?_
  cases generator.frame with
  | none => exact Changes.throw _ generator
  | some frame =>
    simp only [language]
    exact Generator.onDocument_sameCodes _ generator

/-- Every statement of a body that is in turn is lowered with a ledger that is right. -/
theorem lowerStatement_lowers {limit : Nat} {branches : Prop} (inTurn : base.InTurn limit start)
    (depth : Nat) (inside : id < limit) (statement : base.Statement branches id)
    (reached : base.Reaches body id) :
    Lowers job base body start (lowerStatement job depth id) id := by
  induction depth generalizing id with
  | zero => exact fun _ _ _ _ _ _ kept => .throw kept.lawful
  | succ depth ih =>
    rintro scene state rfl rfl clear sound kept
    have role := statement.role_eq
    have grows : scene.base.Grows state.generator.graph := by
      obtain ⟨ledger, keeps⟩ := kept
      rw [keeps.graph]
      exact keeps.sane.patched.grows
    have operation := grows.operation_eq statement.lt_size
    have operands := grows.operands_eq statement.lt_size
    have lowered {after : Recorded} (done : lowerStatement job (depth + 1) id state = .ok () after) :=
      (Generator.lowerStatement_safe language orderly (depth + 1) id sound).ends () _
        ((lowerStatement_erases language (depth + 1) id).eq_ok done)
    refine EndsIn.strengthen ?_ fun _ after done kept => ⟨kept, lowered done⟩
    refine EndsIn.get_bind ?_
    have part (other : NodeId) (member : other ∈ (scene.base.node id).parts)
        (inner : scene.base.Statement branches other) :
        Lowers job scene.base scene.body start (lowerStatement job depth other) other :=
      ih (Nat.lt_trans (inTurn.parts id inside other member).2.2 inside) inner
        (reached.tail (Node.parts_subset _ member))
    cases statement with
    | sequence isSequence _ _ statements =>
      have whole : (scene.base.node id).parts = (scene.base.node id).operands := by
        rw [Node.parts, isSequence]
      dsimp only
      rw [operation, isSequence, operands, ← whole]
      refine forM_keeps inTurn inside (fun other member => part other member ?_) rfl rfl clear
        sound kept
      rw [whole] at member
      exact statements other member
    | @result _ value isResult alone isValue =>
      have uses : value ∈ (scene.base.node id).operands := by
        rw [alone]
        exact mem_cons_self
      have begins := inTurn.start_le id inside
      dsimp only
      rw [operation, isResult, operands, alone]
      refine (useExpression_keeps language orderly tame conserving reached role uses
        (clear.fresh begins) sound kept).bind ?_
      rintro code used ⟨⟨later, wrote, kept⟩, _⟩
      refine (act_upholds kept.lawful _).mono ?_
      rintro _ _ ⟨after, done, rfl⟩
      exact ⟨later, wrote.widen begins (Nat.le_refl _),
        kept.sameCodes ((lowerResult_sameCodes language code).of_eq_ok done)⟩
    | @condition _ value sides _ isCondition listed few isValue _ statements =>
      have whole : (scene.base.node id).parts = sides := by
        rw [Node.parts, isCondition, listed]
        rfl
      have uses : value ∈ (scene.base.node id).operands := by
        rw [listed]
        exact mem_cons_self
      have side (other : NodeId) (member : other ∈ sides) :
          Lowers job scene.base scene.body start (lowerStatement job depth other) other ∧
            start id ≤ start other ∧ other < id := by
        rw [← whole] at member
        exact ⟨part other member (statements other (whole ▸ member)),
          (inTurn.parts id inside other member).2⟩
      have turns := inTurn.turns id inside
      rw [whole] at turns
      have begins := inTurn.start_le id inside
      dsimp only
      rw [operation, isCondition, operands, listed]
      rcases few with one | two
      · obtain ⟨yes, rfl⟩ := length_eq_one_iff.mp one
        obtain ⟨first, within⟩ := side yes mem_cons_self
        refine (lowerCondition_lowers language orderly tame conserving reached role uses begins
          first ?_ within ?_ rfl rfl clear sound kept).mono fun _ _ both => both.1
        · rintro _ ⟨⟩
        · rintro _ ⟨⟩
      · obtain ⟨yes, no, rfl⟩ := length_eq_two.mp two
        obtain ⟨first, within⟩ := side yes mem_cons_self
        obtain ⟨second, beside⟩ := side no (mem_cons_of_mem _ mem_cons_self)
        have apart := (pairwise_cons.mp turns).1 no mem_cons_self
        refine (lowerCondition_lowers language orderly tame conserving reached role uses begins
          first ?_ within ?_ rfl rfl clear sound kept).mono fun _ _ both => both.1
        · rintro _ ⟨⟩
          exact second
        · rintro _ ⟨⟩
          exact ⟨beside, apart⟩

end Statements

end Recorder

end Retarget

import Retarget.Proofs.Generation.Exclusive
import Retarget.Proofs.Generation.Faults
import Retarget.Proofs.Generation.Keeping

/-!
# Balanced generation

The ledger takes in all that happens to codes while a program is generated as C code, so no shared
value is computed twice (`Program.generate_exclusive`).
-/

namespace Retarget

namespace Graph

/-- Promotion adds conversions, which carry nothing. -/
theorem Bare.promote {graph : Graph} (bare : graph.Bare) {root : NodeId}
    (grounded : ∀ id, graph.Reaches root id → id < graph.size) (promotions : Promotions)
    (book : RuleBook) : (graph.promote root promotions book).1.Bare := by
  have promoted := graph.promotedTo_promote root promotions book grounded
  intro id role
  rcases Nat.lt_or_ge id graph.size with before | beyond
  · obtain ⟨operation, _, _, payload, _⟩ := promoted.kept id before
    rw [operation] at role
    rw [payload]
    exact bare id role
  · obtain ⟨source, _, ⟨_, register, _, node⟩ | ⟨_, node⟩⟩ :=
      promoted.added id beyond (lt_size_of_value role)
    · rw [node]
      rfl
    · rw [show (graph.promote root promotions book).1.node id = _ from node]
      rfl

theorem Formed.bare {graph : Graph} (formed : graph.Formed) : graph.Bare := by
  intro id role
  have made := formed id (lt_size_of_value role)
  generalize graph.node id = node at made role
  cases made with
  | computed _ _ _ _ _ _ => rfl
  | constant | «variable» | table | result | condition | sequence => cases role

end Graph

namespace Recorder

variable {job : Job} {scene : Scene} {state : Recorded} {function : Function}

section Function

variable (language : job.options.language = .c) (orderly : job.book.Orderly)
  (tame : job.book.Tame) (conserving : job.book.Conserving)
include language orderly tame conserving

theorem generateC_keeps {limit : Nat} {start : NodeId → NodeId} {branches : Prop}
    (inTurn : scene.base.InTurn limit start) (inside : function.body < limit)
    (statement : scene.base.Statement branches function.body) (body : scene.body = function.body)
    (written : scene.written = []) (sound : state.generator.Sound job) (kept : Kept scene state) :
    Upholds Lawful (generateC job function) state fun _ after =>
      ∃ later : Scene, later.base = scene.base ∧ Kept later after := by
  refine (kept.act (Generator.onDocument_safe sound (.header _) (Document.addHeader_advances _))
    (Generator.onDocument_sameCodes _)).bind ?_
  rintro _ headed ⟨kept, leads, _⟩
  refine (kept.act (Generator.declareEntity_safe leads.sound _ _ _)
    (Generator.onDocument_sameCodes _)).bind ?_
  rintro _ named ⟨kept, leads, _⟩
  refine (kept.act (Generator.write_safe leads.sound (.head function))
    (Generator.onDocument_sameCodes _)).bind ?_
  rintro _ begun ⟨kept, leads, _⟩
  refine (act_upholds kept.lawful _).bind ?_
  rintro _ _ ⟨opened, done, rfl⟩
  have within := leads.sound.openScope done
  have reserves : Changes Generator.SameCodes
      (function.arguments.forM fun argument => Generator.reserve argument.name argument.format) :=
    .forM fun _ _ => Generator.onDocument_sameCodes _
  refine note_bind (((kept.openScope done).act
    (Generator.reserveAll_safe within.sound function.arguments) reserves).bind ?_)
  rintro _ reserved ⟨kept, reached⟩
  have enters : Generator.Safe job
      (modify fun generator => { generator with frame := some ⟨"", function.result⟩ })
      reserved.generator _ :=
    Generator.modify_safe (fun _ => rfl) (reached.sound.advance (.refl _) (.refl _) rfl rfl)
  refine (kept.act enters (.modify fun _ => ⟨rfl, rfl, rfl, rfl⟩)).bind ?_
  rintro _ entered ⟨kept, framed, _⟩
  have isBody : scene.base.Reaches scene.body function.body := by
    rw [body]
    exact .refl
  have clear : scene.Clear start function.body := by
    unfold Scene.Clear
    rw [written]
    exact List.forall_mem_nil _
  refine EndsIn.get_bind ((lowerStatement_lowers language orderly tame conserving inTurn _ inside
    statement isBody rfl rfl clear framed.sound kept).bind ?_)
  rintro _ lowered ⟨⟨later, advances, kept⟩, onward⟩
  have within := within.trans (reached.trans (framed.trans onward))
  refine (act_upholds kept.lawful _).bind ?_
  rintro _ _ ⟨closed, done, rfl⟩
  have kept := kept.closeScope within done
  refine note_bind ((act_upholds kept.lawful _).mono ?_)
  rintro _ _ ⟨after, done, rfl⟩
  exact ⟨later, advances.base, kept.sameCodes ((Generator.onDocument_sameCodes _).of_eq_ok done)⟩

end Function

/-- Between two functions, what is left to generate is in turn, and the ledger is right. -/
structure AtRest (job : Job) (program : Program) (start : NodeId → NodeId) (state : Recorded) :
    Prop where
  lawful : Lawful state
  between : state.generator.Between job
  bodies : ∀ function ∈ program.functions,
    state.generator.graph.Statement program.graph.Branches function.body
  inTurn : state.generator.graph.InTurn program.graph.size start
  inside : program.graph.size ≤ state.generator.graph.size
  bare : state.generator.graph.Bare

section Program

variable {program : Program} {start : NodeId → NodeId} {after : Generator}

section

variable (rest : AtRest job program start state)

include rest

theorem AtRest.of_graph (between : after.Between job) (same : after.graph = state.generator.graph) :
    AtRest job program start { state with generator := after } := by
  refine ⟨rest.lawful, between, ?_, ?_, ?_, ?_⟩
  all_goals
    dsimp only
    rw [same]
  · exact rest.bodies
  · exact rest.inTurn
  · exact rest.inside
  · exact rest.bare

theorem AtRest.promote (known : function ∈ program.functions)
    (done : Generator.promote job function state.generator = .ok () after) :
    AtRest job program start { state with generator := after } := by
  have between := (Generator.promote_safe rest.between function).ends () after done
  have rooted := rest.bodies function known
  unfold Generator.promote at done
  by_cases asked : job.options.promoteRegisters
  · simp only [asked, ↓reduceIte] at done
    cases done
    refine ⟨rest.lawful, between, fun other member => ?_, ?_, ?_, ?_⟩
    · exact rooted.promote _ _ (rest.bodies other member)
    · exact rest.inTurn.promote rest.inside rooted.grounded _ _
    · exact Nat.le_trans rest.inside (Graph.promotedTo_promote _ _ _ _ rooted.grounded).size_le
    · exact rest.bare.promote rooted.grounded _ _
  · simp only [asked] at done
    cases done
    exact rest

/-- A function begins, and no code is known. -/
theorem AtRest.begin (known : function ∈ program.functions)
    (done : Generator.countUses function state.generator = .ok () after) :
    Kept ⟨state.generator.graph, function.body, state.generator.graph, [], []⟩
      ⟨after, state.log ++ [.began]⟩ := by
  obtain ⟨ledger, balanced⟩ := rest.lawful
  cases done
  refine ⟨{}, ?_, ?_, rfl, ⟨?_, .start rest.bare, List.forall_mem_nil _⟩, .start, ?_⟩
  · rw [Ledger.balance_append balanced]
    rfl
  · exact .cons (fun _ => ⟨nofun, nofun⟩) .nil
  · exact (rest.bodies function known).grounded
  · exact List.forall_mem_singleton.mpr (settled_nil _ _ _)

/-- The graph only grew while a function was generated. -/
theorem AtRest.resume {later : Scene} {finished : Recorded}
    (base : later.base = state.generator.graph) (kept : Kept later finished)
    (between : finished.generator.Between job) : AtRest job program start finished := by
  have lawful := kept.lawful
  obtain ⟨ledger, keeps⟩ := kept
  have patched := keeps.sane.patched
  have grows := patched.grows
  rw [← keeps.graph, base] at grows
  refine ⟨lawful, between, ?_, rest.inTurn.grows rest.inside grows, ?_, ?_⟩
  · exact fun other member => (rest.bodies other member).grows grows
  · exact Nat.le_trans rest.inside grows.size
  · rw [keeps.graph]
    exact patched.bare

end

/-- The ledger takes in what happens while a function is generated. -/
theorem generateFunction_rests (language : job.options.language = .c)
    (orderly : job.book.Orderly) (tame : job.book.Tame) (conserving : job.book.Conserving)
    (rest : AtRest job program start state) (known : function ∈ program.functions)
    (placed : function.body < program.graph.size) :
    Upholds Lawful (generateFunction job function) state fun _ after =>
      AtRest job program start after := by
  have generated {finished : Recorded}
      (done : generateFunction job function state = .ok () finished) :
      finished.generator.Between job :=
    (Generator.generateFunction_safe language orderly rest.between function).ends () _
      ((generateFunction_erases language function).eq_ok done)
  suffices kept : Upholds Lawful (generateFunction job function) state fun _ after =>
      ∃ (before : Recorded) (later : Scene), AtRest job program start before ∧
        later.base = before.generator.graph ∧ Kept later after by
    refine kept.strengthen fun _ finished done => ?_
    rintro ⟨before, later, rest, base, kept⟩
    exact rest.resume base kept (generated done)
  refine (act_upholds rest.lawful _).bind ?_
  rintro _ _ ⟨started, done, rfl⟩
  have rest := rest.of_graph (Generator.Safe.ends (rest.between.records (fun _ => rfl)
    rest.between.memo rest.between.outer) _ _ done) (by cases done; rfl)
  refine (act_upholds rest.lawful _).bind ?_
  rintro _ _ ⟨promoted, done, rfl⟩
  have rest := rest.promote known done
  refine (act_upholds rest.lawful _).bind ?_
  rintro _ _ ⟨counted, done, rfl⟩
  have counts : counted.Between job := by
    cases done
    exact Generator.Between.of_document rest.between (by rfl) (by rfl) (by rfl)
  refine note_bind (EndsIn.get_bind ((generateC_keeps language orderly tame conserving
    rest.inTurn placed (rest.bodies function known) rfl rfl counts.sound (rest.begin known done)).bind ?_))
  rintro _ written ⟨later, base, kept⟩
  refine (act_upholds kept.lawful _).bind ?_
  rintro _ _ ⟨left, done, rfl⟩
  have same : Generator.SameCodes written.generator left := by
    cases done
    exact ⟨rfl, rfl, rfl, rfl⟩
  have kept := kept.sameCodes same
  refine EndsIn.get_bind ((act_upholds kept.lawful _).mono ?_)
  rintro _ _ ⟨ended, done, rfl⟩
  exact ⟨_, later, rest, base,
    kept.sameCodes ((Generator.record_sameCodes _).of_eq_ok done)⟩

theorem start_rests (job : Job) (language : job.options.language = .c)
    (bodies : ∀ function ∈ program.functions, program.graph.Stated function.body)
    (inTurn : program.graph.InTurn program.graph.size start) (bare : program.graph.Bare) :
    AtRest job program start { generator := job.start program.graph } :=
  ⟨⟨{}, rfl⟩, Generator.start_between job language program.graph, bodies, inTurn, Nat.le_refl _,
    bare⟩

end Program

end Recorder

/-- The recorded generation of a program. -/
def Program.record (program : Program) (job : Job) : EStateM.Result Fault Recorded Unit :=
  program.functions.forM (Recorder.generateFunction job) { generator := job.start program.graph }

/-- The ledger takes in what happens while the functions of a program are generated. -/
theorem Program.record_lawful {program : Program} {job : Job} {start : NodeId → NodeId}
    (language : job.options.language = .c) (orderly : job.book.Orderly) (tame : job.book.Tame)
    (conserving : job.book.Conserving)
    (bodies : ∀ function ∈ program.functions, program.graph.Stated function.body)
    (inTurn : program.graph.InTurn program.graph.size start) (bare : program.graph.Bare) :
    Recorder.Lawful (finalState (program.record job)) := by
  have each (function : Function) (known : function ∈ program.functions) (state : Recorded)
      (rest : Recorder.AtRest job program start state) :
      Upholds Recorder.Lawful (Recorder.generateFunction job function) state fun _ after =>
        Recorder.AtRest job program start after :=
    Recorder.generateFunction_rests language orderly tame conserving rest known
      (bodies function known).lt_size
  exact (EndsIn.forM_of_mem each (Recorder.start_rests job language bodies inTurn
    bare)).finalState_of_post fun _ _ rest => rest.lawful

/-- Whatever program is read from a text and generated as C code for a target that comes with the
library, whatever the options: recording what happens to codes changes nothing about the generation,
and from the event that gives a node its code on, as long as the scope of that event is open, the node
gets no other code, and if the code is an inline expression it is used by no more than one operand
place, result or condition. -/
theorem Program.generate_exclusive {text name : String} {program : Program} {target : Target}
    {options : Options} {job : Job} (read : Source.read text = .ok program)
    (found : Catalog.builtin.target name = .ok target) (language : options.language = .c)
    (planned : target.job options = .ok job) :
    Recorder.erase (program.record job) =
        program.functions.forM (Generator.generateFunction job) (job.start program.graph) ∧
      Event.Exclusive (finalState (program.record job)).log := by
  obtain ⟨book, booked, rfl⟩ := Target.job_eq_ok.mp planned
  obtain ⟨start, inTurn⟩ := Source.read_inTurn text program read
  have lawful : Recorder.Lawful (finalState (program.record { target, book, options })) :=
    record_lawful language (Catalog.builtin_orderly found options.language book booked)
      (Catalog.builtin_tame found options.language book booked)
      (Catalog.builtin_conserving found options.language book booked)
      (Source.read_stated text program read) inTurn
      (Source.read_formed text program read).graph.bare
  obtain ⟨ledger, balanced⟩ := lawful
  exact ⟨Recorder.functions_erases language program.functions _,
    Ledger.exclusive_of_balance balanced⟩

/-- A function that gives the least of three values, or how far it is from a sum. -/
def Source.leastText : String :=
  "func pick(a: binary32, b: binary32, d: bool) -> binary32 \x7b\n%s = add %a, %b : binary32\n" ++
    "%m = min %s, %a : binary32\n%n = min %m, %b : binary32\nif %d \x7b\nreturn %n\n\x7d else \x7b\n" ++
    "%q = sub %n, %s : binary32\nreturn %q\n\x7d\n\x7d\n"

/-- The program of that text. -/
def Program.least : Program where
  graph :=
    ⟨#[{ operation := .variable, format := .binary32, payload := .variable "a" },
      { operation := .variable, format := .binary32, payload := .variable "b" },
      { operation := .variable, format := .bool, payload := .variable "d" },
      { operation := .addition, operands := [0, 1], format := .binary32 },
      { operation := .minimum, operands := [3, 0], format := .binary32 },
      { operation := .minimum, operands := [4, 1], format := .binary32 },
      { operation := .ret, operands := [5], format := .void },
      { operation := .subtraction, operands := [5, 3], format := .binary32 },
      { operation := .ret, operands := [7], format := .void },
      { operation := .condition, operands := [2, 6, 8], format := .void }]⟩
  functions :=
    [{ name := "pick"
       arguments := [{ name := "a", format := .binary32, node := 0 },
         { name := "b", format := .binary32, node := 1 }, { name := "d", format := .bool, node := 2 }]
       result := .binary32
       body := 9 }]

/-- Each branch computes the sum and the two lesser values anew, in temporaries; the comparisons
between them and the difference are inline expressions. -/
theorem Program.generate_exclusive_least :
    Source.read Source.leastText = .ok least ∧
      ∃ job, Portable.target.job {} = .ok job ∧
        (finalState (least.record job)).log =
          [.began, .opened, .leaf 2, .used 2,
            .opened, .leaf 0, .leaf 1, .wrote 3 [0, 1] false,
            .wrote 12 [3, 0] true, .wrote 13 [12, 3, 0] false, .handed 4 13,
            .wrote 10 [4, 1] true, .wrote 11 [10, 4, 1] false, .handed 5 11, .used 5, .closed,
            .opened, .leaf 0, .leaf 1, .wrote 3 [0, 1] false,
            .wrote 16 [3, 0] true, .wrote 17 [16, 3, 0] false, .handed 4 17,
            .wrote 14 [4, 1] true, .wrote 15 [14, 4, 1] false, .handed 5 15,
            .wrote 7 [5, 3] true, .used 7, .closed, .closed] ∧
        Recorder.erase (least.record job) =
          least.functions.forM (Generator.generateFunction job) (job.start least.graph) ∧
        Event.Exclusive (finalState (least.record job)).log := by
  have read : Source.read Source.leastText = .ok least := by decide +kernel
  have found : Catalog.builtin.target "generic" = .ok Portable.target := rfl
  have planned : Portable.target.job {} = .ok ⟨Portable.target, Portable.book, {}⟩ := rfl
  exact ⟨read, _, planned, by decide +kernel,
    @generate_exclusive Source.leastText "generic" least Portable.target {} _ read found rfl planned⟩

end Retarget

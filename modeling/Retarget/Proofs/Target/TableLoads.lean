import Retarget.Proofs.Source.Bodies
import Retarget.Proofs.Target.Portable

/-!
# Loads from tables of vectors

A table is stored in memory, and so are its elements. Promotion leaves it to the rules whether a node
may have a register format, and the rule for loads from tables accepts every result. So a load of a
vector that has a register is retyped, while its table stores vectors as before, and no conversion
stands between the two (`Program.promote_loadsEight`). That is the only way in which promotion parts
the format of a load from that of its table (`Program.promote_loadsStored_iff`).
-/

namespace Retarget

open List

namespace Graph

/-- A load from a table gives what the table stores. -/
def LoadsStored (graph : Graph) (id : NodeId) : Prop :=
  (graph.node id).operation = .tableLoad ∧ ∃ table size,
    (graph.node id).operands[0]? = some table ∧
      (graph.node table).format = .table (graph.node id).format size

/-- A load by an integer index, of a format that has a register. -/
structure LoadsRegister (graph : Graph) (promotions : Promotions) (id : NodeId) : Prop where
  plain : (graph.node id).specifier = .plain
  index : ∃ index, (graph.node id).operands[1]? = some index ∧
    (graph.node index).format.isInteger = true
  register : ∃ register, promotions.get? (graph.node id).format = some register

end Graph

namespace Intrinsics

/-- No table and no integer has a register, and no register is an integer or its own register. -/
theorem avxPromotions_get? {format register : Format}
    (mapped : avxPromotions.get? format = some register) :
    format.isTable = false ∧ format.isInteger = false ∧ register.isInteger = false ∧
      register ≠ format := by
  have checked : ∀ entry ∈ avxPromotions.entries, entry.1.isTable = false ∧
      entry.1.isInteger = false ∧ entry.2.isInteger = false ∧ entry.2 ≠ entry.1 := by
    decide
  exact checked (format, register) (OrderedMap.mem_of_lookup mapped)

theorem isInteger_avxPromotions_apply (format : Format) :
    (avxPromotions.apply format).isInteger = format.isInteger := by
  unfold Promotions.apply
  cases mapped : avxPromotions.get? format with
  | none => rfl
  | some register =>
    obtain ⟨_, whole, other, _⟩ := avxPromotions_get? mapped
    rw [Option.getD_some, whole, other]

section

variable {book : RuleBook} {target : Target} (level : target ∈ [avx, avx2])

include level

theorem promotions_eq : target.promotions = avxPromotions := by
  simp only [mem_cons, not_mem_nil, or_false] at level
  rcases level with rfl | rfl <;> rfl

section

variable (rules : target.book .c = .ok book)

include rules

/-- The levels with registers load from tables by the portable rule and by no other. -/
theorem groupsFor_tableLoad (specifier : Specifier) :
    book.groupsFor ⟨.tableLoad, specifier⟩ = Portable.book.groupsFor ⟨.tableLoad, specifier⟩ := by
  simp only [mem_cons, not_mem_nil, or_false] at level
  rcases level with rfl | rfl <;> cases rules <;> cases specifier <;> rfl

/-- A load from a table is lowered whatever its result, by an integer index. -/
theorem lowers_tableLoad_iff {graph : Graph} {id : NodeId}
    (loads : (graph.node id).operation = .tableLoad) (result table index : Format) :
    book.lowers graph id result [table, index] = true ↔
      (graph.node id).specifier = .plain ∧ table.isTable = true ∧ index.isInteger = true := by
  unfold RuleBook.lowers
  dsimp only
  rw [loads, groupsFor_tableLoad level rules]
  by_cases plain : (graph.node id).specifier = .plain
  · have listed : Portable.book.groupsFor ⟨.tableLoad, .plain⟩ =
        [.always [.write ⟨Format.Family.any, [.anyOf .table, .anyOf .integer]⟩
          (.pattern "{0}[{1}]")]] := rfl
    have accepted : (⟨.anyOf .any, [.anyOf .table, .anyOf .integer]⟩ : Signature).accepts result
        [table, index] = (table.isTable && index.isInteger) := by
      change (table.isTable && (index.isInteger && true)) = _
      rw [Bool.and_true]
    rw [plain, listed, RuleBook.isSome_find?_iff]
    simp [RuleGroup.always, RuleGroup.applies, Rule.write, accepted]
  · have none : Portable.book.groupsFor ⟨.tableLoad, (graph.node id).specifier⟩ = [] := by
      cases specifier : (graph.node id).specifier with
      | plain => exact absurd specifier plain
      | _ => rfl
    rw [none]
    exact iff_of_false Bool.false_ne_true fun both => plain both.1

/-- Promotion chooses a load from a table exactly where it loads a register. -/
theorem isPromoted_tableLoad_iff {graph : Graph} {id table index : NodeId} {storage : Format}
    {size : Nat} (loads : (graph.node id).operation = .tableLoad)
    (operands : (graph.node id).operands = [table, index])
    (stored : (graph.node table).format = .table storage size) :
    graph.isPromoted target.promotions book id = true ↔
      graph.LoadsRegister target.promotions id := by
  rw [promotions_eq level]
  have formats : (graph.operandFormats id).map avxPromotions.apply =
      [.table storage size, avxPromotions.apply (graph.node index).format] := by
    rw [Graph.operandFormats, operands, map_cons, map_singleton, stored]
    rfl
  unfold Graph.isPromoted
  dsimp only
  rw [formats, loads]
  cases mapped : avxPromotions.get? (graph.node id).format with
  | none =>
    apply iff_of_false Bool.false_ne_true
    intro chosen
    obtain ⟨register, found⟩ := chosen.register
    rw [mapped] at found
    cases found
  | some register =>
    change book.lowers graph id register _ = true ↔ _
    rw [lowers_tableLoad_iff level rules loads, isInteger_avxPromotions_apply]
    constructor
    · intro lowered
      exact ⟨lowered.1, ⟨index, by rw [operands]; rfl, lowered.2.2⟩, register, mapped⟩
    · intro chosen
      obtain ⟨other, second, whole⟩ := chosen.index
      rw [operands] at second
      cases second
      exact ⟨chosen.plain, rfl, whole⟩

end

end

end Intrinsics

namespace Graph.Rewired

variable {before after : Graph} {promotions : Promotions} {promoted : List NodeId} {root : NodeId}
  {state : Promoting} {id table : NodeId}
  (rewired : Rewired before after promotions promoted root state)

include rewired

/-- An operand that is not promoted and has no register stays the first one of its user. -/
theorem first_eq (inside : id < before.size)
    (uses : (before.node id).operands[0]? = some table)
    (unmapped : promotions.get? (before.node table).format = none)
    (away : table ∉ promoted) : (after.node id).operands[0]? = some table := by
  by_cases member : id ∈ promoted
  · exact rewired.operand_eq member uses unmapped
  · have kept := rewired.operands_kept inside member
    cases operands : (before.node id).operands with
    | nil =>
      rw [operands] at uses
      cases uses
    | cons first rest =>
      rw [operands] at uses kept
      cases uses
      generalize (after.node id).operands = new at kept
      cases kept with
      | cons here _ =>
        rw [here away]
        rfl

/-- Where tables have no registers, a load gives what its table stores unless it is promoted. -/
theorem loadsStored_iff
    (mapped : ∀ id ∈ promoted, ∃ register, promotions.get? (before.node id).format = some register)
    (tables : ∀ storage size, promotions.get? (.table storage size) = none)
    (moves : ∀ format register, promotions.get? format = some register → register ≠ format)
    (loads : before.LoadsStored id) : after.LoadsStored id ↔ id ∉ promoted := by
  obtain ⟨operation, table, size, first, stored⟩ := loads
  have inside : id < before.size := by
    apply lt_size_of_value
    rw [operation]
    rfl
  have tableInside : table < before.size := by
    apply Nat.lt_of_not_le
    intro outside
    rw [Graph.node_of_size_le outside] at stored
    cases stored
  have unmapped : promotions.get? (before.node table).format = none := by
    rw [stored]
    exact tables _ _
  have away : table ∉ promoted := by
    intro member
    obtain ⟨register, found⟩ := mapped table member
    rw [unmapped] at found
    cases found
  have firstAfter := rewired.first_eq inside first unmapped away
  have storedAfter := rewired.format_eq tableInside
  rw [if_neg away, stored] at storedAfter
  have format := rewired.format_eq inside
  by_cases member : id ∈ promoted
  · apply iff_of_false _ (not_not_intro member)
    intro loaded
    obtain ⟨_, other, size', firstLoaded, storedLoaded⟩ := loaded
    cases firstAfter.symm.trans firstLoaded
    obtain ⟨register, found⟩ := mapped id member
    have same : (before.node id).format = (after.node id).format :=
      (Format.table.inj (storedAfter.symm.trans storedLoaded)).1
    rw [if_pos member, Promotions.apply, found, Option.getD_some] at format
    exact moves _ _ found (format.symm.trans same.symm)
  · apply iff_of_true _ member
    rw [if_neg member] at format
    refine ⟨?_, table, size, firstAfter, ?_⟩
    · rw [rewired.operation_eq inside, operation]
    · rw [storedAfter, format]

end Graph.Rewired

namespace Graph

/-- A load from a table gives what the table stores after promotion, unless it is reached and loads a
register. -/
theorem loadsStored_promote {graph : Graph} {root id : NodeId} {target : Target}
    (level : target ∈ [Intrinsics.avx, Intrinsics.avx2]) {book : RuleBook}
    (rules : target.book .c = .ok book)
    (grounded : ∀ id, graph.Reaches root id → id < graph.size)
    (two : (graph.node id).operands.length = 2) (loads : graph.LoadsStored id) :
    (graph.promote root target.promotions book).1.LoadsStored id ↔
      ¬ (graph.Reaches root id ∧ graph.LoadsRegister target.promotions id) := by
  have chosen : graph.isPromoted target.promotions book id = true ↔
      graph.LoadsRegister target.promotions id := by
    obtain ⟨operation, table, size, first, stored⟩ := loads
    obtain ⟨left, index, operands⟩ := length_eq_two.mp two
    rw [operands] at first
    cases first
    exact Intrinsics.isPromoted_tableLoad_iff level rules operation operands stored
  rw [← chosen, ← mem_reachable, ← mem_filter]
  rcases promote_rewires graph root target.promotions book grounded rfl with
    ⟨nothing, unchanged⟩ | ⟨state, rewired, _⟩
  · rw [unchanged, nothing]
    exact iff_of_true loads not_mem_nil
  · apply rewired.loadsStored_iff _ _ _ loads
    · intro other member
      exact exists_register_of_isPromoted (mem_filter.mp member).2
    · rw [Intrinsics.promotions_eq level]
      exact fun _ _ => rfl
    · rw [Intrinsics.promotions_eq level]
      intro format register mapped
      exact (Intrinsics.avxPromotions_get? mapped).2.2.2

end Graph

/-- A load from a table has two operands in every program that is read. -/
theorem Source.length_operands_tableLoad {text : String} {program : Program}
    (accepted : Source.read text = .ok program) {id : NodeId}
    (loads : (program.graph.node id).operation = .tableLoad) :
    (program.graph.node id).operands.length = 2 := by
  have inside : id < program.graph.size := by
    apply Graph.lt_size_of_value
    rw [loads]
    rfl
  have made := (Source.read_formed text program accepted).graph id inside
  generalize program.graph.node id = node at made loads
  cases made with
  | computed _ _ arity =>
    cases loads
    exact arity 2 rfl
  | _ => cases loads

namespace Program

/-- In every program that is read, promotion for registers keeps the format of a load from a table
equal to what the table stores, unless a function reaches the load, its index is an integer and the
stored vector has a register. -/
theorem promote_loadsStored_iff {text : String} {program : Program}
    (accepted : Source.read text = .ok program) {target : Target}
    (level : target ∈ [Intrinsics.avx, Intrinsics.avx2]) {book : RuleBook}
    (rules : target.book .c = .ok book) {function : Function}
    (member : function ∈ program.functions) {id : NodeId} (loads : program.graph.LoadsStored id) :
    (program.graph.promote function.body target.promotions book).1.LoadsStored id ↔
      ¬ (program.graph.Reaches function.body id ∧
        program.graph.LoadsRegister target.promotions id) := by
  have stated := Source.read_stated text program accepted function member
  exact Graph.loadsStored_promote level rules stated.grounded
    (Source.length_operands_tableLoad accepted loads.1) loads

/-- A function that gives an element of a table of vectors. -/
def elementText (vector : String) : String :=
  "func f(i: int32) -> " ++ vector ++ " \x7b\n%t = table [1.0, 2.0] : " ++ vector ++
    "\n%l = tableload %t, %i : " ++ vector ++ "\nreturn %l\n\x7d"

/-- The program of that text. -/
def element (vector : Format) : Program where
  graph :=
    ⟨#[{ operation := .variable, format := .int32, payload := .variable "i" },
      { operation := .table, format := .table vector 2
        payload := .table [.float (Number.Double.ofInt 1), .float (Number.Double.ofInt 2)] },
      { operation := .tableLoad, operands := [1, 0], format := vector },
      { operation := .ret, operands := [2], format := .void }]⟩
  functions :=
    [{ name := "f", arguments := [{ name := "i", format := .int32, node := 0 }]
       result := vector, body := 3 }]

/-- Vectors of four numbers have no register of this width, so a load of one gives what is stored. -/
theorem promote_loadsFour :
    Source.read (elementText "v4float32") = .ok (element (.vector .binary32 4)) ∧
      (element (.vector .binary32 4)).graph.LoadsStored 2 ∧
      ∃ book, Intrinsics.avx.book .c = .ok book ∧
        ((element (.vector .binary32 4)).graph.promote 3 Intrinsics.avx.promotions
          book).1.LoadsStored 2 := by
  have accepted : Source.read (elementText "v4float32") = .ok (element (.vector .binary32 4)) := by
    decide +kernel
  have loads : (element (.vector .binary32 4)).graph.LoadsStored 2 := ⟨rfl, 1, 2, rfl, rfl⟩
  refine ⟨accepted, loads, _, rfl, ?_⟩
  apply (promote_loadsStored_iff accepted mem_cons_self rfl mem_cons_self loads).mpr
  intro both
  obtain ⟨register, mapped⟩ := both.2.register
  cases mapped

/-- A load of a vector of eight numbers is retyped to a register, while its table stores vectors in
memory. -/
theorem promote_loadsEight :
    Source.read (elementText "v8float32") = .ok (element (.vector .binary32 8)) ∧
      (element (.vector .binary32 8)).graph.LoadsStored 2 ∧
      ∃ book, Intrinsics.avx.book .c = .ok book ∧
        ¬ ((element (.vector .binary32 8)).graph.promote 3 Intrinsics.avx.promotions
          book).1.LoadsStored 2 := by
  have loads : (element (.vector .binary32 8)).graph.LoadsStored 2 := ⟨rfl, 1, 2, rfl, rfl⟩
  have grounded (id : NodeId) (reached : (element (.vector .binary32 8)).graph.Reaches 3 id) :
      id < (element (.vector .binary32 8)).graph.size :=
    reached.lt_size (by decide) (by decide)
  refine ⟨by decide +kernel, loads, _, rfl, ?_⟩
  rw [Graph.loadsStored_promote mem_cons_self rfl grounded rfl loads, not_not]
  refine ⟨.single ?_, ⟨rfl, ⟨0, rfl, rfl⟩, _, rfl⟩⟩
  exact mem_singleton_self 2

end Program

end Retarget

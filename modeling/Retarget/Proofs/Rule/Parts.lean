import Retarget.Proofs.Target.Orderly
import Retarget.Proofs.Target.Portable

/-!
# The parts of a node

To lower a node is to lower its parts: its operands or, where a rule replaces it, those of them that
the node in its place is made over. What a replacement keeps of the operands depends on nothing else
(`Replacement.Keeps`), and no guard asks for more than a growing graph keeps, so the parts of a node
stay the same while the graph grows (`RuleBook.Steady.partOf_iff`).
-/

namespace Retarget

open List

/-- A node is made over some nodes and over one below it, which is a leaf or made over them as
well. -/
structure Graph.MadeOver (graph : Graph) (outer inner : NodeId) (kept : List NodeId) : Prop where
  role : (graph.node outer).operation.role ≠ .leaf
  outer : ∀ part, part ∈ (graph.node outer).operands ↔ part = inner ∨ part ∈ kept
  inner : (graph.node inner).operation.role = .leaf ∨ (graph.node inner).operands ⊆ kept

theorem Graph.Joins.madeOver {graph larger : Graph} {first second : Node} {kept : List NodeId}
    (joins : graph.Joins larger first second) (role : second.operation.role ≠ .leaf)
    (outer : ∀ part, part ∈ second.operands ↔ part = graph.size ∨ part ∈ kept)
    (inner : first.operation.role = .leaf ∨ first.operands ⊆ kept) :
    larger.MadeOver (graph.size + 1) graph.size kept := by
  obtain ⟨_, firstNode⟩ := joins.inner
  obtain ⟨_, secondNode⟩ := joins.outer
  constructor
  · rw [secondNode]
    exact role
  · rw [secondNode]
    exact outer
  · rw [firstNode]
    exact inner

/-- The node that takes the place of one with two operands is made over those that are kept. -/
def Replacement.Keeps (replacement : Replacement) (kept : List NodeId → List NodeId) : Prop :=
  ∀ graph id added new, replacement graph id = .ok (added, new) →
    (graph.node id).operands.length = 2 →
    (added.shareTag id new).MadeOver new graph.size (kept (graph.node id).operands)

namespace Replacement

/-- A product with a reciprocal leaves the divisor out. -/
theorem timesReciprocal_keeps : timesReciprocal.Keeps (List.take 1) := by
  intro graph id added new made two
  obtain ⟨left, right, operands⟩ := length_eq_two.mp two
  obtain ⟨joins, rfl⟩ := Graph.joins_of_made made (timesReciprocal_eq operands)
  rw [operands]
  exact joins.madeOver nofun (by simp [or_comm]) (.inl rfl)

/-- A choice is made over both operands. -/
theorem chooseBy_keeps (predicate : Specifier) : (chooseBy predicate).Keeps id := by
  intro graph place added new made two
  obtain ⟨left, right, operands⟩ := length_eq_two.mp two
  obtain ⟨joins, rfl⟩ := Graph.joins_of_made made (chooseBy_eq operands predicate)
  rw [operands]
  exact joins.madeOver nofun (by simp) (.inr (List.Subset.refl _))

end Replacement

namespace RuleBook

/-- Which operands a replacement of the book keeps depends on the operands alone. -/
def Keeping (book : RuleBook) : Prop :=
  ∀ replacement, .replace replacement ∈ book.actions → ∃ kept, replacement.Keeps kept

theorem Keeping.of_replacements {book : RuleBook} {replacements : List Replacement}
    (all : book.actions.filterMap Action.replacement? = replacements)
    (keeps : ∀ replacement ∈ replacements, ∃ kept, replacement.Keeps kept) : book.Keeping := by
  intro replacement member
  apply keeps
  rw [← all]
  exact mem_filterMap.mpr ⟨_, member, rfl⟩

/-- The rules of a book are tame, and what they do with a node stays the same while the graph
grows. -/
structure Steady (book : RuleBook) : Prop where
  tame : book.Tame
  guarded : book.Guarded
  keeping : book.Keeping

theorem Steady.layeredOn {book base : RuleBook} (own : book.Steady) (inherited : base.Steady) :
    (book.layeredOn base).Steady where
  tame := own.tame.layeredOn inherited.tame
  guarded := own.guarded.layeredOn inherited.guarded
  keeping replacement member := by
    rw [actions_layeredOn] at member
    rcases mem_append.mp member with mine | others
    · exact own.keeping replacement mine
    · exact inherited.keeping replacement others

/-- A node that is lowered to lower another one: an operand of it and, where the node is replaced, of
the node in its place. Leaves have no parts. -/
structure PartOf (book : RuleBook) (graph : Graph) (id part : NodeId) : Prop where
  role : (graph.node id).operation.role ≠ .leaf
  uses : part ∈ (graph.node id).operands
  kept : ∀ later new, book.lower graph id = .ok (.replaced later new) →
    part ∈ (later.node new).operands

section Growing

variable {book : RuleBook} {graph other : Graph} {id part : NodeId}

/-- Graphs that are alike at a node have the same rule for it. -/
theorem Guarded.select_of_alike (guarded : book.Guarded) (alike : graph.Alike other id)
    {action : Action} (selected : book.select graph id = .ok action) :
    book.select other id = .ok action := by
  have groups : ∀ group ∈ book.groupsFor ⟨(graph.node id).operation, (graph.node id).specifier⟩,
      group.Guarded := fun _ => guarded.group
  have found := find?_eq_of_divisor groups alike.powerOfTwoDivisor_eq (graph.node id).format
    (graph.operandFormats id)
  obtain ⟨tag, same⟩ := alike.node
  unfold select at selected ⊢
  rw [alike.operandFormats_eq, same]
  dsimp only at selected ⊢
  split at selected
  · cases selected
  split at selected
  · cases selected
  rename_i hasOperation hasKey
  rw [if_neg hasOperation, if_neg hasKey, found]
  split at selected
  · exact selected
  · cases selected

theorem Tame.exists_replaced (tame : book.Tame) {replacement : Replacement}
    (selected : book.select graph id = .ok (.replace replacement)) :
    ∃ later new, book.lower graph id = .ok (.replaced later new) := by
  cases tame.lower_cases graph id with
  | unmatched _ _ refused => cases refused.symm.trans selected
  | written lowered _ =>
    cases chosen_of_lower lowered with
    | template selected' => cases selected.symm.trans selected'
  | replaced lowered _ _ _ => exact ⟨_, _, lowered⟩

/-- What a replacement keeps of a node is the same in graphs that are alike at the node. -/
theorem Steady.kept_of_alike (steady : book.Steady) (alike : graph.Alike other id)
    (inside : part < graph.size) {later later' : Graph} {new new' : NodeId}
    (lowered : book.lower graph id = .ok (.replaced later new))
    (lowered' : book.lower other id = .ok (.replaced later' new'))
    (uses : part ∈ (later.node new).operands) : part ∈ (later'.node new').operands := by
  have two := steady.tame.length_of_replaced lowered
  have two' := steady.tame.length_of_replaced lowered'
  obtain ⟨replacement, added, selected, made, rfl⟩ := lower_replaced lowered
  obtain ⟨replacement', added', selected', made', rfl⟩ := lower_replaced lowered'
  cases (steady.guarded.select_of_alike alike selected).symm.trans selected'
  obtain ⟨kept, keeps⟩ := steady.keeping replacement (mem_actions_of_select selected)
  have here := keeps graph id added new made two
  have there := keeps other id added' new' made' two'
  rw [alike.operands_eq] at there
  rcases (here.outer part).mp uses with last | member
  · exact absurd last (Nat.ne_of_lt inside)
  · exact (there.outer part).mpr (.inr member)

theorem Steady.partOf_of_alike (steady : book.Steady) (alike : graph.Alike other id)
    (inside : ∀ operand ∈ (graph.node id).operands, operand < graph.size)
    (part_of : book.PartOf graph id part) : book.PartOf other id part where
  role := by
    obtain ⟨tag, same⟩ := alike.node
    rw [same]
    exact part_of.role
  uses := by
    rw [alike.operands_eq]
    exact part_of.uses
  kept later new lowered := by
    obtain ⟨replacement, _, selected, _, _⟩ := lower_replaced lowered
    obtain ⟨later', new', lowered'⟩ :=
      steady.tame.exists_replaced (steady.guarded.select_of_alike alike.symm selected)
    exact steady.kept_of_alike alike (inside part part_of.uses) lowered' lowered
      (part_of.kept later' new' lowered')

/-- The parts of a node whose operands are in the graph stay the same while the graph grows. -/
theorem Steady.partOf_iff (steady : book.Steady) {larger : Graph} (grows : graph.Grows larger)
    (known : id < graph.size)
    (inside : ∀ operand ∈ (graph.node id).operands, operand < graph.size) :
    book.PartOf larger id part ↔ book.PartOf graph id part := by
  have alike : graph.Alike larger id := .of_grows grows known inside
  constructor
  · refine steady.partOf_of_alike alike.symm fun operand uses => ?_
    rw [alike.operands_eq] at uses
    exact Nat.lt_of_lt_of_le (inside operand uses) grows.size
  · exact steady.partOf_of_alike alike inside

end Growing

/-! ## The nodes in the place of another one -/

section Replaced

variable {book : RuleBook} {graph later : Graph} {id new part : NodeId}

/-- A node that no rule replaces has all its operands as parts. -/
theorem partOf_of_unreplaced (kept : ∀ later new, book.lower graph id ≠ .ok (.replaced later new))
    (role : (graph.node id).operation.role ≠ .leaf) (uses : part ∈ (graph.node id).operands) :
    book.PartOf graph id part :=
  ⟨role, uses, fun later new lowered => absurd lowered (kept later new)⟩

theorem Tame.ne_replaced (tame : book.Tame)
    (unreplaced : (graph.node id).operation.isReplaced = false) (later : Graph) (new : NodeId) :
    book.lower graph id ≠ .ok (.replaced later new) := by
  intro lowered
  obtain ⟨isReplaced, _, _⟩ := tame.replaces lowered
  rw [unreplaced] at isReplaced
  cases isReplaced

/-- Two nodes take the place of another one, and neither of them is replaced again. -/
structure TakesPlace (book : RuleBook) (graph later : Graph) (id new : NodeId) : Prop where
  grows : graph.Grows later
  size : later.size = graph.size + 2
  last : new = graph.size + 1
  role : (graph.node id).operation.role ≠ .leaf
  outerRole : (later.node new).operation.role ≠ .leaf
  outer : ∀ operand ∈ (later.node new).operands,
    operand ∈ (graph.node id).operands ∨ operand = graph.size
  inner : ∀ operand ∈ (later.node graph.size).operands, operand ∈ (graph.node id).operands
  below : (later.node graph.size).operation.role ≠ .leaf →
    (later.node graph.size).operands ⊆ (later.node new).operands
  keptOuter : ∀ largest newest, book.lower later new ≠ .ok (.replaced largest newest)
  keptInner : ∀ largest newest, book.lower later graph.size ≠ .ok (.replaced largest newest)

section

variable (steady : book.Steady) (lowered : book.lower graph id = .ok (.replaced later new))

include steady lowered

theorem Steady.madeOver : ∃ kept, later.MadeOver new graph.size kept := by
  have two := steady.tame.length_of_replaced lowered
  obtain ⟨replacement, added, selected, made, rfl⟩ := lower_replaced lowered
  obtain ⟨kept, keeps⟩ := steady.keeping replacement (mem_actions_of_select selected)
  exact ⟨_, keeps graph id added new made two⟩

theorem Steady.takesPlace : book.TakesPlace graph later id new := by
  obtain ⟨kept, made⟩ := steady.madeOver lowered
  have tame := steady.tame
  cases tame.replaces lowered with
  | @intro first second isReplaced builds _ =>
    have joins := graph.joins_shareTag first second id
    obtain ⟨_, innerNode⟩ := joins.inner
    obtain ⟨_, outerNode⟩ := joins.outer
    refine ⟨joins.grows, joins.size, rfl, ?_, made.role, ?_, ?_, ?_, tame.ne_replaced ?_,
      tame.ne_replaced ?_⟩
    · revert isReplaced
      cases (graph.node id).operation <;> decide
    · rw [outerNode]
      exact builds.outer.operands
    · rw [innerNode]
      exact builds.inner.operands
    · intro computed part uses
      rcases made.inner with leaf | onlyKept
      · exact absurd leaf computed
      · exact (made.outer part).mpr (.inr (onlyKept uses))
    · rw [outerNode]
      exact builds.outer.unreplaced
    · rw [innerNode]
      exact builds.inner.unreplaced

end

namespace TakesPlace

variable (place : book.TakesPlace graph later id new)
  (lowered : book.lower graph id = .ok (.replaced later new))

include place lowered

theorem partOf_of_uses (uses : part ∈ (graph.node id).operands)
    (kept : part ∈ (later.node new).operands) : book.PartOf graph id part := by
  refine ⟨place.role, uses, fun other newest again => ?_⟩
  cases again.symm.trans lowered
  exact kept

/-- The parts of the node that takes the place of another one are parts of that one, or the node
below it. -/
theorem of_outer (outer : book.PartOf later new part) :
    part = graph.size ∨ book.PartOf graph id part := by
  rcases place.outer part outer.uses with uses | below
  · exact .inr (place.partOf_of_uses lowered uses outer.uses)
  · exact .inl below

/-- The parts of the node below are parts of the one that is replaced. -/
theorem of_inner (inner : book.PartOf later graph.size part) : book.PartOf graph id part :=
  place.partOf_of_uses lowered (place.inner part inner.uses) (place.below inner.role inner.uses)

/-- A part of a node that is replaced is a part of the node in its place. -/
theorem partOf (part_of : book.PartOf graph id part) : book.PartOf later new part :=
  partOf_of_unreplaced place.keptOuter place.outerRole (part_of.kept later new lowered)

end TakesPlace

end Replaced

end RuleBook

/-! ## The targets of the library -/

theorem Portable.book_keeping : Portable.book.Keeping := by
  apply RuleBook.Keeping.of_replacements Portable.replacements_eq
  simp only [forall_mem_cons]
  have chooses (predicate : Specifier) :
      ∃ kept, (Replacement.chooseBy predicate).Keeps kept :=
    ⟨id, Replacement.chooseBy_keeps predicate⟩
  exact ⟨⟨_, Replacement.timesReciprocal_keeps⟩, chooses _, chooses _, chooses _, chooses _,
    forall_mem_nil _⟩

namespace Catalog

theorem books_steady : ∀ book ∈ books, book.Steady := by
  have without {entries : List (RuleKey × List Rule)} (tame : (RuleBook.ofRules entries).Tame)
      (none : (RuleBook.ofRules entries).actions.filterMap Action.replacement? = []) :
      (RuleBook.ofRules entries).Steady :=
    ⟨tame, .ofRules entries, .of_replacements none (forall_mem_nil _)⟩
  have tame := books_tame
  simp only [books, Intrinsics.books, cons_append, nil_append, forall_mem_cons]
    at tame ⊢
  obtain ⟨portable, base, sse, sse2, ssse3, sse41, avx, avx2, hardware, verification, _⟩ := tame
  exact ⟨⟨portable, Portable.book_guarded, Portable.book_keeping⟩, without base rfl,
    without sse rfl, without sse2 rfl, without ssse3 rfl, without sse41 rfl, without avx rfl,
    without avx2 rfl, without hardware rfl, without verification rfl, forall_mem_nil _⟩

/-- All targets that come with the library are steady. -/
theorem builtin_steady {name : String} {target : Target}
    (found : builtin.target name = .ok target) : target.Every RuleBook.Steady :=
  builtin_every (fun _ _ => RuleBook.Steady.layeredOn) books_steady found

end Catalog

end Retarget

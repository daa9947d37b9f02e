import Retarget.Target.Catalog

/-!
# What the rules of all targets share

A property of rule books that layering keeps holds of all books of the targets that come with the
library, whichever target they inherit from, once it holds of each book that they are made of.
-/

namespace Retarget

open List

/-- All books of a target have a property. -/
def Target.Every (holds : RuleBook → Prop) (target : Target) : Prop :=
  ∀ language book, target.books.get? language = some book → holds book

variable {holds : RuleBook → Prop}

/-- A plan that layers one book over that of its parent. -/
theorem TargetPlan.layered_every {plan : TargetPlan} {parent : Target} {language : Language}
    {own : RuleBook} (extended : plan.parent = some parent) (inherited : parent.Every holds)
    (has : (parent.books.get? language).isSome = true) (books : plan.books = [(language, own)])
    (layers : ∀ base, holds base → holds (own.layeredOn base)) : plan.target.Every holds := by
  intro other book found
  change (plan.books.foldl layer _).get? other = some book at found
  rw [books, extended] at found
  change (layer parent.books (language, own)).get? other = some book at found
  unfold layer at found
  obtain ⟨base, before⟩ := Option.isSome_iff_exists.mp has
  simp only [before] at found
  rcases OrderedMap.eq_or_get?_of_get?_insert found with ⟨_, rfl⟩ | old
  · exact layers base (inherited _ _ before)
  · exact inherited other book old

namespace Intrinsics

/-- The books that the levels of the family add. -/
def books : List RuleBook :=
  [baseBook, sseBook, sse2Book, ssse3Book, sse41Book, avxBook, avx2Book]

theorem family_every (portable : holds Portable.book)
    (layers : ∀ own ∈ books, ∀ base, holds base → holds (own.layeredOn base)) :
    ∀ target ∈ Portable.target :: family, target.Every holds := by
  simp only [books, forall_mem_cons] at layers
  obtain ⟨onBase, onSse, onSse2, onSsse3, onSse41, onAvx, onAvx2, _⟩ := layers
  have hasPortable : Portable.target.Every holds := by
    intro language book found
    cases language <;> cases found
    exact portable
  have hasBase : base.Every holds := TargetPlan.layered_every rfl hasPortable rfl rfl onBase
  have hasSse : sse.Every holds := TargetPlan.layered_every rfl hasBase rfl rfl onSse
  have hasSse2 : sse2.Every holds := TargetPlan.layered_every rfl hasSse rfl rfl onSse2
  have hasSsse3 : ssse3.Every holds := TargetPlan.layered_every rfl hasSse2 rfl rfl onSsse3
  have hasSse41 : sse41.Every holds := TargetPlan.layered_every rfl hasSsse3 rfl rfl onSse41
  have hasAvx : avx.Every holds := TargetPlan.layered_every rfl hasSse41 rfl rfl onAvx
  have hasAvx2 : avx2.Every holds := TargetPlan.layered_every rfl hasAvx rfl rfl onAvx2
  simp only [family, forall_mem_cons]
  exact ⟨hasPortable, hasBase, hasSse, hasSse2, hasSse2, hasSsse3, hasSse41, hasAvx, hasAvx2,
    fun _ member => by cases member⟩

end Intrinsics

namespace Catalog

variable {name : String} {target : Target}

/-- The books that all targets of the library are made of. -/
def books : List RuleBook :=
  Portable.book :: Intrinsics.books ++ [Hardware.book, Verification.book]

theorem mem_of_get?_foldl_add {targets : List Target} {catalog : Catalog}
    (found : (targets.foldl add catalog).get? name = some target) :
    target ∈ targets ∨ catalog.get? name = some target := by
  induction targets generalizing catalog with
  | nil => exact .inr found
  | cons first rest ih =>
    rcases ih found with later | before
    · exact .inl (mem_cons_of_mem _ later)
    · rcases OrderedMap.eq_or_get?_of_get?_insert before with ⟨_, rfl⟩ | old
      · exact .inl mem_cons_self
      · exact .inr old

/-- The targets that come with the library, one after the other. -/
theorem mem_of_target (found : builtin.target name = .ok target) :
    target ∈ Portable.target :: Intrinsics.family ++ [Hardware.target, Verification.target] := by
  unfold Catalog.target at found
  cases known : builtin.get? name with
  | none =>
    rw [known] at found
    cases found
  | some entry =>
    rw [known] at found
    cases found
    exact (mem_of_get?_foldl_add known).resolve_right nofun

/-- What layering keeps and all books have holds of all targets that come with the library. -/
theorem builtin_every (layered : ∀ book base, holds book → holds base → holds (book.layeredOn base))
    (own : ∀ book ∈ books, holds book) (found : builtin.target name = .ok target) :
    target.Every holds := by
  obtain ⟨portable, others⟩ := forall_mem_cons.mp own
  obtain ⟨intrinsics, last⟩ := forall_mem_append.mp others
  rcases mem_append.mp (mem_of_target found) with family | other
  · exact Intrinsics.family_every portable
      (fun book member base => layered book base (intrinsics book member)) target family
  · intro language book known
    simp only [mem_cons, not_mem_nil, or_false] at other
    rcases other with rfl | rfl <;> cases language <;> cases known
    · exact last _ mem_cons_self
    · exact last _ (mem_cons_of_mem _ mem_cons_self)

end Catalog

end Retarget

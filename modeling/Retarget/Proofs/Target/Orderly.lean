import Retarget.Proofs.Rule.Conserving
import Retarget.Proofs.Target.Builtin

/-!
# Orderly and tame targets

The rules of all targets that come with the library are orderly and tame: they replace nodes by
appending others over their operands, and write code by templates that fit what the rules accept.
Their replacements conserve uses.
-/

namespace Retarget

open List

/-- A book without replacements. -/
theorem RuleBook.tame_of_fits {book : RuleBook}
    (none : book.actions.filterMap Action.replacement? = [])
    (rules : (book.groups.all fun entry => entry.2.rules.all (Rule.isTame entry.1.operation)) =
      true) : book.Tame :=
  .of_replacements none (fun _ member => by cases member) rules

namespace Portable

theorem replacements_eq : book.actions.filterMap Action.replacement? =
    [.timesReciprocal, .chooseBy .less, .chooseBy .less, .chooseBy .greater,
      .chooseBy .greater] := rfl

theorem book_orderly : book.Orderly := by
  refine .of_replacements replacements_eq ?_ rfl
  simp only [mem_cons, not_mem_nil, or_false]
  rintro replacement (rfl | rfl | rfl | rfl | rfl) <;> exact Replacement.appends_add_add _ _

theorem book_tame : book.Tame := by
  refine .of_replacements replacements_eq ?_ (by decide +kernel)
  simp only [mem_cons, not_mem_nil, or_false]
  rintro replacement (rfl | rfl | rfl | rfl | rfl)
  · exact Replacement.timesReciprocal_builds
  all_goals exact Replacement.chooseBy_builds _

theorem book_conserving : book.Conserving := by
  have listed : book.replacements =
      [(some Guard.powerOfTwoDivisor, .timesReciprocal), (none, .chooseBy .less),
        (none, .chooseBy .less), (none, .chooseBy .greater), (none, .chooseBy .greater)] := rfl
  unfold RuleBook.Conserving
  rw [listed]
  simp only [forall_mem_cons]
  have chooses := Replacement.chooseBy_conserves
  exact ⟨Replacement.timesReciprocal_conserves, chooses _, chooses _, chooses _, chooses _,
    forall_mem_nil _⟩

end Portable

namespace Intrinsics

-- The text is put together from lines, and its letters are found line by line.
theorem readTimeStamp_fits : (Shape.pattern readTimeStamp).fits 0 true = true := by
  apply Shape.fits_pattern
  · unfold readTimeStamp
    conv_lhs => simp only [String.toList_append]
  · decide +kernel

theorem baseBook_tame : baseBook.Tame := by
  apply RuleBook.tame_of_fits rfl
  change ((Shape.pattern readTimeStamp).fits 0 true && true && true) = true
  rw [readTimeStamp_fits, Bool.and_true, Bool.and_true]

theorem avxBook_tame : avxBook.Tame :=
  RuleBook.tame_of_fits rfl (by cbv)

end Intrinsics

namespace Catalog

variable {name : String} {target : Target}

/-- A property of books that have no replacements holds of all but the portable one. -/
theorem forall_books {holds : RuleBook → Prop} (portable : holds Portable.book)
    (others : ∀ book ∈ Intrinsics.books ++ [Hardware.book, Verification.book], holds book) :
    ∀ book ∈ books, holds book :=
  forall_mem_cons.mpr ⟨portable, others⟩

theorem books_orderly : ∀ book ∈ books, book.Orderly := by
  refine forall_books Portable.book_orderly ?_
  simp only [Intrinsics.books, cons_append, nil_append, forall_mem_cons]
  refine ⟨?_, ?_, ?_, ?_, ?_, ?_, ?_, ?_, ?_, fun _ member => by cases member⟩ <;>
    exact .of_replacements rfl (fun _ member => by cases member) rfl

theorem books_tame : ∀ book ∈ books, book.Tame := by
  refine forall_books Portable.book_tame ?_
  simp only [Intrinsics.books, cons_append, nil_append, forall_mem_cons]
  refine ⟨Intrinsics.baseBook_tame, ?_, ?_, ?_, ?_, Intrinsics.avxBook_tame, ?_, ?_, ?_,
    fun _ member => by cases member⟩ <;>
    exact RuleBook.tame_of_fits rfl (by decide +kernel)

theorem books_conserving : ∀ book ∈ books, book.Conserving := by
  have without {book : RuleBook} (none : book.replacements = []) : book.Conserving := by
    unfold RuleBook.Conserving
    rw [none]
    exact forall_mem_nil _
  refine forall_books Portable.book_conserving ?_
  simp only [Intrinsics.books, cons_append, nil_append, forall_mem_cons]
  refine ⟨?_, ?_, ?_, ?_, ?_, ?_, ?_, ?_, ?_, fun _ member => by cases member⟩ <;>
    exact without rfl

section

variable (found : builtin.target name = .ok target)

include found

/-- All targets that come with the library are orderly. -/
theorem builtin_orderly : target.Every RuleBook.Orderly :=
  builtin_every (fun _ _ => RuleBook.Orderly.layeredOn) books_orderly found

/-- All targets that come with the library are tame. -/
theorem builtin_tame : target.Every RuleBook.Tame :=
  builtin_every (fun _ _ => RuleBook.Tame.layeredOn) books_tame found

/-- The replacements of all targets that come with the library conserve uses. -/
theorem builtin_conserving : target.Every RuleBook.Conserving :=
  builtin_every (fun _ _ => RuleBook.Conserving.layeredOn) books_conserving found

end

end Catalog

end Retarget

import Mathlib
import Retarget.Text.Blank
import Retarget.Text.Cut

/-!
# Cutting what was joined

Text that is put together from parts comes apart into them again, as long as no part has the
character at which it is cut. White space around a text goes away whatever the text is.
-/

namespace Retarget.Text

open List

section Decisions

variable (p : Char → Prop) [DecidablePred p]

-- Characters are finitely many, so a general instance for them would try each one there is. These
-- come first and look only at the characters of the text.

instance (priority := 2000) decidableForallMem (text : List Char) : Decidable (∀ c ∈ text, p c) :=
  List.decidableBAll p text

instance (priority := 2000) decidableForallMemOption (end? : Option Char) :
    Decidable (∀ c ∈ end?, p c) :=
  Option.decidableForallMem end?

end Decisions

section Cuts

variable {stop : Char → Bool} {front rest text : List Char} {mark : Char}

theorem cutFirst?_append (free : ∀ c ∈ front, stop c = false) (stops : stop mark = true)
    (rest : List Char) : cutFirst? stop (front ++ mark :: rest) = some (front, rest) := by
  induction front with
  | nil => simp [cutFirst?, stops]
  | cons c front ih =>
    obtain ⟨here, later⟩ := forall_mem_cons.mp free
    simp [cutFirst?, here, ih later]

theorem cutFirst?_eq_none (free : ∀ c ∈ text, stop c = false) : cutFirst? stop text = none := by
  induction text with
  | nil => rfl
  | cons c text ih =>
    obtain ⟨here, later⟩ := forall_mem_cons.mp free
    simp [cutFirst?, here, ih later]

theorem cutLast?_eq_none (free : ∀ c ∈ text, stop c = false) : cutLast? stop text = none := by
  induction text with
  | nil => rfl
  | cons c text ih =>
    obtain ⟨here, later⟩ := forall_mem_cons.mp free
    simp [cutLast?, here, ih later]

theorem cutLast?_append (front : List Char) (stops : stop mark = true)
    (free : ∀ c ∈ rest, stop c = false) :
    cutLast? stop (front ++ mark :: rest) = some (front, rest) := by
  induction front with
  | nil => simp [cutLast?, cutLast?_eq_none free, stops]
  | cons c front ih => simp [cutLast?, ih]

theorem ne_of_notMem (absent : mark ∉ text) : ∀ c ∈ text, decide (c = mark) = false := by
  intro c member
  apply decide_eq_false
  rintro rfl
  exact absent member

theorem cutFirst?_mark (absent : mark ∉ front) (rest : List Char) :
    cutFirst? (· = mark) (front ++ mark :: rest) = some (front, rest) :=
  cutFirst?_append (ne_of_notMem absent) (decide_eq_true rfl) rest

theorem cutFirst?_mark_eq_none (absent : mark ∉ text) : cutFirst? (· = mark) text = none :=
  cutFirst?_eq_none (ne_of_notMem absent)

theorem cutLast?_mark (front : List Char) (absent : mark ∉ rest) :
    cutLast? (· = mark) (front ++ mark :: rest) = some (front, rest) :=
  cutLast?_append front (decide_eq_true rfl) (ne_of_notMem absent)

theorem cutLast?_mark_eq_none (absent : mark ∉ text) : cutLast? (· = mark) text = none :=
  cutLast?_eq_none (ne_of_notMem absent)

theorem after?_eq_some {start : List Char} :
    after? start text = some rest ↔ text = start ++ rest := by
  unfold after?
  induction start generalizing text with
  | nil => simp [List.isPrefixOf?, eq_comm]
  | cons c start ih =>
    cases text with
    | nil => simp [List.isPrefixOf?]
    | cons d text =>
      by_cases same : c = d
      · simp [List.isPrefixOf?, same, ih]
      · simp [List.isPrefixOf?, same, Ne.symm same]

theorem after?_append (start rest : List Char) : after? start (start ++ rest) = some rest :=
  after?_eq_some.mpr rfl

theorem before?_append (last : Char) (front : List Char) :
    before? last (front ++ [last]) = some front := by
  simp [before?]

theorem cutAt?_eq_none {mark : List Char} (absent : ¬ mark <:+: text) : cutAt? mark text = none := by
  have start {text : List Char} (absent : ¬ mark <:+: text) : mark.isPrefixOf? text = none := by
    apply Option.eq_none_iff_forall_not_mem.mpr
    intro rest found
    exact absent ⟨[], rest, (after?_eq_some.mp found).symm⟩
  induction text with
  | nil =>
    have some : mark ≠ [] := by
      rintro rfl
      exact absent (infix_refl [])
    simp [cutAt?, some]
  | cons c text ih =>
    have later : ¬ mark <:+: text := fun found => absent (infix_cons found)
    simp [cutAt?, start absent, ih later]

end Cuts

/-! ## Splitting -/

section Splitting

variable {mark : Char} {piece : List Char} {pieces : List (List Char)}

theorem splitAt_cons {c : Char} {rest : List Char} (other : c ≠ mark)
    (split : splitAt mark rest = piece :: pieces) :
    splitAt mark (c :: rest) = (c :: piece) :: pieces := by
  unfold splitAt at split ⊢
  rw [foldr_cons, split, if_neg other]

theorem splitAt_of_notMem (absent : mark ∉ piece) : splitAt mark piece = [piece] := by
  induction piece with
  | nil => rfl
  | cons c piece ih =>
    simp only [mem_cons, not_or] at absent
    exact splitAt_cons (Ne.symm absent.1) (ih absent.2)

theorem splitAt_append (absent : mark ∉ piece) (rest : List Char) :
    splitAt mark (piece ++ mark :: rest) = piece :: splitAt mark rest := by
  induction piece with
  | nil => simp [splitAt]
  | cons c piece ih =>
    simp only [mem_cons, not_or] at absent
    exact splitAt_cons (Ne.symm absent.1) (ih absent.2)

theorem splitAt_intercalate (some : pieces ≠ []) (absent : ∀ piece ∈ pieces, mark ∉ piece) :
    splitAt mark ([mark].intercalate pieces) = pieces := by
  induction pieces with
  | nil => exact absurd rfl some
  | cons first rest ih =>
    obtain ⟨here, later⟩ := forall_mem_cons.mp absent
    cases rest with
    | nil => simpa using splitAt_of_notMem here
    | cons second rest =>
      rw [intercalate_cons_cons, append_assoc, singleton_append,
        splitAt_append here, ih (cons_ne_nil _ _) later]

end Splitting

/-! ## White space -/

section Trimming

variable {left right text : List Char}

theorem trimLeft_append (blank : ∀ c ∈ left, isBlank c = true) (text : List Char) :
    trimLeft (left ++ text) = trimLeft text := by
  unfold trimLeft
  rw [dropWhile_append_of_pos blank]

theorem trimRight_append (text : List Char) (blank : ∀ c ∈ right, isBlank c = true) :
    trimRight (text ++ right) = trimRight text := by
  unfold trimRight
  rw [reverse_append, dropWhile_append_of_pos]
  exact fun c member => blank c (mem_reverse.mp member)

/-- White space around a text does not matter. -/
theorem trim_pad (before : ∀ c ∈ left, isBlank c = true) (text : List Char)
    (after : ∀ c ∈ right, isBlank c = true) : trim (left ++ text ++ right) = trim text := by
  unfold trim
  rw [append_assoc, trimLeft_append before]
  induction text with
  | nil =>
    rw [nil_append, ← append_nil right, trimLeft_append after]
  | cons c text ih =>
    by_cases blank : isBlank c = true
    · simpa [trimLeft, blank] using ih
    · have kept (rest : List Char) : trimLeft (c :: rest) = c :: rest := by
        simp [trimLeft, blank]
      rw [cons_append, kept, kept, ← cons_append, trimRight_append _ after]

/-- No white space stands at either end. -/
structure Trimmed (text : List Char) : Prop where
  head : ∀ c ∈ text.head?, isBlank c = false
  last : ∀ c ∈ text.getLast?, isBlank c = false

theorem Trimmed.trim_eq (trimmed : Trimmed text) : trim text = text := by
  have left : trimLeft text = text := by
    cases text with
    | nil => rfl
    | cons c text => simp [trimLeft, trimmed.head c rfl]
  have right : trimRight text = text := by
    rcases eq_nil_or_concat text with rfl | ⟨front, last, rfl⟩
    · rfl
    · have kept := trimmed.last last (by simp)
      simp [trimRight, kept]
  rw [trim, left, right]

/-- What stands between two trimmed texts does not matter. -/
theorem Trimmed.join (first : Trimmed left) (before : left ≠ []) (middle : List Char)
    (second : Trimmed right) (after : right ≠ []) : Trimmed (left ++ middle ++ right) where
  head c member := by
    apply first.head c
    simpa [before] using member
  last c member := by
    apply second.last c
    simpa [after] using member

theorem Trimmed.of_forall (free : ∀ c ∈ text, isBlank c = false) : Trimmed text where
  head c member := free c (mem_of_mem_head? member)
  last c member := free c (mem_of_mem_getLast? member)

end Trimming

end Retarget.Text

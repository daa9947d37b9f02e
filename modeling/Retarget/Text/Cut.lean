/-!
# Cutting text

Cuts at the first or the last occurrence of a character, splitting at every occurrence, and
removal of a given start or end.
-/

namespace Retarget.Text

/-- The parts before and after the first character satisfying `stop`. -/
def cutFirst? (stop : Char → Bool) : List Char → Option (List Char × List Char)
  | [] => none
  | c :: rest =>
    if stop c then some ([], rest)
    else (cutFirst? stop rest).map fun parts => (c :: parts.1, parts.2)

/-- The parts before and after the last character satisfying `stop`. -/
def cutLast? (stop : Char → Bool) : List Char → Option (List Char × List Char)
  | [] => none
  | c :: rest =>
    match cutLast? stop rest with
    | some parts => some (c :: parts.1, parts.2)
    | none => if stop c then some ([], rest) else none

/-- The parts before and after the first occurrence of `mark`. -/
def cutAt? (mark : List Char) : List Char → Option (List Char × List Char)
  | [] => if mark.isEmpty then some ([], []) else none
  | c :: rest =>
    match mark.isPrefixOf? (c :: rest) with
    | some after => some ([], after)
    | none => (cutAt? mark rest).map fun parts => (c :: parts.1, parts.2)

/-- What follows `start` in a text that begins with it. -/
def after? (start text : List Char) : Option (List Char) :=
  start.isPrefixOf? text

/-- What precedes `last` in a text that ends in that character. -/
def before? (last : Char) (text : List Char) : Option (List Char) :=
  match text.reverse with
  | c :: rest => if c = last then some rest.reverse else none
  | [] => none

/-- The pieces between consecutive occurrences of `mark`; a text without it is one piece. -/
def splitAt (mark : Char) (text : List Char) : List (List Char) :=
  text.foldr
    (fun c pieces =>
      if c = mark then [] :: pieces
      else
        match pieces with
        | piece :: rest => (c :: piece) :: rest
        | [] => [[c]])
    [[]]

/-- The state of `splitOutside`: the bracket depth, the piece being read and the pieces already
read, both with the most recent first. -/
structure OutsideState where
  depth : Nat
  piece : List Char
  pieces : List (List Char)

/-- Reads one more character for `splitOutside`. -/
def OutsideState.read (state : OutsideState) (c : Char) : OutsideState :=
  if c = '[' then { state with depth := state.depth + 1, piece := c :: state.piece }
  else if c = ']' then { state with depth := state.depth - 1, piece := c :: state.piece }
  else if c = ',' && state.depth = 0 then
    { state with piece := [], pieces := state.piece.reverse :: state.pieces }
  else { state with piece := c :: state.piece }

/-- The pieces between the commas that stand outside of square brackets, the last one apart. A
closing bracket without an opening one is ignored. -/
def splitOutside (text : List Char) : List (List Char) × List Char :=
  let state := text.foldl OutsideState.read ⟨0, [], []⟩
  (state.pieces.reverse, state.piece.reverse)

private theorem OutsideState.foldl_read {text : List Char}
    (plain : ∀ c ∈ text, c ≠ '[' ∧ c ≠ ']' ∧ c ≠ ',') (state : OutsideState) :
    text.foldl OutsideState.read state = { state with piece := text.reverse ++ state.piece } := by
  induction text generalizing state with
  | nil => rfl
  | cons c text ih =>
    obtain ⟨⟨opening, closing, comma⟩, later⟩ := List.forall_mem_cons.mp plain
    simp [ih later, OutsideState.read, opening, closing, comma]

private theorem OutsideState.foldl_read_intercalate {front : List (List Char)} {last : List Char}
    (plain : ∀ piece ∈ front ++ [last], ∀ c ∈ piece, c ≠ '[' ∧ c ≠ ']' ∧ c ≠ ',')
    (done : List (List Char)) :
    ([','].intercalate (front ++ [last])).foldl OutsideState.read ⟨0, [], done⟩ =
      ⟨0, last.reverse, front.reverse ++ done⟩ := by
  induction front generalizing done with
  | nil => simpa using foldl_read (plain last List.mem_cons_self) ⟨0, [], done⟩
  | cons piece front ih =>
    obtain ⟨here, later⟩ := List.forall_mem_cons.mp plain
    have split : [','].intercalate (piece :: (front ++ [last])) =
        piece ++ ',' :: [','].intercalate (front ++ [last]) := by
      cases front with
      | nil => simp
      | cons second front => simp
    rw [List.cons_append, split, List.foldl_append, foldl_read here, List.foldl_cons]
    simp [OutsideState.read, ih later]

/-- Pieces without brackets and commas come apart again. -/
theorem splitOutside_intercalate {front : List (List Char)} {last : List Char}
    (plain : ∀ piece ∈ front ++ [last], ∀ c ∈ piece, c ≠ '[' ∧ c ≠ ']' ∧ c ≠ ',') :
    splitOutside ([','].intercalate (front ++ [last])) = (front, last) := by
  simp [splitOutside, OutsideState.foldl_read_intercalate plain]

end Retarget.Text

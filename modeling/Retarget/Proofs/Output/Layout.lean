import Retarget.Proofs.Output.Sketching

/-!
# Layout in C

A tree of scopes is printed line by line, each line behind the margin of the blocks that it is in
(`Item.print`). An outline is written scope by scope instead, and every scope is moved to the right
as a whole when the block around it is written. Both give the same text.
-/

namespace Retarget

open List

variable {text : String}

namespace Lines

/-- Some text with a margin at the start of every line. The flag says whether the text begins where
a line begins. -/
def indent (margin : List Char) : Bool → List Char → List Char
  | _, [] => []
  | begins, c :: rest => (if begins then margin else []) ++ c :: indent margin (c == '\n') rest

/-- Whether a line begins behind the text. -/
def ended : Bool → List Char → Bool
  | begins, [] => begins
  | _, c :: rest => ended (c == '\n') rest

variable (margin : List Char)

theorem indent_nil (begins : Bool) : indent margin begins [] = [] := rfl

theorem indent_cons (begins : Bool) (c : Char) (rest : List Char) :
    indent margin begins (c :: rest) =
      (if begins then margin else []) ++ c :: indent margin (c == '\n') rest := rfl

theorem ended_nil (begins : Bool) : ended begins [] = begins := rfl

theorem ended_cons (begins : Bool) (c : Char) (rest : List Char) :
    ended begins (c :: rest) = ended (c == '\n') rest := rfl

theorem ended_append (begins : Bool) (first second : List Char) :
    ended begins (first ++ second) = ended (ended begins first) second := by
  induction first generalizing begins with
  | nil => rfl
  | cons c rest ih => exact ih (c == '\n')

theorem indent_append (begins : Bool) (first second : List Char) :
    indent margin begins (first ++ second) =
      indent margin begins first ++ indent margin (ended begins first) second := by
  induction first generalizing begins with
  | nil => rfl
  | cons c rest ih => simp [indent_cons, ended_cons, ih]

theorem ended_indent (begins : Bool) (text : List Char) :
    ended begins (indent margin begins text) = ended begins text := by
  induction text generalizing begins with
  | nil => rfl
  | cons c rest ih =>
    rw [indent_cons, ended_append]
    exact ih (c == '\n')

theorem indent_nil_margin (begins : Bool) (text : List Char) : indent [] begins text = text := by
  induction text generalizing begins with
  | nil => rfl
  | cons c rest ih => simp [indent_cons, ih]

/-- Text on one line takes one margin. -/
theorem indent_line {line : List Char} (single : '\n' ∉ line) (begins : Bool) (c : Char)
    (rest : List Char) :
    indent margin begins (line ++ c :: rest) =
      (if begins then margin else []) ++ line ++ c :: indent margin (c == '\n') rest := by
  induction line generalizing begins with
  | nil => simp [indent_cons]
  | cons first line ih =>
    have inside : (first == '\n') = false := by
      simpa using fun same : first = '\n' => single (same ▸ mem_cons_self)
    have others : '\n' ∉ line := fun member => single (mem_cons_of_mem _ member)
    simp [indent_cons, inside, ih others]

/-- Margins add up. -/
theorem indent_indent {inner : List Char} (single : '\n' ∉ inner) (begins : Bool)
    (text : List Char) :
    indent margin begins (indent inner begins text) = indent (margin ++ inner) begins text := by
  induction text generalizing begins with
  | nil => rfl
  | cons c rest ih =>
    have onLine : '\n' ∉ (if begins then inner else []) := by
      split
      · exact single
      · exact not_mem_nil
    rw [indent_cons, indent_line margin onLine, ih, indent_cons]
    cases begins <;> simp

/-- A margin behind every line break is one in front of every line, and one behind the text where
a line begins there. -/
theorem margin_flatMap (begins : Bool) (text : List Char) :
    (if begins then margin else []) ++
        text.flatMap (fun c => if c = '\n' then '\n' :: margin else [c]) =
      indent margin begins text ++ if ended begins text then margin else [] := by
  induction text generalizing begins with
  | nil => rw [flatMap_nil, append_nil, indent_nil, ended_nil, nil_append]
  | cons c rest ih =>
    have next := ih (c == '\n')
    rw [flatMap_cons, indent_cons, ended_cons, append_assoc, cons_append, ← next]
    by_cases broken : c = '\n'
    · simp [broken]
    · simp [broken]

end Lines

/-- Some text inside a number of blocks: every line of it is moved to the right. -/
def onLines (level : Nat) (text : String) : String :=
  String.ofList (Lines.indent (List.replicate (4 * level) ' ') true text.toList)

/-- Whether text consists of whole lines. -/
def WholeLines (text : String) : Prop :=
  Lines.ended true text.toList = true

theorem WholeLines.empty : WholeLines "" := rfl

theorem WholeLines.append {first second : String} (whole : WholeLines first)
    (rest : WholeLines second) : WholeLines (first ++ second) := by
  unfold WholeLines at *
  rw [String.toList_append, Lines.ended_append, whole, rest]

theorem WholeLines.of_newline (text : String) : WholeLines (text ++ "\n") := by
  unfold WholeLines
  rw [String.toList_append, Lines.ended_append]
  rfl

theorem WholeLines.append_line (front : String) {line : String}
    (ends : Lines.ended false line.toList = true) : WholeLines (front ++ line) := by
  unfold WholeLines
  rw [String.toList_append, Lines.ended_append]
  cases chars : line.toList with
  | nil =>
    rw [chars] at ends
    cases ends
  | cons first rest =>
    rw [chars] at ends
    exact ends

theorem WholeLines.onLines (whole : WholeLines text) (level : Nat) :
    WholeLines (onLines level text) := by
  unfold WholeLines Retarget.onLines at *
  rw [String.toList_ofList, Lines.ended_indent, whole]

theorem onLines_zero (text : String) : onLines 0 text = text := by
  unfold onLines
  rw [Nat.mul_zero, replicate_zero, Lines.indent_nil_margin, String.ofList_toList]

theorem onLines_append {first : String} (whole : WholeLines first) (level : Nat)
    (second : String) :
    onLines level (first ++ second) = onLines level first ++ onLines level second := by
  unfold onLines
  rw [String.toList_append, Lines.indent_append, whole, String.ofList_append]

theorem onLines_onLines (level : Nat) (text : String) :
    onLines 1 (onLines level text) = onLines (level + 1) text := by
  have single : '\n' ∉ List.replicate (4 * level) ' ' := by
    simp [mem_replicate]
  unfold onLines
  rw [String.toList_ofList, Lines.indent_indent _ single, ← replicate_add]
  congr 3
  omega

/-- A step of indentation in front of whole lines and behind every line break. -/
theorem step_continueLines (whole : WholeLines text) :
    Draft.step ++ Language.continueLines Draft.step text = onLines 1 text ++ Draft.step := by
  have lists := Lines.margin_flatMap Draft.step.toList true text.toList
  rw [show Lines.ended true text.toList = true from whole] at lists
  apply String.toList_inj.mp
  rw [String.toList_append, String.toList_append, Language.continueLines, onLines,
    String.toList_ofList, String.toList_ofList]
  exact lists

/-- What a step of indentation and a margin behind every line break come to, once the step behind
the last line is taken away. -/
theorem dropStep_continueLines (front : String) (whole : WholeLines text) :
    Draft.dropStep (front ++ Draft.step ++ Language.continueLines Draft.step text) =
      front ++ onLines 1 text := by
  have long : 4 ≤ Draft.step.toList.length := Nat.le_refl 4
  rw [String.append_assoc, step_continueLines whole, ← String.append_assoc,
    Draft.dropStep_append_of_le _ long]
  exact String.append_empty

/-- What stands in a scope: whole lines, declarations, and blocks of scopes behind a header, each
scope but the first behind a transition. -/
inductive Item (δ : Type) where
  /-- Text with a line break behind it. -/
  | line (text : String)
  | declaration (declared : δ)
  | block (header : String) (scope : List (Item δ)) (linked : List (String × List (Item δ)))

namespace Item

section Map

variable {δ ε : Type} (change : δ → ε)

mutual

/-- The item with its declarations changed. -/
def map : Item δ → Item ε
  | .line text => .line text
  | .declaration declared => .declaration (change declared)
  | .block header scope linked => .block header (mapAll scope) (mapLinked linked)

/-- The items of a scope with their declarations changed. -/
def mapAll : List (Item δ) → List (Item ε)
  | [] => []
  | item :: rest => item.map :: mapAll rest

/-- The further scopes of a block with their declarations changed. -/
def mapLinked : List (String × List (Item δ)) → List (String × List (Item ε))
  | [] => []
  | (transition, scope) :: rest => (transition, mapAll scope) :: mapLinked rest

end

end Map

/-- The names bound in the scope itself. -/
def own (items : List (Item Binding)) : List Binding :=
  items.filterMap fun
    | .declaration binding => some binding
    | _ => none

mutual

/-- All names bound in an item. -/
def bound : Item Binding → List Binding
  | .line _ => []
  | .declaration binding => [binding]
  | .block _ scope linked => boundIn scope ++ boundLinked linked

/-- All names bound in a scope and inside it. -/
def boundIn : List (Item Binding) → List Binding
  | [] => []
  | item :: rest => item.bound ++ boundIn rest

/-- All names bound in the further scopes of a block. -/
def boundLinked : List (String × List (Item Binding)) → List Binding
  | [] => []
  | (_, scope) :: rest => boundIn scope ++ boundLinked rest

end

/-- Declarations in C by category, in the order of declaration within each, and a line break behind
them where there are any. -/
def declarations (bindings : Category → List Binding) : String :=
  let text := String.join (Category.all.flatMap fun category =>
    (bindings category).map fun binding => binding.entity.cDeclaration binding.name)
  if text.isEmpty then "" else text ++ "\n"

section Print

variable (policy : SharingPolicy)

/-- What the head of a block declares: the names bound in it that are not declared at the head of
the file. -/
def head (items : List (Item Binding)) : String :=
  declarations fun category =>
    if policy.hoists category then [] else (own items).filter (·.category = category)

/-- What the head of the file declares. -/
def fileHead (items : List (Item Binding)) : String :=
  declarations fun category =>
    (if policy.hoists category then boundIn items else own items).filter (·.category = category)

mutual

/-- An item inside a number of blocks. -/
def printItem (level : Nat) : Item Binding → String
  | .line text => onLines level (text ++ "\n")
  | .declaration _ => ""
  | .block header scope linked =>
    onLines level (header ++ "\x7b\n") ++
      (onLines (level + 1) (head policy scope) ++ printItems (level + 1) scope) ++
      printLinked level linked ++ onLines level "\x7d\n"

/-- The items of a scope inside a number of blocks, in order. -/
def printItems (level : Nat) : List (Item Binding) → String
  | [] => ""
  | item :: rest => printItem level item ++ printItems level rest

/-- The further scopes of a block that is inside a number of blocks. -/
def printLinked (level : Nat) : List (String × List (Item Binding)) → String
  | [] => ""
  | (transition, scope) :: rest =>
    onLines level ("\x7d " ++ transition ++ " \x7b\n") ++
      (onLines (level + 1) (head policy scope) ++ printItems (level + 1) scope) ++
      printLinked level rest

end

/-- The file with a tree of scopes. -/
def print (items : List (Item Binding)) : String :=
  fileHead policy items ++ printItems policy 0 items

end Print

mutual

/-- What is done in a scope to write an item. -/
def parts : Item Binding → Outline
  | .line text => [.text (text ++ "\n")]
  | .declaration binding => [.binding binding]
  | .block header scope linked =>
    [.text header, .block ((none, partsOf scope) :: partsLinked linked)]

/-- What is done in a scope to write its items. -/
def partsOf : List (Item Binding) → Outline
  | [] => []
  | item :: rest => item.parts ++ partsOf rest

/-- What is done to write the further scopes of a block. -/
def partsLinked : List (String × List (Item Binding)) → List (Option String × Outline)
  | [] => []
  | (transition, scope) :: rest => (some transition, partsOf scope) :: partsLinked rest

end

theorem own_partsOf (items : List (Item Binding)) : Outline.own (partsOf items) = own items := by
  induction items with
  | nil => rfl
  | cons item rest ih =>
    rw [partsOf, Outline.own_append, ih]
    cases item <;> rfl

mutual

theorem bindings_parts : ∀ item : Item Binding, Outline.bindings item.parts = item.bound
  | .line _ => rfl
  | .declaration _ => rfl
  | .block header scope linked => by
    simp [parts, bound, Outline.bindings, Outline.partBindings, Outline.blockBindings,
      bindings_partsOf scope, bindings_partsLinked linked]

theorem bindings_partsOf : ∀ items : List (Item Binding),
    Outline.bindings (partsOf items) = boundIn items
  | [] => rfl
  | item :: rest => by
    rw [partsOf, Outline.bindings_append, bindings_parts item, bindings_partsOf rest, boundIn]

theorem bindings_partsLinked : ∀ linked : List (String × List (Item Binding)),
    Outline.blockBindings (partsLinked linked) = boundLinked linked
  | [] => rfl
  | (_, scope) :: rest => by
    rw [partsLinked, Outline.blockBindings, bindings_partsOf scope, bindings_partsLinked rest,
      boundLinked]

end

theorem declarations_eq (bindings : Category → List Binding) :
    declarations bindings =
      Outline.declarations .c (Category.all.flatMap bindings) ++
        if (Outline.declarations .c (Category.all.flatMap bindings)).isEmpty then "" else "\n" := by
  have same : String.join (Category.all.flatMap fun category =>
      (bindings category).map fun binding => binding.entity.cDeclaration binding.name) =
      Outline.declarations .c (Category.all.flatMap bindings) := by
    rw [Outline.declarations, map_flatMap]
    rfl
  unfold declarations
  rw [same]
  dsimp only
  split
  · rename_i none
    rw [String.isEmpty_iff.mp none]
    rfl
  · rfl

theorem wholeLines_declarations (bindings : Category → List Binding) :
    WholeLines (declarations bindings) := by
  unfold declarations
  dsimp only
  split
  · exact .empty
  · exact .of_newline _

section Write

variable (policy : SharingPolicy)

theorem head_eq (items : List (Item Binding)) :
    head policy items =
      Outline.declarations .c (Outline.head policy (partsOf items)) ++
        if (Outline.declarations .c (Outline.head policy (partsOf items))).isEmpty then ""
        else "\n" := by
  rw [Outline.head, own_partsOf]
  exact declarations_eq _

theorem fileHead_eq (items : List (Item Binding)) :
    fileHead policy items =
      Outline.declarations .c (Outline.fileHead policy (partsOf items)) ++
        if (Outline.declarations .c (Outline.fileHead policy (partsOf items))).isEmpty then ""
        else "\n" := by
  rw [Outline.fileHead, own_partsOf, bindings_partsOf]
  exact declarations_eq _

theorem wholeLines_open (header : String) : WholeLines (header ++ "\x7b\n") := by
  rw [show ("\x7b\n" : String) = "\x7b" ++ "\n" from rfl, ← String.append_assoc]
  exact .of_newline _

theorem wholeLines_link (transition : String) :
    WholeLines ("\x7d " ++ transition ++ " \x7b\n") := by
  rw [show (" \x7b\n" : String) = " " ++ "\x7b\n" from rfl, ← String.append_assoc]
  exact wholeLines_open _

theorem wholeLines_close : WholeLines "\x7d\n" := rfl

theorem wholeLines_head (items : List (Item Binding)) : WholeLines (head policy items) :=
  wholeLines_declarations _

section

variable {front : String} (opened : WholeLines front) (level : Nat) (items : List (Item Binding))

include opened

/-- A scope behind the line that opens it. -/
theorem wholeLines_scope {body : String} (inner : WholeLines body) :
    WholeLines (onLines level front ++ (onLines (level + 1) (head policy items) ++ body)) :=
  (opened.onLines level).append (((wholeLines_head policy items).onLines (level + 1)).append inner)

theorem onLines_scope (body : String) :
    onLines 1 (onLines level front ++ (onLines (level + 1) (head policy items) ++ body)) =
      onLines (level + 1) front ++
        (onLines (level + 1 + 1) (head policy items) ++ onLines 1 body) := by
  rw [onLines_append (opened.onLines level),
    onLines_append ((wholeLines_head policy items).onLines (level + 1)), onLines_onLines,
    onLines_onLines]

end

mutual

theorem wholeLines_printItem (level : Nat) : ∀ item, WholeLines (printItem policy level item)
  | .line text => (WholeLines.of_newline text).onLines level
  | .declaration _ => .empty
  | .block header scope linked => by
    have first := wholeLines_scope policy (wholeLines_open header) level scope
      (wholeLines_printItems (level + 1) scope)
    have others := wholeLines_printLinked level linked
    exact (first.append others).append (wholeLines_close.onLines level)

theorem wholeLines_printItems (level : Nat) : ∀ items, WholeLines (printItems policy level items)
  | [] => .empty
  | item :: rest =>
    (wholeLines_printItem level item).append (wholeLines_printItems level rest)

theorem wholeLines_printLinked (level : Nat) : ∀ linked,
    WholeLines (printLinked policy level linked)
  | [] => .empty
  | (transition, scope) :: rest => by
    have first := wholeLines_scope policy (wholeLines_link transition) level scope
      (wholeLines_printItems (level + 1) scope)
    exact first.append (wholeLines_printLinked level rest)

end

mutual

theorem onLines_printItem (level : Nat) : ∀ item,
    onLines 1 (printItem policy level item) = printItem policy (level + 1) item
  | .line text => onLines_onLines level _
  | .declaration _ => rfl
  | .block header scope linked => by
    have first := wholeLines_scope policy (wholeLines_open header) level scope
      (wholeLines_printItems policy (level + 1) scope)
    have others := wholeLines_printLinked policy level linked
    rw [printItem, onLines_append (first.append others), onLines_append first,
      onLines_scope policy (wholeLines_open header), onLines_printItems (level + 1) scope,
      onLines_printLinked level linked, onLines_onLines, printItem]

/-- Moving the items of a scope to the right prints them one block deeper. -/
theorem onLines_printItems (level : Nat) : ∀ items,
    onLines 1 (printItems policy level items) = printItems policy (level + 1) items
  | [] => rfl
  | item :: rest => by
    rw [printItems, onLines_append (wholeLines_printItem policy level item),
      onLines_printItem level item, onLines_printItems level rest, printItems]

theorem onLines_printLinked (level : Nat) : ∀ linked,
    onLines 1 (printLinked policy level linked) = printLinked policy (level + 1) linked
  | [] => rfl
  | (transition, scope) :: rest => by
    have first := wholeLines_scope policy (wholeLines_link transition) level scope
      (wholeLines_printItems policy (level + 1) scope)
    rw [printLinked, onLines_append first, onLines_scope policy (wholeLines_link transition),
      onLines_printItems (level + 1) scope, onLines_printLinked level rest, printLinked]

end

/-- A scope of a block as an outline writes it. -/
theorem scopeText_eq (front : String) (items : List (Item Binding)) :
    Outline.scopeText .c front (Outline.declarations .c (Outline.head policy (partsOf items)))
        (printItems policy 0 items) =
      front ++ (onLines 1 (head policy items) ++ printItems policy 1 items) := by
  have whole := (wholeLines_head policy items).append (wholeLines_printItems policy 0 items)
  change Draft.dropStep (front ++ Draft.step ++
    Language.continueLines Draft.step (_ ++ _ ++ printItems policy 0 items)) = _
  rw [← head_eq, dropStep_continueLines front whole,
    onLines_append (wholeLines_head policy items), onLines_printItems]

mutual

theorem write_parts : ∀ item, Outline.write policy .c (parts item) = printItem policy 0 item
  | .line text => by
    rw [parts, Outline.write_singleton, Outline.writePart, printItem, onLines_zero]
  | .declaration _ => rfl
  | .block header scope linked => by
    have first := scopeText_eq policy (Outline.opener .c none) scope
    simp only [parts, Outline.write, Outline.writePart, Outline.writeBlock, printItem,
      onLines_zero, write_partsOf scope, write_partsLinked linked, first, String.append_empty,
      String.append_assoc]
    rfl

theorem write_partsOf : ∀ items,
    Outline.write policy .c (partsOf items) = printItems policy 0 items
  | [] => rfl
  | item :: rest => by
    rw [partsOf, Outline.write_append, write_parts item, write_partsOf rest, printItems]

theorem write_partsLinked : ∀ linked,
    Outline.writeBlock policy .c (partsLinked linked) = printLinked policy 0 linked
  | [] => rfl
  | (transition, scope) :: rest => by
    have first := scopeText_eq policy (Outline.opener .c (some transition)) scope
    simp only [partsLinked, Outline.writeBlock, printLinked, onLines_zero, write_partsOf scope,
      write_partsLinked rest, first]
    rfl

end

/-- The file of an outline is the printed tree. -/
theorem file_partsOf (items : List (Item Binding)) :
    Outline.file policy .c (partsOf items) false = print policy items := by
  rw [print, fileHead_eq, ← write_partsOf]
  simp [Outline.file]

end Write

end Item

end Retarget

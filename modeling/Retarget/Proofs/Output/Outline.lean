import Retarget.Output.Document
import Retarget.Proofs.Naming.Gaining

/-!
# Outlines

What was done in a scope, in order: texts were written, names were bound, and blocks of nested
scopes were opened and closed. An outline says where each declaration belongs and is written as a
whole (`Outline.file`), where a document is written piece by piece. A sketch is an outline that is
not finished: the scopes that are open, one inside the other.
-/

namespace Retarget

open List

/-- One thing that was done in a scope. -/
inductive Part where
  | text (text : String)
  | binding (binding : Binding)
  /-- Nested scopes side by side, each but the first behind a transition. -/
  | block (scopes : List (Option String × List Part))

/-- What was done in a scope, in order. -/
abbrev Outline := List Part

/-- Whether a category is declared at the head of the file, wherever its names are bound. -/
def SharingPolicy.hoists (policy : SharingPolicy) : Category → Bool
  | .function => true
  | .constant => policy.staticConstants
  | .table => policy.staticTables
  | _ => false

namespace Outline

mutual

/-- The names that a part binds, those of nested scopes included. -/
def partBindings : Part → List Binding
  | .text _ => []
  | .binding binding => [binding]
  | .block scopes => blockBindings scopes

/-- All names bound in a scope and in the scopes inside it, in the order of binding. -/
def bindings : Outline → List Binding
  | [] => []
  | part :: rest => partBindings part ++ bindings rest

/-- All names bound in the scopes of a block. -/
def blockBindings : List (Option String × Outline) → List Binding
  | [] => []
  | (_, outline) :: rest => bindings outline ++ blockBindings rest

end

/-- The names bound in the scope itself. -/
def own (outline : Outline) : List Binding :=
  outline.filterMap fun
    | .binding binding => some binding
    | _ => none

/-- What the head of a block declares: the scope's own names, by category. -/
def head (policy : SharingPolicy) (outline : Outline) : List Binding :=
  Category.all.flatMap fun category =>
    if policy.hoists category then [] else outline.own.filter (·.category = category)

/-- What the head of the file declares, by category: all names of the categories that are declared
there, and the outermost scope's own names of the others. -/
def fileHead (policy : SharingPolicy) (outline : Outline) : List Binding :=
  Category.all.flatMap fun category =>
    (if policy.hoists category then outline.bindings else outline.own).filter
      (·.category = category)

/-- The text of some declarations. -/
def declarations (language : Language) (bindings : List Binding) : String :=
  String.join (bindings.map fun binding => binding.entity.declaration language binding.name)

/-- What stands in front of a scope in a block. -/
def opener (language : Language) : Option String → String
  | none => language.blockOpen
  | some transition => (language.blockLink? transition).getD ""

/-- The text of a block after its innermost scope was written one step deeper. -/
def fill (language : Language) (front declarations body : String) : String :=
  match language with
  | .vhdl =>
    Draft.dropStep (front ++ Language.continueLines Draft.step declarations) ++ "\nbegin\n" ++
      Draft.step ++ Language.continueLines Draft.step ("\n" ++ body)
  | _ =>
    front ++ Language.continueLines Draft.step
      (declarations ++ (if declarations.isEmpty then "" else "\n") ++ body)

/-- One scope of a block. Where the next thing in the block begins, the line goes back by one
step. -/
def scopeText (language : Language) (opener declarations body : String) : String :=
  Draft.dropStep (fill language (opener ++ Draft.step) declarations body)

section Write

variable (policy : SharingPolicy) (language : Language)

mutual

/-- The text of a part. -/
def writePart : Part → String
  | .text text => text
  | .binding _ => ""
  | .block scopes => writeBlock scopes ++ language.blockClose

/-- The text of a scope without its declarations. -/
def write : Outline → String
  | [] => ""
  | part :: rest => writePart part ++ write rest

/-- The text of the scopes of a block, each with its declarations at its head. -/
def writeBlock : List (Option String × Outline) → String
  | [] => ""
  | (transition, outline) :: rest =>
    scopeText language (opener language transition) (declarations language (head policy outline))
      (write outline) ++ writeBlock rest

end

/-- The whole file: what its head declares, then the text of the outermost scope. -/
def file (outline : Outline) (headers : Bool) : String :=
  let top := (if headers then "\n\n" else "") ++ declarations language (fileHead policy outline)
  top ++ (if top.isEmpty then "" else "\n") ++ write policy language outline

mutual

/-- The names declared at the heads of the blocks in a part, in the order of their text. -/
def emittedPart : Part → List Binding
  | .block scopes => emittedBlock scopes
  | _ => []

/-- The names declared at the heads of the blocks in a scope, in the order of their text. -/
def emittedBelow : Outline → List Binding
  | [] => []
  | part :: rest => emittedPart part ++ emittedBelow rest

/-- The names declared in a block, in the order of their text. -/
def emittedBlock : List (Option String × Outline) → List Binding
  | [] => []
  | (_, outline) :: rest => head policy outline ++ emittedBelow outline ++ emittedBlock rest

end

/-- All names that the file declares, in the order of their text. -/
def emitted (outline : Outline) : List Binding :=
  fileHead policy outline ++ emittedBelow policy outline

end Write

section Append

variable (policy : SharingPolicy) (language : Language)

theorem own_append (first second : Outline) : own (first ++ second) = own first ++ own second :=
  filterMap_append

theorem bindings_append (first second : Outline) :
    bindings (first ++ second) = bindings first ++ bindings second := by
  induction first with
  | nil => rfl
  | cons part rest ih => simp [bindings, ih]

theorem blockBindings_append (first second : List (Option String × Outline)) :
    blockBindings (first ++ second) = blockBindings first ++ blockBindings second := by
  induction first with
  | nil => rfl
  | cons scope rest ih => simp [blockBindings, ih]

theorem write_append (first second : Outline) :
    write policy language (first ++ second) =
      write policy language first ++ write policy language second := by
  induction first with
  | nil => simp [write]
  | cons part rest ih => simp [write, ih, String.append_assoc]

theorem writeBlock_append (first second : List (Option String × Outline)) :
    writeBlock policy language (first ++ second) =
      writeBlock policy language first ++ writeBlock policy language second := by
  induction first with
  | nil => simp [writeBlock]
  | cons scope rest ih => simp [writeBlock, ih, String.append_assoc]

theorem write_singleton (part : Part) :
    write policy language [part] = writePart policy language part := by
  simp [write]

end Append

section Emitted

variable (policy : SharingPolicy)

/-- Putting names in the order of their categories. -/
theorem flatMap_category_perm (keep : Category → Bool) (bindings : List Binding) :
    (Category.all.flatMap fun category =>
      if keep category then bindings.filter (·.category = category) else []).Perm
      (bindings.filter fun binding => keep binding.category) := by
  rw [perm_iff_count]
  intro binding
  have one (category : Category) :
      (if keep category then bindings.filter (·.category = category) else []).count binding =
        if binding.category = category then
          (bindings.filter fun binding => keep binding.category).count binding
        else 0 := by
    by_cases same : binding.category = category
    · subst same
      cases kept : keep binding.category with
      | true => simp [count_filter, kept]
      | false =>
        have absent : binding ∉ bindings.filter fun binding => keep binding.category := by
          simp [kept]
        simp [count_eq_zero_of_not_mem absent]
    · have absent : binding ∉ bindings.filter (·.category = category) := by
        simp [same]
      rw [if_neg same]
      split
      · exact count_eq_zero_of_not_mem absent
      · exact count_nil
  rw [count_flatMap]
  simp only [Function.comp_def, one]
  cases binding.category <;> simp [Category.all]

theorem head_perm (outline : Outline) :
    (head policy outline).Perm
      (outline.own.filter fun binding => !policy.hoists binding.category) := by
  have ordered := flatMap_category_perm (fun category => !policy.hoists category) outline.own
  refine .trans (.of_eq (flatMap_congr fun category _ => ?_)) ordered
  cases policy.hoists category <;> rfl

theorem fileHead_perm (outline : Outline) :
    (fileHead policy outline).Perm
      (outline.bindings.filter (fun binding => policy.hoists binding.category) ++
        outline.own.filter fun binding => !policy.hoists binding.category) := by
  have hoisted := flatMap_category_perm policy.hoists outline.bindings
  refine .trans ?_ (hoisted.append (head_perm policy outline))
  refine .trans (.of_eq ?_) (flatMap_append_perm _ _ _).symm
  refine flatMap_congr fun category _ => ?_
  cases policy.hoists category <;> simp

mutual

theorem emittedPart_perm : ∀ part : Part,
    ((own [part]).filter (fun binding => !policy.hoists binding.category) ++
      emittedPart policy part).Perm
      ((partBindings part).filter fun binding => !policy.hoists binding.category)
  | .text _ => .refl _
  | .binding binding => by simp [own, emittedPart, partBindings]
  | .block scopes => emittedBlock_perm scopes

theorem emittedBelow_perm : ∀ outline : Outline,
    (outline.own.filter (fun binding => !policy.hoists binding.category) ++
      emittedBelow policy outline).Perm
      (outline.bindings.filter fun binding => !policy.hoists binding.category)
  | [] => .refl _
  | part :: rest => by
    have first := emittedPart_perm part
    have others := emittedBelow_perm rest
    rw [← singleton_append, own_append, filter_append, append_assoc]
    refine .trans (.append_left _ (perm_append_comm_assoc _ _ _)) ?_
    rw [← append_assoc, singleton_append, bindings, filter_append]
    exact first.append others

theorem emittedBlock_perm : ∀ scopes : List (Option String × Outline),
    (emittedBlock policy scopes).Perm
      ((blockBindings scopes).filter fun binding => !policy.hoists binding.category)
  | [] => .refl _
  | (transition, outline) :: rest => by
    have own := (head_perm policy outline).append_right (emittedBelow policy outline)
    have whole := own.trans (emittedBelow_perm outline)
    rw [blockBindings, filter_append]
    exact whole.append (emittedBlock_perm rest)

end

/-- A file declares every name that was bound, once, and no others. -/
theorem emitted_perm (outline : Outline) : (emitted policy outline).Perm outline.bindings := by
  have top := (fileHead_perm policy outline).append_right (emittedBelow policy outline)
  rw [append_assoc] at top
  have below := (emittedBelow_perm policy outline).append_left
    (outline.bindings.filter fun binding => policy.hoists binding.category)
  exact (top.trans below).trans (filter_append_perm _ _)

end Emitted

end Outline

/-- A scope around the innermost one: what was done in it before its open block, the finished
scopes of that block, and the transition to the open one. -/
structure Pending where
  before : Outline
  finished : List (Option String × Outline)
  transition : Option String

namespace Pending

/-- The finished and the open scopes of the block, where the open one is as given. -/
def scopes (pending : Pending) (outline : Outline) : List (Option String × Outline) :=
  pending.finished ++ [(pending.transition, outline)]

/-- All names bound before the open scope. -/
def bindings (pending : Pending) : List Binding :=
  Outline.bindings pending.before ++ Outline.blockBindings pending.finished

/-- The text before the open scope, as far as the step into it. -/
def write (policy : SharingPolicy) (language : Language) (pending : Pending) : String :=
  Outline.write policy language pending.before ++
    Outline.writeBlock policy language pending.finished ++
    Outline.opener language pending.transition ++ Draft.step

end Pending

/-- An outline under construction: the innermost scope and those around it, innermost first. -/
structure Sketch where
  current : Outline := []
  enclosing : List Pending := []

namespace Sketch

/-- Does something in the innermost scope. -/
def add (sketch : Sketch) (part : Part) : Sketch :=
  { sketch with current := sketch.current ++ [part] }

/-- Opens a scope. -/
def openScope (sketch : Sketch) : Sketch where
  enclosing := ⟨sketch.current, [], none⟩ :: sketch.enclosing

/-- Closes the innermost scope, where there is one around it. -/
def closeScope (sketch : Sketch) : Sketch :=
  match sketch.enclosing with
  | [] => sketch
  | pending :: enclosing =>
    { current := pending.before ++ [.block (pending.scopes sketch.current)], enclosing }

/-- Closes the innermost scope and opens one beside it, where there is one around it. -/
def linkScope (sketch : Sketch) (transition : String) : Sketch :=
  match sketch.enclosing with
  | [] => sketch
  | pending :: enclosing =>
    { enclosing :=
        { pending with finished := pending.scopes sketch.current, transition } :: enclosing }

/-- All names bound so far, in the order of binding. -/
def bindings (sketch : Sketch) : List Binding :=
  sketch.enclosing.reverse.flatMap Pending.bindings ++ sketch.current.bindings

section

variable (sketch : Sketch)

theorem bindings_add (part : Part) :
    (sketch.add part).bindings = sketch.bindings ++ Outline.partBindings part := by
  simp [add, bindings, Outline.bindings_append, Outline.bindings]

theorem bindings_openScope : sketch.openScope.bindings = sketch.bindings := by
  simp [openScope, bindings, Pending.bindings, Outline.bindings, Outline.blockBindings]

theorem bindings_closeScope : sketch.closeScope.bindings = sketch.bindings := by
  unfold closeScope
  cases around : sketch.enclosing with
  | nil => rfl
  | cons pending enclosing =>
    simp [bindings, around, Pending.bindings, Pending.scopes, Outline.bindings_append,
      Outline.bindings, Outline.partBindings, Outline.blockBindings_append,
      Outline.blockBindings]

theorem bindings_linkScope (transition : String) :
    (sketch.linkScope transition).bindings = sketch.bindings := by
  unfold linkScope
  cases around : sketch.enclosing with
  | nil => rfl
  | cons pending enclosing =>
    simp [bindings, around, Pending.bindings, Pending.scopes, Outline.bindings,
      Outline.blockBindings_append, Outline.blockBindings]

end

end Sketch

end Retarget

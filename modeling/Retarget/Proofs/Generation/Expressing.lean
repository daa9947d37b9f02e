import Retarget.Generation.Expression
import Retarget.Proofs.Data.Pairing
import Retarget.Proofs.Output.Continuing
import Retarget.Proofs.Rule.Orderly
import Retarget.Proofs.Template.Instance

/-!
# Codes over names in scope

A view is what may be named from one level of nested scopes: the drafts of its scope and of those
around it. A code expresses a node in a view (`Expresses`) where it is put together as the rules of
a book say and every name that generation made up for it is declared in one of these drafts, and
assigned in one of them if it is a temporary. What is expressed once stays expressed while drafts
are written on and the graph grows.
-/

namespace Retarget

open List

variable {book : RuleBook} {graph : Graph} {id : NodeId}

/-- What may be named from one level: the drafts of its scope and of those around it. -/
structure View where
  tables : NameTables
  drafts : List Draft

namespace View

/-- A name is declared in a category of one of the scopes. -/
def Declares (view : View) (category : Category) (name : String) : Prop :=
  ∃ draft ∈ view.drafts, (view.tables.table (draft.scope.own category)).isFree name = false

/-- A temporary is declared and the statement that stores it is written. -/
def Stores (view : View) (name statement : String) : Prop :=
  view.Declares .variable name ∧
    ∃ draft ∈ view.drafts, statement.toList <:+: draft.text.toList

/-- Whatever may be named in one view may be named in another one. -/
structure Extends (small large : View) : Prop where
  declares : ∀ category name, small.Declares category name → large.Declares category name
  stores : ∀ name statement, statement.toList.getLast? = some '\n' →
    small.Stores name statement → large.Stores name statement

namespace Extends

/-- Scopes further in see what those around them see. -/
theorem of_suffix {tables : NameTables} {outer drafts : List Draft} (around : outer <:+ drafts) :
    Extends ⟨tables, outer⟩ ⟨tables, drafts⟩ where
  declares category name := by
    rintro ⟨draft, member, held⟩
    exact ⟨draft, around.subset member, held⟩
  stores name statement _ := by
    rintro ⟨⟨declaring, member, held⟩, writing, member', inside⟩
    exact ⟨⟨declaring, around.subset member, held⟩, writing, around.subset member', inside⟩

/-- Nothing is lost where drafts are written on and bindings stay. -/
theorem of_continues {before after : NameTables} {drafts later : List Draft}
    (bound : before.Persist after) (continued : List.Forall₂ Draft.Continues drafts later) :
    Extends ⟨before, drafts⟩ ⟨after, later⟩ := by
  have declares : ∀ category name, Declares ⟨before, drafts⟩ category name →
      Declares ⟨after, later⟩ category name := by
    rintro category name ⟨draft, member, held⟩
    obtain ⟨next, inside, continues⟩ := exists_of_mem_forall₂ continued.flip member
    obtain ⟨entity, known⟩ := (NameTable.not_isFree_iff _ _).mp held
    refine ⟨next, inside, (NameTable.not_isFree_iff _ _).mpr ⟨entity, ?_⟩⟩
    rw [continues.own]
    exact bound _ name entity known
  refine ⟨declares, ?_⟩
  rintro name statement finished ⟨declared, draft, member, inside⟩
  obtain ⟨next, inside', continues⟩ := exists_of_mem_forall₂ continued.flip member
  exact ⟨declares _ name declared, next, inside', continues.lines _ finished inside⟩

end Extends

end View

/-- The values that an action may give. -/
def Outcomes (α : Type) : Type := α → Prop

namespace Outcomes

instance : Monad Outcomes where
  pure value := fun result => result = value
  bind first next := fun result => ∃ value, first value ∧ next value result

/-- A fault gives no value. -/
instance : MonadExceptOf Fault Outcomes where
  throw _ := fun _ => False
  tryCatch first _ := first

theorem sequential : @Sequential Outcomes Outcomes _ _ _ _
    fun _ first second => ∀ value, first value → second value := by
  refine ⟨fun _ _ => id, fun _ _ => id, ?_⟩
  rintro α β first second next next' left right result ⟨value, given, rest⟩
  exact ⟨value, left value given, right value result rest⟩

end Outcomes

namespace View

/-- Surroundings in which a temporary has any of the names that store its code in a view. -/
def surroundings (view : View) : Surroundings Outcomes where
  requireHeader _ := pure ()
  requireLibrary _ := pure ()
  materialize code _ := fun name => view.Stores name (Language.c.assignment name code false)
  typeName := Language.c.typeName

/-- A code that a template may have over given codes of operands. -/
def Yields (view : View) (template : Template) (operands : List String) (result : Option String)
    (format : Format) (code : String) : Prop :=
  template.instantiate view.surroundings operands result format code

theorem getLast?_assignment (name code : String) :
    (Language.c.assignment name code false).toList.getLast? = some '\n' := by
  change (name ++ " = " ++ code ++ ";\n").toList.getLast? = some '\n'
  rw [String.toList_append, getLast?_append]
  rfl

/-- Wider views have more outcomes. -/
theorem Extends.surroundings {small large : View} (wider : small.Extends large) :
    Surroundings.Related (fun _ first second => ∀ value, first value → second value)
      small.surroundings large.surroundings :=
  ⟨fun _ _ => id, fun _ _ => id,
    fun code _ name stored => wider.stores name _ (getLast?_assignment name code) stored, rfl⟩

theorem Yields.mono {small large : View} (wider : small.Extends large) {template : Template}
    {operands : List String} {result : Option String} {format : Format} {code : String}
    (yields : small.Yields template operands result format code) :
    large.Yields template operands result format code :=
  template.instantiate_related Outcomes.sequential wider.surroundings operands result format code
    yields

end View

/-- What a book chose for a node of the graph, at some time while the graph grew. -/
def RuleBook.Chose (book : RuleBook) (graph : Graph) (id : NodeId) (lowering : Lowering) : Prop :=
  ∃ earlier : Graph, earlier.Grows graph ∧ id < earlier.size ∧
    book.lower earlier id = .ok lowering

/-- A code stands for a node, and all names that were made up for it are in scope. -/
inductive Expresses (book : RuleBook) (view : View) (graph : Graph) : NodeId → String → Prop where
  | named {id : NodeId} {name : String} (leaf : (graph.node id).payload = .variable name) :
      Expresses book view graph id name
  | literal {id : NodeId} {value : Scalar} (leaf : (graph.node id).payload = .constant value) :
      Expresses book view graph id (Language.c.literal value (graph.node id).format)
  | constant {id : NodeId} {value : Scalar} {name : String}
      (leaf : (graph.node id).payload = .constant value)
      (declared : view.Declares .constant name) : Expresses book view graph id name
  | table {id : NodeId} {values : List Scalar} {name : String}
      (leaf : (graph.node id).payload = .table values) (declared : view.Declares .table name) :
      Expresses book view graph id name
  /-- The code of the node's template over the codes of its operands. -/
  | inline {id : NodeId} {template : Template} {codes : NodeId → String} {code : String}
      (chose : book.Chose graph id (.template template))
      (operands : ∀ operand ∈ (graph.node id).operands,
        Expresses book view graph operand (codes operand))
      (yields : view.Yields template ((graph.node id).operands.map codes) none
        (graph.node id).format code) :
      Expresses book view graph id code
  /-- A temporary that stores such a code. -/
  | stored {id : NodeId} {template : Template} {codes : NodeId → String} {name code : String}
      (chose : book.Chose graph id (.template template))
      (operands : ∀ operand ∈ (graph.node id).operands,
        Expresses book view graph operand (codes operand))
      (yields : view.Yields template ((graph.node id).operands.map codes) none
        (graph.node id).format code)
      (stores : view.Stores name (Language.c.assignment name code false)) :
      Expresses book view graph id name
  /-- A temporary that a statement of the node's template stores. -/
  | written {id : NodeId} {template : Template} {codes : NodeId → String} {name code : String}
      (chose : book.Chose graph id (.template template))
      (operands : ∀ operand ∈ (graph.node id).operands,
        Expresses book view graph operand (codes operand))
      (yields : view.Yields template ((graph.node id).operands.map codes) (some name)
        (graph.node id).format code)
      (stores : view.Stores name (Generator.endLine code)) :
      Expresses book view graph id name
  /-- The code of the node that took the node's place. -/
  | replaced {id new : NodeId} {later : Graph} {code : String}
      (chose : book.Chose graph id (.replaced later new)) (grows : later.Grows graph)
      (expresses : Expresses book view graph new code) : Expresses book view graph id code

section

variable {lowering : Lowering} (chose : book.Chose graph id lowering)

include chose

theorem RuleBook.Chose.mono {larger : Graph} (grows : graph.Grows larger) :
    book.Chose larger id lowering := by
  obtain ⟨earlier, grown, inside, lowered⟩ := chose
  exact ⟨earlier, grown.trans grows, inside, lowered⟩

theorem RuleBook.Chose.lt_size : id < graph.size := by
  obtain ⟨earlier, grown, inside, _⟩ := chose
  exact Nat.lt_of_lt_of_le inside grown.size

end

theorem Generator.getLast?_endLine (text : String) :
    (endLine text).toList.getLast? = some '\n' := by
  unfold endLine
  split
  · assumption
  · rw [String.toList_append, getLast?_append]
    rfl

/-- What is expressed stays expressed while drafts are written on and the graph grows. -/
theorem Expresses.mono {small large : View} {larger : Graph} {code : String}
    (expresses : Expresses book small graph id code) (wider : small.Extends large)
    (grows : graph.Grows larger) : Expresses book large larger id code := by
  have leafOf : ∀ {id payload}, (graph.node id).payload = payload → payload ≠ .none →
      (larger.node id).payload = payload := by
    intro id payload leaf some
    rw [grows.payload_eq (Graph.lt_size_of_payload (leaf ▸ some)), leaf]
  induction expresses with
  | named leaf => exact .named (leafOf leaf nofun)
  | literal leaf =>
    rw [← grows.format_eq (Graph.lt_size_of_payload (leaf ▸ nofun))]
    exact .literal (leafOf leaf nofun)
  | constant leaf declared =>
    exact .constant (leafOf leaf nofun) (wider.declares _ _ declared)
  | table leaf declared => exact .table (leafOf leaf nofun) (wider.declares _ _ declared)
  | inline chose _ yields ih =>
    have inside := chose.lt_size
    rw [← grows.operands_eq inside] at ih yields
    rw [← grows.format_eq inside] at yields
    exact .inline (chose.mono grows) ih (yields.mono wider)
  | stored chose _ yields stores ih =>
    have inside := chose.lt_size
    rw [← grows.operands_eq inside] at ih yields
    rw [← grows.format_eq inside] at yields
    exact .stored (chose.mono grows) ih (yields.mono wider)
      (wider.stores _ _ (View.getLast?_assignment _ _) stores)
  | written chose _ yields stores ih =>
    have inside := chose.lt_size
    rw [← grows.operands_eq inside] at ih yields
    rw [← grows.format_eq inside] at yields
    exact .written (chose.mono grows) ih (yields.mono wider)
      (wider.stores _ _ (Generator.getLast?_endLine _) stores)
  | replaced chose later _ ih => exact .replaced (chose.mono grows) (later.trans grows) ih

end Retarget

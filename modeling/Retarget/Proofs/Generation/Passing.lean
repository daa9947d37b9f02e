import Retarget.Generation.Function
import Retarget.Proofs.Generation.Expressing

/-!
# Generation step by step

Whatever generation does is put together from a few steps: to write a text, to name something, to
open and close scopes, and to keep records. `Passes` follows an action along its steps: a property
holds after each of them, and every text that is written is legible (`Legible`), so that all names
in it that generation made up are in scope and defined. The property of interest is `InScope`: each
open scope has one memo, and the codes in it are expressed over what that scope can name.
-/

namespace Retarget

open List

/-- A template that another one is made of. -/
inductive Template.Part : Template → Template → Prop where
  | whole (template : Template) : Part template template
  | nested {part inner : Template} {form : Form} {arguments : List TemplateArgument}
      (member : .nested inner ∈ arguments) (within : Part part inner) :
      Part part (.applied form arguments)

/-- The template without a temporary for its own value. -/
def Template.inPlace (template : Template) : Template :=
  template.mapForm fun form => { form with materialized := false }

/-- Each memo belongs to one draft, and the codes in it are expressed over that draft and those
around it. -/
structure Expressed (book : RuleBook) (graph : Graph) (tables : NameTables) (memos : List Memo)
    (drafts : List Draft) : Prop where
  length : memos.length = drafts.length
  codes : ∀ level memo, memos[level]? = some memo → ∀ id code, memo.get? id = some code →
    Expresses book ⟨tables, drafts.drop level⟩ graph id code

namespace Expressed

variable {book : RuleBook} {graph : Graph} {tables : NameTables} {memo : Memo}
  {memos : List Memo} {draft : Draft} {drafts : List Draft}

theorem mono (expressed : Expressed book graph tables memos drafts) {larger : Graph}
    {after : NameTables} {later : List Draft} (grows : graph.Grows larger)
    (bound : tables.Persist after) (continued : List.Forall₂ Draft.Continues drafts later) :
    Expressed book larger after memos later where
  length := expressed.length.trans continued.length_eq
  codes level memo here id code known :=
    (expressed.codes level memo here id code known).mono
      (.of_continues bound (forall₂_drop level continued)) grows

theorem tail (expressed : Expressed book graph tables (memo :: memos) (draft :: drafts)) :
    Expressed book graph tables memos drafts where
  length := Nat.succ.inj expressed.length
  codes level memo here := expressed.codes (level + 1) memo here

/-- A new scope knows no codes of its own. -/
theorem push (expressed : Expressed book graph tables memos drafts) (draft : Draft) :
    Expressed book graph tables (OrderedMap.empty :: memos) (draft :: drafts) where
  length := congrArg Nat.succ expressed.length
  codes level memo here id code known := by
    cases level with
    | zero =>
      cases here
      cases known
    | succ level => exact expressed.codes level memo here id code known

/-- Where nothing is known, everything that is known is expressed. -/
theorem fresh (single : drafts.length = 1) :
    Expressed book graph tables [OrderedMap.empty] drafts := by
  obtain ⟨draft, rfl⟩ := length_eq_one_iff.mp single
  have nothing : Expressed book graph tables [] [] := ⟨rfl, fun _ _ here => by cases here⟩
  exact nothing.push draft

theorem insert (expressed : Expressed book graph tables (memo :: memos) drafts) {id : NodeId}
    {code : String} (expresses : Expresses book ⟨tables, drafts⟩ graph id code) :
    Expressed book graph tables (memo.insert id code :: memos) drafts where
  length := expressed.length
  codes level known here other result found := by
    cases level with
    | zero =>
      cases here
      rcases OrderedMap.eq_or_get?_of_get?_insert found with ⟨rfl, rfl⟩ | old
      · exact expresses
      · exact expressed.codes 0 memo rfl other result old
    | succ level => exact expressed.codes (level + 1) known here other result found

/-- What an outer scope expresses is expressed in the scopes inside it too. -/
theorem expresses (expressed : Expressed book graph tables memos drafts) {id : NodeId}
    {code : String} (known : memos.findSome? (fun memo => memo.get? id) = some code) :
    Expresses book ⟨tables, drafts⟩ graph id code := by
  obtain ⟨memo, member, found⟩ := exists_of_findSome?_eq_some known
  obtain ⟨level, here⟩ := mem_iff_getElem?.mp member
  exact (expressed.codes level memo here id code found).mono
    (.of_suffix (drop_suffix level drafts)) (.refl graph)

end Expressed

namespace Generator

/-- What may be named in the innermost scope. -/
def view (generator : Generator) : View :=
  ⟨generator.document.names.tables, generator.document.drafts⟩

/-- A code stands for a node in the innermost scope. -/
def Expresses (job : Job) (generator : Generator) (id : NodeId) (code : String) : Prop :=
  Retarget.Expresses job.book generator.view generator.graph id code

/-- Each open scope has one memo, and the codes in it name only what the scope can name. -/
def InScope (job : Job) (generator : Generator) : Prop :=
  Expressed job.book generator.graph generator.document.names.tables generator.levels
    generator.document.drafts

/-- A node has a template, and its operands have codes. -/
structure Prepared (job : Job) (generator : Generator) (id : NodeId) (template : Template)
    (codes : NodeId → String) : Prop where
  chose : job.book.Chose generator.graph id (.template template)
  operands : ∀ operand ∈ (generator.graph.node id).operands,
    generator.Expresses job operand (codes operand)

/-- A text in which all names that generation made up are in scope and defined: apart from blanks
and the heads of functions, it is put together from the codes of nodes, or stores such a code in a
declared temporary. -/
inductive Legible (job : Job) (generator : Generator) : String → Prop where
  | blank : Legible job generator "\n"
  | head (function : Function) : Legible job generator (cHead function)
  | result {id : NodeId} {code : String} (expresses : generator.Expresses job id code) :
      Legible job generator ("return " ++ code ++ ";\n")
  | condition {id : NodeId} {code : String} (expresses : generator.Expresses job id code) :
      Legible job generator ("if (" ++ code ++ ") ")
  /-- A part of a node's template goes to a temporary. -/
  | assignment {id : NodeId} {template part : Template} {codes : NodeId → String}
      {format : Format} {name code : String} (prepared : generator.Prepared job id template codes)
      (within : part.Part template) (declared : generator.view.Declares .variable name)
      (yields : generator.view.Yields part.inPlace
        ((generator.graph.node id).operands.map codes) none format code) :
      Legible job generator (Language.c.assignment name code false)
  /-- A node's template stores the value itself. -/
  | statement {id : NodeId} {template : Template} {codes : NodeId → String} {name code : String}
      (prepared : generator.Prepared job id template codes)
      (declared : generator.view.Declares .variable name)
      (yields : generator.view.Yields template ((generator.graph.node id).operands.map codes)
        (some name) (generator.graph.node id).format code) :
      Legible job generator (endLine code)

/-- The steps of generation that write no statement. -/
inductive Primitive : {α : Type} → GeneratorM α → Prop where
  | records {α : Type} (change : Generator → α × Generator)
      (same : ∀ generator, (change generator).2.document = generator.document) :
      Primitive (modifyGet change)
  | header (header : String) : Primitive (onDocument (Document.addHeader header))
  | library (library : String) : Primitive (onDocument (Document.addLibrary library))
  | names {α : Type} (action : NamingM α) : Primitive (onNames action)
  | temporary (stem : String) (format : Format) :
      Primitive (onDocument (Document.declareTemporary stem format))
  | opens : Primitive openScope
  | closes : Primitive closeScope
  | links (transition : String) : Primitive (linkScope transition)

/-- An action that is put together from steps: it writes only legible texts, and a property holds
after each step. -/
inductive Passes (job : Job) (holds : Generator → Prop) :
    {α : Type} → GeneratorM α → Generator → Prop where
  | pure {α : Type} (value : α) (generator : Generator) :
      Passes job holds (Pure.pure value : GeneratorM α) generator
  | throw {α : Type} (fault : Fault) (generator : Generator) :
      Passes job holds (throw fault : GeneratorM α) generator
  | get (generator : Generator) : Passes job holds MonadState.get generator
  | write {text : String} {generator : Generator} (legible : Legible job generator text)
      (held : ∀ after, write text generator = .ok () after → holds after) :
      Passes job holds (write text) generator
  | step {α : Type} {action : GeneratorM α} {generator : Generator} (primitive : Primitive action)
      (held : ∀ value after, action generator = .ok value after → holds after) :
      Passes job holds action generator
  | bind {α β : Type} {action : GeneratorM α} {next : α → GeneratorM β} {generator : Generator}
      (first : Passes job holds action generator)
      (rest : ∀ value after, action generator = .ok value after →
        Passes job holds (next value) after) :
      Passes job holds (action >>= next) generator

end Generator

end Retarget

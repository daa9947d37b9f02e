import Retarget.Proofs.Source.Phrases

/-!
# Written programs read back

However the lines of a written program are laid out, reading them gives the program that it stands
for (`read_layout`). Blocks are read by induction on the tree: a block read inside of any open
function leaves the function as it was, but for the names and statements that the block adds
(`Block.adds`).
-/

namespace Retarget.Source

open List

variable {remark margin : List Char} {known : List String} {definition : Definition} {block : Block}
  {names : List (String × NodeId)}

open Text (Trimmed)

/-! ## Layout -/

/-- The marks of lines. -/
def lineMarks : List Char := [' ', ',', '[', ']', '=', ':', '@', '(', ')']

/-- A line that white space and comments around it do not change. -/
structure IsContent (line : List Char) : Prop where
  some : line ≠ []
  trimmed : Trimmed line
  drawn : Drawn lineMarks line

theorem content_remark {text : List Char} (free : ';' ∉ text) (comment : IsRemark remark) :
    content (text ++ remark) = Text.trim text := by
  rcases comment with rfl | ⟨words, rfl, _⟩
  · rw [append_nil, content, Text.cutFirst?_mark_eq_none free]
  · rw [content, Text.cutFirst?_mark free]

theorem IsMargin.blank (blank : IsMargin margin) : ∀ c ∈ margin, Text.isBlank c = true :=
  fun c member => (blank c member).1

theorem IsMargin.notMem (blank : IsMargin margin) : ';' ∉ margin := by
  intro member
  have visible : Text.isBlank ';' = false := by decide
  rw [(blank ';' member).1] at visible
  cases visible

theorem content_blank (blank : IsMargin margin) (comment : IsRemark remark) :
    content (margin ++ remark) = [] := by
  have padded := Text.trim_pad blank.blank [] (forall_mem_nil _)
  rw [append_nil, append_nil] at padded
  rw [content_remark blank.notMem comment, padded]
  rfl

theorem content_line {left line right : List Char} (isContent : IsContent line)
    (before : IsMargin left) (after : IsMargin right) (comment : IsRemark remark) :
    content (left ++ line ++ right ++ remark) = line := by
  have free : ';' ∉ left ++ line ++ right := by
    have inner := isContent.drawn.notMem (show isNameCharacter ';' = false by decide) (by decide)
    simp [before.notMem, inner, after.notMem]
  rw [content_remark free comment, Text.trim_pad before.blank _ after.blank,
    isContent.trimmed.trim_eq]

theorem Shows.newline_notMem {raws contents : List (List Char)} (shows : Shows raws contents)
    (isContent : ∀ line ∈ contents, IsContent line) : ∀ raw ∈ raws, '\n' ∉ raw := by
  have margin {text : List Char} (blank : IsMargin text) : '\n' ∉ text :=
    fun member => (blank '\n' member).2 rfl
  have remark {text : List Char} (comment : IsRemark text) : '\n' ∉ text := by
    rcases comment with rfl | ⟨words, rfl, absent⟩
    · exact not_mem_nil
    · simpa using absent
  induction shows with
  | nil => exact forall_mem_nil _
  | skip blank comment _ ih =>
    exact forall_mem_cons.mpr ⟨by simp [margin blank, remark comment], ih isContent⟩
  | line content before after comment _ ih =>
    obtain ⟨here, later⟩ := forall_mem_cons.mp isContent
    have inner := here.drawn.notMem (show isNameCharacter '\n' = false by decide) (by decide)
    exact forall_mem_cons.mpr
      ⟨by simp [margin before, inner, margin after, remark comment], ih later⟩

/-- The lines of a text that shows some lines are these. -/
theorem Layout.lines_eq {contents : List (List Char)} {text : String}
    (layout : Layout contents text) (isContent : ∀ line ∈ contents, IsContent line) :
    (lines text).map Line.text = contents := by
  obtain ⟨raws, some, shows, joined⟩ := layout
  rw [lines, joined, Text.splitAt_intercalate some (shows.newline_notMem isContent)]
  clear some joined
  generalize 1 = number
  induction shows generalizing number with
  | nil => rfl
  | skip blank comment _ ih =>
    rw [zipIdx_cons, filterMap_cons]
    simp only [content_blank blank comment, isEmpty_nil, if_true]
    exact ih isContent (number + 1)
  | line content before after comment _ ih =>
    obtain ⟨here, later⟩ := forall_mem_cons.mp isContent
    have shown := content_line here before after comment
    have some : content.isEmpty = false := isEmpty_eq_false_iff.mpr here.some
    rw [zipIdx_cons, filterMap_cons]
    simp only [shown, some, Bool.false_eq_true, if_false, map_cons]
    rw [ih later (number + 1)]

/-! ## Lines with content -/

/-- The first and the last word of a line keep white space away from its ends. -/
theorem IsContent.of_words {first last : List Char} (start : Plain first) (some : first ≠ [])
    {middle : List Char} (drawn : Drawn lineMarks middle) (close : Plain last) (full : last ≠ []) :
    IsContent (first ++ middle ++ last) where
  some := append_ne_nil_of_right_ne_nil _ full
  trimmed := start.trimmed.join some middle close.trimmed full
  drawn := ((start.drawn _).append drawn).append (close.drawn _)

theorem content_assignment {assignment : Assignment} (valid : assignment.Valid known)
    (named : ∀ name ∈ known, IsName name) : IsContent assignment.line := by
  obtain ⟨name, expression, format, tag⟩ := assignment
  obtain ⟨isName, _, readable, tagged, valid⟩ := valid
  have plain := plain_valueText isName
  have formatName := plain_formatName readable
  have full : format.name.toList ≠ [] :=
    Format.name_ne_nil (Format.admissible_of_readable readable)
  have inner : Drawn lineMarks expression.text := (drawn_expression valid named).mono (by decide)
  have middle : Drawn lineMarks (" = ".toList ++ expression.text ++ " : ".toList) :=
    (Drawn.append (by decide) inner).append (by decide)
  cases tag with
  | none =>
    have shape : Assignment.line { name, expression, format, tag := none } =
        valueText name ++ (" = ".toList ++ expression.text ++ " : ".toList) ++
          format.name.toList := by
      unfold Assignment.line
      simp
    rw [shape]
    exact .of_words plain (cons_ne_nil _ _) middle formatName full
  | some tag =>
    have isTag := tagged tag rfl
    have shape : Assignment.line { name, expression, format, tag := some tag } =
        valueText name ++ (" = ".toList ++ expression.text ++ " : ".toList ++
          format.name.toList ++ " @".toList) ++ tag.toList := by
      unfold Assignment.line
      simp
    rw [shape]
    exact .of_words plain (cons_ne_nil _ _)
      ((middle.append (formatName.drawn _)).append (by decide)) isTag.plain isTag.ne_nil

theorem content_result {value : String} (named : IsName value) : IsContent (resultLine value) :=
  .of_words (show Plain "return".toList by decide) (by decide)
    (show Drawn lineMarks [' '] by decide) (plain_valueText named) (cons_ne_nil _ _)

theorem content_condition {condition : String} (named : IsName condition) :
    IsContent (conditionLine condition) := by
  have shape : conditionLine condition =
      "if".toList ++ ([' '] ++ valueText condition ++ [' ']) ++ ['\x7b'] := by
    unfold conditionLine
    simp
  have middle : Drawn lineMarks ([' '] ++ valueText condition ++ [' ']) :=
    (Drawn.append (by decide) ((plain_valueText named).drawn _)).append (by decide)
  rw [shape]
  exact .of_words (by decide) (by decide) middle (by decide) (by decide)

theorem content_close : IsContent "\x7d".toList :=
  ⟨by decide, .of_forall (by decide), by decide⟩

theorem content_else : IsContent "\x7d else \x7b".toList :=
  ⟨by decide, ⟨by decide, by decide⟩, by decide⟩

theorem content_header (valid : definition.Valid) : IsContent definition.header := by
  have parameters : Drawn lineMarks (listed (definition.parameters.map parameterText)) := by
    apply Drawn.listed (by decide) (by decide)
    intro part member
    obtain ⟨parameter, known, rfl⟩ := mem_map.mp member
    exact (drawn_parameter (valid.parameters parameter known)).mono (by decide)
  have middle : Drawn lineMarks ([' '] ++ definition.name.toList ++ "(".toList ++
      listed (definition.parameters.map parameterText) ++ ") -> ".toList ++
        definition.result.name.toList ++ [' ']) := by
    have start : Drawn lineMarks [' '] := by decide
    exact (((((start.append (valid.name.plain.drawn _)).append (by decide)).append
      parameters).append (by decide)).append ((plain_formatName valid.result).drawn _)).append
        (by decide)
  have shape : definition.header = "func".toList ++ ([' '] ++ definition.name.toList ++ "(".toList ++
      listed (definition.parameters.map parameterText) ++ ") -> ".toList ++
        definition.result.name.toList ++ [' ']) ++ ['\x7b'] := by
    unfold Definition.header
    simp
  rw [shape]
  exact .of_words (by decide) (by decide) middle (by decide) (by decide)

theorem Block.isName_names (valid : block.Valid known) : ∀ name ∈ block.names, IsName name := by
  induction block generalizing known with
  | done => exact forall_mem_nil _
  | assign assignment rest ih =>
    exact forall_mem_cons.mpr ⟨valid.1.name, ih valid.2⟩
  | result value rest ih => exact ih valid.2
  | branch condition body rest body_ih rest_ih =>
    exact forall_mem_append.mpr ⟨body_ih valid.2.1, rest_ih valid.2.2⟩
  | choice condition first second rest first_ih second_ih rest_ih =>
    obtain ⟨_, inFirst, inSecond, inRest⟩ := valid
    exact forall_mem_append.mpr
      ⟨forall_mem_append.mpr ⟨first_ih inFirst, second_ih inSecond⟩, rest_ih inRest⟩

/-- The names after a block are names if those before it are. -/
theorem Block.isName_after (valid : block.Valid known) (named : ∀ name ∈ known, IsName name) :
    ∀ name ∈ block.names ++ known, IsName name :=
  forall_mem_append.mpr ⟨isName_names valid, named⟩

theorem Block.content_lines (valid : block.Valid known) (named : ∀ name ∈ known, IsName name) :
    ∀ line ∈ block.lines, IsContent line := by
  induction block generalizing known with
  | done => exact forall_mem_nil _
  | assign assignment rest ih =>
    obtain ⟨here, later⟩ := valid
    exact forall_mem_cons.mpr
      ⟨content_assignment here named, ih later (forall_mem_cons.mpr ⟨here.name, named⟩)⟩
  | result value rest ih =>
    exact forall_mem_cons.mpr ⟨content_result (named value valid.1), ih valid.2 named⟩
  | branch condition body rest body_ih rest_ih =>
    obtain ⟨used, inBody, inRest⟩ := valid
    have after := isName_after inBody named
    exact forall_mem_cons.mpr ⟨content_condition (named condition used),
      forall_mem_append.mpr ⟨body_ih inBody named,
        forall_mem_cons.mpr ⟨content_close, rest_ih inRest after⟩⟩⟩
  | choice condition first second rest first_ih second_ih rest_ih =>
    obtain ⟨used, inFirst, inSecond, inRest⟩ := valid
    have between := isName_after inFirst named
    have after := isName_after inSecond between
    have opening : ∀ line ∈ conditionLine condition :: first.lines, IsContent line :=
      forall_mem_cons.mpr ⟨content_condition (named condition used), first_ih inFirst named⟩
    have middle : ∀ line ∈ "\x7d else \x7b".toList :: second.lines, IsContent line :=
      forall_mem_cons.mpr ⟨content_else, second_ih inSecond between⟩
    have closing : ∀ line ∈ "\x7d".toList :: rest.lines, IsContent line :=
      forall_mem_cons.mpr ⟨content_close, rest_ih inRest after⟩
    exact forall_mem_append.mpr ⟨forall_mem_append.mpr ⟨opening, middle⟩, closing⟩

/-! ## Blocks -/

/-- Lines with these texts, whatever their numbers are, take the reader to a state. -/
def Takes (reader : Reader) (texts : List (List Char)) (next : Reader) : Prop :=
  ∀ lines : List Line, lines.map Line.text = texts →
    lines.foldlM Reader.readLine reader = .ok next

namespace Takes

variable {reader next : Reader} {text : List Char} {texts : List (List Char)}

theorem nil (reader : Reader) : Takes reader [] reader := by
  intro lines same
  rw [map_eq_nil_iff.mp same]
  rfl

theorem cons {middle : Nat → Reader}
    (first : ∀ number, reader.readLine ⟨number, text⟩ = .ok (middle number))
    (later : ∀ number, Takes (middle number) texts next) : Takes reader (text :: texts) next := by
  intro lines same
  obtain ⟨⟨number, _⟩, rest, rfl, rfl, others⟩ := map_eq_cons_iff.mp same
  rw [foldlM_cons, first number]
  exact later number rest others

theorem append {middle : Reader} {front : List (List Char)} (first : Takes reader front middle)
    (later : Takes middle texts next) : Takes reader (front ++ texts) next := by
  intro lines same
  obtain ⟨before, after, rfl, front, back⟩ := map_eq_append_iff.mp same
  rw [foldlM_append, first before front]
  exact later after back

end Takes

/-- The reader inside of a function. -/
def inside (graph : Graph) (functions : List Function) (function : OpenFunction) : Reader where
  program := { graph, functions }
  current := some function

section Lines

variable {statements : List NodeId} {graph : Graph} {functions : List Function}
  {function : OpenFunction} {names : List (String × NodeId)} {id : NodeId}

theorem readLine_assignment {assignment : Assignment} {known : List String}
    (valid : assignment.Valid known) (named : ∀ name ∈ known, IsName name)
    (agrees : Agrees function.values names) (new : function.values.get? assignment.name = none)
    {node : Node}
    (stands : assignment.expression.node? names assignment.format assignment.tag = some node)
    (number : Nat) :
    (inside graph functions function).readLine ⟨number, assignment.line⟩ =
      .ok (inside (graph.add node).1 functions
        { function with values := function.values.insert assignment.name graph.size }) := by
  have read : readAssignment number function.values graph assignment.line = _ :=
    readAssignment_line valid named agrees new stands number
  obtain ⟨rest, shape⟩ : ∃ rest, assignment.line = '%' :: rest := by
    unfold Assignment.line valueText
    simp only [cons_append]
    exact ⟨_, rfl⟩
  rw [shape] at read ⊢
  have notClose : '%' :: rest ≠ "\x7d".toList := by simp
  have notElse : '%' :: rest ≠ "\x7d else \x7b".toList := by simp
  have notReturn : Text.after? "return ".toList ('%' :: rest) = none := by
    simp [Text.after?, List.isPrefixOf?]
  have notIf : Text.after? "if ".toList ('%' :: rest) = none := by
    simp [Text.after?, List.isPrefixOf?]
  unfold Reader.readLine inside
  simp only [Reader.readStatement, if_neg notClose, if_neg notElse, notReturn, notIf,
    head?_cons, if_true, read]
  rfl

theorem readLine_result {value : String} (agrees : Agrees function.values names)
    (named : IsName value) (found : names.lookup value = some id) (number : Nat) :
    (inside graph functions function).readLine ⟨number, resultLine value⟩ =
      .ok (inside (graph.add { operation := .ret, operands := [id], format := .void }).1 functions
        { function with statements := graph.size :: function.statements }) := by
  have notClose : resultLine value ≠ "\x7d".toList := by
    unfold resultLine
    simp
  have notElse : resultLine value ≠ "\x7d else \x7b".toList := by
    unfold resultLine
    simp
  have isReturn : Text.after? "return ".toList (resultLine value) = some (valueText value) :=
    Text.after?_append _ _
  unfold Reader.readLine inside
  simp only [Reader.readStatement, if_neg notClose, if_neg notElse, isReturn, Reader.readReturn,
    (plain_valueText named).trimmed.trim_eq, lookup_valueText agrees found number]
  rfl

theorem readLine_condition {condition : String} (agrees : Agrees function.values names)
    (named : IsName condition) (found : names.lookup condition = some id) (number : Nat) :
    (inside graph functions function).readLine ⟨number, conditionLine condition⟩ =
      .ok (inside graph functions
        { function with
          statements := []
          conditions :=
            { line := number, condition := id, thenBranch := none
              before := function.statements } :: function.conditions }) := by
  have notClose : conditionLine condition ≠ "\x7d".toList := by
    unfold conditionLine
    simp
  have notElse : conditionLine condition ≠ "\x7d else \x7b".toList := by
    unfold conditionLine
    simp
  have notReturn : Text.after? "return ".toList (conditionLine condition) = none := by
    unfold conditionLine
    simp [Text.after?, List.isPrefixOf?]
  have isIf : Text.after? "if ".toList (conditionLine condition) =
      some (valueText condition ++ [' '] ++ ['\x7b']) := by
    rw [Text.after?_eq_some]
    unfold conditionLine
    simp
  unfold Reader.readLine inside
  simp only [Reader.readStatement, if_neg notClose, if_neg notElse, notReturn, isIf,
    Reader.openCondition, Text.before?_append, trim_append_space (plain_valueText named).trimmed,
    lookup_valueText agrees found number]
  rfl

/-- The statements of a block are read in their order and kept in the opposite one. -/
theorem sequence_reverse (graph : Graph) (statements : List NodeId) :
    sequence graph statements.reverse = addBlock graph statements := by
  match statements with
  | [] => rfl
  | [_] => rfl
  | first :: second :: rest =>
    unfold sequence
    split
    · rename_i single
      have count := congrArg List.length single
      simp at count
    · rw [reverse_reverse]
      rfl

theorem readLine_close {condition : OpenCondition} {conditions : List OpenCondition}
    (listed : function.conditions = condition :: conditions)
    (read : function.statements = statements.reverse) (number : Nat) :
    (inside graph functions function).readLine ⟨number, "\x7d".toList⟩ =
      .ok (inside ((addBlock graph statements).1.add
          { operation := .condition
            operands := condition.condition ::
              (condition.thenBranch.toList ++ [(addBlock graph statements).2])
            format := .void }).1 functions
        { function with
          statements := (addBlock graph statements).1.size :: condition.before, conditions }) := by
  unfold Reader.readLine inside
  simp only [Reader.readStatement, if_true, Reader.closeBlock, listed, read, sequence_reverse]
  cases condition.thenBranch <;> rfl

theorem readStatement_else {reader : Reader} {line : Line} (notClose : line.text ≠ "\x7d".toList)
    (isElse : line.text = "\x7d else \x7b".toList) :
    reader.readStatement function line = reader.switchBranch function := by
  unfold Reader.readStatement
  rw [if_neg notClose, if_pos isElse]

theorem readLine_else {condition : OpenCondition} {conditions : List OpenCondition}
    (listed : function.conditions = condition :: conditions) (first : condition.thenBranch = none)
    (read : function.statements = statements.reverse) (number : Nat) :
    (inside graph functions function).readLine ⟨number, "\x7d else \x7b".toList⟩ =
      .ok (inside (addBlock graph statements).1 functions
        { function with
          statements := []
          conditions :=
            { condition with thenBranch := some (addBlock graph statements).2 } :: conditions }) := by
  have switches : (inside graph functions function).readLine ⟨number, "\x7d else \x7b".toList⟩ =
      (inside graph functions function).switchBranch function :=
    readStatement_else (show "\x7d else \x7b".toList ≠ "\x7d".toList by decide) rfl
  rw [switches]
  unfold Reader.switchBranch inside
  simp only [listed, first, read, sequence_reverse]

theorem readLine_end (outermost : function.conditions = [])
    (read : function.statements = statements.reverse) (number : Nat) :
    (inside graph functions function).readLine ⟨number, "\x7d".toList⟩ =
      .ok { program :=
              { graph := (addBlock graph statements).1
                functions := functions ++
                  [{ name := function.name, arguments := function.arguments,
                     result := function.result, body := (addBlock graph statements).2 }] }
            current := none } := by
  unfold Reader.readLine inside
  simp only [Reader.readStatement, if_true, Reader.closeBlock, outermost, read, sequence_reverse]

end Lines

/-- The known names are those that have a node. -/
def Scope (known : List String) (names : List (String × NodeId)) : Prop :=
  ∀ name, name ∈ known ↔ (names.lookup name).isSome = true

theorem Scope.exists_lookup {name : String} (scope : Scope known names) (used : name ∈ known) :
    ∃ id, names.lookup name = some id :=
  Option.isSome_iff_exists.mp ((scope name).mp used)

theorem Scope.cons (scope : Scope known names) (name : String) (id : NodeId) :
    Scope (name :: known) ((name, id) :: names) := by
  intro other
  by_cases same : other = name
  · simp [same]
  · have apart : (other == name) = false := beq_eq_false_iff_ne.mpr same
    rw [mem_cons, lookup_cons, apart, or_iff_right same]
    exact scope other

theorem Agrees.insert {values : OrderedMap String NodeId} (agrees : Agrees values names)
    (name : String) (id : NodeId) : Agrees (values.insert name id) ((name, id) :: names) := by
  intro other
  rw [OrderedMap.get?_insert, lookup_cons]
  by_cases same : name = other
  · simp [same]
  · have apart : (other == name) = false := beq_eq_false_iff_ne.mpr (Ne.symm same)
    rw [if_neg same, apart]
    exact agrees other

theorem exists_mapM_lookup (scope : Scope known names) {operands : List String}
    (used : ∀ operand ∈ operands, operand ∈ known) :
    ∃ ids, (operands.mapM fun operand => names.lookup operand) = some ids := by
  induction operands with
  | nil => exact ⟨[], rfl⟩
  | cons operand rest ih =>
    obtain ⟨here, later⟩ := forall_mem_cons.mp used
    obtain ⟨id, found⟩ := scope.exists_lookup here
    obtain ⟨ids, others⟩ := ih later
    exact ⟨id :: ids, by simp [found, others]⟩

theorem Assignment.Valid.exists_node {assignment : Assignment} (valid : assignment.Valid known)
    (scope : Scope known names) :
    ∃ node, assignment.expression.node? names assignment.format assignment.tag = some node := by
  have inner := valid.expression
  cases shape : assignment.expression with
  | constant value => exact ⟨_, rfl⟩
  | table entries => exact ⟨_, rfl⟩
  | compute operation specifier operands =>
    rw [shape] at inner
    obtain ⟨ids, found⟩ := exists_mapM_lookup scope inner.2.2
    rw [Expression.node?, found]
    exact ⟨_, rfl⟩

/-- Read inside of any function with the given names, the lines add nodes, names and statements, and
leave the rest of the function as it is. -/
def Adds (graph : Graph) (names : List (String × NodeId)) (texts : List (List Char))
    (larger : Graph) (after : List (String × NodeId)) (statements : List NodeId) : Prop :=
  ∀ values, Agrees values names → ∃ known, Agrees known after ∧
    ∀ functions (function : OpenFunction), function.values = values →
      Takes (inside graph functions function) texts
        (inside larger functions
          { function with
            values := known
            statements := statements.reverse ++ function.statements })

namespace Adds

variable {graph middle larger : Graph} {names between after : List (String × NodeId)}
  {texts inner : List (List Char)} {statements parts : List NodeId} {id : NodeId}

theorem nil (graph : Graph) (names : List (String × NodeId)) : Adds graph names [] graph names [] := by
  intro values agrees
  refine ⟨values, agrees, fun functions function same => ?_⟩
  subst same
  exact .nil _

theorem assign {assignment : Assignment} {known : List String} (valid : assignment.Valid known)
    (named : ∀ name ∈ known, IsName name) (scope : Scope known names) {node : Node}
    (stands : assignment.expression.node? names assignment.format assignment.tag = some node)
    (rest : Adds (graph.add node).1 ((assignment.name, graph.size) :: names) texts larger after
      statements) :
    Adds graph names (assignment.line :: texts) larger after statements := by
  intro values agrees
  have new : values.get? assignment.name = none := by
    rw [agrees, ← Option.not_isSome_iff_eq_none]
    exact fun found => valid.new ((scope _).mpr found)
  obtain ⟨known, agreed, reads⟩ := rest _ (agrees.insert assignment.name graph.size)
  refine ⟨known, agreed, fun functions function same => ?_⟩
  subst same
  exact .cons (readLine_assignment valid named agrees new stands) fun _ => reads functions _ rfl

theorem result {value : String} (named : IsName value) (found : names.lookup value = some id)
    (rest : Adds (graph.add { operation := .ret, operands := [id], format := .void }).1 names texts
      larger after statements) :
    Adds graph names (resultLine value :: texts) larger after (graph.size :: statements) := by
  intro values agrees
  obtain ⟨known, agreed, reads⟩ := rest values agrees
  refine ⟨known, agreed, fun functions function same => ?_⟩
  subst same
  rw [reverse_cons, append_assoc]
  exact .cons (readLine_result agrees named found) fun _ => reads functions _ rfl

section

variable {condition : String} (named : IsName condition) (found : names.lookup condition = some id)

include named found

theorem branch (body : Adds graph names inner middle between parts)
    (rest : Adds ((addBlock middle parts).1.add
        { operation := .condition, operands := [id, (addBlock middle parts).2], format := .void }).1
      between texts larger after statements) :
    Adds graph names (conditionLine condition :: inner ++ "\x7d".toList :: texts) larger after
      ((addBlock middle parts).1.size :: statements) := by
  intro values agrees
  obtain ⟨known, agreed, readsBody⟩ := body values agrees
  obtain ⟨known, agreed, readsRest⟩ := rest known agreed
  refine ⟨known, agreed, fun functions function same => ?_⟩
  subst same
  rw [reverse_cons, append_assoc]
  refine .cons (readLine_condition agrees named found) fun _ => ?_
  refine .append (readsBody functions _ rfl) ?_
  exact .cons (readLine_close rfl (append_nil _)) fun _ => readsRest functions _ rfl

theorem choice {second : List (List Char)} {both : Graph} {joined : List (String × NodeId)}
    {others : List NodeId} (onFirst : Adds graph names inner middle between parts)
    (onSecond : Adds (addBlock middle parts).1 between second both joined others)
    (rest : Adds ((addBlock both others).1.add
      { operation := .condition
        operands := [id, (addBlock middle parts).2, (addBlock both others).2]
        format := .void }).1 joined texts larger after statements) :
    Adds graph names
      (conditionLine condition :: inner ++ "\x7d else \x7b".toList :: second ++
        "\x7d".toList :: texts) larger after ((addBlock both others).1.size :: statements) := by
  intro values agrees
  obtain ⟨known, agreed, readsFirst⟩ := onFirst values agrees
  obtain ⟨known, agreed, readsSecond⟩ := onSecond known agreed
  obtain ⟨known, agreed, readsRest⟩ := rest known agreed
  refine ⟨known, agreed, fun functions function same => ?_⟩
  subst same
  rw [reverse_cons, append_assoc, append_assoc]
  refine .cons (readLine_condition agrees named found) fun _ => ?_
  refine .append (readsFirst functions _ rfl) ?_
  refine .cons (readLine_else rfl rfl (append_nil _)) fun _ => ?_
  refine .append (readsSecond functions _ rfl) ?_
  exact .cons (readLine_close rfl (append_nil _)) fun _ => readsRest functions _ rfl

end

end Adds

/-- A block that makes sense stands for nodes, names and statements, and its lines add these. -/
theorem Block.adds (valid : block.Valid known) (named : ∀ name ∈ known, IsName name)
    (graph : Graph) (scope : Scope known names) :
    ∃ larger after statements, block.build? graph names = some (larger, after, statements) ∧
      Scope (block.names ++ known) after ∧
      Adds graph names block.lines larger after statements := by
  induction block generalizing known graph names with
  | done => exact ⟨graph, names, [], rfl, scope, .nil graph names⟩
  | assign assignment rest ih =>
    obtain ⟨here, later⟩ := valid
    obtain ⟨node, stands⟩ := here.exists_node scope
    obtain ⟨larger, after, statements, built, inScope, adds⟩ :=
      ih later (forall_mem_cons.mpr ⟨here.name, named⟩) (graph.add node).1
        (scope.cons assignment.name graph.size)
    refine ⟨larger, after, statements, ?_, ?_, adds.assign here named scope stands⟩
    · exact Option.bind_eq_some_iff.mpr ⟨node, stands, built⟩
    · intro name
      rw [← inScope name]
      simp [Block.names, or_left_comm]
  | result value rest ih =>
    obtain ⟨used, later⟩ := valid
    obtain ⟨id, found⟩ := scope.exists_lookup used
    obtain ⟨larger, after, statements, built, inScope, adds⟩ :=
      ih later named (graph.add { operation := .ret, operands := [id], format := .void }).1 scope
    refine ⟨larger, after, _, ?_, inScope, adds.result (named value used) found⟩
    refine Option.bind_eq_some_iff.mpr ⟨id, found, ?_⟩
    exact Option.bind_eq_some_iff.mpr ⟨_, built, rfl⟩
  | branch condition body rest body_ih rest_ih =>
    obtain ⟨used, inBody, inRest⟩ := valid
    obtain ⟨id, found⟩ := scope.exists_lookup used
    obtain ⟨middle, between, parts, builtBody, scopeBody, addsBody⟩ := body_ih inBody named graph scope
    have namedBody := isName_after inBody named
    obtain ⟨larger, after, statements, built, inScope, adds⟩ :=
      rest_ih inRest namedBody
        ((addBlock middle parts).1.add
          { operation := .condition, operands := [id, (addBlock middle parts).2]
            format := .void }).1 scopeBody
    refine ⟨larger, after, _, ?_, ?_, addsBody.branch (named condition used) found adds⟩
    · refine Option.bind_eq_some_iff.mpr ⟨id, found, ?_⟩
      refine Option.bind_eq_some_iff.mpr ⟨_, builtBody, ?_⟩
      exact Option.bind_eq_some_iff.mpr ⟨_, built, rfl⟩
    · intro name
      rw [← inScope name]
      simp [Block.names, or_left_comm]
  | choice condition first second rest first_ih second_ih rest_ih =>
    obtain ⟨used, inFirst, inSecond, inRest⟩ := valid
    obtain ⟨id, found⟩ := scope.exists_lookup used
    obtain ⟨middle, between, parts, builtFirst, scopeFirst, addsFirst⟩ :=
      first_ih inFirst named graph scope
    have namedFirst := isName_after inFirst named
    obtain ⟨both, joined, others, builtSecond, scopeSecond, addsSecond⟩ :=
      second_ih inSecond namedFirst (addBlock middle parts).1 scopeFirst
    have namedSecond := isName_after inSecond namedFirst
    obtain ⟨larger, after, statements, built, inScope, adds⟩ :=
      rest_ih inRest namedSecond
        ((addBlock both others).1.add
          { operation := .condition
            operands := [id, (addBlock middle parts).2, (addBlock both others).2]
            format := .void }).1 scopeSecond
    refine ⟨larger, after, _, ?_, ?_,
      addsFirst.choice (named condition used) found addsSecond adds⟩
    · refine Option.bind_eq_some_iff.mpr ⟨id, found, ?_⟩
      refine Option.bind_eq_some_iff.mpr ⟨_, builtFirst, ?_⟩
      refine Option.bind_eq_some_iff.mpr ⟨_, builtSecond, ?_⟩
      exact Option.bind_eq_some_iff.mpr ⟨_, built, rfl⟩
    · intro name
      rw [← inScope name]
      simp [Block.names, or_left_comm]

/-! ## Definitions -/

theorem names_addParameters (graph : Graph) (parameters : List (String × Format)) :
    (addParameters graph parameters).2.map Argument.name = parameters.map Prod.fst := by
  induction parameters generalizing graph with
  | nil => rfl
  | cons parameter rest ih => exact congrArg (parameter.1 :: ·) (ih _)

/-- The names of arguments with their nodes. -/
def argumentNames (arguments : List Argument) : List (String × NodeId) :=
  arguments.map fun argument => (argument.name, argument.node)

theorem scope_arguments (arguments : List Argument) :
    Scope (arguments.map Argument.name) (argumentNames arguments) := by
  induction arguments with
  | nil =>
    intro name
    simp [argumentNames]
  | cons argument rest ih => exact ih.cons argument.name argument.node

theorem agrees_arguments {arguments : List Argument}
    (distinct : (arguments.map Argument.name).Nodup) {values : OrderedMap String NodeId}
    (agrees : Agrees values names) :
    Agrees (arguments.foldl (fun values a => values.insert a.name a.node) values)
      (argumentNames arguments ++ names) := by
  induction arguments generalizing values names with
  | nil => exact agrees
  | cons argument rest ih =>
    obtain ⟨new, others⟩ := nodup_cons.mp distinct
    have later := ih others (agrees.insert argument.name argument.node)
    intro other
    change _ = List.lookup other ((argument.name, argument.node) :: (argumentNames rest ++ names))
    rw [foldl_cons, later other, List.lookup_append, lookup_cons, lookup_cons,
      List.lookup_append]
    by_cases same : other = argument.name
    · have absent : (argumentNames rest).lookup other = none := by
        rw [← Option.not_isSome_iff_eq_none, ← scope_arguments rest other, same]
        exact new
      subst same
      simp [absent]
    · simp [beq_eq_false_iff_ne.mpr same]

section

variable (valid : definition.Valid)

include valid

theorem readLine_header (program : Program) (number : Nat) :
    Reader.readLine { program, current := none } ⟨number, definition.header⟩ =
      .ok (inside (addParameters program.graph definition.parameters).1 program.functions
        { line := number, name := definition.name
          arguments := (addParameters program.graph definition.parameters).2
          result := definition.result
          values := (addParameters program.graph definition.parameters).2.foldl
            (fun values a => values.insert a.name a.node) OrderedMap.empty
          statements := [], conditions := [] }) := by
  have isFunction : Text.after? "func ".toList definition.header = some definition.signature := by
    rw [Definition.header_eq]
    exact Text.after?_append _ _
  unfold Reader.readLine
  simp only [isFunction, readHeader_signature valid.name valid.parameters valid.result]
  rfl

theorem Definition.Valid.named : ∀ name ∈ definition.parameters.map Prod.fst, IsName name := by
  intro name member
  obtain ⟨parameter, known, rfl⟩ := mem_map.mp member
  exact (valid.parameters parameter known).1

/-- The lines of a definition that makes sense add the function that it stands for. -/
theorem Definition.takes (program : Program) :
    ∃ next, definition.build? program = some next ∧
      Takes { program, current := none } definition.lines { program := next, current := none } := by
  have same := names_addParameters program.graph definition.parameters
  have agrees := agrees_arguments (same ▸ valid.distinct)
    (show Agrees OrderedMap.empty [] from fun _ => rfl)
  rw [append_nil] at agrees
  obtain ⟨larger, after, statements, built, _, adds⟩ := Block.adds valid.body valid.named
    (addParameters program.graph definition.parameters).1 (same ▸ scope_arguments _)
  obtain ⟨known, _, reads⟩ := adds _ agrees
  refine ⟨_, Option.bind_eq_some_iff.mpr ⟨_, built, rfl⟩, ?_⟩
  refine .cons (readLine_header valid program) fun number => ?_
  refine .append (reads program.functions _ rfl) ?_
  exact .cons (readLine_end rfl (append_nil _)) fun _ => .nil _

theorem Definition.content_lines : ∀ line ∈ definition.lines, IsContent line := by
  refine forall_mem_append.mpr ⟨forall_mem_cons.mpr ⟨content_header valid, ?_⟩, ?_⟩
  · exact Block.content_lines valid.body valid.named
  · exact forall_mem_singleton.mpr content_close

end

/-! ## Programs -/

theorem takes_definitions {definitions : List Definition}
    (valid : ∀ definition ∈ definitions, definition.Valid) (program : Program) :
    ∃ next, definitions.foldlM Definition.build? program = some next ∧
      Takes { program, current := none } (definitions.flatMap Definition.lines)
        { program := next, current := none } := by
  induction definitions generalizing program with
  | nil => exact ⟨program, rfl, .nil _⟩
  | cons definition rest ih =>
    obtain ⟨here, later⟩ := forall_mem_cons.mp valid
    obtain ⟨middle, built, takes⟩ := Definition.takes here program
    obtain ⟨next, builtRest, takesRest⟩ := ih later middle
    refine ⟨next, ?_, takes.append takesRest⟩
    rw [foldlM_cons, built]
    exact builtRest

/-- Definitions that make sense stand for a program, and every layout of their lines reads as this
program. -/
theorem read_layout {definitions : List Definition}
    (valid : ∀ definition ∈ definitions, definition.Valid) {text : String}
    (layout : Layout (definitions.flatMap Definition.lines) text) :
    ∃ program, build? definitions = some program ∧ read text = .ok program := by
  obtain ⟨program, built, takes⟩ := takes_definitions valid {}
  have content : ∀ line ∈ definitions.flatMap Definition.lines, IsContent line := by
    intro line member
    obtain ⟨definition, known, inside⟩ := mem_flatMap.mp member
    exact Definition.content_lines (valid definition known) line inside
  refine ⟨program, built, ?_⟩
  have reads := takes (lines text) (layout.lines_eq content)
  unfold read
  simp only [reads]
  rfl

/-- A function with a conditional and a tagged constant. -/
def shortcut : Definition where
  name := "f"
  parameters := [("x", .bool)]
  result := .bool
  body :=
    .branch "x" (.result "x" .done)
      (.assign { name := "y", expression := .constant (.truth true), format := .bool, tag := "t" }
        (.result "y" .done))

/-- The lines of this function between blank lines, indented and with comments. -/
def shortcutText : String :=
  "; m\nfunc f(x: bool) -> bool \x7b\n\tif %x \x7b;c\n  return %x\t\n\x7d\n\n%y = const true : bool @t\n" ++
    "return %y\n\x7d\n"

theorem shortcut_valid : shortcut.Valid := by
  have readable : Format.Readable .bool := ⟨"bool".toList, by decide +kernel⟩
  have named : IsName "f" ∧ IsName "x" ∧ IsName "y" ∧ IsName "t" := by
    unfold IsName
    decide
  obtain ⟨f, x, y, t⟩ := named
  refine ⟨f, ?_, by decide, readable, ?_, ?_, ?_, ?_⟩
  · exact forall_mem_singleton.mpr ⟨x, readable⟩
  · exact mem_singleton.mpr rfl
  · exact ⟨mem_singleton.mpr rfl, trivial⟩
  · refine ⟨y, by decide, readable, ?_, rfl⟩
    intro tag same
    cases same
    exact t
  · exact ⟨mem_cons_self, trivial⟩

theorem shortcutText_layout : Layout shortcut.lines shortcutText := by
  have flush : IsMargin [] := forall_mem_nil _
  have tab : IsMargin ['\t'] := by
    unfold IsMargin
    decide
  have spaces : IsMargin [' ', ' '] := by
    unfold IsMargin
    decide
  have silent : IsRemark [] := .inl rfl
  have title : IsRemark "; m".toList := .inr ⟨" m".toList, rfl, by decide⟩
  have note : IsRemark ";c".toList := .inr ⟨"c".toList, rfl, by decide⟩
  have last := Shows.line "\x7d".toList flush flush silent (.skip flush silent .nil)
  have shows := Shows.skip flush title (.line shortcut.header flush flush silent
    (.line (conditionLine "x") tab flush note (.line (resultLine "x") spaces tab silent
      (.line "\x7d".toList flush flush silent (.skip flush silent
        (.line "%y = const true : bool @t".toList flush flush silent
          (.line (resultLine "y") flush flush silent last)))))))
  exact ⟨_, cons_ne_nil _ _, shows, by decide +kernel⟩

theorem read_layout_shortcut :
    (∀ definition ∈ [shortcut], definition.Valid) ∧
      Layout ([shortcut].flatMap Definition.lines) shortcutText ∧
      ∃ program, build? [shortcut] = some program ∧ read shortcutText = .ok program := by
  have valid : ∀ definition ∈ [shortcut], definition.Valid :=
    forall_mem_singleton.mpr shortcut_valid
  exact ⟨valid, shortcutText_layout, read_layout valid shortcutText_layout⟩

end Retarget.Source

import Retarget.Proofs.Source.Reading
import Retarget.Proofs.Source.Spelling

/-!
# Lines read back

The right sides of assignments, and the lines of assignments, results, conditionals and definitions,
are read as what they were written for.
-/

namespace Retarget

open List

theorem Operation.ofName?_name (operation : Operation) :
    Operation.ofName? operation.name = some operation := by
  have found : ∀ operation ∈ Operation.all, Operation.ofName? operation.name = some operation := by
    decide +kernel
  exact found operation (by cases operation <;> decide)

theorem Specifier.ofName?_name (specifier : Specifier) :
    Specifier.ofName? specifier.name = some specifier := by
  have found : ∀ specifier ∈ Specifier.all, Specifier.ofName? specifier.name = some specifier := by
    decide +kernel
  exact found specifier (by cases specifier <;> decide)

/-- What is found for the members of a list is read from them. -/
theorem mapM_eq_ok {ε α β : Type} {each : α → Except ε β} {found : α → Option β} {list : List α}
    {results : List β} (reads : ∀ a ∈ list, ∀ b, found a = some b → each a = .ok b)
    (all : list.mapM found = some results) :
    list.mapM each = .ok results ∧ results.length = list.length := by
  induction list generalizing results with
  | nil =>
    cases all
    exact ⟨rfl, rfl⟩
  | cons a rest ih =>
    obtain ⟨here, later⟩ := forall_mem_cons.mp reads
    rw [mapM_cons] at all
    obtain ⟨b, first, all⟩ := Option.bind_eq_some_iff.mp all
    obtain ⟨others, known, all⟩ := Option.bind_eq_some_iff.mp all
    cases all
    obtain ⟨read, count⟩ := ih later known
    refine ⟨?_, congrArg Nat.succ count⟩
    rw [mapM_cons, here b first, read]
    rfl

namespace Source

variable {operation : Operation} {parameter : String × Format}

open Text (Trimmed)

variable {format : Format} {name : String} {parts : List (List Char)}

/-! ## Lists -/

/-- The parts of a list as they stand between its commas. -/
def spaced : List (List Char) → List (List Char)
  | [] => []
  | first :: rest => first :: rest.map (' ' :: ·)

theorem listed_eq_intercalate (parts : List (List Char)) :
    listed parts = [','].intercalate (spaced parts) := by
  cases parts with
  | nil => rfl
  | cons first rest =>
    induction rest generalizing first with
    | nil => simp [listed, spaced]
    | cons second rest ih =>
      rw [listed_cons_cons, ih second]
      cases rest <;> simp [spaced, intercalate_cons_cons]

theorem trim_space_cons {part : List Char} (trimmed : Trimmed part) :
    Text.trim (' ' :: part) = part := by
  have blank : ∀ c ∈ [' '], Text.isBlank c = true := by decide
  have padded := Text.trim_pad blank part (forall_mem_nil _)
  rw [append_nil, trimmed.trim_eq] at padded
  exact padded

theorem map_trim_spaced (trimmed : ∀ part ∈ parts, Trimmed part) :
    (spaced parts).map Text.trim = parts := by
  cases parts with
  | nil => rfl
  | cons first rest =>
    obtain ⟨here, later⟩ := forall_mem_cons.mp trimmed
    rw [spaced, map_cons, here.trim_eq, map_map]
    congr 1
    calc rest.map (Text.trim ∘ (' ' :: ·))
      _ = rest.map id := map_congr_left fun part known => trim_space_cons (later part known)
      _ = rest := map_id rest

theorem notMem_spaced {mark : Char} (other : mark ≠ ' ') (absent : ∀ part ∈ parts, mark ∉ part) :
    ∀ piece ∈ spaced parts, mark ∉ piece := by
  cases parts with
  | nil => exact forall_mem_nil _
  | cons first rest =>
    intro piece member
    rcases mem_cons.mp member with rfl | later
    · exact absent piece mem_cons_self
    · obtain ⟨part, known, rfl⟩ := mem_map.mp later
      simpa [other] using absent part (mem_cons_of_mem _ known)

/-- The parts of a list come apart at its commas. -/
theorem splitAt_listed (some : parts ≠ []) (absent : ∀ part ∈ parts, ',' ∉ part) :
    Text.splitAt ',' (listed parts) = spaced parts := by
  have full : spaced parts ≠ [] := by
    cases parts with
    | nil => exact absurd rfl some
    | cons first rest => exact cons_ne_nil _ _
  rw [listed_eq_intercalate]
  exact Text.splitAt_intercalate full (notMem_spaced (by decide) absent)

/-- The parts of a list without brackets come apart at the commas outside of brackets. -/
theorem pieces_listed
    (texts : ∀ part ∈ parts, part ≠ [] ∧ Trimmed part ∧ Drawn [' ', ':'] part) :
    pieces (listed parts) = parts := by
  have kept := map_trim_spaced fun part known => (texts part known).2.1
  have absent {mark : Char} (odd : isNameCharacter mark = false) (other : mark ∉ [' ', ':']) :
      ∀ piece ∈ spaced parts, mark ∉ piece :=
    notMem_spaced (fun same => other (same ▸ mem_cons_self)) fun part known =>
      (texts part known).2.2.notMem odd other
  rw [listed_eq_intercalate]
  rcases eq_nil_or_concat (spaced parts) with empty | ⟨front, last, split⟩
  · rw [empty] at kept ⊢
    rw [← kept]
    rfl
  · rw [concat_eq_append] at split
    have plain : ∀ piece ∈ front ++ [last], ∀ c ∈ piece, c ≠ '[' ∧ c ≠ ']' ∧ c ≠ ',' := by
      rw [← split]
      intro piece member c inside
      refine ⟨?_, ?_, ?_⟩
      · rintro rfl
        exact absent (by decide) (by decide) piece member inside
      · rintro rfl
        exact absent (by decide) (by decide) piece member inside
      · rintro rfl
        exact absent (by decide) (by decide) piece member inside
    rw [split, map_append, map_singleton] at kept
    have some : (Text.trim last).isEmpty = false := by
      refine isEmpty_eq_false_iff.mpr (texts _ ?_).1
      rw [← kept]
      exact mem_append_cons_self
    rw [split, pieces, Text.splitOutside_intercalate plain]
    simp only [some]
    exact kept

/-! ## Expressions -/

/-- A name stands for the same node in both. -/
def Agrees (values : OrderedMap String NodeId) (names : List (String × NodeId)) : Prop :=
  ∀ name, values.get? name = names.lookup name

variable {values : OrderedMap String NodeId} {names : List (String × NodeId)} {id : NodeId}
  {known : List String} {graph : Graph}

theorem lookup_valueText (agrees : Agrees values names) (found : names.lookup name = some id)
    (line : Nat) : lookup values line (valueText name) = .ok id := by
  have present : values.get? (String.ofList name.toList) = some id := by
    rw [String.ofList_toList, agrees, found]
  simp only [lookup, valueText, present]

/-- The first word of a text ends at the first space. -/
theorem cutFirst?_isBlank {word : List Char} (plain : Plain word) (rest : List Char) :
    Text.cutFirst? Text.isBlank (word ++ ' ' :: rest) = some (word, rest) := by
  apply Text.cutFirst?_append _ (by decide)
  exact fun c member => isBlank_of_isNameCharacter (plain c member)

theorem readExpression_constant {value : Literal} (suits : value.Suits format) (line : Nat)
    (values : OrderedMap String NodeId) (graph : Graph) :
    readExpression line values graph (constantText value) format =
      .ok (graph.addConstant value.scalar format) := by
  have shape : constantText value = "const".toList ++ ' ' :: value.text := rfl
  have read := scalar_literal suits line (forall_mem_nil _)
  rw [nil_append] at read
  rw [shape, readExpression, cutFirst?_isBlank (by decide)]
  simp only [(plain_literal value).trimmed.trim_eq, if_true, read]
  rfl

/-- A reader that trims what it reads takes the parts of a list one by one. -/
theorem mapM_splitAt_listed {β : Type} (read : List Char → Except Fault β) (some : parts ≠ [])
    (plain : ∀ part ∈ parts, Plain part) :
    ((Text.splitAt ',' (listed parts)).mapM fun text => read (Text.trim text)) =
      parts.mapM read := by
  rw [splitAt_listed some fun part member => (plain part member).notMem (by decide)]
  calc (spaced parts).mapM (read ∘ Text.trim)
    _ = ((spaced parts).map Text.trim).mapM read := mapM_map.symm
    _ = parts.mapM read := by
        rw [map_trim_spaced fun part member => (plain part member).trimmed]

/-- The value of a text without blanks around it. -/
def trimmedScalar (line : Nat) (format : Format) (text : List Char) : Except Fault Scalar :=
  match scalar? format text with
  | .some value => .ok value
  | .none => .error (.parse line (.invalidLiteral format (String.ofList text)))

section

variable {entries : List Literal} (some : entries ≠ [])
  (suits : ∀ value ∈ entries, value.Suits format) (line : Nat)

include some suits

theorem mapM_scalar_literals :
    (Text.splitAt ',' (listed (entries.map Literal.text))).mapM (scalar line format) =
      .ok (entries.map Literal.scalar) := by
  have plain : ∀ part ∈ entries.map Literal.text, Plain part := by
    intro part member
    obtain ⟨value, _, rfl⟩ := mem_map.mp member
    exact plain_literal value
  have parted : (Text.splitAt ',' (listed (entries.map Literal.text))).mapM (scalar line format) =
      (entries.map Literal.text).mapM (trimmedScalar line format) :=
    mapM_splitAt_listed (trimmedScalar line format) (by simpa using some) plain
  rw [parted, mapM_map]
  refine (mapM_eq_ok ?_ (mapM_pure (m := Option))).1
  rintro value member _ ⟨⟩
  simp only [Function.comp_apply, trimmedScalar, scalar?_literal (suits value member)]

theorem readExpression_table (values : OrderedMap String NodeId) (graph : Graph) :
    readExpression line values graph (tableText entries) format =
      .ok (graph.addTable (entries.map Literal.scalar) format) := by
  have shape : tableText entries =
      "table".toList ++ ' ' :: (['['] ++ (listed (entries.map Literal.text) ++ [']'])) := by
    unfold tableText
    simp
  have bracketed : Trimmed (['['] ++ (listed (entries.map Literal.text) ++ [']'])) := by
    rw [← append_assoc]
    have bracket (c : Char) (visible : Text.isBlank c = false) : Trimmed [c] :=
      .of_forall (by simpa using visible)
    exact (bracket '[' (by decide)).join (by decide) _ (bracket ']' (by decide)) (by decide)
  have inner : (Text.after? ['['] (['['] ++ (listed (entries.map Literal.text) ++ [']']))).bind
      (Text.before? ']') = .some (listed (entries.map Literal.text)) := by
    rw [Text.after?_append, Option.bind_some, Text.before?_append]
  have other : "table".toList ≠ "const".toList := by decide
  rw [shape, readExpression, cutFirst?_isBlank (by decide)]
  simp only [bracketed.trim_eq, if_neg other, if_true, inner, mapM_scalar_literals some suits line]
  rfl

end

theorem operationName_pointless (operation : Operation) : '.' ∉ operation.name.toList := by
  cases operation <;> decide

theorem computed_eq_ok {operands : List NodeId} {made : Except Fault (Graph × NodeId)}
    {refused : Nat → Except Fault (Graph × NodeId)}
    (arity : ∀ count, operation.arity? = some count → operands.length = count) :
    (match operation.arity? with
      | some arity => if operands.length = arity then made else refused arity
      | none => made) = made := by
  split
  · rename_i count fixed
    exact if_pos (arity count fixed)
  · rfl

theorem readOperation_word (role : operation.role = .value) (specifier : Option Specifier)
    {arguments : List Char} {operands : List NodeId} {line : Nat}
    (known : (if arguments.isEmpty then Pure.pure []
      else (Text.splitAt ',' arguments).mapM fun text => lookup values line (Text.trim text)) =
        (.ok operands : Except Fault (List NodeId)))
    (arity : ∀ count, operation.arity? = some count → operands.length = count) :
    readOperation line values graph (operationWord operation specifier) arguments format =
      .ok (graph.addOperation operation (specifier.getD .plain) operands format) := by
  have found : (Operation.ofName? (String.ofList operation.name.toList)).filter
      (fun operation => operation.role = .value) = some operation := by
    rw [String.ofList_toList, Operation.ofName?_name, Option.filter_some,
      if_pos (decide_eq_true role)]
  have supplied (next : List NodeId → Except Fault (Graph × NodeId)) :
      (if arguments.isEmpty then Pure.pure [] >>= next
        else ((Text.splitAt ',' arguments).mapM fun text => lookup values line (Text.trim text)) >>=
          next) = next operands := by
    split at known <;> rename_i empty
    · rw [if_pos empty, known]
      rfl
    · rw [if_neg empty, known]
      rfl
  cases specifier with
  | none =>
    have whole : operationWord operation none = operation.name.toList := append_nil _
    rw [whole, readOperation, Text.cutFirst?_mark_eq_none (operationName_pointless operation)]
    dsimp only
    rw [found]
    exact (supplied _).trans (computed_eq_ok arity)
  | some specifier =>
    have parted : Text.cutFirst? (· = '.') (operationWord operation (some specifier)) =
        some (operation.name.toList, specifier.name.toList) :=
      Text.cutFirst?_mark (operationName_pointless operation) _
    rw [readOperation, parted]
    dsimp only
    rw [found, String.ofList_toList, Specifier.ofName?_name]
    exact (supplied _).trans (computed_eq_ok arity)

/-- Operations are not written like constants and tables. -/
theorem operationWord_ne {leaf : Operation} (role : operation.role = .value)
    (isLeaf : leaf.role = .leaf) (specifier : Option Specifier) :
    operationWord operation specifier ≠ leaf.name.toList := by
  intro same
  cases specifier with
  | none =>
    have names : operation.name.toList = leaf.name.toList := by
      rw [← same]
      exact (append_nil _).symm
    have found := Operation.ofName?_name operation
    rw [String.toList_inj.mp names, Operation.ofName?_name] at found
    rw [← Option.some.inj found, isLeaf] at role
    cases role
  | some specifier =>
    apply operationName_pointless leaf
    rw [← same]
    exact mem_append_cons_self

theorem readExpression_compute (role : operation.role = .value) (specifier : Option Specifier)
    {operands : List String} {ids : List NodeId} (named : ∀ operand ∈ operands, IsName operand)
    (agrees : Agrees values names)
    (found : (operands.mapM fun operand => names.lookup operand) = some ids)
    (arity : ∀ count, operation.arity? = some count → operands.length = count) (line : Nat) :
    readExpression line values graph (operationText operation specifier operands) format =
      .ok (graph.addOperation operation (specifier.getD .plain) ids format) := by
  have plain : ∀ part ∈ operands.map valueText, Plain part := by
    intro part member
    obtain ⟨operand, known, rfl⟩ := mem_map.mp member
    exact plain_valueText (named operand known)
  have notConstant : operationWord operation specifier ≠ "const".toList :=
    operationWord_ne role (show Operation.constant.role = .leaf from rfl) specifier
  have notTable : operationWord operation specifier ≠ "table".toList :=
    operationWord_ne role (show Operation.table.role = .leaf from rfl) specifier
  obtain ⟨reads, count⟩ := @mapM_eq_ok _ _ _ (lookup values line ∘ valueText) _ _ _
    (fun operand _ id known => lookup_valueText agrees known line) found
  rw [← count] at arity
  by_cases none : operands = []
  · have whole : operationText operation specifier operands = operationWord operation specifier := by
      rw [operationText, if_pos none, append_nil]
    have noBlank : Text.cutFirst? Text.isBlank (operationWord operation specifier) = .none :=
      Text.cutFirst?_eq_none fun c member =>
        isBlank_of_isNameCharacter (plain_operationWord operation specifier c member)
    subst none
    cases found
    rw [whole, readExpression, noBlank]
    simp only [if_neg notConstant, if_neg notTable]
    exact readOperation_word role specifier rfl arity
  · have whole : operationText operation specifier operands =
        operationWord operation specifier ++ ' ' :: listed (operands.map valueText) := by
      rw [operationText, if_neg none]
    have full : ∀ part ∈ operands.map valueText, part ≠ [] := by
      intro part member
      obtain ⟨operand, _, rfl⟩ := mem_map.mp member
      exact cons_ne_nil _ _
    have trimmed := trimmed_listed (fun part member => (plain part member).trimmed) full
    have some : (listed (operands.map valueText)).isEmpty = false :=
      isEmpty_eq_false_iff.mpr (listed_ne_nil (by simpa using none) full)
    have looked : ((Text.splitAt ',' (listed (operands.map valueText))).mapM fun text =>
        lookup values line (Text.trim text)) = .ok ids := by
      rw [mapM_splitAt_listed (lookup values line) (by simpa using none) plain, mapM_map]
      exact reads
    rw [whole, readExpression, cutFirst?_isBlank (plain_operationWord operation specifier)]
    simp only [trimmed.trim_eq, if_neg notConstant, if_neg notTable]
    apply readOperation_word role specifier _ arity
    rw [some]
    exact looked

/-- Whatever the right side of an assignment is, the node that it stands for is added. -/
theorem readExpression_text {expression : Expression} (valid : expression.Valid known format)
    (named : ∀ name ∈ known, IsName name) (agrees : Agrees values names) {node : Node}
    (stands : expression.node? names format none = some node) (line : Nat) :
    readExpression line values graph expression.text format = .ok (graph.add node) := by
  cases expression with
  | constant value =>
    cases stands
    exact readExpression_constant valid line values graph
  | table entries =>
    cases stands
    have read := readExpression_table valid.1 valid.2 line values graph
    rw [Graph.addTable, length_map] at read
    exact read
  | compute operation specifier operands =>
    obtain ⟨role, arity, used⟩ := valid
    obtain ⟨ids, found, stands⟩ := Option.bind_eq_some_iff.mp stands
    cases stands
    exact readExpression_compute role specifier (fun operand member => named _ (used _ member))
      agrees found arity line

theorem node?_tag (expression : Expression) (names : List (String × NodeId)) (format : Format)
    (tag : Option String) :
    expression.node? names format tag =
      (expression.node? names format none).map fun node => { node with tag } := by
  cases expression with
  | constant value => rfl
  | table entries => rfl
  | compute operation specifier operands =>
    simp only [Expression.node?]
    cases operands.mapM fun operand => names.lookup operand <;> rfl

/-! ## Lines -/

theorem format_name (readable : format.Readable) (line : Nat) {left right : List Char}
    (before : ∀ c ∈ left, Text.isBlank c = true) (after : ∀ c ∈ right, Text.isBlank c = true) :
    Source.format line (left ++ format.name.toList ++ right) = .ok format := by
  have trimmed := (plain_formatName readable).trimmed
  have read : Format.read? (left ++ format.name.toList ++ right) = some format := by
    rw [Format.read?, Text.trim_pad before _ after, trimmed.trim_eq]
    exact Format.ofName?_name (Format.admissible_of_readable readable)
  unfold Source.format
  rw [read]

theorem trim_append_space {text : List Char} (trimmed : Trimmed text) :
    Text.trim (text ++ [' ']) = text := by
  have padded := Text.trim_pad (forall_mem_nil _) text (show ∀ c ∈ [' '], _ by decide)
  rw [nil_append, trimmed.trim_eq] at padded
  exact padded

/-- The right side of an assignment comes apart into the expression, the format and the tag. -/
theorem readAssignment_right {expression : Expression} (valid : expression.Valid known format)
    (named : ∀ name ∈ known, IsName name) (agrees : Agrees values names) {untagged : Node}
    (stands : expression.node? names format none = some untagged) (tag : Option String)
    {formatText : List Char} {line : Nat} (reads : Source.format line formatText = .ok format)
    (name : String) :
    (do
      let format ← Source.format line formatText
      let (graph, id) ← readExpression line values graph
        (Text.trim ([' '] ++ expression.text ++ [' '])) format
      let graph :=
        match tag with
        | some tag => graph.setTag id tag
        | none => graph
      Pure.pure (graph, values.insert name id)) =
    (.ok ((graph.add { untagged with tag }).1, values.insert name graph.size) :
      Except Fault (Graph × OrderedMap String NodeId)) := by
  have space : ∀ c ∈ [' '], Text.isBlank c = true := by decide
  have trimmed : Text.trim ([' '] ++ expression.text ++ [' ']) = expression.text := by
    rw [Text.trim_pad space _ space, (trimmed_expression valid named).2.trim_eq]
  rw [reads, trimmed]
  change (readExpression line values graph expression.text format >>= _) = _
  rw [readExpression_text valid named agrees stands line]
  cases tag with
  | none =>
    have same := node?_tag expression names format none
    rw [stands, Option.map_some] at same
    rw [← Option.some.inj same]
    rfl
  | some tag =>
    rw [← Graph.setTag_add]
    rfl

/-- An assignment adds its node and gives it its name. -/
theorem readAssignment_line {assignment : Assignment} (valid : assignment.Valid known)
    (named : ∀ name ∈ known, IsName name) (agrees : Agrees values names)
    (new : values.get? assignment.name = none) {node : Node}
    (stands : assignment.expression.node? names assignment.format assignment.tag = some node)
    (line : Nat) :
    readAssignment line values graph assignment.line =
      .ok ((graph.add node).1, values.insert assignment.name graph.size) := by
  obtain ⟨name, expression, format, tag⟩ := assignment
  obtain ⟨isName, _, readable, tagged, valid⟩ := valid
  dsimp only at *
  rw [node?_tag] at stands
  obtain ⟨untagged, bare, rfl⟩ := Option.map_eq_some_iff.mp stands
  have shape : Assignment.line { name, expression, format, tag } =
      (valueText name ++ [' ']) ++ '=' :: (' ' :: (expression.text ++ " : ".toList ++
        format.name.toList ++ tag.elim [] fun tag => " @".toList ++ tag.toList)) := by
    unfold Assignment.line
    simp
  have plainName := plain_valueText isName
  have unequal : '=' ∉ valueText name ++ [' '] := by
    have absent := plainName.notMem (show isNameCharacter '=' = false by decide)
    simpa using absent
  have fresh : values.contains name = false := by
    rw [OrderedMap.contains, new]
    rfl
  have marked : Text.trim (valueText name ++ [' ']) = '%' :: name.toList :=
    trim_append_space plainName.trimmed
  have colonless := (plain_formatName readable).notMem (show isNameCharacter ':' = false by decide)
  rw [shape, readAssignment, Text.cutFirst?_mark unequal]
  simp only [pure_bind, marked, String.ofList_toList, fresh]
  cases tag with
  | none =>
    have value : ' ' :: (expression.text ++ " : ".toList ++ format.name.toList ++ []) =
        ([' '] ++ expression.text ++ [' ']) ++ ':' :: ([' '] ++ format.name.toList ++ []) := by
      simp
    have absent : '@' ∉ ([' '] ++ expression.text ++ [' ']) ++ ':' ::
        ([' '] ++ format.name.toList ++ []) := by
      have inner := (drawn_expression valid named).notMem
        (show isNameCharacter '@' = false by decide) (by decide)
      have after := (plain_formatName readable).notMem
        (show isNameCharacter '@' = false by decide)
      simp [inner, after]
    have colon : ':' ∉ [' '] ++ format.name.toList ++ [] := by simpa using colonless
    simp only [Option.elim_none, value, Text.cutLast?_mark_eq_none absent,
      Text.cutLast?_mark _ colon]
    exact readAssignment_right valid named agrees bare none
      (format_name readable line (by decide) (by decide)) name
  | some tag =>
    have plainTag := (tagged tag rfl).plain
    have single : '@' ∉ tag.toList := plainTag.notMem (by decide)
    have value : ' ' :: (expression.text ++ " : ".toList ++ format.name.toList ++
        (" @".toList ++ tag.toList)) =
          (([' '] ++ expression.text ++ [' ']) ++ ':' :: ([' '] ++ format.name.toList ++ [' '])) ++
            '@' :: tag.toList := by
      simp
    have colon : ':' ∉ [' '] ++ format.name.toList ++ [' '] := by simpa using colonless
    simp only [Option.elim_some, value, Text.cutLast?_mark _ single, Text.cutLast?_mark _ colon,
      plainTag.trimmed.trim_eq, String.ofList_toList]
    exact readAssignment_right valid named agrees bare (some tag)
      (format_name readable line (by decide) (by decide)) name

/-! ## Definitions -/

/-- A parameter that can be written. -/
def IsParameter (parameter : String × Format) : Prop :=
  IsName parameter.1 ∧ parameter.2.Readable

section

variable (valid : IsParameter parameter)

include valid

theorem drawn_parameter : Drawn [' ', ':'] (parameterText parameter) :=
  ((valid.1.plain.drawn _).append (by decide)).append ((plain_formatName valid.2).drawn _)

theorem trimmed_parameter : parameterText parameter ≠ [] ∧ Trimmed (parameterText parameter) := by
  have some : parameter.2.name.toList ≠ [] :=
    Format.name_ne_nil (Format.admissible_of_readable valid.2)
  refine ⟨append_ne_nil_of_right_ne_nil _ some, ?_⟩
  exact valid.1.plain.trimmed.join valid.1.ne_nil ": ".toList (plain_formatName valid.2).trimmed some

theorem readArgument_parameter (line : Nat) (graph : Graph) :
    readArgument line graph (parameterText parameter) =
      .ok ((graph.addVariable parameter.1 parameter.2).1,
        { name := parameter.1, format := parameter.2, node := graph.size }) := by
  obtain ⟨name, format⟩ := parameter
  obtain ⟨isName, readable⟩ := valid
  have plain := isName.plain
  have shape : parameterText (name, format) =
      name.toList ++ ':' :: ([' '] ++ format.name.toList ++ []) := by
    unfold parameterText
    simp
  have bare : Text.cutAt? " in ".toList ([' '] ++ format.name.toList ++ []) = none := by
    apply Text.cutAt?_eq_none
    intro inside
    have spaces := inside.sublist.count_le ' '
    have absent := (plain_formatName readable).notMem (show isNameCharacter ' ' = false by decide)
    simp [count_eq_zero.mpr absent] at spaces
  have colonless : ':' ∉ name.toList := plain.notMem (by decide)
  rw [shape, readArgument, Text.cutFirst?_mark colonless]
  simp only [pure_bind, bare, plain.trimmed.trim_eq, String.ofList_toList,
    format_name readable line (show ∀ c ∈ [' '], _ by decide) (forall_mem_nil _)]
  rfl

end

theorem readArguments_parameters {parameters : List (String × Format)}
    (valid : ∀ parameter ∈ parameters, IsParameter parameter) (line : Nat) (graph : Graph) :
    readArguments line graph (parameters.map parameterText) =
      .ok (addParameters graph parameters) := by
  induction parameters generalizing graph with
  | nil => rfl
  | cons parameter rest ih =>
    obtain ⟨here, later⟩ := forall_mem_cons.mp valid
    rw [map_cons, readArguments, readArgument_parameter here line graph]
    change (readArguments line (graph.addVariable parameter.1 parameter.2).1 _ >>= _) = _
    rw [ih later]
    rfl

/-- The result of a definition stands between an arrow and a brace. -/
theorem readResult {result : Format} (readable : result.Readable) :
    ((Text.after? "->".toList (Text.trim (" -> ".toList ++ result.name.toList ++ " \x7b".toList))).bind
      fun rest => Text.before? '\x7b' (Text.trim rest)) =
        some ([] ++ result.name.toList ++ [' ']) := by
  have space : ∀ c ∈ [' '], Text.isBlank c = true := by decide
  have named := (plain_formatName readable).trimmed
  have full : result.name.toList ≠ [] :=
    Format.name_ne_nil (Format.admissible_of_readable readable)
  have brace : Trimmed ['\x7b'] := .of_forall (by decide)
  have arrow : Trimmed "->".toList := .of_forall (by decide)
  have inner : Trimmed (result.name.toList ++ [' '] ++ ['\x7b']) :=
    named.join full [' '] brace (by decide)
  have outer : Text.trim (" -> ".toList ++ result.name.toList ++ " \x7b".toList) =
      "->".toList ++ (' ' :: (result.name.toList ++ [' '] ++ ['\x7b'])) := by
    have shape : " -> ".toList ++ result.name.toList ++ " \x7b".toList =
        [' '] ++ ("->".toList ++ (' ' :: (result.name.toList ++ [' '])) ++ ['\x7b']) ++ [] := by
      simp
    have whole := arrow.join (by decide) (' ' :: (result.name.toList ++ [' '])) brace (by decide)
    rw [shape, Text.trim_pad space _ (forall_mem_nil _), whole.trim_eq]
    simp
  rw [outer, Text.after?_append, Option.bind_some, trim_space_cons inner, Text.before?_append]
  rfl

/-- The first line of a definition without its first word. -/
def Definition.signature (definition : Definition) : List Char :=
  definition.name.toList ++ '(' :: (listed (definition.parameters.map parameterText) ++
    ')' :: (" -> ".toList ++ definition.result.name.toList ++ " \x7b".toList))

theorem Definition.header_eq (definition : Definition) :
    definition.header = "func ".toList ++ definition.signature := by
  unfold header signature
  simp

/-- The first line of a definition adds its parameters and begins its body. -/
theorem readHeader_signature {definition : Definition} (name : IsName definition.name)
    (parameters : ∀ parameter ∈ definition.parameters, IsParameter parameter)
    (result : definition.result.Readable) (line : Nat) (graph : Graph) :
    readHeader line graph definition.signature =
      .ok ((addParameters graph definition.parameters).1,
        { line, name := definition.name
          arguments := (addParameters graph definition.parameters).2
          result := definition.result
          values := (addParameters graph definition.parameters).2.foldl
            (fun values a => values.insert a.name a.node) OrderedMap.empty
          statements := [], conditions := [] }) := by
  have texts : ∀ part ∈ definition.parameters.map parameterText,
      part ≠ [] ∧ Trimmed part ∧ Drawn [' ', ':'] part := by
    intro part member
    obtain ⟨parameter, known, rfl⟩ := mem_map.mp member
    obtain ⟨some, trimmed⟩ := trimmed_parameter (parameters parameter known)
    exact ⟨some, trimmed, drawn_parameter (parameters parameter known)⟩
  have parts : pieces (listed (definition.parameters.map parameterText)) =
      definition.parameters.map parameterText := pieces_listed texts
  have unopened : '(' ∉ definition.name.toList := name.plain.notMem (by decide)
  have unclosed : ')' ∉ " -> ".toList ++ definition.result.name.toList ++ " \x7b".toList := by
    have absent := (plain_formatName result).notMem (show isNameCharacter ')' = false by decide)
    simpa using absent
  have some : definition.name.toList.isEmpty = false :=
    isEmpty_eq_false_iff.mpr name.ne_nil
  have opening : Text.cutFirst? (· = '(') definition.signature =
      .some (definition.name.toList, listed (definition.parameters.map parameterText) ++
        ')' :: (" -> ".toList ++ definition.result.name.toList ++ " \x7b".toList)) :=
    Text.cutFirst?_mark unopened _
  have closing : Text.cutLast? (· = ')') definition.signature =
      .some (definition.name.toList ++ '(' :: listed (definition.parameters.map parameterText),
        " -> ".toList ++ definition.result.name.toList ++ " \x7b".toList) := by
    rw [← Text.cutLast?_mark _ unclosed, Definition.signature]
    simp only [append_assoc, cons_append]
  have inner : (definition.name.toList ++ '(' ::
      listed (definition.parameters.map parameterText)).drop (definition.name.toList.length + 1) =
        listed (definition.parameters.map parameterText) := by
    rw [drop_append]
    simp
  rw [readHeader, opening, closing]
  simp only [pure_bind, name.plain.trimmed.trim_eq, some, readResult result, String.ofList_toList,
    format_name result line (forall_mem_nil _) (show ∀ c ∈ [' '], _ by decide), inner, parts,
    readArguments_parameters parameters]
  rfl

end Source

end Retarget

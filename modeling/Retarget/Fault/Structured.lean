import Retarget.Fault.Basic
import Retarget.Text.Quoted

/-!
# The structured form of faults

The form in which the command line shows a fault: its kind and every field by name.
-/

namespace Retarget

open Text (quoted)

/-- A name with named fields. -/
def recordText (name : String) (fields : List (String × String)) : String :=
  name ++ " \x7b " ++
    ", ".intercalate (fields.map fun (field, value) => field ++ ": " ++ value) ++ " \x7d"

/-- A value that may be absent. -/
def optionText : Option String → String
  | some text => "Some(" ++ text ++ ")"
  | none => "None"

def truthText (value : Bool) : String :=
  if value then "true" else "false"

def Register.structured : Register → String
  | .m128v1float32 => "M128V1Float32"
  | .m128v4float32 => "M128V4Float32"
  | .m128v1float64 => "M128V1Float64"
  | .m128v2float64 => "M128V2Float64"
  | .m128v1int32 => "M128V1Int32"
  | .m128v4int32 => "M128V4Int32"
  | .m128v1int64 => "M128V1Int64"
  | .m128v2int64 => "M128V2Int64"
  | .m256v8float32 => "M256V8Float32"
  | .m256v4float64 => "M256V4Float64"
  | .m256v8int32 => "M256V8Int32"
  | .m256v4int64 => "M256V4Int64"

def Format.structured : Format → String
  | .void => "Void"
  | .bool => "Bool"
  | .binary16 => "Binary16"
  | .binary32 => "Binary32"
  | .binary64 => "Binary64"
  | .int signed bits => recordText "Int" [("signed", truthText signed), ("bits", toString bits)]
  | .fixed signed whole fraction =>
    recordText "Fixed"
      [("signed", truthText signed), ("integer", toString whole), ("frac", toString fraction)]
  | .vector element lanes =>
    recordText "Vector" [("element", element.structured), ("lanes", toString lanes)]
  | .register layout => "Register(" ++ layout.structured ++ ")"
  | .logic width => "LogicVector(" ++ toString width ++ ")"
  | .table storage size =>
    recordText "Table" [("storage", storage.structured), ("size", toString size)]

def Operation.structured : Operation → String
  | .constant => "Constant"
  | .variable => "Variable"
  | .table => "Table"
  | .addition => "Addition"
  | .subtraction => "Subtraction"
  | .multiplication => "Multiplication"
  | .division => "Division"
  | .negation => "Negation"
  | .fusedMultiplyAdd => "FusedMultiplyAdd"
  | .fastReciprocal => "FastReciprocal"
  | .minimum => "Min"
  | .maximum => "Max"
  | .absolute => "Abs"
  | .bitAnd => "BitLogicAnd"
  | .bitOr => "BitLogicOr"
  | .bitXor => "BitLogicXor"
  | .bitNot => "BitLogicNot"
  | .leftShift => "LeftShift"
  | .rightShift => "RightShift"
  | .comparison => "Comparison"
  | .select => "Select"
  | .conversion => "Conversion"
  | .cast => "TypeCast"
  | .nearestInteger => "NearestInteger"
  | .tableLoad => "TableLoad"
  | .exponentExtraction => "ExponentExtraction"
  | .exponentInsertion => "ExponentInsertion"
  | .specific => "SpecificOperation"
  | .sequence => "Statement"
  | .ret => "Return"
  | .condition => "ConditionBlock"

def Specifier.structured : Specifier → String
  | .plain => "None"
  | .less => "Less"
  | .lessOrEqual => "LessOrEqual"
  | .equal => "Equal"
  | .notEqual => "NotEqual"
  | .greater => "Greater"
  | .greaterOrEqual => "GreaterOrEqual"
  | .readTimeStamp => "ReadTimeStamp"

def Category.structured : Category → String
  | .function => "Function"
  | .component => "Component"
  | .constant => "Constant"
  | .table => "Table"
  | .signal => "Signal"
  | .variable => "Variable"
  | .reserved => "Protected"

namespace Fault

def kind : Fault → String
  | .nameCollision _ _ => "NameCollision"
  | .unsupported _ _ _ => "UnsupportedOperation"
  | .noMatchingRule _ _ _ _ _ => "NoMatchingRule"
  | .alreadyDeclared _ _ _ => "AlreadyDeclared"
  | .nesting _ => "InvalidScopeNesting"
  | .unknownTarget _ => "UnknownTarget"
  | .missingRules _ _ => "MissingRuleTable"
  | .template _ => "Template"
  | .unreachableRule _ _ _ => "UnreachableRule"
  | .graph _ => "InvalidGraph"
  | .parse _ _ => "Parse"

def fields (fault : Fault) : List (String × String) :=
  let reason := quoted (fault.reason?.getD "")
  match fault with
  | .nameCollision name category =>
    [("name", quoted name), ("category", category.structured)]
  | .unsupported operation specifier tag =>
    [("kind", operation.structured),
      ("specifier", optionText (specifier.map Specifier.structured)),
      ("tag", optionText (tag.map quoted))]
  | .noMatchingRule operation specifier operands result tag =>
    [("kind", operation.structured),
      ("specifier", specifier.structured),
      ("operands", "[" ++ ", ".intercalate (operands.map Format.structured) ++ "]"),
      ("result", result.structured),
      ("tag", optionText (tag.map quoted))]
  | .alreadyDeclared existing name category =>
    [("existing", quoted existing), ("name", quoted name), ("category", category.structured)]
  | .unknownTarget name => [("name", quoted name)]
  | .missingRules target language => [("target", quoted target), ("language", quoted language)]
  | .parse line _ => [("line", toString line), ("reason", reason)]
  | .nesting _ | .template _ | .unreachableRule _ _ _ | .graph _ => [("reason", reason)]

def structured (fault : Fault) : String :=
  recordText fault.kind fault.fields

end Fault

end Retarget

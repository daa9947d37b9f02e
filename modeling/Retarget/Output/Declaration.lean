import Retarget.Naming.Entity
import Retarget.Output.Literal

/-!
# Declarations

The text with which each output language declares an entity under a name. Some languages declare
some entities elsewhere or not at all, and then the text is empty.
-/

namespace Retarget

namespace Entity

/-- The values of a table, separated by commas. -/
def tableText (language : Language) (values : List Scalar) (storage : Format) : String :=
  ", ".intercalate (values.map fun value => language.literal value storage)

/-- The arguments of a C function, or the word for none. -/
def cArguments (arguments : List (String × Format)) : String :=
  if arguments.isEmpty then "void"
  else ", ".intercalate (arguments.map fun (name, format) => format.cName ++ " " ++ name)

def pinText (pin : Pin) : String :=
  pin.name ++ " : " ++ (if pin.output then "out" else "in") ++ " " ++ pin.format.vhdlName

def cDeclaration (name : String) : Entity → String
  | .constant value format =>
    "const " ++ format.cName ++ " " ++ name ++ " = " ++ Language.c.literal value format ++ ";\n"
  | .variable format | .signal format => format.cName ++ " " ++ name ++ ";\n"
  | .table values storage =>
    "static const " ++ storage.cName ++ " " ++ name ++ "[" ++ toString values.length ++
      "] = \x7b" ++ tableText .c values storage ++ "\x7d;\n"
  | .function result arguments =>
    result.cName ++ " " ++ name ++ "(" ++ cArguments arguments ++ ");\n"
  | .component _ | .reserved _ => ""

def vhdlDeclaration (name : String) : Entity → String
  | .constant value format =>
    "constant " ++ name ++ " : " ++ format.vhdlName ++ " := " ++
      Language.vhdl.literal value format ++ ";\n"
  | .signal format => "signal " ++ name ++ " : " ++ format.vhdlName ++ ";\n"
  | .variable format => "variable " ++ name ++ " : " ++ format.vhdlName ++ ";\n"
  | .table values storage =>
    "type " ++ name ++ "_type is array (0 to " ++ toString (values.length - 1) ++ ") of " ++
      storage.vhdlName ++ ";\nconstant " ++ name ++ " : " ++ name ++ "_type := (" ++
      tableText .vhdl values storage ++ ");\n"
  | .component pins =>
    "component " ++ name ++ "\n    port (\n        " ++
      ";\n        ".intercalate (pins.map pinText) ++ "\n    );\nend component;\n"
  | .function _ _ | .reserved _ => ""

/-- A declaration in a verification script, which binds constants only: everything else is an
input bound by a hypothesis or is defined by the body. -/
def gappaDeclaration (name : String) : Entity → String
  | .constant value format => name ++ " = " ++ Language.gappa.literal value format ++ ";\n"
  | _ => ""

def declaration (language : Language) (name : String) (entity : Entity) : String :=
  match language with
  | .c => entity.cDeclaration name
  | .vhdl => entity.vhdlDeclaration name
  | .gappa => entity.gappaDeclaration name

/-- What is written after all declarations to set an entity up. Every entity of the three languages
is complete once declared. -/
def initialization (_ : Language) (_ : String) (_ : Entity) : String :=
  ""

end Entity

end Retarget

import Retarget.Format.Basic
import Retarget.Output.Language

/-!
# Type names

How each output language names the type of a value.
-/

namespace Retarget

namespace Format

/-- The C name of a machine integer. -/
def cInteger (signed : Bool) (bits : Nat) : String :=
  (if signed then "" else "u") ++ "int" ++ toString bits ++ "_t"

/-- The width of the machine integer that carries a fixed-point number. -/
def carrierWidth (width : Nat) : Nat :=
  if width ≤ 8 then 8 else if width ≤ 16 then 16 else if width ≤ 32 then 32 else 64

/-- The C type. A table has the type of its values. -/
def cName : Format → String
  | .void => "void"
  | .bool => "int"
  | .binary16 => "_Float16"
  | .binary32 => "float"
  | .binary64 => "double"
  | .int signed bits => cInteger signed bits
  | .fixed signed whole fraction => cInteger signed (carrierWidth (whole + fraction))
  | .vector element lanes =>
    let scalar :=
      match element with
      | .int signed bits =>
        (if signed then "" else "u") ++ (if 32 < bits then "long" else "int")
      | _ => element.cName
    "ml_" ++ scalar ++ toString lanes ++ "_t"
  | .register layout => layout.cName
  | .logic _ => "uint64_t"
  | .table storage _ => storage.cName

/-- The VHDL type. A table has the type of its values. -/
def vhdlName : Format → String
  | .bool => "std_logic"
  | .table storage _ => storage.vhdlName
  | format => "std_logic_vector(" ++ toString (max format.width 1 - 1) ++ " downto 0)"

/-- The rounding operator of a verification script, empty for formats without one. -/
def roundingOperator : Format → String
  | .binary16 => "float<ieee_16,ne>"
  | .binary32 => "float<ieee_32,ne>"
  | .binary64 => "float<ieee_64,ne>"
  | .fixed _ _ fraction => "fixed<-" ++ toString fraction ++ ",dn>"
  | .int _ _ => "int<dn>"
  | _ => ""

end Format

/-- How a language names a type. Verification scripts name it by its rounding operator. -/
def Language.typeName (language : Language) (format : Format) : String :=
  match language with
  | .c => format.cName
  | .vhdl => format.vhdlName
  | .gappa => format.roundingOperator

end Retarget

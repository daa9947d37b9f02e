import Retarget.Graph.Scalar
import Retarget.Output.TypeName

/-!
# Literals

How each output language spells a value of a format.
-/

namespace Retarget.Scalar

open Number (Double Reading)

/-- A C constant for a number; `single` asks for single precision. -/
def cFloat (value : Double) (single : Bool) : String :=
  match value.reading with
  | .nan _ => "NAN"
  | .infinite negative => if negative then "-INFINITY" else "INFINITY"
  | .finite _ _ _ => if single then value.singleText ++ "f" else value.text

/-- Whether the value counts as true. -/
def isTrue (scalar : Scalar) : Bool :=
  !scalar.toDouble.isZero

/-- A C constant for a machine integer. Unsigned values are reduced to the width. -/
def cInteger (value : Int64) (signed : Bool) (bits : Nat) : String :=
  if signed then toString value.toInt ++ (if bits = 64 then "ll" else "")
  else if bits = 64 then toString value.toUInt64.toNat ++ "ull"
  else toString (value.toUInt64.toNat % Nat.pow 2 bits) ++ "u"

/-- A C constant for a value of a format without lanes and without storage of its own. -/
def cScalarLiteral (scalar : Scalar) (format : Format) : String :=
  match format with
  | .binary16 | .binary32 => cFloat scalar.toDouble true
  | .binary64 => cFloat scalar.toDouble false
  | .bool => if scalar.isTrue then "1" else "0"
  | .int signed bits => cInteger scalar.toInt64 signed bits
  | .fixed signed _ _ =>
    let bits := scalar.toBits format
    if signed then toString bits.toInt64.toInt else toString bits.toNat ++ "u"
  | _ => toString (scalar.toBits format).toNat

/-- The same lane written as often as there are lanes. -/
def cLanes (lane : String) (lanes : Nat) : String :=
  "\x7b" ++ ", ".intercalate (List.replicate lanes lane) ++ "\x7d"

/-- A C constant for a value of a format. -/
def cLiteral (scalar : Scalar) : Format → String
  | .vector element lanes => cLanes (scalar.cLiteral element) lanes
  | .register layout => cLanes (scalar.cScalarLiteral layout.element) layout.lanes
  | .table storage _ => scalar.cLiteral storage
  | format => scalar.cScalarLiteral format

/-- A VHDL constant for a value of a format: a bit, or the lowest bits of what stores the value,
from one to sixty-four of them. -/
def vhdlLiteral (scalar : Scalar) : Format → String
  | .bool => if scalar.isTrue then "'1'" else "'0'"
  | .table storage _ => scalar.vhdlLiteral storage
  | format =>
    let width := min (max format.width 1) 64
    "\"" ++ String.ofList (Number.binaryDigits width (scalar.toBits format).toNat) ++ "\""

end Retarget.Scalar

namespace Retarget

/-- How a language spells a value of a format. -/
def Language.literal (language : Language) (scalar : Scalar) (format : Format) : String :=
  match language with
  | .c => scalar.cLiteral format
  | .vhdl => scalar.vhdlLiteral format
  | .gappa => scalar.toDouble.plainText

end Retarget

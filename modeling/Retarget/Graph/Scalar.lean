import Retarget.Format.Basic
import Retarget.Number.Spelling

/-!
# Scalars

The values of constant nodes and of table elements, and the bits that store them.
-/

namespace Retarget

open Number (Double)

/-- The value of a constant or of a table element. -/
inductive Scalar where
  | float (value : Double)
  | int (value : Int64)
  | bool (value : Bool)
deriving DecidableEq, Repr, Inhabited

namespace Scalar

/-- The value as the nearest double. -/
def toDouble : Scalar → Double
  | .float value => value
  | .int value => Double.ofInt value.toInt
  | .bool value => Double.ofInt (if value then 1 else 0)

/-- The value without its fraction. -/
def toInt64 : Scalar → Int64
  | .int value => value
  | .float value => value.truncate
  | .bool value => if value then 1 else 0

/-- The bits that store the value in a format. Numbers of the two wider IEEE formats keep their
encoding, fixed-point numbers are scaled, and everything else is stored as a whole number. -/
def toBits (scalar : Scalar) (format : Format) : UInt64 :=
  match scalar, format with
  | .float value, .binary32 => UInt64.ofNat value.toSingle
  | .float value, .binary64 => value.bits
  | .float value, .fixed _ _ fraction => (value.scaled fraction).toUInt64
  | .float value, _ => value.truncate.toUInt64
  | .int value, _ => value.toUInt64
  | .bool value, _ => if value then 1 else 0

def text : Scalar → String
  | .float value => value.text
  | .int value => toString value.toInt
  | .bool value => if value then "true" else "false"

end Scalar

end Retarget

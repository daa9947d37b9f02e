import Retarget.Format.Basic
import Retarget.Number.Numeral
import Retarget.Text.Blank
import Retarget.Text.Cut

/-!
# Names of formats

The names of formats in the textual graph format, and their reading. Names of tables are written
and never read.
-/

namespace Retarget

def Register.ofName? (name : List Char) : Option Register :=
  Register.all.find? fun layout => layout.name.toList = name

namespace Format

def name : Format → String
  | .void => "void"
  | .bool => "bool"
  | .binary16 => "binary16"
  | .binary32 => "binary32"
  | .binary64 => "binary64"
  | .int signed bits => (if signed then "int" else "uint") ++ toString bits
  | .fixed signed whole fraction =>
    (if signed then "sfix" else "ufix") ++ toString whole ++ "." ++ toString fraction
  | .vector .binary32 lanes => "v" ++ toString lanes ++ "float32"
  | .vector .binary64 lanes => "v" ++ toString lanes ++ "float64"
  | .vector element lanes => "v" ++ toString lanes ++ element.name
  | .register layout => layout.name
  | .logic width => "slv" ++ toString width
  | .table storage size => "table<" ++ storage.name ++ "," ++ toString size ++ ">"

theorem name_int (signed : Bool) (bits : Nat) :
    (Format.int signed bits).name = (if signed then "int" else "uint") ++ toString bits := by
  rw [name]

/-- The widest fixed-point format that can be named. -/
def maxFixedWidth : Nat := 64

/-- The formats whose name has no number of its own. -/
def ofWord? (name : List Char) : Option Format :=
  [.void, .bool, .binary16, .binary32, .binary64].find? fun format => format.name.toList = name

/-- The width in the name of a vector of logic bits, which is positive. -/
def ofLogicWidth? (digits : List Char) : Option Format :=
  ((Number.below? UInt32.size digits).filter (0 < ·)).map .logic

/-- The two widths in the name of a fixed-point format, which has from one to sixty-four bits. -/
def ofFixedWidths? (signed : Bool) (widths : List Char) : Option Format := do
  let (whole, fraction) ← Text.cutFirst? (· = '.') widths
  let whole ← Number.below? UInt16.size whole
  let fraction ← Number.below? UInt16.size fraction
  if 1 ≤ whole + fraction ∧ whole + fraction ≤ maxFixedWidth then
    some (.fixed signed whole fraction)
  else none

/-- The width in the name of an integer format. -/
def ofIntegerWidth? (signed : Bool) (digits : List Char) : Option Format :=
  ((Number.below? UInt8.size digits).filter fun bits =>
    bits = 8 || bits = 16 || bits = 32 || bits = 64).map (.int signed)

def ofIntegerName? (name : List Char) : Option Format :=
  match Text.after? "uint".toList name with
  | some digits => ofIntegerWidth? false digits
  | none => (Text.after? "int".toList name).bind (ofIntegerWidth? true)

/-- The number of lanes and the element in the name of a vector. White space may stand around the
name of an integer element. -/
def ofLanes? (text : List Char) : Option Format := do
  let element := text.dropWhile Char.isDigit
  if element.isEmpty then none
  else
    let lanes ← Number.below? UInt8.size (text.takeWhile Char.isDigit)
    let element ←
      if element = "float32".toList then some .binary32
      else if element = "float64".toList then some .binary64
      else ofIntegerName? (Text.trim element)
    some (.vector element lanes)

/-- The format with a given name, which has no white space around it. The start of the name decides
which kind of format it names. -/
def ofName? (name : List Char) : Option Format :=
  match ofWord? name with
  | some format => some format
  | none =>
  match Register.ofName? name with
  | some layout => some (.register layout)
  | none =>
  match Text.after? "slv".toList name with
  | some digits => ofLogicWidth? digits
  | none =>
  match Text.after? "sfix".toList name with
  | some widths => ofFixedWidths? true widths
  | none =>
  match Text.after? "ufix".toList name with
  | some widths => ofFixedWidths? false widths
  | none =>
  match Text.after? "v".toList name with
  | some rest => ofLanes? rest
  | none => ofIntegerName? name

/-- The format that a text names, with white space around the name ignored. -/
def read? (text : List Char) : Option Format :=
  ofName? (Text.trim text)

end Format

end Retarget

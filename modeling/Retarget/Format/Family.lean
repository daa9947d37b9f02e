import Retarget.Format.Basic

/-!
# Families of formats

A family is a set of formats that rules can ask for without naming a single format.
-/

namespace Retarget.Format

/-- A set of formats that a rule can ask for. -/
inductive Family where
  | any
  | float
  | integer
  | fixed
  | vector
  | table
  | logic
deriving DecidableEq, Repr, Inhabited

namespace Family

/-- All families, the widest first. -/
def all : List Family := [.any, .float, .integer, .fixed, .vector, .table, .logic]

def name : Family → String
  | .any => "any"
  | .float => "float"
  | .integer => "integer"
  | .fixed => "fixed"
  | .vector => "vector"
  | .table => "table"
  | .logic => "logic"

/-- Whether a format belongs to the family. Integers and fixed-point numbers are carried by logic
vectors too. -/
def contains (family : Family) (format : Format) : Bool :=
  match family with
  | .any => true
  | .float => format.isFloat
  | .integer => format.isInteger
  | .fixed => format.isFixed
  | .vector => format.isVector
  | .table => format.isTable
  | .logic =>
    match format with
    | .logic _ | .int _ _ | .fixed _ _ _ => true
    | _ => false

/-- Whether the family has every format of another one. -/
def includes (family other : Family) : Bool :=
  family = other || family = .any || (family = .logic && (other = .integer || other = .fixed))

end Family

end Retarget.Format

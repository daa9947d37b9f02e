import Retarget.Fault.Basic

/-!
# Formats, values and intervals of a textual graph

The parts of a line that are read without looking at the graph. Each fault carries the number of
the line.
-/

namespace Retarget.Source

open Number (Double)

def format (line : Nat) (text : List Char) : Except Fault Format :=
  match Format.read? text with
  | some format => .ok format
  | none => .error (.parse line (.unknownFormat (String.ofList (Text.trim text))))

/-- A truth value, written as a word or as a digit. -/
def boolean? (text : List Char) : Option Bool :=
  if text = "true".toList ∨ text = "1".toList then some true
  else if text = "false".toList ∨ text = "0".toList then some false
  else none

/-- A whole number, in base sixteen after `0x`. -/
def integer? (text : List Char) : Option Int64 :=
  match Text.after? "0x".toList text with
  | some digits => Number.signed? 16 digits
  | none => Number.signed? 10 text

/-- A value of a format: a truth value, a number with a fraction where the format can hold one, and
otherwise a whole number. -/
def scalar? (format : Format) (text : List Char) : Option Scalar :=
  match format with
  | .bool => (boolean? text).map .bool
  | _ =>
    if format.isFloat || format.isFixed || format.isVector then
      (Number.double? text).map .float
    else (integer? text).map .int

/-- The value that a text denotes in a format. -/
def scalar (line : Nat) (format : Format) (text : List Char) : Except Fault Scalar :=
  let text := Text.trim text
  match scalar? format text with
  | some value => .ok value
  | none => .error (.parse line (.invalidLiteral format (String.ofList text)))

/-- Two numbers in square brackets, the first not greater than the second. -/
def interval? (text : List Char) : Option (Double × Double) := do
  let inner ← Text.after? ['['] (Text.trim text)
  let inner ← Text.before? ']' inner
  let (low, high) ← Text.cutFirst? (· = ',') inner
  let low ← Number.double? (Text.trim low)
  let high ← Number.double? (Text.trim high)
  if low.exceeds high then none else some (low, high)

/-- The interval that a text denotes. -/
def interval (line : Nat) (text : List Char) : Except Fault (Double × Double) :=
  match interval? text with
  | some interval => .ok interval
  | none => .error (.parse line (.invalidInterval (String.ofList (Text.trim text))))

end Retarget.Source

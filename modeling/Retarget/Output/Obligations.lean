import Retarget.Format.Basic
import Retarget.Number.Spelling

/-!
# Proof obligations

The hypotheses, goals and hints at the end of a verification script.
-/

namespace Retarget

open Number (Double)

/-- An expression of the script and the format it is rounded to. -/
structure Term where
  code : String
  format : Format
deriving DecidableEq, Repr

/-- What is known or asked of a term. -/
inductive Enclosure where
  /-- The prover is asked to find it. -/
  | unknown
  | interval (low high : Double)
  | exactly (text : String)
deriving DecidableEq, Repr

def Enclosure.text : Enclosure → String
  | .unknown => "?"
  | .interval low high => "[" ++ low.plainText ++ ", " ++ high.plainText ++ "]"
  | .exactly text => text

/-- A hint for the prover. -/
structure Hint where
  hypothesis : String
  goal : String
  annotation : Option String := none
  /-- The two sides are only close to each other. -/
  approximate : Bool := false
deriving DecidableEq, Repr

/-- The obligations of a script. -/
structure Obligations where
  hypotheses : List (Term × Enclosure) := []
  goals : List (Term × Enclosure) := []
  hints : List Hint := []
deriving DecidableEq, Repr, Inhabited

namespace Obligations

def addHypothesis (obligations : Obligations) (term : Term) (enclosure : Enclosure) : Obligations :=
  { obligations with hypotheses := obligations.hypotheses ++ [(term, enclosure)] }

def addGoal (obligations : Obligations) (term : Term) (enclosure : Enclosure) : Obligations :=
  { obligations with goals := obligations.goals ++ [(term, enclosure)] }

def addHint (obligations : Obligations) (hint : Hint) : Obligations :=
  { obligations with hints := obligations.hints ++ [hint] }

def isEmpty (obligations : Obligations) : Bool :=
  obligations.hypotheses.isEmpty && obligations.goals.isEmpty && obligations.hints.isEmpty

/-- The statement that a term lies in its enclosure. -/
def membership (term : Term) (enclosure : Enclosure) : String :=
  term.code ++ " in " ++ enclosure.text

/-- The statement of a term's precision, for fixed-point and floating-point formats. -/
def precision? (term : Term) : Option String :=
  match term.format with
  | .fixed _ _ fraction => some ("@FIX(" ++ term.code ++ ",-" ++ toString fraction ++ ")")
  | format =>
    format.fieldWidth?.map fun field =>
      "@FLT(" ++ term.code ++ "," ++ toString (field + 1) ++ ")"

/-- The hypotheses, each with the precision of its term, and the goals. -/
def goalText (obligations : Obligations) : String :=
  let hypotheses := obligations.hypotheses.flatMap fun (term, enclosure) =>
    membership term enclosure :: (precision? term).toList
  let goals := obligations.goals.map fun (term, enclosure) => membership term enclosure
  "# goalee\n\x7b " ++ " /\\ ".intercalate hypotheses ++ " -> " ++ " /\\ ".intercalate goals ++
    " \x7d\n\n"

def hintText (hint : Hint) : String :=
  let annotation :=
    match hint.annotation with
    | some text => "\x7b" ++ text ++ "\x7d"
    | none => ""
  hint.hypothesis ++ (if hint.approximate then " ~ " else " -> ") ++ hint.goal ++ " " ++
    annotation ++ ";\n\n"

def hintSection (obligations : Obligations) : String :=
  "#hints\n" ++ String.join (obligations.hints.map hintText)

end Obligations

end Retarget

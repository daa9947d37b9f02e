import Retarget.Command.Invocation
import Retarget.Fault.Structured
import Retarget.Generation.Function
import Retarget.Source.Reader
import Retarget.Target.Catalog

/-!
# Runs of the command line

What an invocation prints: the list of targets, the flags of a target, or the program that the
input describes.
-/

namespace Retarget.Command

/-- What a run leaves behind. -/
structure Outcome where
  status : Nat := 0
  /-- What is printed in any case. -/
  printed : String := ""
  /-- The generated file, which goes where the invocation says. -/
  code : String := ""
  /-- What goes to the standard error output. -/
  report : String := ""
deriving DecidableEq, Repr, Inhabited

/-- A run that fails, with the structured form of its cause. -/
def failure (cause : String) : Outcome :=
  { status := 1, report := "Error: " ++ cause ++ "\n" }

/-- Text with blanks behind it up to a width. -/
def padRight (width : Nat) (text : String) : String :=
  text ++ String.ofList (List.replicate (width - text.length) ' ')

/-- A line of the list of targets. -/
def targetLine (target : Target) : String :=
  let parent :=
    match target.parent with
    | some parent => "(extends " ++ parent ++ ") "
    | none => ""
  padRight 12 target.name ++ " " ++ parent ++ target.description ++ "\n"

/-- What remains to be done once the input is read. -/
structure Assignment where
  target : Target
  options : Options
  stats : Bool

def language (invocation : Invocation) (target : Target) : Except Outcome Language :=
  match invocation.language with
  | some name =>
    match Language.ofName? name with
    | some language => .ok language
    | none => .error (failure (Text.quoted ("unknown language '" ++ name ++ "'")))
  | none =>
    match target.defaultLanguage? with
    | some language => .ok language
    | none => .error (failure (Fault.missingRules target.name "any").structured)

/-- What an invocation asks to do with the input, or the outcome where it asks for none. -/
def prepare (invocation : Invocation) : Except Outcome Assignment := do
  if invocation.listTargets then
    throw { printed := String.join (Catalog.builtin.values.map targetLine) }
  let target ← (Catalog.builtin.target invocation.target).mapError (failure ·.structured)
  if invocation.printFlags then
    throw { printed := " ".intercalate target.flags ++ "\n" }
  let language ← language invocation target
  let options : Options :=
    { language
      declareConstants := invocation.declareConstants
      materializeTagged := invocation.materializeTagged
      headers := !invocation.noHeaders
      headerComments := ["generated by mlgen for target " ++ target.name]
      sharing :=
        { staticConstants := invocation.staticConstants, uniquifier := invocation.uniquifier }
      promoteRegisters := !invocation.noPromotion }
  return { target, options, stats := invocation.stats }

/-- Generates the program that a text describes. -/
def Assignment.run (assignment : Assignment) (text : String) : Outcome :=
  match Source.read text with
  | .error fault => failure fault.structured
  | .ok program =>
    let generated := program.generate assignment.target assignment.options
    match generated.code with
    | .error fault => failure fault.structured
    | .ok code =>
      { code
        report := if assignment.stats then generated.session.statistics.text else "" }

/-- The outcome for arguments that are not understood. -/
def misuse (complaint : String) : Outcome :=
  { status := 2, report := "error: " ++ complaint ++ "\n" }

/-- The outcome of a run whose input is known. -/
def run (arguments : List String) (input : String) : Outcome :=
  match Invocation.read {} arguments with
  | .error complaint => misuse complaint
  | .ok invocation =>
    match prepare invocation with
    | .error outcome => outcome
    | .ok assignment => assignment.run input

end Retarget.Command

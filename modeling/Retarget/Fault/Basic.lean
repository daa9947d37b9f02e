import Retarget.Graph.Basic
import Retarget.Naming.Category
import Retarget.Output.Language
import Retarget.Rule.Signature

/-!
# Faults

Every way in which reading, rule selection or generation can fail, with the message of each.
-/

namespace Retarget

/-- What is wrong with a line of a textual graph. -/
inductive ParseFault where
  | expectedFunction (line : String)
  | missingOpen
  | missingClose
  | missingName
  | missingResult
  | argumentWithoutFormat (argument : String)
  | unknownFormat (name : String)
  | invalidInterval (text : String)
  | elseOutside
  | unterminatedBlock
  | missingBrace
  | chainedElse
  | unexpected (line : String)
  | missingEquals
  | unmarkedName
  | definedTwice (name : String)
  | missingFormat
  | invalidLiteral (format : Format) (text : String)
  | missingBrackets
  | unknownOperation (name : String)
  | unknownSpecifier (name : String)
  | wrongArity (operation : Operation) (expected found : Nat)
  | expectedValue (text : String)
  | undefinedValue (name : String)
deriving DecidableEq, Repr

/-- What is wrong with the nesting of scopes and blocks. -/
inductive NestingFault where
  | indentationBelowZero
  | noBlocks (language : Language)
  | blocksOpen (count : Nat)
  | scopesOpen (count : Nat)
  | nothingToClose
deriving DecidableEq, Repr

/-- Why a template has no instance. -/
inductive TemplateFault where
  | tooFewForOperator (operator : String) (found : Nat)
  | notOneForSign (sign : String) (found : Nat)
  | operandOutOfRange (index count : Nat)
  | noDestination
  | unterminated (pattern : String)
  | unknownPlaceholder (key : String)
deriving DecidableEq, Repr

/-- What is wrong with an operation graph. -/
inductive GraphFault where
  | cycle (id : NodeId)
  | statementAsValue (operation : Operation)
  | leafWithoutValue (operation : Operation)
  | operandNotLowered (id : NodeId)
  | replacementNotLowered (id : NodeId)
  | noCode (id : NodeId)
  | returnWithoutValue
  | returnOutside
  | conditionOperands (count : Nat)
  | cannotBranch
  | replacedByItself (operation : Operation)
  | replacementFailed
  /-- Lowering took more steps than the size of the graph allows. -/
  | unfinished
deriving DecidableEq, Repr

/-- A failure of the library. -/
inductive Fault where
  | nameCollision (name : String) (category : Category)
  | unsupported (operation : Operation) (specifier : Option Specifier) (tag : Option String)
  | noMatchingRule (operation : Operation) (specifier : Specifier) (operands : List Format)
      (result : Format) (tag : Option String)
  | alreadyDeclared (existing name : String) (category : Category)
  | nesting (cause : NestingFault)
  | unknownTarget (name : String)
  | missingRules (target language : String)
  | template (cause : TemplateFault)
  | unreachableRule (target : String) (language : Language) (finding : Shadowing)
  | graph (cause : GraphFault)
  | parse (line : Nat) (cause : ParseFault)
deriving DecidableEq, Repr

namespace ParseFault

/-- The wording of a fault. -/
def reason : ParseFault → String
  | .expectedFunction line => s!"expected 'func', found '{line}'"
  | .missingOpen => "missing '(' in function header"
  | .missingClose => "missing ')' in function header"
  | .missingName => "missing function name"
  | .missingResult => "expected '-> format \x7b' after arguments"
  | .argumentWithoutFormat argument => s!"argument '{argument}' has no format"
  | .unknownFormat name => s!"unknown format '{name}'"
  | .invalidInterval text => s!"invalid interval '{text}'"
  | .elseOutside => "'else' outside of an if block"
  | .unterminatedBlock => "unterminated block"
  | .missingBrace => "expected '\x7b' after condition"
  | .chainedElse => "chained 'else' is not supported"
  | .unexpected line => s!"unexpected '{line}'"
  | .missingEquals => "expected '='"
  | .unmarkedName => "value names start with '%'"
  | .definedTwice name => s!"value %{name} defined twice"
  | .missingFormat => "expected ': format'"
  | .invalidLiteral format text => s!"invalid {format.name} literal '{text}'"
  | .missingBrackets => "table values must be in brackets"
  | .unknownOperation name => s!"unknown operation '{name}'"
  | .unknownSpecifier name => s!"unknown specifier '{name}'"
  | .wrongArity operation expected found =>
    s!"'{operation.name}' takes {expected} operand(s), got {found}"
  | .expectedValue text => s!"expected a %value, found '{text}'"
  | .undefinedValue name => s!"undefined value %{name}"

end ParseFault

namespace NestingFault

def reason : NestingFault → String
  | .indentationBelowZero => "indentation decreased below zero"
  | .noBlocks language => s!"{language.name} output has no block structure"
  | .blocksOpen count => s!"{count} block(s) still open"
  | .scopesOpen count => s!"{count} scope(s) still open"
  | .nothingToClose => "no nested scope to close"

end NestingFault

namespace TemplateFault

def reason : TemplateFault → String
  | .tooFewForOperator operator found => s!"infix '{operator}' needs two operands, got {found}"
  | .notOneForSign sign found => s!"prefix '{sign}' needs one operand, got {found}"
  | .operandOutOfRange index count => s!"operand index {index} out of range ({count} operands)"
  | .noDestination => "result placeholder used without a destination"
  | .unterminated pattern => s!"unterminated placeholder in '{pattern}'"
  | .unknownPlaceholder key => "unknown placeholder '\x7b" ++ key ++ "\x7d'"

end TemplateFault

namespace GraphFault

def reason : GraphFault → String
  | .cycle id => s!"cycle through node NodeId({id})"
  | .statementAsValue operation => s!"statement '{operation.name}' used as a value"
  | .leafWithoutValue operation => s!"leaf '{operation.name}' carries no value"
  | .operandNotLowered id => s!"operand NodeId({id}) was not lowered"
  | .replacementNotLowered id => s!"replacement NodeId({id}) was not lowered"
  | .noCode id => s!"node NodeId({id}) produced no code"
  | .returnWithoutValue => "return without a value"
  | .returnOutside => "return outside of a function"
  | .conditionOperands count => s!"conditional block with {count} operands"
  | .cannotBranch => "verification scripts cannot branch"
  | .replacedByItself operation => s!"rewrite of {operation.name} returned the node itself"
  | .replacementFailed => "rewrite failed"
  | .unfinished => "lowering does not end"

end GraphFault

namespace Fault

/-- The wording of the cause, for faults whose message ends in one. -/
def reason? : Fault → Option String
  | .nesting cause => some cause.reason
  | .template cause => some cause.reason
  | .unreachableRule target language finding =>
    some s!"{target} ({language.name}): {finding.text}"
  | .graph cause => some cause.reason
  | .parse _ cause => some cause.reason
  | _ => none

/-- A tag as messages show it. -/
def tagText (tag : Option String) : String :=
  tag.getD "<none>"

def message (fault : Fault) : String :=
  let reason := fault.reason?.getD ""
  match fault with
  | .nameCollision name category =>
    s!"Name collision: '{name}' is already declared in the {category.name} table"
  | .unsupported operation specifier tag =>
    "Unsupported operation: " ++ operation.name ++
      (match specifier with
        | some specifier => "." ++ specifier.name
        | none => "") ++
      " (tag: " ++ tagText tag ++ ")"
  | .noMatchingRule operation specifier operands result tag =>
    "No matching rule for " ++ operation.name ++ "." ++ specifier.name ++ ": (" ++
      ", ".intercalate (operands.map Format.name) ++ ") -> " ++ result.name ++
      " (tag: " ++ tagText tag ++ ")"
  | .alreadyDeclared existing name category =>
    s!"Entity already declared as '{existing}' in the {category.name} table, " ++
      s!"cannot rename it '{name}'"
  | .nesting _ => s!"Invalid scope nesting: {reason}"
  | .unknownTarget name => s!"Unknown target: {name}"
  | .missingRules target language => s!"Target {target} has no rule table for {language}"
  | .template _ => s!"Template instantiation failed: {reason}"
  | .unreachableRule _ _ _ => s!"Unreachable rule: {reason}"
  | .graph _ => s!"Invalid operation graph: {reason}"
  | .parse line _ => s!"Parse error at line {line}: {reason}"

end Fault

end Retarget

import Retarget.Format.Family
import Retarget.Format.Name
import Retarget.Graph.Operation

/-!
# Signatures

A rule asks for a result and for operands through matchers, each of which accepts one format or a
family of formats. One signature subsumes another when it accepts everything the other accepts.
-/

namespace Retarget

/-- The formats that a rule accepts in one place. -/
inductive Matcher where
  | exactly (format : Format)
  | anyOf (family : Format.Family)
deriving DecidableEq, Repr, Inhabited

namespace Matcher

def accepts : Matcher → Format → Bool
  | .exactly expected, format => expected = format
  | .anyOf family, format => family.contains format

/-- Whether every format accepted by `other` is accepted. -/
def subsumes : Matcher → Matcher → Bool
  | .exactly format, .exactly other => format = other
  | .anyOf family, .exactly other => family.contains other
  | .anyOf family, .anyOf other => family.includes other
  | .exactly _, .anyOf _ => false

/-- The text of a matcher; families stand in angle brackets. -/
def text : Matcher → String
  | .exactly format => format.name
  | .anyOf family => "<" ++ family.name ++ ">"

instance : Coe Format Matcher := ⟨.exactly⟩

instance : Coe Format.Family Matcher := ⟨.anyOf⟩

end Matcher

/-- The result and the operands that a rule accepts. -/
structure Signature where
  result : Matcher
  operands : List Matcher
deriving DecidableEq, Repr, Inhabited

namespace Signature

/-- One format for the result and one for each operand. -/
def exact (result : Format) (operands : List Format) : Signature :=
  ⟨result, operands.map .exactly⟩

/-- One format for the result and for all of `arity` operands. -/
def uniform (format : Format) (arity : Nat) : Signature :=
  exact format (List.replicate arity format)

/-- One family for the result and for all of `arity` operands. -/
def family (family : Format.Family) (arity : Nat) : Signature :=
  ⟨family, List.replicate arity (.anyOf family)⟩

/-- Whether a result and operands are accepted, each in its place. -/
def accepts (signature : Signature) (result : Format) (operands : List Format) : Bool :=
  signature.operands.length = operands.length && signature.result.accepts result &&
    (signature.operands.zip operands).all fun place => place.1.accepts place.2

/-- Whether everything accepted by `other` is accepted, judged place by place. -/
def subsumes (signature other : Signature) : Bool :=
  signature.operands.length = other.operands.length && signature.result.subsumes other.result &&
    (signature.operands.zip other.operands).all fun place => place.1.subsumes place.2

def text (signature : Signature) : String :=
  "(" ++ ", ".intercalate (signature.operands.map Matcher.text) ++ ") -> " ++ signature.result.text

end Signature

/-- A rule that can never be chosen, with an earlier rule that accepts everything it accepts. -/
structure Shadowing where
  operation : Operation
  specifier : Specifier
  /-- The label of the group that holds the rule. -/
  group : String
  signature : Signature
  shadow : Signature
deriving DecidableEq, Repr

def Shadowing.text (finding : Shadowing) : String :=
  finding.operation.name ++ "." ++ finding.specifier.name ++ " [" ++ finding.group ++ "]: " ++
    finding.signature.text ++ " is shadowed by " ++ finding.shadow.text

end Retarget

import Retarget.Target.Basic

/-!
# Verification scripts

Exact operations under the rounding operator of their result, as scripts that bound numerical
errors.
-/

namespace Retarget.Verification

open Format (Family)
open Rule (write)

/-- An operation on numbers of one family. -/
def numeric (arity : Nat) (text : String) : List Rule :=
  [Family.float, .fixed, .integer].map fun family =>
    write (.family family arity) (.pattern text)

def book : RuleBook :=
  .ofRules
    [(Operation.addition, numeric 2 "{t}({0} + {1})"),
      (Operation.subtraction, numeric 2 "{t}({0} - {1})"),
      (Operation.multiplication, numeric 2 "{t}({0} * {1})"),
      (Operation.division, numeric 2 "{t}({0} / {1})"),
      (Operation.fusedMultiplyAdd, numeric 3 "{t}({0} * {1} + {2})"),
      (Operation.fastReciprocal, numeric 1 "{t}(1 / {0})"),
      (Operation.negation, numeric 1 "-{0}"),
      (Operation.absolute, numeric 1 "|{0}|"),
      (Operation.conversion, [write (.family .any 1) (.pattern "{t}({0})")]),
      (Operation.nearestInteger,
        [write ⟨Family.any, [Family.float]⟩ (.pattern "int<ne>({0})")])]

def target : Target :=
  TargetPlan.target
    { name := "gappa"
      description := "Gappa scripts for numerical error bounds"
      books := [(.gappa, book)] }

end Retarget.Verification

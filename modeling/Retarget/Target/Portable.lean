import Retarget.Target.Basic

/-!
# Portable C

Arithmetic, comparisons and bit logic are operators of C, fused and rounding operations come from
its mathematical library, and the encodings of numbers from a support library. Minimum, maximum and
division by a power of two are replaced by cheaper operations.
-/

namespace Retarget.Portable

open Format (Family)
open Rule (write replaceBy)

def supportHeader : String := "ml_support_lib.h"

def mathCall (function : String) : Template :=
  ((Template.call function).withHeader "math.h").withLibrary "m"

def supportCall (function : String) : Template :=
  (Template.call function).withHeader supportHeader

def standardCall (function : String) : Template :=
  (Template.call function).withHeader "stdlib.h"

/-- A rounding of the mathematical library, written as an integer. -/
def roundingPattern (text : String) : Template :=
  ((Template.pattern text).withHeader "math.h").withLibrary "m"

/-- An arithmetic operator on two numbers or vectors. -/
def arithmetic (operator : String) : List Rule :=
  [Family.float, .integer, .vector].map fun family =>
    write (.family family 2) (.between operator)

/-- A bitwise operator on two integers. -/
def bitwise (operator : String) : List Rule :=
  [write (.family .integer 2) (.between operator)]

/-- The one of two numbers for which a comparison holds. -/
def choice (predicate : Specifier) : List Rule :=
  [Family.float, .integer].map fun family =>
    replaceBy (.family family 2) (Replacement.chooseBy predicate)

def comparison (operator : String) : List Rule :=
  [Family.float, .integer].map fun (family : Family) =>
    write ⟨Format.bool, [family, family]⟩ (.between operator)

/-- The encodings of a binary format as integers, both ways. -/
def encodings : List Rule :=
  [(Format.uint32, Format.binary32, "float_to_32b_encoding", "float_from_32b_encoding"),
    (Format.int32, Format.binary32, "float_to_32b_encoding", "float_from_32b_encoding"),
    (Format.uint64, Format.binary64, "double_to_64b_encoding", "double_from_64b_encoding"),
    (Format.int64, Format.binary64, "double_to_64b_encoding", "double_from_64b_encoding")].flatMap
      fun (int, float, encode, decode) =>
        [write (.exact int [float]) (supportCall encode),
          write (.exact float [int]) (supportCall decode)]

/-- The rules for arithmetic. Division is tried by a power of two first. -/
def arithmeticBook : RuleBook where
  groups :=
    (RuleBook.ofRules
      [(Operation.addition, arithmetic "+"),
        (Operation.subtraction, arithmetic "-"),
        (Operation.multiplication, arithmetic "*")]).groups ++
    [(⟨.division, .plain⟩,
      RuleGroup.when "power-of-two constant divisor" Guard.powerOfTwoDivisor
        [replaceBy (.family .float 2) Replacement.timesReciprocal])] ++
    (RuleBook.ofRules
      [(Operation.division, arithmetic "/"),
        (Operation.negation,
          [write (.family .float 1) (.before "-"), write (.family .integer 1) (.before "-")]),
        (Operation.fusedMultiplyAdd,
          [write (.uniform .binary32 3) (mathCall "fmaf"),
            write (.uniform .binary64 3) (mathCall "fma")]),
        (Operation.fastReciprocal,
          [write (.uniform .binary32 1) (.pattern "(1.0f / {0})"),
            write (.uniform .binary64 1) (.pattern "(1.0 / {0})")]),
        (Operation.minimum, choice .less),
        (Operation.maximum, choice .greater),
        (Operation.absolute,
          [write (.uniform .binary32 1) (mathCall "fabsf"),
            write (.uniform .binary64 1) (mathCall "fabs"),
            write (.uniform .int32 1) (standardCall "abs"),
            write (.uniform .int64 1) (standardCall "llabs")])]).groups

/-- The rules for bits, comparisons and choices. -/
def logicBook : RuleBook :=
  .ofRules
    [(Operation.bitAnd, bitwise "&"),
      (Operation.bitOr, bitwise "|"),
      (Operation.bitXor, bitwise "^"),
      (Operation.leftShift, bitwise "<<"),
      (Operation.rightShift, bitwise ">>"),
      (Operation.bitNot, [write (.family .integer 1) (.before "~")]),
      (⟨.comparison, .less⟩, comparison "<"),
      (⟨.comparison, .lessOrEqual⟩, comparison "<="),
      (⟨.comparison, .equal⟩, comparison "=="),
      (⟨.comparison, .notEqual⟩, comparison "!="),
      (⟨.comparison, .greater⟩, comparison ">"),
      (⟨.comparison, .greaterOrEqual⟩, comparison ">="),
      (Operation.select,
        [write ⟨Family.any, [Format.bool, Family.any, Family.any]⟩
          (.pattern "({0} ? {1} : {2})")])]

/-- The rules for conversions, encodings and tables. -/
def conversionBook : RuleBook :=
  .ofRules
    [(Operation.conversion, [write (.family .any 1) (.pattern "(({t}) {0})")]),
      (Operation.cast, encodings),
      (Operation.nearestInteger,
        [write (.exact .int32 [.binary32]) (roundingPattern "((int32_t) nearbyintf({0}))"),
          write (.exact .int64 [.binary64]) (roundingPattern "((int64_t) nearbyint({0}))"),
          write (.uniform .binary32 1) (mathCall "nearbyintf"),
          write (.uniform .binary64 1) (mathCall "nearbyint")]),
      (Operation.tableLoad,
        [write ⟨Family.any, [Family.table, Family.integer]⟩ (.pattern "{0}[{1}]")]),
      (Operation.exponentExtraction,
        [write ⟨Family.integer, [Format.binary32]⟩ (supportCall "ml_exp_extraction_dirty_fp32"),
          write ⟨Family.integer, [Format.binary64]⟩
            (supportCall "ml_exp_extraction_dirty_fp64")]),
      (Operation.exponentInsertion,
        [write ⟨Format.binary32, [Family.integer]⟩ (supportCall "ml_exp_insertion_fp32"),
          write ⟨Format.binary64, [Family.integer]⟩ (supportCall "ml_exp_insertion_fp64")])]

def book : RuleBook :=
  arithmeticBook.layeredOn (logicBook.layeredOn conversionBook)

def target : Target :=
  TargetPlan.target
    { name := "generic"
      description := "Portable C99 without instruction-set extensions"
      flags := ["-std=c99"]
      books := [(.c, book)] }

end Retarget.Portable

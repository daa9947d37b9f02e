/-!
# Operations

The operations of a graph, the predicates that refine some of them, and what is fixed about each
operation: its name, whether it is a leaf or a statement, and how many operands it takes.
-/

namespace Retarget

/-- What a node of an operation graph does. -/
inductive Operation where
  | constant
  | variable
  | table
  | addition
  | subtraction
  | multiplication
  | division
  | negation
  | fusedMultiplyAdd
  | fastReciprocal
  | minimum
  | maximum
  | absolute
  | bitAnd
  | bitOr
  | bitXor
  | bitNot
  | leftShift
  | rightShift
  | comparison
  | select
  | conversion
  | cast
  | nearestInteger
  | tableLoad
  | exponentExtraction
  | exponentInsertion
  | specific
  | sequence
  | ret
  | condition
deriving DecidableEq, Repr, Inhabited

/-- A predicate that refines an operation. -/
inductive Specifier where
  | plain
  | less
  | lessOrEqual
  | equal
  | notEqual
  | greater
  | greaterOrEqual
  | readTimeStamp
deriving DecidableEq, Repr, Inhabited

/-- The part that a node plays in a function. -/
inductive Role where
  /-- A value that needs no operands. -/
  | leaf
  /-- A value computed from operands. -/
  | value
  /-- A step of the function body. -/
  | statement
deriving DecidableEq, Repr

namespace Operation

/-- All operations, in their fixed order. -/
def all : List Operation :=
  [.constant, .variable, .table, .addition, .subtraction, .multiplication, .division, .negation,
    .fusedMultiplyAdd, .fastReciprocal, .minimum, .maximum, .absolute, .bitAnd, .bitOr, .bitXor,
    .bitNot, .leftShift, .rightShift, .comparison, .select, .conversion, .cast, .nearestInteger,
    .tableLoad, .exponentExtraction, .exponentInsertion, .specific, .sequence, .ret,
    .condition]

/-- The name in the textual graph format. -/
def name : Operation → String
  | .constant => "const"
  | .variable => "var"
  | .table => "table"
  | .addition => "add"
  | .subtraction => "sub"
  | .multiplication => "mul"
  | .division => "div"
  | .negation => "neg"
  | .fusedMultiplyAdd => "fma"
  | .fastReciprocal => "rcp"
  | .minimum => "min"
  | .maximum => "max"
  | .absolute => "abs"
  | .bitAnd => "and"
  | .bitOr => "or"
  | .bitXor => "xor"
  | .bitNot => "not"
  | .leftShift => "shl"
  | .rightShift => "shr"
  | .comparison => "cmp"
  | .select => "select"
  | .conversion => "conv"
  | .cast => "cast"
  | .nearestInteger => "nearestint"
  | .tableLoad => "tableload"
  | .exponentExtraction => "expextract"
  | .exponentInsertion => "expinsert"
  | .specific => "specific"
  | .sequence => "stmt"
  | .ret => "return"
  | .condition => "if"

def ofName? (name : String) : Option Operation :=
  all.find? fun operation => operation.name = name

/-- The part that nodes of the operation play. -/
def role : Operation → Role
  | .constant | .variable | .table => .leaf
  | .sequence | .ret | .condition => .statement
  | _ => .value

def isLeaf (operation : Operation) : Bool := operation.role = .leaf

def isStatement (operation : Operation) : Bool := operation.role = .statement

/-- The number of operands, for operations that fix it. -/
def arity? : Operation → Option Nat
  | .constant | .variable | .table => some 0
  | .negation | .fastReciprocal | .absolute | .bitNot | .conversion | .cast | .nearestInteger
  | .exponentExtraction | .exponentInsertion | .ret => some 1
  | .addition | .subtraction | .multiplication | .division | .minimum | .maximum | .bitAnd
  | .bitOr | .bitXor | .leftShift | .rightShift | .comparison | .tableLoad => some 2
  | .fusedMultiplyAdd | .select => some 3
  | .specific | .sequence | .condition => none

end Operation

namespace Specifier

/-- All specifiers, in their fixed order. -/
def all : List Specifier :=
  [.plain, .less, .lessOrEqual, .equal, .notEqual, .greater, .greaterOrEqual, .readTimeStamp]

/-- The name in the textual graph format. -/
def name : Specifier → String
  | .plain => "none"
  | .less => "lt"
  | .lessOrEqual => "le"
  | .equal => "eq"
  | .notEqual => "ne"
  | .greater => "gt"
  | .greaterOrEqual => "ge"
  | .readTimeStamp => "rdtsc"

def ofName? (name : String) : Option Specifier :=
  all.find? fun specifier => specifier.name = name

end Specifier

end Retarget

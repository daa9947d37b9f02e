import Retarget.Fault.Basic

/-!
# Patterns

A pattern is text with places to fill in. A place is a key between braces: the number of an
operand, `r` for the name of the result, `t` for its type and `w` for its width. A brace written
twice stands for itself.
-/

namespace Retarget

/-- What fills the places of a pattern. -/
structure Filling where
  operands : List String
  /-- The name that the result is stored under, where there is one. -/
  result : Option String
  typeName : String
  width : Nat

namespace Filling

def operand (filling : Filling) (index : Nat) : Except Fault String :=
  match filling.operands[index]? with
  | some code => .ok code
  | none => .error (.template (.operandOutOfRange index filling.operands.length))

def resultName (filling : Filling) : Except Fault String :=
  match filling.result with
  | some name => .ok name
  | none => .error (.template .noDestination)

/-- What fills the place with a given key. -/
def place (filling : Filling) (key : List Char) : Except Fault String :=
  if key = ['r'] then filling.resultName
  else if key = ['t'] then .ok filling.typeName
  else if key = ['w'] then .ok (toString filling.width)
  else
    match Number.below? UInt64.size key with
    | some index => filling.operand index
    | none => .error (.template (.unknownPlaceholder (String.ofList key)))

end Filling

/-- Where `fill` stands in a pattern. -/
inductive PatternState where
  /-- Outside of a place. -/
  | text
  /-- After an opening brace, which may open a place or be the first of two. -/
  | opened
  /-- After a closing brace, which may stand alone or be the first of two. -/
  | closed
  /-- Inside of a place, with the characters of its key, the last one first. -/
  | key (characters : List Char)

/-- Fills the places of a pattern, starting from a state. -/
def Filling.fillFrom (filling : Filling) (pattern : String) :
    PatternState → List Char → Except Fault (List Char)
  | .text, [] => .ok []
  | .closed, [] => .ok ['\x7d']
  | .opened, [] | .key _, [] => .error (.template (.unterminated pattern))
  | .text, c :: rest =>
    if c = '\x7b' then filling.fillFrom pattern .opened rest
    else if c = '\x7d' then filling.fillFrom pattern .closed rest
    else (filling.fillFrom pattern .text rest).map (c :: ·)
  | .closed, c :: rest =>
    if c = '\x7d' then (filling.fillFrom pattern .text rest).map ('\x7d' :: ·)
    else if c = '\x7b' then (filling.fillFrom pattern .opened rest).map ('\x7d' :: ·)
    else (filling.fillFrom pattern .text rest).map fun text => '\x7d' :: c :: text
  | .opened, c :: rest =>
    if c = '\x7b' then (filling.fillFrom pattern .text rest).map ('\x7b' :: ·)
    else if c = '\x7d' then do
      let code ← filling.place []
      let text ← filling.fillFrom pattern .text rest
      pure (code.toList ++ text)
    else filling.fillFrom pattern (.key [c]) rest
  | .key characters, c :: rest =>
    if c = '\x7d' then do
      let code ← filling.place characters.reverse
      let text ← filling.fillFrom pattern .text rest
      pure (code.toList ++ text)
    else filling.fillFrom pattern (.key (c :: characters)) rest

/-- The pattern with its places filled, from left to right. -/
def Filling.fill (filling : Filling) (pattern : String) : Except Fault String :=
  (filling.fillFrom pattern .text pattern.toList).map String.ofList

end Retarget

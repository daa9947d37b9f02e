/-!
# Invocations

The arguments of the command line.
-/

namespace Retarget

/-- What the command line asks for. -/
structure Invocation where
  /-- The file to read instead of the standard input. -/
  input : Option String := none
  target : String := "generic"
  /-- The target decides where none is named. -/
  language : Option String := none
  /-- The file to write instead of the standard output. -/
  output : Option String := none
  declareConstants : Bool := false
  materializeTagged : Bool := false
  staticConstants : Bool := false
  uniquifier : String := ""
  noHeaders : Bool := false
  noPromotion : Bool := false
  printFlags : Bool := false
  listTargets : Bool := false
  stats : Bool := false
deriving DecidableEq, Repr, Inhabited

namespace Invocation

/-- Sets the switch with a name, if there is one. -/
def setSwitch? (invocation : Invocation) : String → Option Invocation
  | "--declare-constants" => some { invocation with declareConstants := true }
  | "--materialize-tagged" => some { invocation with materializeTagged := true }
  | "--static-constants" => some { invocation with staticConstants := true }
  | "--no-headers" => some { invocation with noHeaders := true }
  | "--no-promotion" => some { invocation with noPromotion := true }
  | "--print-flags" => some { invocation with printFlags := true }
  | "--list-targets" => some { invocation with listTargets := true }
  | "--stats" => some { invocation with stats := true }
  | _ => none

/-- Sets the option with a name to a value, if there is one. -/
def setOption? (invocation : Invocation) (value : String) : String → Option Invocation
  | "-t" | "--target" => some { invocation with target := value }
  | "-l" | "--language" => some { invocation with language := some value }
  | "-o" | "--output" => some { invocation with output := some value }
  | "--uniquifier" => some { invocation with uniquifier := value }
  | _ => none

/-- An argument as the name of an option and the value joined to it, if any. A value is joined to a
long name by an equals sign and to a short one directly. -/
def joined (argument : String) : String × Option String :=
  match argument.toList with
  | '-' :: '-' :: rest =>
    let name := rest.takeWhile (· ≠ '=')
    (String.ofList ('-' :: '-' :: name),
      if name.length < rest.length then some (String.ofList (rest.drop (name.length + 1)))
      else none)
  | '-' :: letter :: rest =>
    (String.ofList ['-', letter],
      match rest with
      | [] => none
      | '=' :: value => some (String.ofList value)
      | value => some (String.ofList value))
  | _ => (argument, none)

def isOption (name : String) : Bool :=
  (({} : Invocation).setOption? "" name).isSome

/-- The complaint about an argument that is not understood. -/
def unexpected (argument : String) : String :=
  "unexpected argument '" ++ argument ++ "' found"

def setInput (invocation : Invocation) (file : String) : Except String Invocation :=
  match invocation.input with
  | none => .ok { invocation with input := some file }
  | some _ => .error (unexpected file)

/-- Reads arguments behind those read so far. -/
def read (invocation : Invocation) : List String → Except String Invocation
  | [] => .ok invocation
  | argument :: rest =>
    if argument = "--" then rest.foldlM setInput invocation
    else
      match invocation.setSwitch? argument, joined argument with
      | some invocation, _ => read invocation rest
      | none, (name, some value) =>
        match invocation.setOption? value name with
        | some invocation => read invocation rest
        | none => .error (unexpected argument)
      | none, (name, none) =>
        if isOption name then
          match rest with
          | value :: rest => read ((invocation.setOption? value name).getD invocation) rest
          | [] => .error ("a value is required for '" ++ name ++ "' but none was supplied")
        else if name.toList.head? = some '-' && name ≠ "-" then .error (unexpected argument)
        else do
          let invocation ← invocation.setInput argument
          read invocation rest

end Invocation

end Retarget

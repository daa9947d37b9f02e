import Retarget.Output.TypeName
import Retarget.Template.Instance

/-!
# Recorded instances

The instance of a template away from any program, with a record of everything it asked for.
-/

namespace Retarget

/-- What a template asked for, in order. -/
structure Recording where
  headers : List String := []
  libraries : List String := []
  /-- The name, code and format of each temporary. -/
  temporaries : List (String × String × Format) := []
deriving DecidableEq, Repr, Inhabited

namespace Recording

/-- Records a temporary and gives its name, which counts the temporaries before it. -/
def addTemporary (code : String) (format : Format) : EStateM Fault Recording String :=
  modifyGet fun recording =>
    let name := "m" ++ toString recording.temporaries.length
    (name, { recording with temporaries := recording.temporaries ++ [(name, code, format)] })

/-- Surroundings that only record. -/
def surroundings (language : Language) : Surroundings (EStateM Fault Recording) where
  requireHeader header :=
    modify fun recording => { recording with headers := recording.headers ++ [header] }
  requireLibrary library :=
    modify fun recording => { recording with libraries := recording.libraries ++ [library] }
  materialize := addTemporary
  typeName := language.typeName

end Recording

/-- The code of a template, or why it has none, and what it asked for until then. -/
def Template.instance (template : Template) (language : Language) (operands : List String)
    (result : Option String) (format : Format) : Except Fault String × Recording :=
  match template.instantiate (Recording.surroundings language) operands result format {} with
  | .ok code recording => (.ok code, recording)
  | .error fault recording => (.error fault, recording)

end Retarget

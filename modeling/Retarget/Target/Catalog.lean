import Retarget.Target.Hardware
import Retarget.Target.Intrinsics
import Retarget.Target.Verification

/-!
# Catalogs of targets

The targets that can be asked for by name.
-/

namespace Retarget

/-- Targets by name. A target that is added again takes the place of the one before. -/
abbrev Catalog := OrderedMap String Target

namespace Catalog

def add (catalog : Catalog) (target : Target) : Catalog :=
  catalog.insert target.name target

def target (catalog : Catalog) (name : String) : Except Fault Target :=
  match catalog.get? name with
  | some target => .ok target
  | none => .error (.unknownTarget name)

/-- The targets that come with the library. -/
def builtin : Catalog :=
  (Portable.target :: Intrinsics.family ++ [Hardware.target, Verification.target]).foldl add
    OrderedMap.empty

end Catalog

end Retarget

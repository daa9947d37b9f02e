import Retarget.Rule.Promotion
import Retarget.Rule.Replacement
import Retarget.Rule.Shadow

/-!
# Targets

A target has a rule book for each language that it can be written in, the compiler flags that its
output needs, and the register formats that it promotes vectors to. A target may extend another
one: its books are layered over the inherited ones, its flags follow theirs and its promotions
override theirs.
-/

namespace Retarget

/-- What programs are generated for. -/
structure Target where
  name : String
  /-- The name of the target that it extends. -/
  parent : Option String
  description : String
  /-- The flags of all ancestors, then its own. -/
  flags : List String
  books : OrderedMap Language RuleBook
  promotions : Promotions
deriving Inhabited

namespace Target

def book (target : Target) (language : Language) : Except Fault RuleBook :=
  match target.books.get? language with
  | some book => .ok book
  | none => .error (.missingRules target.name language.name)

/-- The languages with a rule book, in their fixed order. -/
def languages (target : Target) : List Language :=
  Language.all.filter target.books.contains

/-- The first language with a rule book. -/
def defaultLanguage? (target : Target) : Option Language :=
  target.languages.head?

end Target

/-- What one target adds to the one it extends. -/
structure TargetPlan where
  name : String
  description : String
  parent : Option Target := none
  flags : List String := []
  /-- Books in the order in which they are layered, the last one on top. -/
  books : List (Language × RuleBook) := []
  promotions : Promotions := OrderedMap.empty
  /-- Whether a rule that can never be chosen is a fault. -/
  strict : Bool := false

namespace TargetPlan

/-- Layers a book over those there are. -/
def layer (books : OrderedMap Language RuleBook) (entry : Language × RuleBook) :
    OrderedMap Language RuleBook :=
  match books.get? entry.1 with
  | some inherited => books.insert entry.1 (entry.2.layeredOn inherited)
  | none => books.insert entry.1 entry.2

def target (plan : TargetPlan) : Target :=
  let inherited := plan.parent
  { name := plan.name
    parent := inherited.map Target.name
    description := plan.description
    flags := (inherited.map Target.flags).getD [] ++ plan.flags
    books := plan.books.foldl layer ((inherited.map Target.books).getD OrderedMap.empty)
    promotions :=
      match inherited with
      | some parent => plan.promotions.overlay parent.promotions
      | none => plan.promotions }

end TargetPlan

end Retarget

import Retarget.Template.Basic

/-!
# Rule books

A rule book holds groups of rules, each for one operation and specifier. Within a group the rules
stand in order behind one guard. Order is part of what a book means: the first rule that applies
is chosen, never the best one.
-/

namespace Retarget

/-- A condition on a node, beyond its operation and its formats. -/
abbrev Guard := Graph → NodeId → Bool

/-- Replaces a node: adds nodes to the graph and gives the one to lower instead. -/
abbrev Replacement := Graph → NodeId → Except Fault (Graph × NodeId)

/-- What a rule does with a node. -/
inductive Action where
  | template (template : Template)
  | replace (replacement : Replacement)

structure Rule where
  signature : Signature
  action : Action

namespace Rule

/-- A rule that writes code. -/
def write (signature : Signature) (template : Template) : Rule :=
  ⟨signature, .template template⟩

/-- A rule that lowers another node instead. -/
def replaceBy (signature : Signature) (replacement : Replacement) : Rule :=
  ⟨signature, .replace replacement⟩

end Rule

/-- Rules behind one guard. -/
structure RuleGroup where
  label : String
  /-- Absent when the group always applies. -/
  guard : Option Guard
  rules : List Rule

namespace RuleGroup

def always (rules : List Rule) : RuleGroup := ⟨"always", none, rules⟩

/-- A group that applies where a guard holds. -/
def when (label : String) (guard : Guard) (rules : List Rule) : RuleGroup :=
  ⟨label, some guard, rules⟩

/-- Whether the group has no guard. -/
def isAlways (group : RuleGroup) : Bool := group.guard.isNone

def applies (group : RuleGroup) (graph : Graph) (id : NodeId) : Bool :=
  match group.guard with
  | some guard => guard graph id
  | none => true

end RuleGroup

/-- What a group of rules is for. -/
structure RuleKey where
  operation : Operation
  specifier : Specifier := .plain
deriving DecidableEq, Repr

instance : Coe Operation RuleKey := ⟨fun operation => ⟨operation, .plain⟩⟩

/-- Groups of rules in the order in which they are tried. -/
structure RuleBook where
  groups : List (RuleKey × RuleGroup) := []
deriving Inhabited

namespace RuleBook

/-- Adds a group behind all others. -/
def add (book : RuleBook) (key : RuleKey) (group : RuleGroup) : RuleBook :=
  ⟨book.groups ++ [(key, group)]⟩

/-- The book of a list of groups without guards. -/
def ofRules (entries : List (RuleKey × List Rule)) : RuleBook :=
  ⟨entries.map fun entry => (entry.1, RuleGroup.always entry.2)⟩

/-- Whether there is a group for the operation, with any specifier. -/
def hasOperation (book : RuleBook) (operation : Operation) : Bool :=
  book.groups.any fun entry => entry.1.operation = operation

/-- Whether there is a group for the operation and the specifier. -/
def hasKey (book : RuleBook) (key : RuleKey) : Bool :=
  book.groups.any fun entry => entry.1 = key

/-- The specifiers for which the operation has groups. -/
def specifiers (book : RuleBook) (operation : Operation) : List Specifier :=
  Specifier.all.filter fun specifier => book.hasKey ⟨operation, specifier⟩

/-- The groups for an operation and a specifier, in order. -/
def groupsFor (book : RuleBook) (key : RuleKey) : List RuleGroup :=
  book.groups.filterMap fun entry => if entry.1 = key then some entry.2 else none

/-- The book layered over another one, whose groups are tried after its own. -/
def layeredOn (book base : RuleBook) : RuleBook :=
  ⟨book.groups ++ base.groups⟩

def ruleCount (book : RuleBook) : Nat :=
  (book.groups.flatMap fun entry => entry.2.rules).length

/-- All keys, by operation and then by specifier. -/
def allKeys : List RuleKey :=
  Operation.all.flatMap fun operation => Specifier.all.map fun specifier => ⟨operation, specifier⟩

/-- The keys that have groups, in their fixed order. -/
def keys (book : RuleBook) : List RuleKey :=
  allKeys.filter book.hasKey

end RuleBook

end Retarget

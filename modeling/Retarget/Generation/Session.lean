import Retarget.Data.OrderedMap
import Retarget.Graph.Operation

/-!
# Sessions

What a session of generation counts, and the report on it.
-/

namespace Retarget

/-- Counts over a session. -/
structure Statistics where
  functionsGenerated : Nat := 0
  /-- The size of all functions in bytes. -/
  totalTextSize : Nat := 0
  nodesLowered : Nat := 0
  loweringCounts : OrderedMap Operation Nat := OrderedMap.empty
  largestFunctionSize : Nat := 0
  largestFunctionName : String := ""
  replacementsApplied : Nat := 0
  temporariesMaterialized : Nat := 0
  scopesOpened : Nat := 0
  /-- Uses of a table that found it declared. -/
  tablesReused : Nat := 0
  nodesPromoted : Nat := 0
deriving DecidableEq, Repr, Inhabited

namespace Statistics

/-- Counts a node lowered by a rule. -/
def countLowered (statistics : Statistics) (operation : Operation) : Statistics :=
  let count := (statistics.loweringCounts.get? operation).getD 0
  { statistics with
    nodesLowered := statistics.nodesLowered + 1
    loweringCounts := statistics.loweringCounts.insert operation (count + 1) }

/-- Counts a function of some size. The first of the largest functions is remembered. -/
def countFunction (statistics : Statistics) (name : String) (size : Nat) : Statistics :=
  let statistics :=
    { statistics with
      functionsGenerated := statistics.functionsGenerated + 1
      totalTextSize := statistics.totalTextSize + size }
  if statistics.largestFunctionSize < size then
    { statistics with largestFunctionSize := size, largestFunctionName := name }
  else statistics

/-- Whether one operation is reported before another: more frequent ones first, and then by
name. -/
def reportedBefore (first second : Operation × Nat) : Bool :=
  second.2 < first.2 || (second.2 = first.2 && first.1.name ≤ second.1.name)

/-- The report on a session. -/
def text (statistics : Statistics) : String :=
  let counts := (statistics.loweringCounts.entries.mergeSort reportedBefore).take 10
  "Generation Session Statistics:\n" ++
  s!"  Functions generated: {statistics.functionsGenerated}\n" ++
  s!"  Nodes lowered: {statistics.nodesLowered}\n" ++
  s!"  Total text size: {statistics.totalTextSize} bytes\n" ++
  s!"  Rewrites applied: {statistics.replacementsApplied}\n" ++
  s!"  Temporaries materialized: {statistics.temporariesMaterialized}\n" ++
  s!"  Scopes opened: {statistics.scopesOpened}\n" ++
  s!"  Tables deduplicated: {statistics.tablesReused}\n" ++
  s!"  Nodes promoted: {statistics.nodesPromoted}\n" ++
  (if statistics.largestFunctionName.isEmpty then ""
    else
      s!"  Largest function: {statistics.largestFunctionName} " ++
        s!"({statistics.largestFunctionSize} bytes)\n") ++
  (if counts.isEmpty then ""
    else
      "  Lowering breakdown:\n" ++
        String.join (counts.map fun (operation, count) => s!"    {operation.name}: {count}\n"))

end Statistics

structure Session where
  statistics : Statistics := {}
  currentFunction : Option String := none
deriving DecidableEq, Repr, Inhabited

namespace Session

def count (session : Session) (change : Statistics → Statistics) : Session :=
  { session with statistics := change session.statistics }

def startFunction (session : Session) (name : String) : Session :=
  { session with currentFunction := some name }

def endFunction (session : Session) (name : String) (size : Nat) : Session :=
  { session.count (·.countFunction name size) with currentFunction := none }

def lowered (session : Session) (operation : Operation) : Session :=
  session.count (·.countLowered operation)

def replaced (session : Session) : Session :=
  session.count fun counts => { counts with replacementsApplied := counts.replacementsApplied + 1 }

def promoted (session : Session) (nodes : Nat) : Session :=
  session.count fun counts => { counts with nodesPromoted := counts.nodesPromoted + nodes }

def materialized (session : Session) : Session :=
  session.count fun counts =>
    { counts with temporariesMaterialized := counts.temporariesMaterialized + 1 }

def opened (session : Session) : Session :=
  session.count fun counts => { counts with scopesOpened := counts.scopesOpened + 1 }

/-- Counts a use of a table that found it declared. -/
def reused (session : Session) : Session :=
  session.count fun counts => { counts with tablesReused := counts.tablesReused + 1 }

end Session

end Retarget

import Retarget.Proofs.Generation.Ledger

/-!
# What a balanced ledger means

While a scope is open, no node that has a code in it gets another one, and no inline expression that
is known in it is used twice. This is said of logs alone (`Event.Exclusive`), and it holds of every log
that a ledger takes in (`Ledger.exclusive_of_balance`).
-/

namespace Retarget

open List

namespace Event

/-- The node that gets a code by an event. -/
def given? : Event → Option NodeId
  | .leaf id | .wrote id _ _ | .handed id _ => some id
  | .began | .opened | .closed | .used _ => none

/-- The nodes whose codes an event uses, once for each place. -/
def taken : Event → List NodeId
  | .wrote _ operands _ => operands
  | .handed _ replacement => [replacement]
  | .used id => [id]
  | .began | .opened | .closed | .leaf _ => []

/-- How deep inside of others a scope lies after an event, where the innermost one lies at depth
zero, unless the event closes it. -/
def depthAfter (depth : Nat) : Event → Option Nat
  | .began => none
  | .opened => some (depth + 1)
  | .closed => match depth with
    | 0 => none
    | depth + 1 => some depth
  | .leaf _ | .wrote _ _ _ | .handed _ _ | .used _ => some depth

end Event

/-- Events leave the scope at some depth open. -/
def Event.Spare (depth : Nat) (events : List Event) : Prop :=
  (events.foldlM Event.depthAfter depth).isSome = true

/-- What an event changes about which codes are inline expressions. -/
def Event.mark (inline : NodeId → Bool) : Event → NodeId → Bool
  | .leaf id => Function.update inline id false
  | .wrote id _ inlined => Function.update inline id inlined
  | .handed id replacement => Function.update inline id (inline replacement)
  | .began | .opened | .closed | .used _ => inline

/-- Whether the code that a node got last is an inline expression. -/
def Event.inline (log : List Event) : NodeId → Bool :=
  log.foldl Event.mark fun _ => false

/-- From the event that gives a node its code on, as long as the scope of that event is open, the node
gets no other code, and if the code is an inline expression it is used no more than once. -/
def Event.Exclusive (log : List Event) : Prop :=
  ∀ past event during id, past ++ [event] ++ during <+: log → event.given? = some id →
    Event.Spare 0 during →
    (∀ later ∈ during, later.given? ≠ some id) ∧
      (Event.inline (past ++ [event]) id = true → (during.flatMap Event.taken).count id ≤ 1)

namespace Ledger

/-- The scope at some depth knows a code of a node, which is an inline expression or not. -/
def Has (ledger : Ledger) (depth : Nat) (id : NodeId) (inlined : Bool) : Prop :=
  ∃ level, ledger.levels[depth]? = some level ∧ (id, inlined) ∈ level

variable {ledger after : Ledger} {event : Event} {depth onward : Nat} {id other : NodeId}
  {inlined : Bool}

/-- How often the inline expression of a node was used. -/
def charge (ledger : Ledger) (id : NodeId) : Nat :=
  if id ∈ ledger.spent then 1 else 0

theorem charge_le_one (ledger : Ledger) (id : NodeId) : ledger.charge id ≤ 1 := by
  unfold charge
  split <;> decide

theorem Has.knows (has : ledger.Has depth id inlined) : ledger.knows id = true := by
  obtain ⟨level, place, held⟩ := has
  exact knows_iff.mpr ⟨level, mem_of_getElem? place, mem_map_of_mem held⟩

theorem Has.inlines (has : ledger.Has depth id true) : ledger.inlines id = true := by
  obtain ⟨level, place, held⟩ := has
  exact inlines_iff.mpr ⟨level, mem_of_getElem? place, held⟩

/-! ## Steps -/

theorem use_eq_some (id : NodeId) (used : ledger.use other = some after) :
    after.levels = ledger.levels ∧ (ledger.inlines id = true →
      after.charge id = ledger.charge id + [other].count id) := by
  unfold use at used
  split at used
  · split at used
    · rename_i isInlined
      split at used
      · cases used
      · rename_i fresh
        cases used
        refine ⟨rfl, fun _ => ?_⟩
        by_cases same : other = id
        · subst same
          simp [charge, fresh]
        · simp [charge, same, Ne.symm same]
    · rename_i notInlined
      cases used
      refine ⟨rfl, fun isInlined => ?_⟩
      have apart : other ≠ id := by
        rintro rfl
        exact notInlined isInlined
      simp [apart]
  · cases used

theorem foldlM_use_eq_some (id : NodeId) {operands : List NodeId}
    (used : operands.foldlM use ledger = some after) :
    after.levels = ledger.levels ∧ (ledger.inlines id = true →
      after.charge id = ledger.charge id + operands.count id) := by
  induction operands generalizing ledger with
  | nil =>
    cases used
    exact ⟨rfl, fun _ => rfl⟩
  | cons operand rest ih =>
    rw [foldlM_cons] at used
    obtain ⟨middle, first, others⟩ := Option.bind_eq_some_iff.mp used
    obtain ⟨same, charged⟩ := use_eq_some id first
    obtain ⟨same', charged'⟩ := ih others
    refine ⟨same'.trans same, fun isInlined => ?_⟩
    have still : middle.inlines id = true := by
      rw [inlines, same]
      exact isInlined
    have split : ([operand] ++ rest).count id = [operand].count id + rest.count id :=
      count_append
    rw [charged' still, charged isInlined, Nat.add_assoc, ← split]
    rfl

theorem hold_eq_some (id : NodeId) (held : ledger.hold other inlined = some after) :
    ledger.knows other = false ∧ after.levels =
      ((other, inlined) :: ledger.innermost) :: ledger.outer ∧
      (other ≠ id → after.charge id = ledger.charge id) := by
  unfold hold at held
  split at held
  · cases held
  · rename_i unknown
    cases held
    refine ⟨Bool.eq_false_iff.mpr unknown, rfl, fun apart => ?_⟩
    simp [charge, Ne.symm apart]

section

variable (has : ledger.Has depth id inlined)

include has

/-- A code that is used stays known. -/
theorem Has.of_levels (same : after.levels = ledger.levels) : after.Has depth id inlined := by
  unfold Has
  rw [same]
  exact has

/-- A node that has a code gets no other one, and it keeps that code. -/
theorem Has.hold {flag : Bool} (held : ledger.hold other flag = some after) :
    other ≠ id ∧ after.Has depth id inlined := by
  obtain ⟨unknown, levels, _⟩ := hold_eq_some id held
  refine ⟨?_, ?_⟩
  · rintro rfl
    rw [has.knows] at unknown
    cases unknown
  · obtain ⟨level, place, held⟩ := has
    unfold Has
    rw [levels]
    cases depth with
    | zero =>
      cases place
      exact ⟨_, rfl, mem_cons_of_mem _ held⟩
    | succ depth => exact ⟨level, place, held⟩

/-- While the scope that knows the code of a node is open, the node gets no other code, and every use
of an inline expression is charged. -/
theorem Has.enter (entered : ledger.enter event = some after)
    (spared : event.depthAfter depth = some onward) :
    after.Has onward id inlined ∧ event.given? ≠ some id ∧
      (inlined = true → after.charge id = ledger.charge id + event.taken.count id) := by
  cases event with
  | began => cases spared
  | opened =>
    cases spared
    cases entered
    exact ⟨has, nofun, fun _ => rfl⟩
  | closed =>
    cases depth with
    | zero => cases spared
    | succ depth =>
      cases spared
      obtain ⟨level, place, held⟩ := has
      change ledger.outer[onward]? = some level at place
      unfold Ledger.enter at entered
      cases listed : ledger.outer with
      | nil =>
        rw [listed] at place
        cases place
      | cons innermost outer =>
        rw [listed] at place entered
        cases entered
        exact ⟨⟨level, place, held⟩, nofun, fun _ => rfl⟩
  | leaf other =>
    cases spared
    obtain ⟨apart, has'⟩ := has.hold entered
    refine ⟨has', fun same => apart (Option.some.inj same), fun _ => ?_⟩
    exact (hold_eq_some id entered).2.2 apart
  | wrote other operands flag =>
    cases spared
    obtain ⟨middle, used, held⟩ := Option.bind_eq_some_iff.mp entered
    obtain ⟨same, charged⟩ := foldlM_use_eq_some id used
    obtain ⟨apart, has'⟩ := (has.of_levels same).hold held
    refine ⟨has', fun given => apart (Option.some.inj given), ?_⟩
    rintro rfl
    exact ((hold_eq_some id held).2.2 apart).trans (charged has.inlines)
  | handed other replacement =>
    cases spared
    obtain ⟨middle, used, held⟩ := Option.bind_eq_some_iff.mp entered
    obtain ⟨same, charged⟩ := use_eq_some id used
    obtain ⟨apart, has'⟩ := (has.of_levels same).hold held
    refine ⟨has', fun given => apart (Option.some.inj given), ?_⟩
    rintro rfl
    exact ((hold_eq_some id held).2.2 apart).trans (charged has.inlines)
  | used other =>
    cases spared
    obtain ⟨same, charged⟩ := use_eq_some id entered
    refine ⟨has.of_levels same, nofun, ?_⟩
    rintro rfl
    exact charged has.inlines

end

/-! ## Runs -/

theorem Has.run {events : List Event} (has : ledger.Has depth id inlined)
    (entered : events.foldlM Ledger.enter ledger = some after)
    (spared : Event.Spare depth events) :
    (∀ event ∈ events, event.given? ≠ some id) ∧
      (inlined = true → ledger.charge id + (events.flatMap Event.taken).count id ≤ 1) := by
  induction events generalizing ledger depth with
  | nil => exact ⟨forall_mem_nil _, fun _ => ledger.charge_le_one id⟩
  | cons event rest ih =>
    unfold Event.Spare at spared
    rw [foldlM_cons] at entered spared
    obtain ⟨middle, first, others⟩ := Option.bind_eq_some_iff.mp entered
    obtain ⟨last, spared⟩ := Option.isSome_iff_exists.mp spared
    obtain ⟨onward, here, later⟩ := Option.bind_eq_some_iff.mp spared
    obtain ⟨has', fresh, charged⟩ := has.enter first here
    obtain ⟨freshLater, few⟩ := ih has' others (Option.isSome_iff_exists.mpr ⟨last, later⟩)
    refine ⟨forall_mem_cons.mpr ⟨fresh, freshLater⟩, fun isInlined => ?_⟩
    have few := few isInlined
    rw [charged isInlined] at few
    rw [flatMap_cons, count_append, ← Nat.add_assoc]
    exact few

/-! ## Inline expressions -/

/-- The ledger tells the inline expressions from the other codes. -/
def Tells (ledger : Ledger) (inline : NodeId → Bool) : Prop :=
  ∀ level ∈ ledger.levels, ∀ id inlined, (id, inlined) ∈ level → inline id = inlined

section

variable {inline : NodeId → Bool}

section

variable (tells : ledger.Tells inline)

include tells

theorem Tells.hold (held : ledger.hold id inlined = some after) :
    after.Tells (Function.update inline id inlined) := by
  obtain ⟨unknown, levels, _⟩ := hold_eq_some id held
  have older {level : Holdings} (open_ : level ∈ ledger.levels) {other : NodeId} {flag : Bool}
      (known : (other, flag) ∈ level) : Function.update inline id inlined other = flag := by
    have apart : other ≠ id := by
      rintro rfl
      exact notMem_of_not_knows unknown open_ (mem_map_of_mem known)
    rw [Function.update_of_ne apart]
    exact tells level open_ other flag known
  unfold Tells
  rw [levels]
  refine forall_mem_cons.mpr ⟨fun other flag known => ?_, fun level around other flag => ?_⟩
  · rcases mem_cons.mp known with same | old
    · cases same
      exact Function.update_self ..
    · exact older mem_cons_self old
  · exact older (mem_cons_of_mem _ around)

theorem Tells.inlines_eq (known : ledger.knows id = true) : ledger.inlines id = inline id := by
  obtain ⟨level, open_, held⟩ := knows_iff.mp known
  obtain ⟨⟨_, flag⟩, member, rfl⟩ := mem_map.mp held
  rw [tells level open_ _ flag member, Bool.eq_iff_iff, inlines_iff]
  constructor
  · rintro ⟨other, open', inlined⟩
    rw [← tells other open' _ true inlined, tells level open_ _ flag member]
  · rintro rfl
    exact ⟨level, open_, member⟩

theorem Tells.enter (entered : ledger.enter event = some after) :
    after.Tells (event.mark inline) := by
  cases event with
  | began =>
    cases entered
    exact forall_mem_singleton.mpr nofun
  | opened =>
    cases entered
    exact forall_mem_cons.mpr ⟨nofun, tells⟩
  | closed =>
    unfold Ledger.enter at entered
    cases listed : ledger.outer with
    | nil =>
      rw [listed] at entered
      cases entered
    | cons innermost outer =>
      rw [listed] at entered
      cases entered
      intro level open_
      refine tells level (mem_cons_of_mem _ ?_)
      rw [listed]
      exact open_
  | leaf other => exact tells.hold entered
  | wrote other operands flag =>
    obtain ⟨middle, used, held⟩ := Option.bind_eq_some_iff.mp entered
    have same := (foldlM_use_eq_some other used).1
    have tells' : middle.Tells inline := by
      unfold Tells
      rw [same]
      exact tells
    exact tells'.hold held
  | handed other replacement =>
    obtain ⟨middle, used, held⟩ := Option.bind_eq_some_iff.mp entered
    have known : ledger.knows replacement = true := by
      by_contra unknown
      rw [use, if_neg unknown] at used
      cases used
    have same := (use_eq_some other used).1
    have tells' : middle.Tells inline := by
      unfold Tells
      rw [same]
      exact tells
    rw [tells.inlines_eq known] at held
    exact tells'.hold held
  | used other =>
    have same := (use_eq_some other entered).1
    unfold Tells
    rw [same]
    exact tells

theorem Tells.run {events : List Event} (entered : events.foldlM Ledger.enter ledger = some after) :
    after.Tells (events.foldl Event.mark inline) := by
  induction events generalizing ledger inline with
  | nil =>
    cases entered
    exact tells
  | cons event rest ih =>
    rw [foldlM_cons] at entered
    obtain ⟨middle, first, others⟩ := Option.bind_eq_some_iff.mp entered
    exact ih (tells.enter first) others

end

end

/-- The node that gets a code by an event has it in the innermost scope. -/
theorem has_of_given (gives : event.given? = some id) (entered : ledger.enter event = some after) :
    ∃ inlined, after.Has 0 id inlined := by
  have held {before : Ledger} {inlined : Bool} (done : before.hold id inlined = some after) :
      ∃ inlined, after.Has 0 id inlined := by
    obtain ⟨_, levels, _⟩ := hold_eq_some id done
    refine ⟨inlined, (id, inlined) :: before.innermost, ?_, mem_cons_self⟩
    rw [levels]
    rfl
  cases event with
  | began => cases gives
  | opened => cases gives
  | closed => cases gives
  | used _ => cases gives
  | leaf _ =>
    cases gives
    exact held entered
  | wrote _ _ _ =>
    cases gives
    obtain ⟨_, _, done⟩ := Option.bind_eq_some_iff.mp entered
    exact held done
  | handed _ _ =>
    cases gives
    obtain ⟨_, _, done⟩ := Option.bind_eq_some_iff.mp entered
    exact held done

/-- A ledger that takes all events in keeps codes apart. -/
theorem exclusive_of_balance {log : List Event} (balanced : balance log = some after) :
    Event.Exclusive log := by
  rintro past event during id ⟨rest, rfl⟩ gives spared
  unfold balance at balanced
  rw [foldlM_append, foldlM_append] at balanced
  obtain ⟨_, whole, _⟩ := Option.bind_eq_some_iff.mp balanced
  obtain ⟨ledger, sofar, onward⟩ := Option.bind_eq_some_iff.mp whole
  have start : Ledger.Tells {} fun _ => false := forall_mem_singleton.mpr nofun
  have tells : ledger.Tells (Event.inline (past ++ [event])) := start.run sofar
  rw [foldlM_append] at sofar
  obtain ⟨before, _, single⟩ := Option.bind_eq_some_iff.mp sofar
  obtain ⟨_, entered, ⟨⟩⟩ := Option.bind_eq_some_iff.mp single
  obtain ⟨inlined, has⟩ := has_of_given gives entered
  obtain ⟨fresh, few⟩ := has.run onward spared
  refine ⟨fresh, fun isInline => Nat.le_trans (Nat.le_add_left _ _) (few ?_)⟩
  obtain ⟨level, place, held⟩ := has
  rw [← tells level (mem_of_getElem? place) id inlined held]
  exact isInline

end Ledger

end Retarget

import Mathlib.Data.List.Forall2
import Retarget.Data.OrderedMap

/-!
# Pairs of places

Two runs that do the same in the same order make the same things, but at other places, where other
things stood there before. A `Pairing` says which place of one run stands for which place of the
other: some pairs are given, and from two bounds on places are paired in the order in which they are
taken. Pairs keep the order of places, so each place has one partner at most.
-/

namespace Retarget

open List

section Lists

variable {α β γ : Type} {related : α → β → Prop} {old : List α} {new : List β}

theorem exists_of_mem_forall₂ (pairs : List.Forall₂ related old new) {value : β}
    (member : value ∈ new) : ∃ source ∈ old, related source value := by
  induction pairs with
  | nil => cases member
  | @cons source value _ _ here _ ih =>
    rcases mem_cons.mp member with rfl | later
    · exact ⟨source, mem_cons_self, here⟩
    · obtain ⟨other, known, there⟩ := ih later
      exact ⟨other, mem_cons_of_mem _ known, there⟩

/-- Lists related place by place have equal images under functions that agree on related places. -/
theorem map_eq_map_of_forall₂ {fromOld : α → γ} {fromNew : β → γ}
    (agree : List.Forall₂ related old new)
    (same : ∀ first second, related first second → fromNew second = fromOld first) :
    new.map fromNew = old.map fromOld := by
  induction agree with
  | nil => rfl
  | cons head _ ih => rw [map_cons, map_cons, same _ _ head, ih]

end Lists

/-- Places of two runs that stand for each other. -/
structure Pairing where
  /-- From here on places are paired in order. -/
  left : Nat
  right : Nat
  /-- The pairs before that. -/
  given : Nat → Nat → Prop
  below : ∀ {place other}, given place other → place < left ∧ other < right
  ordered : ∀ {place other place' other'}, given place other → given place' other' →
    (place < place' ↔ other < other')

namespace Pairing

variable {places others : List Nat} (pairing : Pairing)

/-- Two places that are equally far beyond the bounds. -/
def Beyond (place other : Nat) : Prop :=
  ∃ count, place = pairing.left + count ∧ other = pairing.right + count

/-- Two places that stand for each other. -/
def Pairs (place other : Nat) : Prop :=
  pairing.given place other ∨ pairing.Beyond place other

variable {pairing} {place other place' other' : Nat}

theorem Beyond.add (beyond : pairing.Beyond place other) (count : Nat) :
    pairing.Beyond (place + count) (other + count) := by
  obtain ⟨distance, rfl, rfl⟩ := beyond
  exact ⟨distance + count, Nat.add_assoc _ _ _, Nat.add_assoc _ _ _⟩

theorem Beyond.lt_iff (first : pairing.Beyond place other) (second : pairing.Beyond place' other') :
    place < place' ↔ other < other' := by
  obtain ⟨distance, rfl, rfl⟩ := first
  obtain ⟨distance', rfl, rfl⟩ := second
  omega

theorem Beyond.le (beyond : pairing.Beyond place other) :
    pairing.left ≤ place ∧ pairing.right ≤ other := by
  obtain ⟨distance, rfl, rfl⟩ := beyond
  exact ⟨Nat.le_add_right _ _, Nat.le_add_right _ _⟩

section

variable (first : pairing.Pairs place other) (second : pairing.Pairs place' other')

include first second

theorem Pairs.lt_iff : place < place' ↔ other < other' := by
  rcases first with first | first <;> rcases second with second | second
  · exact pairing.ordered first second
  · have here := pairing.below first
    have there := second.le
    constructor <;> intro <;> omega
  · have here := first.le
    have there := pairing.below second
    constructor <;> intro <;> omega
  · exact first.lt_iff second

/-- Each place has one partner at most. -/
theorem Pairs.eq_iff : place = place' ↔ other = other' := by
  have below := first.lt_iff second
  have above := second.lt_iff first
  omega

end

theorem biUnique (pairing : Pairing) : Relator.BiUnique pairing.Pairs :=
  ⟨fun _ _ _ first second => (first.eq_iff second).mpr rfl,
    fun _ _ _ first second => (first.eq_iff second).mp rfl⟩

section

variable (listed : List.Forall₂ pairing.Pairs places others) (pairs : pairing.Pairs place other)

include listed pairs

theorem mem_iff : place ∈ places ↔ other ∈ others :=
  rel_mem pairing.biUnique pairs listed

theorem forall₂_erase : List.Forall₂ pairing.Pairs (places.erase place) (others.erase other) := by
  induction listed with
  | nil => exact .nil
  | @cons first second rest rest' here listed ih =>
    rw [erase_cons, erase_cons]
    by_cases same : first = place
    · have same' := (here.eq_iff pairs).mp same
      simp only [same, same', beq_self_eq_true, if_true]
      exact listed
    · have apart := mt (here.eq_iff pairs).mpr same
      simp only [beq_iff_eq, same, apart, if_false]
      exact .cons here ih

end

/-- Lists in ascending order whose members stand for each other do so one by one. -/
theorem forall₂_of_ascending (ascending : places.Pairwise (· < ·))
    (ascending' : others.Pairwise (· < ·))
    (total : ∀ place ∈ places, ∃ other ∈ others, pairing.Pairs place other)
    (onto : ∀ other ∈ others, ∃ place ∈ places, pairing.Pairs place other) :
    List.Forall₂ pairing.Pairs places others := by
  induction places generalizing others with
  | nil =>
    cases others with
    | nil => exact .nil
    | cons other _ =>
      obtain ⟨_, impossible, _⟩ := onto other mem_cons_self
      cases impossible
  | cons place places ih =>
    cases others with
    | nil =>
      obtain ⟨_, impossible, _⟩ := total place mem_cons_self
      cases impossible
    | cons other others =>
      obtain ⟨least, later⟩ := pairwise_cons.mp ascending
      obtain ⟨least', later'⟩ := pairwise_cons.mp ascending'
      -- The partner of the least place is the least one.
      have first : pairing.Pairs place other := by
        obtain ⟨partner, member, pairs⟩ := total place mem_cons_self
        rcases mem_cons.mp member with rfl | beyond
        · exact pairs
        · obtain ⟨source, known, pairs'⟩ := onto other mem_cons_self
          have before := (pairs'.lt_iff pairs).mpr (least' partner beyond)
          rcases mem_cons.mp known with rfl | after
          · exact pairs'
          · exact absurd before (Nat.lt_asymm (least source after))
      refine .cons first (ih later later' (fun source member => ?_) fun partner member => ?_)
      · obtain ⟨partner, known, pairs⟩ := total source (mem_cons_of_mem _ member)
        rcases mem_cons.mp known with rfl | beyond
        · cases (first.eq_iff pairs).mpr rfl
          exact absurd (least place member) (Nat.lt_irrefl _)
        · exact ⟨partner, beyond, pairs⟩
      · obtain ⟨source, known, pairs⟩ := onto partner (mem_cons_of_mem _ member)
        rcases mem_cons.mp known with rfl | beyond
        · cases (first.eq_iff pairs).mp rfl
          exact absurd (least' other member) (Nat.lt_irrefl _)
        · exact ⟨source, beyond, pairs⟩

end Pairing

/-- Two maps have related values at places that stand for each other. -/
def OrderedMap.Mirrors {ν : Type} (pairing : Pairing) (related : ν → ν → Prop)
    (map other : OrderedMap Nat ν) : Prop :=
  ∀ place partner, pairing.Pairs place partner →
    Option.Rel related (map.get? place) (other.get? partner)

namespace OrderedMap.Mirrors

variable {ν : Type} {pairing : Pairing} {related : ν → ν → Prop} {map other : OrderedMap Nat ν}
  {place partner : Nat} {value value' : ν}

theorem empty : Mirrors pairing related OrderedMap.empty OrderedMap.empty :=
  fun _ _ _ => .none

theorem insert (mirrors : Mirrors pairing related map other)
    (pairs : pairing.Pairs place partner) (same : related value value') :
    Mirrors pairing related (map.insert place value) (other.insert partner value') := by
  intro place' partner' pairs'
  rw [OrderedMap.get?_insert, OrderedMap.get?_insert]
  by_cases here : place = place'
  · rw [if_pos here, if_pos ((pairs.eq_iff pairs').mp here)]
    exact .some same
  · rw [if_neg here, if_neg (mt (pairs.eq_iff pairs').mpr here)]
    exact mirrors place' partner' pairs'

theorem get?_eq (mirrors : Mirrors pairing (· = ·) map other)
    (pairs : pairing.Pairs place partner) : map.get? place = other.get? partner := by
  match map.get? place, other.get? partner, mirrors place partner pairs with
  | _, _, .some same => rw [same]
  | _, _, .none => rfl

end OrderedMap.Mirrors

end Retarget

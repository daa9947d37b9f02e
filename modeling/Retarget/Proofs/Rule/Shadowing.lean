import Retarget.Proofs.Target.Inheritance

/-!
# Rules that are never chosen

Each finding about a book is about one rule at one place of it (`shadowings_eq`), and that rule is
never chosen: whatever node it accepts, the rule that shadows it accepts the node too and is tried
earlier, under a guard that holds. So all rules with findings may be left out at once, without a
change to what any node is lowered to (`select_withoutShadowed`).
-/

namespace Retarget

open List

/-! ## Subsumption -/

theorem Format.Family.contains_of_includes {family other : Family}
    (wider : family.includes other = true) {format : Format}
    (member : other.contains format = true) : family.contains format = true := by
  simp only [includes, Bool.or_eq_true, Bool.and_eq_true, decide_eq_true_eq] at wider
  rcases wider with (rfl | rfl) | ⟨rfl, rfl | rfl⟩
  · exact member
  · rfl
  · cases format <;> first | rfl | cases member
  · cases format <;> first | rfl | cases member

theorem Matcher.accepts_of_subsumes {matcher other : Matcher}
    (wider : matcher.subsumes other = true) {format : Format}
    (accepted : other.accepts format = true) : matcher.accepts format = true := by
  cases matcher with
  | exactly expected =>
    cases other with
    | exactly same =>
      rw [show expected = same from of_decide_eq_true wider]
      exact accepted
    | anyOf family => cases wider
  | anyOf family =>
    cases other with
    | exactly same =>
      rw [show same = format from of_decide_eq_true accepted] at wider
      exact wider
    | anyOf narrow => exact Format.Family.contains_of_includes wider accepted

theorem Matcher.all_accepts_of_subsumes {matchers others : List Matcher}
    (length : matchers.length = others.length)
    (wider : ((matchers.zip others).all fun place => place.1.subsumes place.2) = true)
    {formats : List Format}
    (accepted : ((others.zip formats).all fun place => place.1.accepts place.2) = true) :
    ((matchers.zip formats).all fun place => place.1.accepts place.2) = true := by
  induction matchers generalizing others formats with
  | nil => rfl
  | cons matcher matchers ih =>
    cases others with
    | nil => cases length
    | cons other others =>
      cases formats with
      | nil => rfl
      | cons format formats =>
        simp only [zip_cons_cons, all_cons, Bool.and_eq_true] at wider accepted ⊢
        exact ⟨accepts_of_subsumes wider.1 accepted.1,
          ih (Nat.succ.inj length) wider.2 accepted.2⟩

/-- A signature accepts what a signature that it subsumes accepts. -/
theorem Signature.accepts_of_subsumes {signature other : Signature}
    (wider : signature.subsumes other = true) {result : Format} {operands : List Format}
    (accepted : other.accepts result operands = true) :
    signature.accepts result operands = true := by
  simp only [subsumes, accepts, Bool.and_eq_true, decide_eq_true_eq] at wider accepted ⊢
  obtain ⟨⟨length, results⟩, places⟩ := wider
  obtain ⟨⟨count, fits⟩, each⟩ := accepted
  exact ⟨⟨length.trans count, Matcher.accepts_of_subsumes results fits⟩,
    Matcher.all_accepts_of_subsumes length places each⟩

/-! ## Places of rules -/

/-- The place of a rule: the number of its group among those for a key, and its number in the
group. -/
structure RulePlace where
  key : RuleKey
  group : Nat
  rule : Nat
deriving DecidableEq, Repr

/-- The rule at one place is tried before the one at another place of the same key. -/
def RulePlace.Before (first second : RulePlace) : Prop :=
  first.group < second.group ∨ first.group = second.group ∧ first.rule < second.rule

/-- A rule at its place. -/
structure RuleEntry where
  place : RulePlace
  group : RuleGroup
  rule : Rule

/-- The rules of a group, at their places. -/
def RuleGroup.entries (key : RuleKey) (number : Nat) (group : RuleGroup) : List RuleEntry :=
  group.rules.zipIdx.map fun rule => ⟨⟨key, number, rule.2⟩, group, rule.1⟩

/-- The group without the rules whose numbers are left out. -/
def RuleGroup.without (group : RuleGroup) (left : Nat → Bool) : RuleGroup :=
  { group with rules := (group.rules.zipIdx.filter fun rule => !left rule.2).map Prod.fst }

theorem RuleGroup.applies_of_isAlways {group : RuleGroup} (always : group.isAlways = true)
    (graph : Graph) (id : NodeId) : group.applies graph id = true := by
  unfold isAlways at always
  unfold applies
  rw [Option.isNone_iff_eq_none.mp always]

namespace RuleBook

variable {book : RuleBook} {key : RuleKey} {entry : RuleEntry}

/-- The rules for a key at their places, in the order in which they are tried. -/
def entries (book : RuleBook) (key : RuleKey) : List RuleEntry :=
  (book.groupsFor key).zipIdx.flatMap fun group => group.1.entries key group.2

/-- The entry of the rule that is chosen for a node. -/
def chosen? (book : RuleBook) (graph : Graph) (id : NodeId) : Option RuleEntry :=
  (book.entries (graph.ruleKey id)).find? fun entry => graph.admits id (entry.group, entry.rule)

/-- The signatures of all rules of the groups without a guard. -/
def covered (groups : List RuleGroup) : List Signature :=
  (groups.filter RuleGroup.isAlways).flatMap fun group => group.rules.map Rule.signature

/-- The finding about a rule: the first signature that subsumes its own, of the rules before it in
its group or of those in earlier groups without a guard. -/
def finding? (book : RuleBook) (entry : RuleEntry) : Option Shadowing :=
  let earlier := (entry.group.rules.take entry.place.rule).map Rule.signature
  let above := covered ((book.groupsFor entry.place.key).take entry.place.group)
  ((earlier ++ above).find? (Signature.subsumes · entry.rule.signature)).map fun shadow =>
    ⟨entry.place.key.operation, entry.place.key.specifier, entry.group.label,
      entry.rule.signature, shadow⟩

/-- Whether there is a finding about the rule at a place. -/
def isReported (book : RuleBook) (place : RulePlace) : Bool :=
  (book.entries place.key).any fun entry =>
    entry.place = place && (book.finding? entry).isSome

/-- Groups without the rules at the places that are left out, after groups for the given keys. -/
def withoutFrom (left : RulePlace → Bool) (above : List RuleKey) :
    List (RuleKey × RuleGroup) → List (RuleKey × RuleGroup)
  | [] => []
  | (key, group) :: rest =>
    (key, group.without fun rule => left ⟨key, above.count key, rule⟩) ::
      withoutFrom left (key :: above) rest

/-- The book without the rules at the places that are left out. Its groups all stay. -/
def without (book : RuleBook) (left : RulePlace → Bool) : RuleBook :=
  ⟨withoutFrom left [] book.groups⟩

/-! ## Findings and their rules -/

theorem covered_append (front groups : List RuleGroup) :
    covered (front ++ groups) = covered front ++ covered groups := by
  simp only [covered, filter_append, flatMap_append]

/-- The findings about the rest of a group, after the rules in front of it. -/
theorem shadowings_go_eq (book : RuleBook) (key : RuleKey) {above : List RuleGroup}
    {group : RuleGroup} {below : List RuleGroup}
    (listed : book.groupsFor key = above ++ group :: below) (front rest : List Rule)
    (parts : group.rules = front ++ rest) :
    RuleGroup.shadowings.go key group (covered above) (front.map Rule.signature) rest =
      ((rest.zipIdx front.length).map fun rule =>
        (⟨⟨key, above.length, rule.2⟩, group, rule.1⟩ : RuleEntry)).filterMap book.finding? := by
  induction rest generalizing front with
  | nil => rfl
  | cons rule rest ih =>
    have onward := ih (front ++ [rule]) (by rw [parts, append_assoc]; rfl)
    rw [map_append, length_append, map_singleton, length_singleton]
      at onward
    have here : book.finding? ⟨⟨key, above.length, front.length⟩, group, rule⟩ =
        ((front.map Rule.signature ++ covered above).find?
          (Signature.subsumes · rule.signature)).map fun shadow =>
            ⟨key.operation, key.specifier, group.label, rule.signature, shadow⟩ := by
      unfold finding?
      dsimp only
      rw [listed, parts, take_left, take_left]
    rw [zipIdx_cons, map_cons, filterMap_cons, here,
      RuleGroup.shadowings.go, ← onward]
    cases (front.map Rule.signature ++ covered above).find?
        (Signature.subsumes · rule.signature) with
    | none => rfl
    | some shadow => rfl

/-- The findings about the rest of the groups for a key, after the groups above it. -/
theorem shadowingsFrom_eq (book : RuleBook) (key : RuleKey) (above rest : List RuleGroup)
    (parts : book.groupsFor key = above ++ rest) :
    shadowingsFrom key (covered above) rest =
      ((rest.zipIdx above.length).flatMap fun group =>
        group.1.entries key group.2).filterMap book.finding? := by
  induction rest generalizing above with
  | nil => rfl
  | cons group rest ih =>
    have onward := ih (above ++ [group]) (by rw [parts, append_assoc]; rfl)
    have more : covered (above ++ [group]) =
        if group.isAlways then covered above ++ group.rules.map Rule.signature
        else covered above := by
      rw [covered_append]
      cases always : group.isAlways <;> simp [covered, always]
    rw [more, length_append, length_singleton] at onward
    have here : group.shadowings key (covered above) =
        (group.entries key above.length).filterMap book.finding? :=
      shadowings_go_eq book key parts [] group.rules rfl
    rw [zipIdx_cons, flatMap_cons, filterMap_append, shadowingsFrom, here]
    exact congrArg (_ ++ ·) onward

/-- Each finding is about one rule, in the order of keys, groups and rules. -/
theorem shadowings_eq (book : RuleBook) :
    book.shadowings = (book.keys.flatMap book.entries).filterMap book.finding? := by
  rw [filterMap_flatMap]
  refine congrArg (book.keys.flatMap ·) (funext fun key => ?_)
  exact shadowingsFrom_eq book key [] (book.groupsFor key) rfl

/-! ## The rule that is chosen -/

/-- The entries of a key are its rules at their places. -/
theorem mem_entries :
    entry ∈ book.entries key ↔
      entry.place.key = key ∧ (book.groupsFor key)[entry.place.group]? = some entry.group ∧
        entry.group.rules[entry.place.rule]? = some entry.rule := by
  simp only [entries, RuleGroup.entries, mem_flatMap, mem_map, Prod.exists,
    mem_zipIdx_iff_getElem?]
  constructor
  · rintro ⟨group, number, listed, rule, place, member, rfl⟩
    exact ⟨rfl, listed, member⟩
  · obtain ⟨⟨_, number, place⟩, group, rule⟩ := entry
    rintro ⟨rfl, listed, member⟩
    exact ⟨group, number, listed, rule, place, member, rfl⟩

theorem entries_pairwise (book : RuleBook) (key : RuleKey) :
    (book.entries key).Pairwise fun first second => first.place.Before second.place := by
  have ascending {α : Type} (values : List α) :
      values.zipIdx.Pairwise fun first second => first.2 < second.2 := by
    rw [← pairwise_map, zipIdx_map_snd]
    exact pairwise_lt_range'
  refine pairwise_flatMap.mpr ⟨fun group _ => ?_, (ascending _).imp fun apart => ?_⟩
  · refine pairwise_map.mpr ((ascending _).imp fun apart => ?_)
    exact .inr ⟨rfl, apart⟩
  · intro first inFirst second inSecond
    obtain ⟨_, _, rfl⟩ := mem_map.mp inFirst
    obtain ⟨_, _, rfl⟩ := mem_map.mp inSecond
    exact .inl apart

/-- A finding points to a rule that is tried earlier, in the same group or in one without a guard,
and accepts whatever the rule itself accepts. -/
theorem exists_shadow (member : entry ∈ book.entries key)
    (reported : (book.finding? entry).isSome = true) :
    ∃ shadow ∈ book.entries key, shadow.place.Before entry.place ∧
      shadow.rule.signature.subsumes entry.rule.signature = true ∧
      (shadow.group = entry.group ∨ shadow.group.isAlways = true) := by
  obtain ⟨keyed, listed, placed⟩ := mem_entries.mp member
  unfold finding? at reported
  dsimp only at reported
  rw [Option.isSome_map, keyed] at reported
  obtain ⟨signature, found⟩ := Option.isSome_iff_exists.mp reported
  have wider := find?_some found
  rcases mem_append.mp (mem_of_find?_eq_some found) with earlier | above
  · obtain ⟨rule, taken, rfl⟩ := mem_map.mp earlier
    obtain ⟨number, here⟩ := mem_iff_getElem?.mp taken
    rw [getElem?_take] at here
    split at here
    · rename_i before
      exact ⟨⟨⟨key, entry.place.group, number⟩, entry.group, rule⟩,
        mem_entries.mpr ⟨rfl, listed, here⟩, .inr ⟨rfl, before⟩, wider, .inl rfl⟩
    · cases here
  · obtain ⟨group, unguarded, ofGroup⟩ := mem_flatMap.mp above
    obtain ⟨taken, always⟩ := mem_filter.mp unguarded
    obtain ⟨rule, inGroup, rfl⟩ := mem_map.mp ofGroup
    obtain ⟨number, here⟩ := mem_iff_getElem?.mp taken
    obtain ⟨place, there⟩ := mem_iff_getElem?.mp inGroup
    rw [getElem?_take] at here
    split at here
    · rename_i before
      exact ⟨⟨⟨key, number, place⟩, group, rule⟩, mem_entries.mpr ⟨rfl, here, there⟩,
        .inl before, wider, .inr always⟩
    · cases here

/-- There is no finding about the rule that is chosen for a node. -/
theorem finding?_chosen {graph : Graph} {id : NodeId}
    (chosen : book.chosen? graph id = some entry) : book.finding? entry = none := by
  obtain ⟨admitted, earlier, later, listed, refused⟩ := find?_eq_some_iff_append.mp chosen
  refine Option.not_isSome_iff_eq_none.mp fun reported => ?_
  obtain ⟨shadow, member, before, wider, guarded⟩ :=
    exists_shadow (mem_of_find?_eq_some chosen) reported
  have apart := book.entries_pairwise (graph.ruleKey id)
  rw [listed] at apart member
  obtain ⟨_, after, _⟩ := pairwise_append.mp apart
  -- What is tried earlier stands in front of the chosen rule, and was refused.
  have inFront : shadow ∈ earlier := by
    rcases mem_append.mp member with front | rest
    · exact front
    · rcases mem_cons.mp rest with rfl | behind
      · unfold RulePlace.Before at before
        omega
      · have reverse := (pairwise_cons.mp after).1 shadow behind
        unfold RulePlace.Before at before reverse
        omega
  simp only [Graph.admits, Bool.and_eq_true] at admitted
  have accepted := Signature.accepts_of_subsumes wider admitted.2
  have applies : shadow.group.applies graph id = true := by
    rcases guarded with same | always
    · rw [same]
      exact admitted.1
    · exact RuleGroup.applies_of_isAlways always graph id
  have other := refused shadow inFront
  simp [Graph.admits, applies, accepted] at other

/-- The search of a book finds the entry that is chosen. -/
theorem find?_eq_chosen? (book : RuleBook) (graph : Graph) (id : NodeId) :
    find? (book.groupsFor (graph.ruleKey id)) graph id (graph.node id).format
      (graph.operandFormats id) = (book.chosen? graph id).map RuleEntry.rule := by
  have unplaced (key : RuleKey) : book.candidates key =
      (book.entries key).map fun entry => (entry.group, entry.rule) := by
    have rules (group : RuleGroup) (number : Nat) :
        (group.entries key number).map (fun entry => (entry.group, entry.rule)) =
          group.rules.map fun rule => (group, rule) := by
      rw [RuleGroup.entries, map_map, ← zipIdx_map_fst 0 group.rules, map_map]
      simp [Function.comp_def]
    rw [entries, map_flatMap, candidates, ← zipIdx_map_fst 0 (book.groupsFor key),
      flatMap_map]
    simp [rules]
  rw [find?_groups]
  change (List.find? _ (book.candidates _)).map _ = _
  rw [unplaced, find?_map, Option.map_map]
  rfl

/-! ## Books without some of their rules -/

theorem groupsFor_withoutFrom (left : RulePlace → Bool) (above : List RuleKey)
    (groups : List (RuleKey × RuleGroup)) (key : RuleKey) :
    groupsFor ⟨withoutFrom left above groups⟩ key =
      ((groupsFor ⟨groups⟩ key).zipIdx (above.count key)).map fun group =>
        group.1.without fun rule => left ⟨key, group.2, rule⟩ := by
  induction groups generalizing above with
  | nil => rfl
  | cons entry rest ih =>
    obtain ⟨own, group⟩ := entry
    have onward := ih (own :: above)
    unfold groupsFor at onward ⊢
    by_cases same : own = key
    · subst same
      rw [count_cons_self] at onward
      simp only [withoutFrom, filterMap_cons, ↓reduceIte, onward, zipIdx_cons,
        map_cons]
    · rw [count_cons_of_ne same] at onward
      simp only [withoutFrom, filterMap_cons, same, ↓reduceIte, onward]

/-- The groups of a book stay for the keys that they are for. -/
theorem map_fst_without (book : RuleBook) (left : RulePlace → Bool) :
    (book.without left).groups.map Prod.fst = book.groups.map Prod.fst := by
  have keys (above : List RuleKey) (groups : List (RuleKey × RuleGroup)) :
      (withoutFrom left above groups).map Prod.fst = groups.map Prod.fst := by
    induction groups generalizing above with
    | nil => rfl
    | cons entry rest ih => exact congrArg (_ :: ·) (ih _)
  exact keys [] book.groups

/-- What is left of the candidates for a key. -/
theorem candidates_without (book : RuleBook) (left : RulePlace → Bool) (key : RuleKey) :
    (book.without left).candidates key =
      ((book.entries key).filter fun entry => !left entry.place).map fun entry =>
        (entry.group.without fun rule => left ⟨key, entry.place.group, rule⟩, entry.rule) := by
  have groups : (book.without left).groupsFor key = _ :=
    groupsFor_withoutFrom left [] book.groups key
  rw [candidates, groups, entries, filter_flatMap, map_flatMap, flatMap_map,
    count_nil]
  refine congrArg (List.flatMap · _) (funext fun group => ?_)
  simp only [RuleGroup.without, RuleGroup.entries, filter_map, map_map]
  rfl

/-- A search passes over elements that it would not have stopped at. -/
theorem find?_filter_of_kept {α : Type} {values : List α} {keep holds : α → Bool}
    (kept : ∀ value, values.find? holds = some value → keep value = true) :
    (values.filter keep).find? holds = values.find? holds := by
  induction values with
  | nil => rfl
  | cons value rest ih =>
    cases found : holds value with
    | true =>
      have here : keep value = true := kept value (by rw [find?_cons, found])
      rw [filter_cons_of_pos here, find?_cons, find?_cons, found]
    | false =>
      have onward := ih fun other later =>
        kept other (by rw [find?_cons, found]; exact later)
      rw [find?_cons, found, filter_cons]
      split
      · rw [find?_cons, found, onward]
      · exact onward

theorem isReported_place (member : entry ∈ book.entries key) :
    book.isReported entry.place = (book.finding? entry).isSome := by
  have keyed := (mem_entries.mp member).1
  rw [Bool.eq_iff_iff, isReported, any_eq_true, keyed]
  constructor
  · rintro ⟨other, known, reported⟩
    rw [Bool.and_eq_true, decide_eq_true_eq] at reported
    -- Only one rule stands at a place.
    have same : other = entry := by
      obtain ⟨_, listed, placed⟩ := mem_entries.mp member
      obtain ⟨_, listed', placed'⟩ := mem_entries.mp known
      obtain ⟨place, group, rule⟩ := other
      obtain ⟨rfl, -⟩ := reported
      rw [listed] at listed'
      cases listed'
      rw [placed] at placed'
      cases placed'
      rfl
    rw [← same]
    exact reported.2
  · intro reported
    exact ⟨entry, member, by rw [reported, Bool.and_true, decide_eq_true_eq]⟩

/-- The search of a book finds the same rule when all rules with findings are left out. -/
theorem find?_withoutShadowed (book : RuleBook) (graph : Graph) (id : NodeId) :
    find? ((book.without book.isReported).groupsFor (graph.ruleKey id)) graph id
        (graph.node id).format (graph.operandFormats id) =
      find? (book.groupsFor (graph.ruleKey id)) graph id (graph.node id).format
        (graph.operandFormats id) := by
  have kept : ∀ entry, book.chosen? graph id = some entry →
      (!book.isReported entry.place) = true := by
    intro entry chosen
    rw [isReported_place (mem_of_find?_eq_some chosen), finding?_chosen chosen]
    rfl
  rw [find?_eq_chosen? book, find?_groups]
  change (List.find? _ (candidates _ _)).map _ = _
  rw [candidates_without, find?_map, Option.map_map]
  change Option.map RuleEntry.rule
    (List.find? (fun entry => graph.admits id (entry.group, entry.rule)) _) = _
  rw [find?_filter_of_kept kept]
  rfl

section

variable {other : RuleBook} (same : book.groups.map Prod.fst = other.groups.map Prod.fst)

include same

theorem any_groups_of_map_fst (holds : RuleKey → Bool) :
    (book.groups.any fun entry => holds entry.1) = other.groups.any fun entry => holds entry.1 := by
  have keys := congrArg (List.any · holds) same
  rw [any_map, any_map] at keys
  exact keys

theorem hasOperation_of_map_fst (operation : Operation) :
    book.hasOperation operation = other.hasOperation operation :=
  any_groups_of_map_fst same (·.operation = operation)

theorem hasKey_of_map_fst (key : RuleKey) : book.hasKey key = other.hasKey key :=
  any_groups_of_map_fst same (· = key)

end

/-- What is selected is what the chosen rule does. -/
theorem select_eq_ok_iff_chosen? (book : RuleBook) (graph : Graph) (id : NodeId)
    (action : Action) :
    book.select graph id = .ok action ↔
      ∃ entry, book.chosen? graph id = some entry ∧ entry.rule.action = action := by
  have found : find? (book.groupsFor ⟨(graph.node id).operation, (graph.node id).specifier⟩) graph
      id (graph.node id).format (graph.operandFormats id) = _ := book.find?_eq_chosen? graph id
  have nothing (absent : book.hasKey (graph.ruleKey id) = false) :
      book.chosen? graph id = none := by
    rw [chosen?, entries, groupsFor_eq_nil absent]
    rfl
  unfold select
  dsimp only
  split
  · rename_i unsupported
    rw [Bool.not_eq_true'] at unsupported
    have absent : book.hasKey (graph.ruleKey id) = false := hasKey_eq_false unsupported
    simp [nothing absent]
  split
  · rename_i unsupported
    rw [Bool.not_eq_true'] at unsupported
    simp [nothing unsupported]
  rw [found]
  cases book.chosen? graph id <;> simp

/-- The findings about a book are about rules that are never chosen. Each of them is about one
rule at its place; leaving all these rules out changes neither what any node is lowered to nor the
fault of one that has no rule; and the rule that is chosen for a node is none of them. -/
theorem select_withoutShadowed (book : RuleBook) :
    book.shadowings = (book.keys.flatMap book.entries).filterMap book.finding? ∧
      ∀ graph id,
        (book.without book.isReported).select graph id = book.select graph id ∧
        (∀ action, book.select graph id = .ok action ↔
          ∃ entry, book.chosen? graph id = some entry ∧ entry.rule.action = action) ∧
        ∀ entry, book.chosen? graph id = some entry →
          book.finding? entry = none ∧ book.isReported entry.place = false := by
  refine ⟨book.shadowings_eq, fun graph id => ⟨?_, book.select_eq_ok_iff_chosen? graph id, ?_⟩⟩
  · have keys := book.map_fst_without book.isReported
    have found := book.find?_withoutShadowed graph id
    unfold Graph.ruleKey at found
    unfold select
    simp only [hasOperation_of_map_fst keys, hasKey_of_map_fst keys, found]
  · intro entry chosen
    have unreported := finding?_chosen chosen
    refine ⟨unreported, ?_⟩
    rw [isReported_place (mem_of_find?_eq_some chosen), unreported]
    rfl

/-- Sums in three rules, the second of which is shadowed by the first, and the third by both. -/
def narrowing : RuleBook :=
  .ofRules
    [(Operation.addition, [.write (.family .any 2) (.between "+"),
        .write (.family .float 2) (.between "+")]),
      (Operation.addition, [.write (.uniform .binary32 2) (.call "addf")])]

example : narrowing.shadowings.length = 2 ∧
    (narrowing.without narrowing.isReported).ruleCount = 1 := by
  decide

end RuleBook

end Retarget

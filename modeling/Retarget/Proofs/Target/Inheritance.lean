import Retarget.Target.Intrinsics

/-!
# Inheritance between targets

A chain of targets is given by what each level adds, the most derived level first. Everything that
the last target knows is found by one search of the chain: a rule by trying the books of each level
before those of the levels below it, a promotion at the first level that has one. Its flags are
those of all levels, from the root up.
-/

namespace Retarget

open List

/-- What one level of a chain of targets adds, each list in the order of writing. -/
structure TargetLevel where
  name : String
  description : String := ""
  flags : List String := []
  books : List (Language × RuleBook) := []
  promotions : List (Format × Format) := []
  strict : Bool := false

namespace TargetLevel

/-- The plan of a level that extends a target, or nothing. -/
def plan (level : TargetLevel) (parent : Option Target) : TargetPlan where
  name := level.name
  description := level.description
  parent := parent
  flags := level.flags
  books := level.books
  promotions :=
    level.promotions.foldl (fun map entry => map.insert entry.1 entry.2) OrderedMap.empty
  strict := level.strict

/-- The level's own books for a language, the one written last first. -/
def booksFor (level : TargetLevel) (language : Language) : List RuleBook :=
  (level.books.filterMap fun entry =>
    if entry.1 = language then some entry.2 else none).reverse

/-- The promotion of a format that the level wrote last. -/
def promotion? (level : TargetLevel) (format : Format) : Option Format :=
  (level.promotions.reverse.find? fun entry => entry.1 = format).map Prod.snd

/-- All books of a chain for a language, in the order in which they are searched. -/
def search (levels : List TargetLevel) (language : Language) : List RuleBook :=
  levels.flatMap fun level => level.booksFor language

end TargetLevel

namespace RuleBook

/-- The rules for a key with their groups, in the order in which the book declares them. -/
def candidates (book : RuleBook) (key : RuleKey) : List (RuleGroup × Rule) :=
  (book.groupsFor key).flatMap fun group => group.rules.map fun rule => (group, rule)

end RuleBook

/-- The operation and the specifier by which rules for a node are found. -/
def Graph.ruleKey (graph : Graph) (id : NodeId) : RuleKey :=
  ⟨(graph.node id).operation, (graph.node id).specifier⟩

/-- Whether the guard of a rule holds at a node and its signature accepts the node's formats. -/
def Graph.admits (graph : Graph) (id : NodeId) (candidate : RuleGroup × Rule) : Bool :=
  candidate.1.applies graph id &&
    candidate.2.signature.accepts (graph.node id).format (graph.operandFormats id)

namespace RuleBook

variable {book : RuleBook} {key : RuleKey}

/-- One book with the groups of a list of books, if there are any books. -/
def stack? (books : List RuleBook) : Option RuleBook :=
  if books = [] then none else some ⟨books.flatMap groups⟩

theorem stack?_cons (book : RuleBook) (books : List RuleBook) :
    stack? (book :: books) =
      some (match stack? books with
        | some base => book.layeredOn base
        | none => book) := by
  cases books with
  | nil => simp [stack?]
  | cons first rest => simp [stack?, layeredOn]

variable (books : List RuleBook) (graph : Graph) (id : NodeId)

/-- Trying the rules group by group is trying all candidates in order. -/
theorem find?_groups (groups : List RuleGroup) :
    find? groups graph id (graph.node id).format (graph.operandFormats id) =
      ((groups.flatMap fun group => group.rules.map fun rule => (group, rule)).find?
        (graph.admits id)).map Prod.snd := by
  induction groups with
  | nil => rfl
  | cons group rest ih =>
    have first :
        ((group.rules.map fun rule => (group, rule)).find? (graph.admits id)).map Prod.snd =
          if group.applies graph id then
            group.rules.find? fun rule =>
              rule.signature.accepts (graph.node id).format (graph.operandFormats id)
          else none := by
      rw [find?_map, Option.map_map]
      cases applies : group.applies graph id with
      | true => simp [Function.comp_def, Graph.admits, applies]
      | false => simp [Function.comp_def, Graph.admits, applies]
    rw [find?, findSome?_cons, ← first, flatMap_cons, find?_append,
      Option.map_or, ← ih, find?]
    cases ((group.rules.map fun rule => (group, rule)).find? (graph.admits id)) with
    | none => rfl
    | some candidate => rfl

/-- A book without groups for an operation has none for a key of it. -/
theorem hasKey_eq_false (absent : book.hasOperation key.operation = false) :
    book.hasKey key = false := by
  refine any_eq_false.mpr fun entry member same => ?_
  have other := any_eq_false.mp absent entry member
  rw [of_decide_eq_true same] at other
  exact other (decide_eq_true rfl)

theorem groupsFor_eq_nil (absent : book.hasKey key = false) : book.groupsFor key = [] := by
  rw [groupsFor, filterMap_eq_nil_iff]
  intro entry member
  have other := any_eq_false.mp absent entry member
  simpa using other

end RuleBook

namespace OrderedMap

variable {κ ν : Type} [DecidableEq κ]

/-- After a list of entries was written to a map, the last one for a key counts. -/
theorem get?_foldl_insert (entries : List (κ × ν)) (map : OrderedMap κ ν) (key : κ) :
    (entries.foldl (fun map entry => map.insert entry.1 entry.2) map).get? key =
      ((entries.reverse.find? fun entry => entry.1 = key).map Prod.snd).or (map.get? key) := by
  induction entries generalizing map with
  | nil => rfl
  | cons entry rest ih =>
    rw [foldl_cons, ih, get?_insert, reverse_cons, find?_append, Option.map_or,
      Option.or_assoc]
    congr 1
    by_cases same : entry.1 = key
    · simp [same]
    · simp [same]

/-- The entries of a map have distinct keys, so reading them backwards finds the same values. -/
theorem get?_of_nodup {map : OrderedMap κ ν} (distinct : map.keys.Nodup) (key : κ) :
    (map.entries.reverse.find? fun entry => entry.1 = key).map Prod.snd = map.get? key := by
  obtain ⟨entries⟩ := map
  induction entries with
  | nil => rfl
  | cons entry rest ih =>
    obtain ⟨own, value⟩ := entry
    obtain ⟨fresh, apart⟩ := nodup_cons.mp distinct
    rw [reverse_cons, find?_append, Option.map_or, ih apart, get?, get?, lookup]
    by_cases same : own = key
    · subst same
      have absent : lookup own rest = none :=
        Option.not_isSome_iff_eq_none.mp fun present =>
          fresh ((mem_keys_iff_lookup own rest).mpr present)
      simp [absent]
    · simp [same]

theorem nodup_keys_foldl_insert (entries : List (κ × ν)) {map : OrderedMap κ ν}
    (distinct : map.keys.Nodup) :
    (entries.foldl (fun map entry => map.insert entry.1 entry.2) map).keys.Nodup := by
  induction entries generalizing map with
  | nil => exact distinct
  | cons entry rest ih => exact ih (nodup_keys_insert map entry.1 entry.2 distinct)

/-- The upper map is asked first. -/
theorem get?_overlay {upper : OrderedMap κ ν} (distinct : upper.keys.Nodup)
    (lower : OrderedMap κ ν) (key : κ) :
    (upper.overlay lower).get? key = (upper.get? key).or (lower.get? key) := by
  rw [overlay, get?_foldl_insert, get?_of_nodup distinct]

end OrderedMap

theorem TargetPlan.get?_layer (books : OrderedMap Language RuleBook) (own language : Language)
    (book : RuleBook) :
    (layer books (own, book)).get? language =
      if own = language then
        some (match books.get? language with
          | some base => book.layeredOn base
          | none => book)
      else books.get? language := by
  by_cases same : own = language
  · subst same
    cases before : books.get? own with
    | none => simp [layer, before, OrderedMap.get?_insert]
    | some base => simp [layer, before, OrderedMap.get?_insert]
  · cases before : books.get? own with
    | none => simp [layer, before, OrderedMap.get?_insert, same]
    | some base => simp [layer, before, OrderedMap.get?_insert, same]

/-- Layering books over others puts them on top, the last one first. -/
theorem TargetPlan.get?_foldl_layer {books : OrderedMap Language RuleBook} {language : Language}
    {below : List RuleBook} (inherited : books.get? language = RuleBook.stack? below)
    (entries : List (Language × RuleBook)) :
    (entries.foldl layer books).get? language =
      RuleBook.stack? ((entries.filterMap fun entry =>
        if entry.1 = language then some entry.2 else none).reverse ++ below) := by
  induction entries generalizing books below with
  | nil => exact inherited
  | cons entry rest ih =>
    obtain ⟨own, book⟩ := entry
    rw [foldl_cons]
    by_cases same : own = language
    · have added : (layer books (own, book)).get? language = RuleBook.stack? (book :: below) := by
        rw [get?_layer, if_pos same, inherited, RuleBook.stack?_cons]
      rw [ih added]
      simp [same]
    · have kept : (layer books (own, book)).get? language = RuleBook.stack? below := by
        rw [get?_layer, if_neg same, inherited]
      rw [ih kept]
      simp [same]

namespace TargetLevel

theorem promotion?_plan (level : TargetLevel) (parent : Option Target) (format : Format) :
    (level.plan parent).promotions.get? format = level.promotion? format := by
  rw [plan, OrderedMap.get?_foldl_insert]
  exact Option.or_none

end TargetLevel

/-- What a target has is what its chain of levels wrote. -/
structure Target.Written (target : Target) (levels : List TargetLevel) : Prop where
  books : ∀ language,
    target.books.get? language = RuleBook.stack? (TargetLevel.search levels language)
  promotions : ∀ format,
    target.promotions.get? format = levels.findSome? fun level => level.promotion? format
  flags : target.flags = levels.reverse.flatMap TargetLevel.flags

namespace Target.Written

/-- A level that extends nothing. -/
theorem root (level : TargetLevel) : (level.plan none).target.Written [level] where
  books _ := TargetPlan.get?_foldl_layer rfl level.books
  promotions format := by
    rw [findSome?_singleton]
    exact level.promotion?_plan none format
  flags := by simp [TargetPlan.target, TargetLevel.plan]

/-- A level that extends a target. -/
theorem extend {parent : Target} {levels : List TargetLevel} (inherited : parent.Written levels)
    (level : TargetLevel) : (level.plan (some parent)).target.Written (level :: levels) where
  books language := TargetPlan.get?_foldl_layer (inherited.books language) level.books
  promotions format := by
    have distinct : (level.plan (some parent)).promotions.keys.Nodup :=
      OrderedMap.nodup_keys_foldl_insert level.promotions nodup_nil
    have overlaid := OrderedMap.get?_overlay distinct parent.promotions format
    rw [level.promotion?_plan, inherited.promotions] at overlaid
    rw [findSome?_cons]
    refine overlaid.trans ?_
    cases level.promotion? format with
    | none => rfl
    | some register => rfl
  flags := by
    simp [TargetPlan.target, TargetLevel.plan, inherited.flags]

end Target.Written

namespace TargetLevel

end TargetLevel

end Retarget

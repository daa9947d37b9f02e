import Retarget.Proofs.Output.Continuing
import Retarget.Proofs.Output.Outline

/-!
# Documents as sketches

A document under construction follows a sketch of what was done to it (`Document.Sketched`): the
text of each open draft is that of its scope's outline so far, each table of names holds what was
bound in it, and the tables that all scopes share hold all names of their categories. Every step of
a run keeps this.
-/

namespace Retarget

open List

namespace Language

theorem continueLines_append (after first second : String) :
    continueLines after (first ++ second) =
      continueLines after first ++ continueLines after second := by
  simp [continueLines, String.ofList_append]

end Language

namespace Draft

theorem dropStep_append_of_le (front : String) {back : String} (long : 4 ≤ back.toList.length) :
    dropStep (front ++ back) = front ++ dropStep back := by
  have same :
      step.toList.isSuffixOf (front ++ back).toList = step.toList.isSuffixOf back.toList := by
    rw [Bool.eq_iff_iff, isSuffixOf_iff_suffix, isSuffixOf_iff_suffix,
      String.toList_append]
    constructor
    · intro suffix
      exact suffix_of_suffix_length_le suffix (suffix_append _ _) long
    · intro suffix
      exact suffix.trans (suffix_append _ _)
  unfold dropStep
  rw [same]
  split
  · rw [String.toList_append, length_append, Nat.add_sub_assoc long,
      take_length_add_append, String.ofList_append, String.ofList_toList]
  · rfl

end Draft

namespace Outline

/-- What stands before a block is not touched by it. -/
theorem fill_append (language : Language) (front : String) {back : String}
    (long : 4 ≤ back.toList.length) (declarations body : String) :
    fill language (front ++ back) declarations body =
      front ++ fill language back declarations body := by
  unfold fill
  split
  · have longer : 4 ≤ (back ++ Language.continueLines Draft.step declarations).toList.length := by
      rw [String.toList_append, length_append]
      omega
    simp only [String.append_assoc, Draft.dropStep_append_of_le front longer]
  · rw [String.append_assoc]

theorem length_fill (language : Language) {front : String} (long : 4 ≤ front.toList.length)
    (declarations body : String) :
    4 ≤ (fill language front declarations body).toList.length := by
  unfold fill
  split
  · have ending : (Draft.step).toList.length = 4 := rfl
    simp only [String.toList_append, length_append]
    omega
  · simp only [String.toList_append, length_append]
    omega

end Outline

/-- What a draft does beyond collecting text, in a run that shares no signals and proves nothing. -/
def Flavor.ofLanguage (language : Language) (mainLevel : Bool) : Flavor :=
  match language with
  | .c => .plain
  | .vhdl => .hardware false mainLevel
  | .gappa => .verification {}

namespace Draft

/-- A draft with a text at a depth, and nothing for the head of the file. -/
def Shows (draft : Draft) (language : Language) (mainLevel : Bool) (depth : Nat) (text : String) :
    Prop :=
  draft =
    { language, flavor := Flavor.ofLanguage language mainLevel, text, depth, scope := draft.scope }

section

variable {language : Language} {mainLevel : Bool} {draft child : Draft} {text body : String}

section

variable (shows : draft.Shows language mainLevel 0 text)

include shows

theorem shows_scope (scope : Scope) : Shows { draft with scope } language mainLevel 0 text := by
  cases draft
  cases shows
  rfl

theorem append_shows (more : String) :
    (draft.append more).Shows language mainLevel 0 (text ++ more) := by
  cases draft
  cases shows
  rfl

theorem openBlock_shows :
    draft.openBlock.Shows language mainLevel 1 (text ++ language.blockOpen ++ step) := by
  cases draft
  cases shows
  rfl

end

theorem closeBlock_shows (shows : draft.Shows language mainLevel 1 text) :
    ∃ after, draft.closeBlock = .ok after ∧ after.scope = draft.scope ∧
      after.Shows language mainLevel 0 (dropStep text ++ language.blockClose) := by
  cases draft
  cases shows
  exact ⟨_, rfl, rfl, rfl⟩

theorem linkBlock_shows {transition link : String}
    (linked : language.blockLink? transition = some link)
    (shows : draft.Shows language mainLevel 1 text) :
    ∃ after, draft.linkBlock transition = .ok after ∧ after.scope = draft.scope ∧
      after.Shows language mainLevel 1 (dropStep text ++ link ++ step) := by
  cases draft
  cases shows
  simp only [linkBlock, linked]
  exact ⟨_, rfl, rfl, rfl⟩

theorem indentation_one : indentation 1 = step := rfl

theorem append_deeper (draft : Draft) (deeper : draft.depth = 1) (more : String) :
    draft.append more = { draft with text := draft.text ++ Language.continueLines step more } := by
  simp [append, deeper, indentation_one]

/-- A scope is written into the block around it. -/
theorem mergeInto_shows (blocks : language ≠ .gappa) (inner : child.Shows language false 0 body)
    (outer : draft.Shows language mainLevel 1 text) (names : Names) {emission : Emission}
    (headless : emission.headers = false) :
    ∃ after, child.mergeInto names emission draft = .ok () after ∧ after.scope = draft.scope ∧
      after.Shows language mainLevel 1
        (Outline.fill language text (child.declarations names emission) body) := by
  have deeper : draft.depth = 1 := by rw [outer]
  suffices merged : child.mergeInto names emission draft = .ok ()
      { draft with
        text := Outline.fill language draft.text (child.declarations names emission) body } by
    refine ⟨_, merged, rfl, ?_⟩
    cases draft
    cases outer
    rfl
  have balanced : child.checkBalanced = .ok () := by
    rw [inner]
    rfl
  have flavor : child.flavor = Flavor.ofLanguage language false := by rw [inner]
  have headers : child.headers = [] := by rw [inner]
  have libraries : child.libraries = [] := by rw [inner]
  have written : child.text = body := by rw [inner]
  unfold mergeInto mergeBody
  rw [balanced, flavor, headers, libraries, written, headless]
  generalize child.declarations names emission = declarations
  cases language with
  | gappa => exact absurd rfl blocks
  | c =>
    change EStateM.Result.ok () ((if declarations.isEmpty then draft.append declarations
      else (draft.append declarations).append "\n").append body) = _
    congr 1
    by_cases empty : declarations.isEmpty = true
    · simp [empty, append_deeper, deeper, Outline.fill, Language.continueLines_append,
        String.append_assoc]
    · simp [empty, append_deeper, deeper, Outline.fill, Language.continueLines_append,
        String.append_assoc]
  | vhdl =>
    have stepped : (draft.append declarations).dedent =
        .ok { draft with
          depth := 0
          text := dropStep (draft.text ++ Language.continueLines step declarations) } := by
      simp [append_deeper, deeper, dedent]
    change ((liftExcept (draft.append declarations).dedent >>= fun parent =>
      set ((((parent.append "\n").append "begin\n").indent.append "\n").append body)) >>=
      fun _ => modify id >>= fun _ => modify id : EStateM Fault Draft Unit)
        (draft.append declarations) = _
    rw [stepped]
    change EStateM.Result.ok () _ = _
    simp [append, indent, Outline.fill, String.append_assoc, deeper, indentation_one,
      Language.continueLines_append]

theorem render_shows (blocks : language ≠ .gappa) (shows : draft.Shows language true 0 text)
    (names : Names) (headers : Bool) :
    draft.render names { headers } =
      let top := (if headers then "\n\n" else "") ++ draft.declarations names { headers }
      .ok (top ++ (if top.isEmpty then "" else "\n") ++ text) := by
  have balanced : draft.checkBalanced = .ok () := by
    rw [shows]
    rfl
  have flavor : draft.flavor = Flavor.ofLanguage language true := by rw [shows]
  have written : draft.text = text := by rw [shows]
  have headless : draft.headerText = "" := by
    rw [shows]
    cases language with
    | gappa => exact absurd rfl blocks
    | c => rfl
    | vhdl => rfl
  unfold render
  rw [balanced, flavor, written, headless]
  generalize draft.declarations names { headers } = declarations
  cases language with
  | gappa => exact absurd rfl blocks
  | c => simp [Flavor.ofLanguage]
  | vhdl => simp [Flavor.ofLanguage]

end

end Draft

/-- The tables of a scope: those that all scopes share, and seven of its own from a place on. -/
def TableSet.placed (policy : SharingPolicy) (base : Nat) (category : Category) : Nat :=
  (Document.staticTable? policy category).getD (base + category.index)

/-- Each open scope's own tables stand above those of the scopes around it and hold what was bound
in the scope, category by category. -/
def Housed (policy : SharingPolicy) (tables : NameTables) :
    Nat → List Scope → List Outline → Prop
  | top, [], [] => 7 ≤ top
  | top, scope :: scopes, outline :: outlines =>
    ∃ base, base + 7 ≤ top ∧ scope.own = TableSet.placed policy base ∧
      (∀ category, policy.hoists category = false →
        (tables.table (base + category.index)).entries =
          (outline.own.filter (·.category = category)).map Binding.entry) ∧
      Housed policy tables base scopes outlines
  | _, _, _ => False

/-- The drafts around the innermost one, each inside its open block. -/
def Shown (policy : SharingPolicy) (language : Language) : List Draft → List Pending → Prop
  | [], [] => True
  | draft :: drafts, pending :: enclosing =>
    draft.Shows language enclosing.isEmpty 1 (pending.write policy language) ∧
      Shown policy language drafts enclosing
  | _, _ => False

/-- The outlines of the open scopes, without their open blocks, innermost first. -/
def Sketch.outlines (sketch : Sketch) : List Outline :=
  sketch.current :: sketch.enclosing.map Pending.before

namespace Housed

variable {top : Nat} {scopes : List Scope} {outlines : List Outline} {policy : SharingPolicy}
  {before after : NameTables}

section

variable (housed : Housed policy before top scopes outlines)

include housed

theorem top_ge : 7 ≤ top := by
  fun_induction Housed policy before top scopes outlines with
  | case1 top => exact housed
  | case2 top scope scopes outline outlines ih =>
    obtain ⟨base, below, _, _, rest⟩ := housed
    have above := ih base rest
    omega
  | case3 => exact housed.elim

theorem mono {higher : Nat} (above : top ≤ higher) :
    Housed policy before higher scopes outlines := by
  match scopes, outlines, housed with
  | [], [], housed => exact Nat.le_trans housed above
  | _ :: _, _ :: _, ⟨base, below, rest⟩ => exact ⟨base, Nat.le_trans below above, rest⟩

/-- What happens above a place leaves the scopes below it alone. -/
theorem frame
    (same : ∀ id, 7 ≤ id → id < top → (after.table id).entries = (before.table id).entries) :
    Housed policy after top scopes outlines := by
  fun_induction Housed policy before top scopes outlines with
  | case1 top => exact housed
  | case2 top scope scopes outline outlines ih =>
    obtain ⟨base, below, own, entries, rest⟩ := housed
    have above := rest.top_ge
    refine ⟨base, below, own, fun category unhoisted => ?_, ih base rest fun id low high => ?_⟩
    · have bound := category.index_lt
      rw [same _ (by omega) (by omega)]
      exact entries category unhoisted
    · exact same id low (by omega)
  | case3 => exact housed.elim

end

end Housed

theorem Category.index_inj {first second : Category} (same : first.index = second.index) :
    first = second := by
  cases first <;> cases second <;> first | rfl | exact absurd same (by decide)

section Placed

variable {base : Nat} {policy : SharingPolicy}
  (defaults : policy.sharedCategories = [.constant, .table, .function])

include defaults

theorem staticTable?_eq_hoists (category : Category) :
    Document.staticTable? policy category =
      if policy.hoists category then some category.index else none := by
  have same : policy.shares category = policy.hoists category := by
    unfold SharingPolicy.shares
    rw [defaults]
    cases category <;> simp [SharingPolicy.hoists]
  rw [Document.staticTable?, same]

/-- The tables of a scope stand among the shared ones or from its place on. -/
theorem TableSet.placed_eq (base : Nat) (category : Category) :
    placed policy base category =
      (if policy.hoists category then 0 else base) + category.index := by
  rw [placed, staticTable?_eq_hoists defaults]
  split <;> simp

theorem TableSet.placed_lt {top : Nat} (above : 7 ≤ base) (below : base + 7 ≤ top)
    (category : Category) : placed policy base category < top := by
  have bound := category.index_lt
  rw [placed_eq defaults]
  split <;> omega

theorem TableSet.placed_inj (above : 7 ≤ base) {first second : Category}
    (same : placed policy base first = placed policy base second) : first = second := by
  have left := first.index_lt
  have right := second.index_lt
  apply Category.index_inj
  rw [placed_eq defaults, placed_eq defaults] at same
  split_ifs at same <;> omega

/-- Bindings go to the table of their category and to no other. -/
theorem entriesAt_placed (above : 7 ≤ base) (category : Category) (bindings : List Binding) :
    Binding.entriesAt (TableSet.placed policy base) (TableSet.placed policy base category)
      bindings = (bindings.filter (·.category = category)).map Binding.entry := by
  unfold Binding.entriesAt
  congr 1
  refine filter_congr fun binding _ => ?_
  rw [decide_eq_decide]
  constructor
  · exact TableSet.placed_inj defaults above
  · rintro rfl
    rfl

theorem entriesAt_below {id : Nat} (low : 7 ≤ id) (high : id < base) (bindings : List Binding) :
    Binding.entriesAt (TableSet.placed policy base) id bindings = [] := by
  rw [Binding.entriesAt, map_eq_nil_iff, filter_eq_nil_iff]
  intro binding _ same
  have bound := binding.category.index_lt
  have place := TableSet.placed_eq defaults base binding.category
  rw [decide_eq_true_eq.mp same] at place
  split_ifs at place <;> omega

end Placed

/-- Binds some names in the innermost scope. -/
def Sketch.bind (sketch : Sketch) (new : Option Binding) : Sketch :=
  { sketch with current := sketch.current ++ new.toList.map Part.binding }

theorem Outline.own_map_binding (bindings : List Binding) :
    own (bindings.map Part.binding) = bindings := by
  simp [own, filterMap_map]

theorem Outline.bindings_map_binding (bindings : List Binding) :
    Outline.bindings (bindings.map Part.binding) = bindings := by
  induction bindings with
  | nil => rfl
  | cons binding rest ih => simp [Outline.bindings, partBindings, ih]

theorem Outline.write_map_binding (policy : SharingPolicy) (language : Language)
    (bindings : List Binding) : write policy language (bindings.map Part.binding) = "" := by
  induction bindings with
  | nil => rfl
  | cons binding rest ih => simp [write, writePart, ih]

theorem Sketch.bindings_bind (sketch : Sketch) (new : Option Binding) :
    (sketch.bind new).bindings = sketch.bindings ++ new.toList := by
  simp [bind, bindings, Outline.bindings_append, Outline.bindings_map_binding]

/-- The tables of the open scopes hold what was bound in them, and those that all scopes share hold
all names of their categories. -/
structure Tracked (policy : SharingPolicy) (names : Names) (scopes : List Scope)
    (outlines : List Outline) (bindings : List Binding) : Prop where
  housed : Housed policy names.tables names.tables.size scopes outlines
  statics : ∀ category, policy.hoists category = true →
    (names.tables.table category.index).entries =
      (bindings.filter (·.category = category)).map Binding.entry
  known : ∀ binding ∈ bindings, binding.Known names.entities

namespace Tracked

variable {policy : SharingPolicy} {names : Names} {scope : Scope} {scopes : List Scope}
  {outline : Outline} {outlines : List Outline} {bindings : List Binding}

section

variable (tracked : Tracked policy names (scope :: scopes) (outline :: outlines) bindings)

include tracked

/-- What binds no names may be added to an outline. -/
theorem of_own_eq {longer : Outline} (same : longer.own = outline.own) :
    Tracked policy names (scope :: scopes) (longer :: outlines) bindings := by
  obtain ⟨base, below, placed, entries, rest⟩ := tracked.housed
  refine ⟨⟨base, below, placed, fun category unhoisted => ?_, rest⟩, tracked.statics,
    tracked.known⟩
  rw [same]
  exact entries category unhoisted

/-- The scopes around the innermost one. -/
theorem tail : Tracked policy names scopes outlines bindings := by
  obtain ⟨base, below, placed, entries, rest⟩ := tracked.housed
  exact ⟨rest.mono (Nat.le_of_add_right_le below), tracked.statics, tracked.known⟩

theorem gains (defaults : policy.sharedCategories = [.constant, .table, .function])
    {after : Naming} {new : Option Binding}
    (gains : Naming.Gains { toNames := names, scope } after new) :
    Tracked policy after.toNames (after.scope :: scopes)
      ((outline ++ new.toList.map Part.binding) :: outlines) (bindings ++ new.toList) := by
  obtain ⟨base, below, placed, entries, rest⟩ := tracked.housed
  have above := rest.top_ge
  have gained (id : TableId) : (after.tables.table id).entries =
      (names.tables.table id).entries ++
        Binding.entriesAt (TableSet.placed policy base) id new.toList := by
    rw [gains.entries id]
    exact congrArg (fun own => _ ++ Binding.entriesAt own id new.toList) placed
  refine ⟨⟨base, ?_, gains.own.trans placed, ?_, ?_⟩, ?_, ?_⟩
  · exact gains.size ▸ below
  · intro category unhoisted
    have place := TableSet.placed_eq defaults base category
    simp only [unhoisted, Bool.false_eq_true, ↓reduceIte] at place
    rw [gained, ← place, entriesAt_placed defaults above, place, entries category unhoisted,
      Outline.own_append, Outline.own_map_binding, filter_append, map_append]
  · refine rest.frame fun id low high => ?_
    rw [gained, entriesAt_below defaults low high, append_nil]
  · intro category hoisted
    have place := TableSet.placed_eq defaults base category
    rw [if_pos hoisted, Nat.zero_add] at place
    rw [gained, ← place, entriesAt_placed defaults above, place, tracked.statics category hoisted,
      filter_append, map_append]
  · intro binding member
    rw [mem_append, Option.mem_toList] at member
    rcases member with old | fresh
    · exact gains.entities _ _ (tracked.known binding old)
    · exact gains.known binding fresh

end

/-- A new scope has empty tables of its own above all others. -/
theorem create (tracked : Tracked policy names scopes outlines bindings)
    (chain : List TableSet) (uniquifier : String) :
    Tracked policy
      { names with
        tables := (Scope.create names.tables (Document.staticTable? policy) chain uniquifier).1 }
      ((Scope.create names.tables (Document.staticTable? policy) chain uniquifier).2 :: scopes)
      ([] :: outlines) bindings := by
  refine ⟨⟨names.tables.size, ?_, rfl, ?_, ?_⟩, ?_, tracked.known⟩
  · have grown : (Scope.create names.tables (Document.staticTable? policy) chain
        uniquifier).1.size = names.tables.size + 7 := Scope.size_create chain
    exact Nat.le_of_eq grown.symm
  · intro category _
    rw [Scope.entries_create, NameTables.entries_of_size_le (Nat.le_add_right _ _)]
    rfl
  · refine tracked.housed.frame fun id _ _ => ?_
    rw [Scope.entries_create]
  · intro category hoisted
    rw [← tracked.statics category hoisted, Scope.entries_create]

end Tracked

section Declarations

theorem Outline.declarations_flatMap (language : Language) (omits : Category → Bool)
    (bindings : Category → List Binding) (categories : List Category) :
    declarations language (categories.flatMap fun category =>
        if omits category then [] else bindings category) =
      String.join ((categories.filter fun category => ¬ omits category).map fun category =>
        declarations language (bindings category)) := by
  induction categories with
  | nil => rfl
  | cons category rest ih =>
    cases omitted : omits category with
    | true => simpa [omitted] using ih
    | false => simpa [omitted, declarations, String.join_append] using ih

/-- A table that holds some bindings of known entities declares them. -/
theorem NameTable.declarations_eq {table : NameTable} {bindings : List Binding}
    {entities : Entities} (language : Language)
    (entries : table.entries = bindings.map Binding.entry)
    (known : ∀ binding ∈ bindings, binding.Known entities) :
    table.declarations language entities = Outline.declarations language bindings := by
  unfold declarations Outline.declarations
  rw [entries, map_map]
  refine congrArg String.join (map_congr_left fun binding member => ?_)
  have found : entities.entity binding.id = binding.entity := by
    rw [Entities.entity, known binding member, Option.getD_some]
  exact congrArg (fun entity => Entity.declaration language binding.name entity) found

theorem join_map_empty {α : Type} {list : List α} {text : α → String}
    (empty : ∀ value ∈ list, text value = "") : String.join (list.map text) = "" := by
  induction list with
  | nil => rfl
  | cons value rest ih =>
    rw [map_cons, String.join_cons, empty value mem_cons_self,
      ih fun other member => empty other (mem_cons_of_mem _ member)]
    rfl

theorem Scope.initializations_eq (scope : Scope) (tables : NameTables) (language : Language)
    (entities : Entities) (included : List Category) :
    scope.initializations tables language entities included = "" :=
  join_map_empty fun _ _ => join_map_empty fun _ _ => rfl

/-- A scope whose tables hold some bindings declares them, category by category. -/
theorem Draft.declarations_eq {draft : Draft} {names : Names} {emission : Emission}
    {bindings : Category → List Binding} {excludes : Category → Bool}
    (excluded : ∀ category, category ∈ draft.exclusions emission ↔ excludes category = true)
    (entries : ∀ category, excludes category = false →
      (names.tables.table (draft.scope.own category)).entries =
        (bindings category).map Binding.entry)
    (known : ∀ category, ∀ binding ∈ bindings category, binding.Known names.entities) :
    draft.declarations names emission =
      Outline.declarations draft.language
        (Category.all.flatMap fun category =>
          if excludes category then [] else bindings category) := by
  unfold declarations Scope.declarations
  rw [Scope.initializations_eq, String.append_empty, Outline.declarations_flatMap]
  simp only [excluded]
  refine congrArg String.join (map_congr_left fun category member => ?_)
  have included : excludes category = false := by simpa using (mem_filter.mp member).2
  exact NameTable.declarations_eq draft.language (entries category included) (known category)

end Declarations

theorem Outline.mem_bindings_of_own {outline : Outline} {binding : Binding}
    (member : binding ∈ outline.own) : binding ∈ outline.bindings := by
  induction outline with
  | nil => cases member
  | cons part rest ih =>
    rw [← singleton_append, own_append, mem_append] at member
    rw [bindings, mem_append]
    refine member.imp (fun first => ?_) ih
    cases part with
    | binding bound => exact first
    | text _ => cases first
    | block _ => cases first

/-- A document follows a sketch of what was done to it. -/
structure Document.Sketched (policy : SharingPolicy) (language : Language) (document : Document)
    (sketch : Sketch) : Prop where
  language_eq : document.language = language
  policy_eq : document.policy = policy
  current : document.current.Shows language sketch.enclosing.isEmpty 0
    (Outline.write policy language sketch.current)
  enclosing : Shown policy language document.enclosing sketch.enclosing
  tracked : Tracked policy document.names document.scopes sketch.outlines sketch.bindings

namespace Document.Sketched

variable {policy : SharingPolicy} {language : Language} {document : Document} {sketch : Sketch}

/-- Drafts that share no signals and prove nothing leave out what is written elsewhere. -/
theorem exclusions_eq {draft : Draft} {mainLevel : Bool} {depth : Nat} {text : String}
    (blocks : language ≠ .gappa) (shows : draft.Shows language mainLevel depth text)
    (emission : Emission) :
    draft.exclusions emission = (if emission.staticConstants then [.constant] else []) ++
      (if emission.staticTables then [.table] else []) ++
      if emission.skipFunctions then [.function] else [] := by
  cases draft
  cases shows
  cases language with
  | gappa => exact absurd rfl blocks
  | c => exact append_nil _
  | vhdl => exact append_nil _

theorem flavor_create (defaults : policy.sharedCategories = [.constant, .table, .function])
    (blocks : language ≠ .gappa) (tables : NameTables) (chain : List TableSet) (mainLevel : Bool) :
    (Draft.create language tables (staticTable? policy) chain policy.uniquifier mainLevel).2.Shows
      language mainLevel 0 "" := by
  cases language with
  | gappa => exact absurd rfl blocks
  | c => rfl
  | vhdl =>
    have unshared : staticTable? policy .signal = none := by
      rw [staticTable?_eq_hoists defaults]
      rfl
    unfold Draft.create
    rw [unshared]
    rfl

/-- Opening a scope in the block that the current draft is in. -/
theorem push (language_eq : document.language = language) (policy_eq : document.policy = policy)
    (defaults : policy.sharedCategories = [.constant, .table, .function])
    (blocks : language ≠ .gappa) {pending : Pending} {around : List Pending}
    (current : document.current.Shows language around.isEmpty 1 (pending.write policy language))
    (enclosing : Shown policy language document.enclosing around)
    (tracked : Tracked policy document.names document.scopes
      (pending.before :: around.map Pending.before)
      (Sketch.bindings { enclosing := pending :: around })) :
    (document.push []).Sketched policy language { enclosing := pending :: around } := by
  have shared : document.sharedTables [] = staticTable? policy := by
    funext category
    rw [sharedTables, policy_eq]
    rfl
  refine ⟨language_eq, policy_eq, ?_, ⟨current, enclosing⟩, ?_⟩
  · unfold Document.push
    rw [shared, language_eq, policy_eq]
    exact flavor_create defaults blocks _ _ false
  · have created := tracked.create document.current.scope.chain policy.uniquifier
    unfold Document.push
    rw [shared, policy_eq]
    exact created

/-- What the block around a scope has come to where the scope ends. -/
theorem dropStep_fill (policy : SharingPolicy) (language : Language) (pending : Pending)
    (outline : Outline) :
    Draft.dropStep (Outline.fill language (pending.write policy language)
      (Outline.declarations language (Outline.head policy outline))
      (Outline.write policy language outline)) =
    Outline.write policy language pending.before ++
      Outline.writeBlock policy language (pending.scopes outline) := by
  have long : 4 ≤ (Outline.opener language pending.transition ++ Draft.step).toList.length := by
    have last : Draft.step.toList.length = 4 := rfl
    rw [String.toList_append, length_append]
    omega
  rw [Pending.write, String.append_assoc, Outline.fill_append language _ long,
    Draft.dropStep_append_of_le _ (Outline.length_fill language long _ _), Pending.scopes,
    Outline.writeBlock_append, String.append_assoc]
  simp [Outline.writeBlock, Outline.scopeText]

section

variable (sketched : document.Sketched policy language sketch)

include sketched

theorem append (text : String) :
    (document.modifyCurrent (·.append text)).Sketched policy language
      (sketch.add (.text text)) := by
  have shows := Draft.append_shows sketched.current text
  have same : Outline.own (sketch.current ++ [.text text]) = sketch.current.own := by
    simp [Outline.own]
  refine ⟨sketched.language_eq, sketched.policy_eq, ?_, sketched.enclosing, ?_⟩
  · rw [Sketch.add, Outline.write_append, Outline.write_singleton]
    exact shows
  · have tracked := sketched.tracked.of_own_eq same
    rw [Sketch.bindings_add, Outline.partBindings, append_nil]
    unfold scopes modifyCurrent at *
    rw [Draft.scope_append]
    exact tracked

/-- There is no scope around the outermost one. -/
theorem enclosing_eq_nil_iff : document.enclosing = [] ↔ sketch.enclosing = [] := by
  have shown := sketched.enclosing
  cases outside : document.enclosing <;> cases around : sketch.enclosing <;> simp_all [Shown]

variable (defaults : policy.sharedCategories = [.constant, .table, .function])

include defaults

theorem gains {after : Naming} {new : Option Binding}
    (gains : Naming.Gains { toNames := document.names, scope := document.current.scope } after
      new) :
    Document.Sketched policy language
      { document with
        names := after.toNames, current := { document.current with scope := after.scope } }
      (sketch.bind new) := by
  refine ⟨sketched.language_eq, sketched.policy_eq, ?_, sketched.enclosing, ?_⟩
  · rw [Sketch.bind, Outline.write_append, Outline.write_map_binding, String.append_empty]
    exact Draft.shows_scope sketched.current after.scope
  · rw [Sketch.bindings_bind]
    exact sketched.tracked.gains defaults gains

variable (blocks : language ≠ .gappa)

include blocks

/-- What a scope declares when it closes. -/
theorem declarations_closing :
    document.current.declarations document.names (closing policy) =
      Outline.declarations language (Outline.head policy sketch.current) := by
  obtain ⟨base, below, placed, entries, rest⟩ := sketched.tracked.housed
  have written : document.current.language = language := by rw [sketched.current]
  unfold Outline.head
  rw [← written]
  refine Draft.declarations_eq (fun category => ?_) ?_ ?_
  · rw [exclusions_eq blocks sketched.current, closing]
    cases category <;> simp [SharingPolicy.hoists]
  · intro category unhoisted
    rw [placed, TableSet.placed_eq defaults, unhoisted]
    exact entries category unhoisted
  · intro category binding member
    exact sketched.tracked.known binding (mem_append_right _
      (Outline.mem_bindings_of_own (mem_filter.mp member).1))

theorem openScope :
    ((document.modifyCurrent Draft.openBlock).push []).Sketched policy language
      sketch.openScope := by
  have shows := Draft.openBlock_shows sketched.current
  have language_eq : (document.modifyCurrent Draft.openBlock).language = language :=
    sketched.language_eq
  refine push language_eq sketched.policy_eq defaults blocks ?_ sketched.enclosing ?_
  · have written : Pending.write policy language ⟨sketch.current, [], none⟩ =
        Outline.write policy language sketch.current ++ language.blockOpen ++ Draft.step := by
      simp [Pending.write, Outline.writeBlock, Outline.opener]
    rw [written]
    exact shows
  · have tracked := sketched.tracked
    rw [← sketch.bindings_openScope] at tracked
    unfold scopes modifyCurrent at *
    rw [Draft.scope_openBlock]
    exact tracked

/-- The innermost scope is written into the block around it. -/
theorem merge {pending : Pending} {around : List Pending}
    (inside : sketch.enclosing = pending :: around) :
    ∃ outer enclosing,
      Document.merge document = .ok () { document with current := outer, enclosing } ∧
      outer.Shows language around.isEmpty 1
        (Outline.fill language (pending.write policy language)
          (Outline.declarations language (Outline.head policy sketch.current))
          (Outline.write policy language sketch.current)) ∧
      Shown policy language enclosing around ∧
      Tracked policy document.names (outer.scope :: enclosing.map Draft.scope)
        (pending.before :: around.map Pending.before) sketch.bindings := by
  have shown := sketched.enclosing
  rw [inside] at shown
  cases outside : document.enclosing with
  | nil =>
    rw [outside] at shown
    exact False.elim shown
  | cons parent enclosing =>
    rw [outside] at shown
    obtain ⟨shows, rest⟩ := shown
    have current := sketched.current
    rw [inside] at current
    have headless : (closing policy).headers = false := rfl
    obtain ⟨outer, merged, scope, filled⟩ :=
      Draft.mergeInto_shows blocks current shows document.names headless
    rw [sketched.declarations_closing defaults blocks] at filled
    rw [← sketched.policy_eq] at merged
    refine ⟨outer, enclosing, merge_of_mergeInto outside merged, filled, rest, ?_⟩
    · have tracked := sketched.tracked.tail
      rw [inside, outside] at tracked
      rw [scope]
      exact tracked

theorem closeScope (inside : sketch.enclosing ≠ []) :
    ∃ after, Document.closeScope document = .ok () after ∧
      after.Sketched policy language sketch.closeScope := by
  obtain ⟨pending, around, outside⟩ := exists_cons_of_ne_nil inside
  obtain ⟨outer, enclosing, merged, filled, shown, tracked⟩ :=
    sketched.merge defaults blocks outside
  obtain ⟨current, closed, scope, shows⟩ := Draft.closeBlock_shows filled
  rw [dropStep_fill] at shows
  refine ⟨{ document with current, enclosing }, ?_, ?_⟩
  · rw [Document.closeScope, bind_of_eq_ok merged]
    exact tryCurrent_of_ok closed
  · have same : Outline.own (pending.before ++ [.block (pending.scopes sketch.current)]) =
        pending.before.own := by
      simp [Outline.own]
    have bindings := sketch.bindings_closeScope
    unfold Sketch.closeScope at bindings ⊢
    rw [outside] at bindings ⊢
    dsimp only at bindings ⊢
    refine ⟨sketched.language_eq, sketched.policy_eq, ?_, shown, ?_⟩
    · rw [Outline.write_append, Outline.write_singleton, Outline.writePart, ← String.append_assoc]
      exact shows
    · rw [bindings]
      unfold scopes
      rw [scope]
      exact tracked.of_own_eq same

theorem linkScope (inside : sketch.enclosing ≠ []) (transition : String) :
    ∃ after, Document.linkScope transition document = .ok () after ∧
      after.Sketched policy language (sketch.linkScope transition) := by
  obtain ⟨pending, around, outside⟩ := exists_cons_of_ne_nil inside
  obtain ⟨outer, enclosing, merged, filled, shown, tracked⟩ :=
    sketched.merge defaults blocks outside
  obtain ⟨link, linked⟩ := blockLink?_isSome blocks transition
  obtain ⟨current, stepped, scope, shows⟩ := Draft.linkBlock_shows linked filled
  rw [dropStep_fill] at shows
  have language_eq : ({ document with current, enclosing } : Document).language = language :=
    sketched.language_eq
  refine ⟨Document.push { document with current, enclosing } [], ?_, ?_⟩
  · rw [linkScope_eq (by rw [sketched.language_eq]; exact blocks), bind_of_eq_ok merged,
      bind_of_eq_ok (tryCurrent_of_ok stepped)]
    rfl
  · have bindings := sketch.bindings_linkScope transition
    unfold Sketch.linkScope at bindings ⊢
    rw [outside] at bindings ⊢
    dsimp only at bindings ⊢
    refine push language_eq sketched.policy_eq defaults blocks ?_ shown ?_
    · have written : Pending.write policy language
          { pending with finished := pending.scopes sketch.current, transition } =
          Outline.write policy language pending.before ++
            Outline.writeBlock policy language (pending.scopes sketch.current) ++ link ++
            Draft.step := by
        simp [Pending.write, Outline.opener, linked]
      rw [written]
      exact shows
    · rw [bindings]
      unfold scopes
      rw [scope]
      exact tracked

/-- What the head of the file declares. -/
theorem declarations_file (outermost : sketch.enclosing = []) (headers : Bool) :
    document.current.declarations document.names { headers } =
      Outline.declarations language (Outline.fileHead policy sketch.current) := by
  obtain ⟨base, below, placed, entries, rest⟩ := sketched.tracked.housed
  have written : document.current.language = language := by rw [sketched.current]
  have all : sketch.bindings = sketch.current.bindings := by
    rw [Sketch.bindings, outermost]
    rfl
  rw [← written]
  refine (Draft.declarations_eq (fun category => ?_) ?_ ?_ : _ = Outline.declarations _
    (Category.all.flatMap fun category => if (fun _ => false) category then [] else _))
  · rw [exclusions_eq blocks sketched.current]
    simp
  · intro category _
    rw [placed, TableSet.placed_eq defaults]
    cases hoisted : policy.hoists category with
    | true => simp [sketched.tracked.statics category hoisted, all]
    | false => simp [entries category hoisted]
  · intro category binding member
    apply sketched.tracked.known
    rw [all]
    have inside := (mem_filter.mp member).1
    split at inside
    · exact inside
    · exact Outline.mem_bindings_of_own inside

/-- A document whose scopes are all closed is the file of its outline. -/
theorem finish (outermost : sketch.enclosing = []) (headers : Bool) :
    document.finish headers = .ok (Outline.file policy language sketch.current headers) := by
  have declared := sketched.declarations_file defaults blocks outermost headers
  have current := sketched.current
  rw [outermost] at current
  rw [Document.finish, sketched.enclosing_eq_nil_iff.mpr outermost]
  dsimp only
  rw [Draft.render_shows blocks current, declared]
  rfl

end

/-- A new document follows the empty sketch. -/
theorem create (defaults : policy.sharedCategories = [.constant, .table, .function])
    (blocks : language ≠ .gappa) :
    (Document.create language policy).Sketched policy language {} := by
  have shared : Tracked policy
      { tables := (Category.all.map fun category =>
          ({ category, uniquifier := policy.uniquifier } : NameTable)).toArray } [] [] [] := by
    refine ⟨Nat.le_refl 7, fun category _ => ?_, fun binding member => by cases member⟩
    exact Scope.entries_fresh policy.uniquifier category.index
  exact ⟨rfl, rfl, flavor_create defaults blocks _ _ true, trivial,
    shared.create [] policy.uniquifier⟩

end Document.Sketched

end Retarget

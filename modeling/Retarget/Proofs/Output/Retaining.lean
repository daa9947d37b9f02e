import Retarget.Proofs.Output.Restoring

/-!
# Declarations that are not lost

With an arbitrary sharing policy a name may be declared several times, and it may not be declared at
all. A closing scope writes the declarations of its tables except for the categories that belong at
the head of the file, and the head of the file has those only where the policy shares their tables.
Hardware leaves out shared signals everywhere. In all other cases the declaration of every bound
name is in the finished file, moved to the right by the scopes around it (`Holds`).
-/

namespace Retarget

open List

namespace Lines

theorem getLast?_of_ended (begins : Bool) {text : List Char} (written : text ≠ [])
    (whole : ended begins text = true) : text.getLast? = some '\n' := by
  induction text generalizing begins with
  | nil => exact absurd rfl written
  | cons c rest ih =>
    cases rest with
    | nil =>
      rw [beq_iff_eq.mp (show (c == '\n') = true from whole)]
      rfl
    | cons second rest =>
      rw [getLast?_cons_cons]
      exact ih (c == '\n') (cons_ne_nil _ _) whole

theorem mem_indent (margin : List Char) (begins : Bool) {text : List Char} {c : Char}
    (member : c ∈ text) : c ∈ indent margin begins text := by
  induction text generalizing begins with
  | nil => cases member
  | cons first rest ih =>
    rw [indent, mem_append]
    rcases mem_cons.mp member with rfl | later
    · exact .inr mem_cons_self
    · exact .inr (mem_cons_of_mem _ (ih _ later))

end Lines

/-- A text holds some lines, moved to the right as a whole. -/
def Holds (text lines : String) : Prop :=
  ∃ level, Lines.indent (List.replicate (4 * level) ' ') false lines.toList <:+: text.toList

namespace Holds

variable {text lines : String}

theorem of_inside (inside : lines.toList <:+: text.toList) : Holds text lines := by
  refine ⟨0, ?_⟩
  rw [Nat.mul_zero, replicate_zero, Lines.indent_nil_margin]
  exact inside

section

variable (holds : Holds text lines)

include holds

theorem of_text_inside {whole : String} (inside : text.toList <:+: whole.toList) :
    Holds whole lines := by
  obtain ⟨level, moved⟩ := holds
  exact ⟨level, moved.trans inside⟩

theorem append_left (front : String) : Holds (front ++ text) lines := by
  refine holds.of_text_inside ?_
  rw [String.toList_append]
  exact (suffix_append _ _).isInfix

theorem append_right (back : String) : Holds (text ++ back) lines := by
  refine holds.of_text_inside ?_
  rw [String.toList_append]
  exact (prefix_append _ _).isInfix

/-- Text that is moved to the right holds the lines that it held. -/
theorem continueLines (depth : Nat) :
    Holds (Language.continueLines (Draft.indentation depth) text) lines := by
  obtain ⟨level, front, back, whole⟩ := holds
  have single : '\n' ∉ List.replicate (4 * level) ' ' := by
    simp [mem_replicate]
  refine ⟨depth + level, ?_⟩
  have moved := Lines.margin_flatMap (List.replicate (4 * depth) ' ') false
    (Lines.indent (List.replicate (4 * level) ' ') false lines.toList)
  rw [Lines.indent_indent _ single, ← replicate_add, ← Nat.mul_add] at moved
  rw [Language.continueLines, Draft.indentation, String.toList_ofList, String.toList_ofList,
    ← whole, flatMap_append, flatMap_append]
  simp only [Bool.false_eq_true, ↓reduceIte, nil_append] at moved
  rw [moved, append_assoc, append_assoc]
  exact infix_append' _ _ _

end

/-- Whole lines stay in a draft that is written on. -/
theorem of_continues {before after : Draft} (holds : Holds before.text lines)
    (whole : WholeLines lines) (continues : before.Continues after) : Holds after.text lines := by
  obtain ⟨level, moved⟩ := holds
  refine ⟨level, ?_⟩
  cases chars : lines.toList with
  | nil => exact ⟨[], _, rfl⟩
  | cons first rest =>
    rw [chars] at moved
    refine continues.lines _ (Lines.getLast?_of_ended false (cons_ne_nil _ _) ?_) moved
    have ended : Lines.ended true lines.toList = true := whole
    rw [chars] at ended
    exact (Lines.ended_indent _ false (first :: rest)).trans ended

theorem mem {c : Char} (holds : Holds text lines) (member : c ∈ lines.toList) :
    c ∈ text.toList := by
  obtain ⟨level, moved⟩ := holds
  exact moved.subset (Lines.mem_indent _ false member)

end Holds

namespace Draft

variable {names : Names} {emission : Emission} {draft child parent outer : Draft} {lines : String}

theorem append_holds (draft : Draft) {text : String} (holds : Holds text lines) :
    Holds (draft.append text).text lines := by
  unfold append
  split
  · exact holds.append_left draft.text
  · exact (holds.continueLines draft.depth).append_left draft.text

/-- What a draft declares and what it holds is then in its parent, as is what was there before. -/
theorem mergeInto_holds (whole : WholeLines lines)
    (merged : child.mergeInto names emission parent = .ok () outer)
    (holds : Holds parent.text lines ∨ Holds (child.declarations names emission) lines ∨
      Holds child.text lines) : Holds outer.text lines := by
  obtain ⟨front, middle, first, second, third⟩ := mergeInto_eq_ok merged
  have last := second.trans ((middle.append_advances child.text).trans third)
  rcases holds with there | declared | written
  · exact there.of_continues whole (mergeInto_advances merged).toContinues
  · exact (front.append_holds declared).of_continues whole last.toContinues
  · exact (middle.append_holds written).of_continues whole third.toContinues

end Draft

/-! ## What a draft declares -/

/-- The declaration of a bound name. -/
def Binding.declaration (language : Language) (binding : Binding) : String :=
  binding.entity.declaration language binding.name

namespace Entity

theorem wholeLines_cDeclaration (name : String) :
    ∀ entity : Entity, WholeLines (entity.cDeclaration name)
  | .constant _ _ | .variable _ | .signal _ | .table _ _ | .function _ _ =>
    .append_line _ (by decide)
  | .component _ | .reserved _ => .empty

theorem wholeLines_vhdlDeclaration (name : String) :
    ∀ entity : Entity, WholeLines (entity.vhdlDeclaration name)
  | .constant _ _ | .variable _ | .signal _ | .table _ _ | .component _ =>
    .append_line _ (by decide)
  | .function _ _ | .reserved _ => .empty

theorem wholeLines_gappaDeclaration (name : String) :
    ∀ entity : Entity, WholeLines (entity.gappaDeclaration name)
  | .constant _ _ => .append_line _ (by decide)
  | .variable _ | .signal _ | .table _ _ | .function _ _ | .component _ | .reserved _ => .empty

end Entity

theorem Binding.wholeLines (language : Language) (binding : Binding) :
    WholeLines (binding.declaration language) := by
  cases language with
  | c => exact binding.entity.wholeLines_cDeclaration binding.name
  | vhdl => exact binding.entity.wholeLines_vhdlDeclaration binding.name
  | gappa => exact binding.entity.wholeLines_gappaDeclaration binding.name

theorem infix_join {text : String} {texts : List String} (member : text ∈ texts) :
    text.toList <:+: (String.join texts).toList := by
  induction texts with
  | nil => cases member
  | cons first rest ih =>
    rw [String.join_cons, String.toList_append]
    rcases mem_cons.mp member with rfl | later
    · exact (prefix_append _ _).isInfix
    · exact (ih later).trans (suffix_append _ _).isInfix

/-- The declarations of a draft hold those of its tables, unless their category is left out. -/
theorem Draft.declarations_holds {draft : Draft} {names : Names} {emission : Emission}
    {binding : Binding} (known : binding.Known names.entities)
    (entry : binding.entry ∈ (names.tables.table (draft.scope.own binding.category)).entries)
    (included : binding.category ∉ draft.exclusions emission) :
    Holds (draft.declarations names emission) (binding.declaration draft.language) := by
  have found : names.entities.entity binding.id = binding.entity := by
    rw [Entities.entity, known, Option.getD_some]
  have inTable : (binding.declaration draft.language).toList <:+:
      ((names.tables.table (draft.scope.own binding.category)).declarations draft.language
        names.entities).toList := by
    refine infix_join (mem_map.mpr ⟨binding.entry, entry, ?_⟩)
    exact congrArg (fun entity => Entity.declaration draft.language binding.name entity) found
  refine Holds.append_right (.of_inside (inTable.trans (infix_join ?_))) _
  refine mem_map.mpr ⟨binding.category, ?_, rfl⟩
  exact mem_filter.mpr ⟨Category.mem_all _, by simpa using included⟩

/-- Whether drafts leave out a category everywhere. -/
def SharingPolicy.omits (policy : SharingPolicy) (language : Language) (category : Category) :
    Bool :=
  language = .vhdl && category = .signal && policy.shares .signal

/-- Whether every name that is bound in a category is declared somewhere: it is not left out
everywhere, and it is not left to a table at the head of the file that the scopes do not share. -/
def SharingPolicy.declares (policy : SharingPolicy) (language : Language) (category : Category) :
    Bool :=
  !policy.omits language category && (!policy.hoists category || policy.shares category)

/-- The flavor of drafts in a language with blocks, under a policy. -/
def Flavor.Fits (policy : SharingPolicy) (language : Language) (flavor : Flavor) : Prop :=
  match language with
  | .c => flavor = .plain
  | .vhdl => ∃ mainLevel, flavor = .hardware (policy.shares .signal) mainLevel
  | .gappa => False

namespace Draft

variable {draft : Draft} {policy : SharingPolicy} {language : Language} {category : Category}

theorem exclusions_eq (fits : draft.flavor.Fits policy language) (emission : Emission) :
    draft.exclusions emission = (if emission.staticConstants then [.constant] else []) ++
      (if emission.staticTables then [.table] else []) ++
      (if emission.skipFunctions then [.function] else []) ++
      if policy.omits language .signal then [.signal] else [] := by
  unfold exclusions
  congr 1
  cases language with
  | gappa => exact fits.elim
  | c => rw [show draft.flavor = .plain from fits]; rfl
  | vhdl =>
    obtain ⟨mainLevel, flavor⟩ := fits
    rw [flavor]
    cases shared : policy.shares .signal <;> simp [SharingPolicy.omits, shared]

theorem mem_exclusions_closing (fits : draft.flavor.Fits policy language) :
    category ∈ draft.exclusions (Document.closing policy) ↔
      policy.hoists category = true ∨ policy.omits language category = true := by
  rw [exclusions_eq fits, Document.closing]
  cases category <;> simp [SharingPolicy.hoists, SharingPolicy.omits]

theorem mem_exclusions_file (fits : draft.flavor.Fits policy language) (headers : Bool) :
    category ∈ draft.exclusions { headers } ↔ policy.omits language category = true := by
  rw [exclusions_eq fits]
  cases category <;> simp [SharingPolicy.omits]

end Draft

/-! ## Bindings that are kept -/

/-- A binding is in a table of one of some drafts, or one of them holds its declaration. -/
def Binding.KeptIn (language : Language) (names : Names) (drafts : List Draft)
    (binding : Binding) : Prop :=
  ∃ draft ∈ drafts,
    binding.entry ∈ (names.tables.table (draft.scope.own binding.category)).entries ∨
      Holds draft.text (binding.declaration language)

namespace Binding.KeptIn

variable {language : Language} {names : Names} {drafts others : List Draft} {draft : Draft}
  {binding : Binding}

/-- A draft that is written on keeps what it has. -/
theorem continues {draft after : Draft} (kept : binding.KeptIn language names (draft :: drafts))
    (continues : draft.Continues after) : binding.KeptIn language names (after :: drafts) := by
  obtain ⟨other, member, held⟩ := kept
  rcases mem_cons.mp member with rfl | outer
  · refine ⟨after, mem_cons_self, held.imp (fun entry => ?_) fun holds => ?_⟩
    · rw [continues.own]
      exact entry
    · exact holds.of_continues (binding.wholeLines language) continues
  · exact ⟨other, mem_cons_of_mem _ outer, held⟩

/-- A draft that ends is written into its parent with the declarations of its tables, and what it
leaves out is in a table of the parent as well. -/
theorem merge {policy : SharingPolicy} {child parent outer : Draft}
    (kept : binding.KeptIn language names (child :: parent :: drafts))
    (known : binding.Known names.entities) (written : child.language = language)
    (merged : child.mergeInto names (Document.closing policy) parent = .ok () outer)
    (left : binding.category ∈ child.exclusions (Document.closing policy) →
      child.scope.own binding.category = parent.scope.own binding.category) :
    binding.KeptIn language names (outer :: drafts) := by
  have whole := binding.wholeLines language
  have scope : outer.scope = parent.scope :=
    (child.mergeInto_sameScope names (Document.closing policy)).of_eq_ok merged
  obtain ⟨draft, member, held⟩ := kept
  rcases mem_cons.mp member with rfl | member
  · refine ⟨outer, mem_cons_self, ?_⟩
    rcases held with entry | holds
    · by_cases excluded : binding.category ∈ draft.exclusions (Document.closing policy)
      · left
        rw [scope, ← left excluded]
        exact entry
      · right
        have declared := Draft.declarations_holds known entry excluded
        rw [written] at declared
        exact Draft.mergeInto_holds whole merged (.inr (.inl declared))
    · exact .inr (Draft.mergeInto_holds whole merged (.inr (.inr holds)))
  rcases mem_cons.mp member with rfl | member
  · refine ⟨outer, mem_cons_self, held.imp (fun entry => ?_) fun holds => ?_⟩
    · rw [scope]
      exact entry
    · exact Draft.mergeInto_holds whole merged (.inl holds)
  · exact ⟨draft, mem_cons_of_mem _ member, held⟩

/-- The opening of a scope leaves all tables with their entries. -/
theorem push {document : Document}
    (kept : binding.KeptIn language document.names document.drafts) :
    binding.KeptIn language (document.push []).names (document.push []).drafts := by
  obtain ⟨draft, member, held⟩ := kept
  refine ⟨draft, mem_cons_of_mem _ member, held.imp_left fun entry => ?_⟩
  rw [Document.entries_push]
  exact entry

end Binding.KeptIn

namespace Document

/-- What plain operations keep, whatever the policy: the innermost draft is in no block and each of
the others in one, and the bindings of all categories that are declared at all are kept. -/
structure Retains (language : Language) (policy : SharingPolicy) (bindings : List Binding)
    (document : Document) : Prop where
  language_eq : document.language = language
  levels : ∃ count, document.drafts.map Draft.level =
    (language, 0) :: List.replicate count (language, 1)
  flavors : ∀ draft ∈ document.drafts, draft.flavor.Fits policy language
  nested : document.WellNested
  within : document.Within policy (staticTables policy) [] bindings
  known : ∀ binding ∈ bindings, binding.Known document.names.entities
  kept : ∀ binding ∈ bindings, policy.declares language binding.category = true →
    binding.KeptIn language document.names document.drafts

theorem entities_push (document : Document) (extra : List Category) :
    (document.push extra).names.entities = document.names.entities := rfl

/-- No operation takes an entity away. -/
theorem Shifts.entities {document after : Document} {new : Option Binding}
    (shifts : Shifts document after new) {id : EntityId} {entity : Entity}
    (known : document.names.entities[id]? = some entity) :
    after.names.entities[id]? = some entity := by
  cases shifts with
  | name confined => exact confined.entities id entity known
  | stay same =>
    rw [same.names]
    exact known
  | enter extra same =>
    rw [entities_push, same.names]
    exact known
  | leave inner same =>
    rw [same.names, names_abandon]
    exact known
  | replace inner same =>
    rw [entities_push, same.names, names_abandon]
    exact known

namespace Retains

variable {language : Language} {policy : SharingPolicy} {bindings : List Binding}
  {document after : Document} {operation : Operation}

section

variable (retains : document.Retains language policy bindings)

include retains

theorem anchored : document.Anchored := by
  obtain ⟨count, levels⟩ := retains.levels
  refine ⟨0, List.replicate count 0, ?_⟩
  rw [levels, retains.language_eq, map_replicate]

theorem flat : document.current.depth = 0 := by
  obtain ⟨count, levels⟩ := retains.levels
  exact congrArg Prod.snd (List.cons.inj levels).1

theorem written : document.current.language = language := by
  obtain ⟨count, levels⟩ := retains.levels
  exact congrArg Prod.fst (List.cons.inj levels).1

section

variable (plain : operation.isPlain document = true)
  (reached : finalState (operation.perform document) = after)
  (language_eq : after.language = document.language)
  (levels : ∃ count, after.drafts.map Draft.level =
    (language, 0) :: List.replicate count (language, 1))
  (flavors : ∀ draft ∈ after.drafts, draft.flavor.Fits policy language)
  (kept : ∀ binding ∈ bindings, policy.declares language binding.category = true →
    binding.KeptIn language after.names after.drafts)

include plain reached language_eq levels flavors kept

/-- What is left to show of an operation: how it leaves the drafts, and that they keep the bindings
of before and the new one. -/
theorem step (gained : ∀ binding ∈ operation.binding? document,
      binding.KeptIn language after.names after.drafts) :
    after.Retains language policy (bindings ++ (operation.binding? document).toList) := by
  have founded := retains.nested.founded
  have shifts := operation.perform_shifts founded
  have new := operation.known_of_namesMade (Operation.namesMade_of_isPlain plain) founded
  have nested := (operation.perform_keeps document).nested retains.nested
  rw [reached] at shifts new nested
  refine ⟨language_eq.trans retains.language_eq, levels, flavors, nested, ?_, ?_, ?_⟩
  · exact retains.within.shifts (Nat.le_refl 7) (Nat.succ_pos _) shifts
  · intro binding member
    rcases mem_append.mp member with old | added
    · exact shifts.entities (retains.known binding old)
    · exact new binding (Option.mem_toList.mp added)
  · intro binding member declares
    rcases mem_append.mp member with old | added
    · exact kept binding old declares
    · exact gained binding (Option.mem_toList.mp added)

/-- Operations that bind nothing and leave all bindings where they were or in a text. -/
theorem unbound (none : operation.binding? document = none) :
    after.Retains language policy (bindings ++ (operation.binding? document).toList) := by
  refine retains.step plain reached language_eq levels flavors kept ?_
  rw [none]
  rintro binding ⟨⟩

end

/-- Operations on names: a new binding is in a table of the innermost draft. -/
theorem naming (plain : operation.isPlain document = true) (names : operation.Names document) :
    (finalState (operation.perform document)).Retains language policy
      (bindings ++ (operation.binding? document).toList) := by
  obtain ⟨naming, reached, confined⟩ := names
  have grown {id : TableId} {entry : String × EntityId}
      (member : entry ∈ (document.names.tables.table id).entries) :
      entry ∈ (naming.tables.table id).entries := by
    rw [confined.entries id]
    exact mem_append_left _ member
  refine reached ▸ retains.step plain reached rfl retains.levels ?_ ?_ ?_
  · intro draft member
    rcases mem_cons.mp member with rfl | outer
    · exact retains.flavors document.current mem_cons_self
    · exact retains.flavors draft (mem_cons_of_mem _ outer)
  · intro binding old declares
    obtain ⟨draft, member, held⟩ := retains.kept binding old declares
    rcases mem_cons.mp member with rfl | outer
    · refine ⟨_, mem_cons_self, held.imp_left fun entry => ?_⟩
      change _ ∈ (naming.tables.table (naming.scope.own binding.category)).entries
      rw [confined.own]
      exact grown entry
    · exact ⟨draft, mem_cons_of_mem _ outer, held.imp_left grown⟩
  · intro binding new
    refine ⟨_, mem_cons_self, .inl ?_⟩
    change _ ∈ (naming.tables.table (naming.scope.own binding.category)).entries
    rw [confined.own, confined.entries]
    refine mem_append_right _ (mem_map.mpr ⟨binding, ?_, rfl⟩)
    exact mem_filter.mpr ⟨Option.mem_toList.mpr new, decide_eq_true rfl⟩

theorem fits_current {current : Draft} (same : current.flavor = document.current.flavor) :
    current.flavor.Fits policy language := by
  rw [same]
  exact retains.flavors document.current mem_cons_self

theorem fits_enclosing : ∀ draft ∈ document.enclosing, draft.flavor.Fits policy language :=
  fun draft outer => retains.flavors draft (mem_cons_of_mem _ outer)

theorem append (text : String) :
    (finalState ((Operation.append text).perform document)).Retains language policy
      (bindings ++ ((Operation.append text).binding? document).toList) := by
  have advances := document.current.append_advances text
  refine retains.unbound rfl rfl rfl ?_ ?_ ?_ rfl
  · obtain ⟨count, levels⟩ := retains.levels
    refine ⟨count, ?_⟩
    rw [← levels]
    exact congrArg (· :: _) (document.current.level_append text)
  · exact forall_mem_cons.mpr ⟨retains.fits_current advances.flavor, retains.fits_enclosing⟩
  · intro binding old declares
    exact (retains.kept binding old declares).continues advances.toContinues

end

theorem fits_create (policy : SharingPolicy) (blocks : language ≠ .gappa) (tables : NameTables)
    (chain : List TableSet) (mainLevel : Bool) :
    (Draft.create language tables (staticTable? policy) chain policy.uniquifier
      mainLevel).2.flavor.Fits policy language := by
  have shared : (staticTable? policy .signal).isSome = policy.shares .signal := by
    rw [staticTable?]
    cases policy.shares .signal <;> rfl
  cases language with
  | c => rfl
  | vhdl => exact ⟨mainLevel, congrArg (Flavor.hardware · mainLevel) shared⟩
  | gappa => exact absurd rfl blocks

section

variable (retains : document.Retains language policy bindings)

include retains

/-- Operations that end with the opening of a scope. -/
theorem pushed (blocks : language ≠ .gappa) (plain : operation.isPlain document = true)
    {middle : Document} (reached : finalState (operation.perform document) = middle.push [])
    (none : operation.binding? document = none)
    (language_eq : middle.language = document.language)
    (policy_eq : middle.policy = document.policy)
    (levels : ∃ count, middle.drafts.map Draft.level = List.replicate count (language, 1))
    (flavors : ∀ draft ∈ middle.drafts, draft.flavor.Fits policy language)
    (kept : ∀ binding ∈ bindings, policy.declares language binding.category = true →
      binding.KeptIn language middle.names middle.drafts) :
    (middle.push []).Retains language policy
      (bindings ++ (operation.binding? document).toList) := by
  have written := language_eq.trans retains.language_eq
  refine retains.unbound plain reached language_eq ?_ ?_ ?_ none
  · obtain ⟨count, levels⟩ := levels
    exact ⟨count, congrArg₂ List.cons (Prod.ext written rfl) levels⟩
  · refine forall_mem_cons.mpr ⟨?_, flavors⟩
    have fits := fits_create policy blocks middle.names.tables middle.current.scope.chain false
    rw [← policy_eq.trans retains.within.policy_eq, ← written] at fits ⊢
    exact fits
  · intro binding old declares
    exact (kept binding old declares).push

theorem openScope (blocks : language ≠ .gappa) :
    (finalState ((Operation.openSharing []).perform document)).Retains language policy
      (bindings ++ ((Operation.openSharing []).binding? document).toList) := by
  have advances := document.current.append_advances document.current.language.blockOpen
  have reached : finalState ((Operation.openSharing []).perform document) =
      (document.modifyCurrent Draft.openBlock).push [] := rfl
  rw [reached]
  refine retains.pushed blocks rfl reached rfl rfl rfl ?_ ?_ ?_
  · obtain ⟨count, levels⟩ := retains.levels
    obtain ⟨current, outer⟩ := List.cons.inj levels
    refine ⟨count + 1, congrArg₂ List.cons ?_ outer⟩
    exact Draft.level_indent ((Draft.level_append _ _).trans current)
  · exact forall_mem_cons.mpr ⟨retains.fits_current advances.flavor, retains.fits_enclosing⟩
  · intro binding old declares
    exact (retains.kept binding old declares).continues
      (advances.toContinues.trans (.of_text_append rfl rfl))

section

variable {parent : Draft} {enclosing : List Draft}
  (around : document.enclosing = parent :: enclosing)

include around

/-- What a scope leaves out where it ends is in a table of the scope around it as well. -/
theorem own_eq_of_excluded {category : Category}
    (declares : policy.declares language category = true)
    (excluded : category ∈ document.current.exclusions (closing document.policy)) :
    document.current.scope.own category = parent.scope.own category := by
  have shared : policy.shares category = true := by
    rw [retains.within.policy_eq, Draft.mem_exclusions_closing
      (retains.flavors document.current mem_cons_self)] at excluded
    unfold SharingPolicy.declares at declares
    rcases excluded with hoisted | omitted
    · simpa [hoisted] using (Bool.and_eq_true_iff.mp declares).2
    · rw [omitted] at declares
      cases declares
  obtain ⟨inner, stacked, placed⟩ := retains.within.stacked
  rw [append_nil] at stacked
  have static {scope : Scope} (member : scope ∈ document.scopes) :
      scope.own category = category.index :=
    (placed scope (stacked ▸ member)).shared category shared
  refine (static mem_cons_self).trans (static (mem_cons_of_mem _ ?_)).symm
  rw [around]
  exact mem_cons_self

/-- The innermost draft is written into the one around it. -/
theorem kept_merge {outer : Draft}
    (merged : document.current.mergeInto document.names (closing document.policy) parent =
      .ok () outer) :
    ∀ binding ∈ bindings, policy.declares language binding.category = true →
      binding.KeptIn language document.names (outer :: enclosing) := by
  intro binding old declares
  have kept := retains.kept binding old declares
  rw [drafts, around] at kept
  exact kept.merge (retains.known binding old) retains.written merged
    (retains.own_eq_of_excluded around declares)

theorem fits_merge {outer current : Draft}
    (merged : document.current.mergeInto document.names (closing document.policy) parent =
      .ok () outer) (same : current.flavor = outer.flavor) :
    ∀ draft ∈ current :: enclosing, draft.flavor.Fits policy language := by
  have flavors := retains.fits_enclosing
  rw [around] at flavors
  obtain ⟨fits, others⟩ := forall_mem_cons.mp flavors
  refine forall_mem_cons.mpr ⟨?_, others⟩
  rw [same, (Draft.mergeInto_advances merged).flavor]
  exact fits

end

theorem closeScope :
    (finalState (Operation.close.perform document)).Retains language policy
      (bindings ++ (Operation.close.binding? document).toList) := by
  have reached : finalState (Operation.close.perform document) =
      finalState (Document.closeScope document) :=
    finalState_andThen _ _ document
  cases around : document.enclosing with
  | nil =>
    rw [closeScope_of_outermost around] at reached
    rw [reached]
    exact retains.unbound rfl reached rfl retains.levels retains.flavors retains.kept rfl
  | cons parent enclosing =>
    obtain ⟨outer, current, merged, closed, lower, done⟩ :=
      retains.anchored.closeScope_of_flat around retains.flat
    obtain ⟨_, continues, flavor⟩ := Draft.closeBlock_eq_ok closed
    rw [done] at reached
    rw [reached]
    refine retains.unbound rfl reached rfl ?_ (retains.fits_merge around merged flavor) ?_ rfl
    · obtain ⟨count, levels⟩ := retains.levels
      have outside := (List.cons.inj levels).2
      rw [around, map_cons] at outside
      cases count with
      | zero => cases outside
      | succ count =>
        obtain ⟨level, rest⟩ := List.cons.inj outside
        refine ⟨count, congrArg₂ List.cons ?_ rest⟩
        obtain ⟨written, depth⟩ := Prod.mk.inj (lower.symm.trans level)
        exact Prod.ext written (Nat.succ.inj depth)
    · intro binding old declares
      exact (retains.kept_merge around merged binding old declares).continues continues

theorem linkScope (blocks : language ≠ .gappa) (transition : String) :
    (finalState ((Operation.link transition).perform document)).Retains language policy
      (bindings ++ ((Operation.link transition).binding? document).toList) := by
  have reached : finalState ((Operation.link transition).perform document) =
      finalState (Document.linkScope transition document) :=
    finalState_andThen _ _ document
  have written : document.language ≠ .gappa := by
    rw [retains.language_eq]
    exact blocks
  obtain ⟨link, linked⟩ := blockLink?_isSome written transition
  cases around : document.enclosing with
  | nil =>
    rw [linkScope_of_outermost linked around] at reached
    rw [reached]
    exact retains.unbound rfl reached rfl retains.levels retains.flavors retains.kept rfl
  | cons parent enclosing =>
    obtain ⟨outer, current, merged, stepped, same, done⟩ :=
      retains.anchored.linkScope_of_flat linked around retains.flat
    have advances := Draft.linkBlock_advances stepped
    rw [done] at reached
    rw [reached]
    refine retains.pushed blocks rfl reached rfl rfl rfl ?_
      (retains.fits_merge around merged advances.flavor) ?_
    · obtain ⟨count, levels⟩ := retains.levels
      have outside := (List.cons.inj levels).2
      rw [around] at outside
      exact ⟨count, outside ▸ congrArg (· :: _) same⟩
    · intro binding old declares
      exact (retains.kept_merge around merged binding old declares).continues
        advances.toContinues

/-- What one plain operation keeps. -/
theorem perform (blocks : language ≠ .gappa) (plain : operation.isPlain document = true) :
    (finalState (operation.perform document)).Retains language policy
      (bindings ++ (operation.binding? document).toList) := by
  cases naming : operation.isNaming with
  | true => exact retains.naming plain (Operation.perform_names naming retains.nested.founded)
  | false =>
    cases operation with
    | append text => exact retains.append text
    | openSharing extra =>
      rw [List.isEmpty_iff.mp plain]
      exact retains.openScope blocks
    | close => exact retains.closeScope
    | link transition => exact retains.linkScope blocks transition
    | comment | header | localHeader | library | headerComment | indent | dedent => cases plain
    | _ => cases naming

end

theorem run (blocks : language ≠ .gappa) {operations : List Operation}
    (retains : document.Retains language policy bindings)
    (plain : isPlainRun operations document = true) :
    (Document.run operations document).Retains language policy
      (bindings ++ bound operations document) := by
  induction operations generalizing document bindings with
  | nil =>
    rw [bound, append_nil]
    exact retains
  | cons operation rest ih =>
    obtain ⟨first, others⟩ := Bool.and_eq_true_iff.mp plain
    rw [bound, ← append_assoc]
    exact ih (retains.perform blocks first) others

theorem create (policy : SharingPolicy) (blocks : language ≠ .gappa) :
    (Document.create language policy).Retains language policy [] := by
  exact ⟨rfl, ⟨0, rfl⟩, forall_mem_singleton.mpr (fits_create policy blocks _ _ true),
    create_wellNested language policy, create_within language policy,
    fun _ member => (not_mem_nil member).elim, fun _ member => (not_mem_nil member).elim⟩

/-- The finished file holds the declarations of all bindings that are kept. -/
theorem finish (retains : document.Retains language policy bindings) (closed : document.depth = 1)
    (headers : Bool) :
    ∃ text, document.finish headers = .ok text ∧ ∀ binding ∈ bindings,
      policy.declares language binding.category = true →
        Holds text (binding.declaration language) := by
  have alone : document.enclosing = [] := length_eq_zero_iff.mp (Nat.succ.inj closed)
  unfold Document.finish
  rw [alone]
  dsimp only
  unfold Draft.render Draft.checkBalanced
  rw [if_pos retains.flat]
  refine ⟨_, rfl, fun binding old declares => ?_⟩
  obtain ⟨draft, member, held⟩ := retains.kept binding old declares
  rw [drafts, alone, mem_singleton] at member
  subst member
  rcases held with entry | holds
  · have included : binding.category ∉ document.current.exclusions { headers } := by
      rw [Draft.mem_exclusions_file (retains.flavors document.current mem_cons_self)]
      intro omitted
      rw [SharingPolicy.declares, omitted] at declares
      cases declares
    have declared := Draft.declarations_holds (retains.known binding old) entry included
    rw [retains.written] at declared
    exact ((((declared.append_left _).append_right _).append_right _).append_right _).append_right _
  · exact (holds.append_left _).append_right _

end Retains

end Document

end Retarget

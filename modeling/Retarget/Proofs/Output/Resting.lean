import Retarget.Proofs.Output.Assigned
import Retarget.Proofs.Output.Mirroring

/-!
# Documents between two functions

Between two functions a C document has only its outermost scope open, and all that it declared so
far are functions (`Document.Rests`). Two such documents with the same functions are a footing for
what they write next, and they rest again when they have written the same.
-/

namespace Retarget

open List

/-- The number of tables that a document is made with: those that all scopes share, and those of the
outermost scope. -/
def madeTables : Nat := 14

/-- The names in the tables that a document was made with, after some functions. -/
def staticNames (declared : List String) (id : TableId) : List String :=
  if id = Category.function.index then declared else []

namespace Document

/-- The outermost scope of a new document. -/
def rootScope (policy : SharingPolicy) : Scope :=
  (create .c policy).current.scope

/-- A C document with no scope open but the outermost one, which declared some functions. -/
structure Rests (policy : SharingPolicy) (declared : List String) (document : Document) : Prop where
  language : document.language = .c
  follows : document.policy = policy
  flat : document.enclosing = []
  written : document.current.language = .c
  plain : document.current.flavor = .plain
  depth : document.current.depth = 0
  scope : document.current.scope = rootScope policy
  size : madeTables ≤ document.names.tables.size
  statics : ∀ id < madeTables,
    (document.names.tables.table id).Holds policy.uniquifier (staticNames declared id)

variable {policy : SharingPolicy} {declared : List String} {document other : Document}

/-- The tables that a document is made with are empty. -/
theorem holds_create (policy : SharingPolicy) {id : TableId} (made : id < madeTables) :
    ((create .c policy).names.tables.table id).Holds policy.uniquifier [] := by
  let fresh := Category.all.map fun category =>
    ({ category, uniquifier := policy.uniquifier } : NameTable)
  have tables : (create .c policy).names.tables = (fresh ++ fresh).toArray :=
    append_toArray fresh fresh
  have inside : id < (fresh ++ fresh).length := made
  have known : (create .c policy).names.tables.table id ∈ fresh ++ fresh := by
    rw [tables, NameTables.table, getElem?_toArray, getElem?_eq_getElem inside]
    exact getElem_mem inside
  have member : (create .c policy).names.tables.table id ∈ fresh :=
    (mem_append.mp known).elim (fun first => first) fun second => second
  obtain ⟨category, _, same⟩ := mem_map.mp member
  rw [← same]
  exact ⟨rfl, rfl, rfl⟩

theorem create_rests (policy : SharingPolicy) : (create .c policy).Rests policy [] where
  language := rfl
  follows := rfl
  flat := rfl
  written := rfl
  plain := rfl
  depth := rfl
  scope := rfl
  size := Nat.le_refl _
  statics id made := by
    have empty : staticNames [] id = [] := by
      unfold staticNames
      split <;> rfl
    rw [empty]
    exact holds_create policy made

theorem Rests.modifyRoot (rests : document.Rests policy declared) {change : Draft → Draft}
    (written : ∀ draft, (change draft).language = draft.language)
    (plain : ∀ draft, (change draft).flavor = draft.flavor)
    (depth : ∀ draft, (change draft).depth = draft.depth)
    (scope : ∀ draft, (change draft).scope = draft.scope) :
    (document.modifyRoot change).Rests policy declared := by
  rw [modifyRoot_of_flat rests.flat]
  exact { rests with
    written := (written _).trans rests.written
    plain := (plain _).trans rests.plain
    depth := (depth _).trans rests.depth
    scope := (scope _).trans rests.scope }

theorem rootScope_own (policy : SharingPolicy) (category : Category) :
    (rootScope policy).own category = (staticTable? policy category).getD (7 + category.index) :=
  rfl

theorem rootScope_own_lt (policy : SharingPolicy) (category : Category) :
    (rootScope policy).own category < madeTables := by
  have small : category.index < 7 := by cases category <;> decide
  rw [rootScope_own, staticTable?, madeTables]
  split
  · exact Nat.lt_of_lt_of_le small (by decide)
  · exact Nat.add_lt_add_left small 7

/-- A function is declared in the outermost scope. -/
theorem Rests.declare (rests : document.Rests policy declared) (standard : policy.Standard)
    {name : String} {entity : Entity} {after : Document}
    (done : withNames (do Naming.declare .function name (← Naming.alloc entity)) document =
      .ok () after) :
    after.Rests policy (declared ++ [name]) ∧ after.current.text = document.current.text := by
  obtain ⟨naming, acted, rfl⟩ := withNames_eq_ok done
  obtain ⟨id, allocated, alloc, named⟩ := bind_eq_ok.mp acted
  cases alloc
  rcases Naming.declare_cases .function name document.names.entities.size
    { entities := document.names.entities.push entity, tables := document.names.tables
      scope := document.current.scope } with ⟨tables, declares, ended⟩ | ⟨_, ended⟩
  · cases ended.symm.trans named
    obtain ⟨_, _, rfl⟩ := Scope.declare_eq_ok declares
    have own : document.current.scope.own .function = Category.function.index := by
      rw [rests.scope, rootScope_own, staticTable?, standard.shares_function]
      rfl
    refine ⟨{ rests with size := ?_, statics := fun id made => ?_ }, rfl⟩
    · rw [Array.size_setIfInBounds]
      exact rests.size
    · have before := rests.statics id made
      dsimp only
      rw [own, NameTables.table_setIfInBounds]
      by_cases here : Category.function.index = id
      · subst here
        have inside : Category.function.index < document.names.tables.size :=
          Nat.lt_of_lt_of_le (by decide) rests.size
        rw [if_pos ⟨rfl, inside⟩]
        refine ⟨?_, before.counters, before.uniquifier⟩
        rw [NameTable.bind, map_append, before.names]
        rfl
      · rw [if_neg fun both => here both.1]
        have same : staticNames (declared ++ [name]) id = staticNames declared id := by
          rw [staticNames, staticNames, if_neg (Ne.symm here), if_neg (Ne.symm here)]
        rw [same]
        exact before
  · cases ended.symm.trans named

/-- The tables that two documents were made with stand for each other. -/
def madePairing {left right : Nat} (made : madeTables ≤ left) (made' : madeTables ≤ right) :
    Pairing where
  left
  right
  given id partner := id = partner ∧ id < madeTables
  below := by
    rintro id _ ⟨rfl, inside⟩
    exact ⟨Nat.lt_of_lt_of_le inside made, Nat.lt_of_lt_of_le inside made'⟩
  ordered := by
    rintro first _ second _ ⟨rfl, _⟩ ⟨rfl, _⟩
    exact Iff.rfl

/-- Two documents that rest after the same functions. -/
def Rests.footing (rests : document.Rests policy declared) (rests' : other.Rests policy declared)
    (standard : policy.Standard) : Footing where
  names := {
    tables := madePairing rests.size rests'.size
    entities := {
      left := document.names.entities.size
      right := other.names.entities.size
      given := fun _ _ => False
      below := False.elim
      ordered := False.elim }
    statics := staticNames declared
    uniquifier := policy.uniquifier }
  policy
  scope := rootScope policy
  left := document.current.text
  right := other.current.text
  standard
  outermost := {
    own := fun category => .inl ⟨rfl, rootScope_own_lt policy category⟩
    fresh := nofun
    enclosing := .nil
    counters := rfl
    uniquifier := rfl }
  statics {category} _ := by
    refine ⟨rfl, ?_⟩
    cases category <;> decide

/-- Two documents that rest after the same functions mirror each other. -/
theorem Rests.mirrors (rests : document.Rests policy declared)
    (rests' : other.Rests policy declared) (standard : policy.Standard) :
    document.Mirrors (rests.footing rests' standard) 0 0 other where
  language := rests.language
  language' := rests'.language
  policy := rests.follows
  policy' := rests'.follows
  entities := by
    refine ⟨⟨0, rfl, rfl⟩, fun {id partner} pairs => ?_⟩
    rcases pairs with impossible | ⟨count, rfl, rfl⟩
    · exact impossible.elim
    · change (document.names.entities[document.names.entities.size + count]?).getD default =
        (other.names.entities[other.names.entities.size + count]?).getD default
      rw [Array.getElem?_eq_none (Nat.le_add_right _ _),
        Array.getElem?_eq_none (Nat.le_add_right _ _)]
  tables := by
    refine ⟨⟨0, rfl, rfl⟩, ?_, fun {id partner} beyond => ?_⟩
    · rintro id _ ⟨rfl, made⟩
      exact ⟨rests.statics id made, rests'.statics id made⟩
    · obtain ⟨count, rfl, rfl⟩ := beyond
      change NameTable.Mirrors _
        ((document.names.tables[document.names.tables.size + count]?).getD default)
        ((other.names.tables[other.names.tables.size + count]?).getD default)
      rw [Array.getElem?_eq_none (Nat.le_add_right _ _),
        Array.getElem?_eq_none (Nat.le_add_right _ _)]
      exact ⟨.nil, rfl, rfl⟩
  drafts := by
    unfold drafts
    rw [rests.flat, rests'.flat]
    exact .root ⟨rests.written, rests'.written, rests.plain, rests'.plain, rests.depth,
      rests'.depth, ⟨"", String.append_empty.symm, String.append_empty.symm, Nat.zero_le _⟩,
      rests.scope, rests'.scope⟩

/-- Two documents that mirror each other rest again, and both wrote one text. -/
theorem Mirrors.rests (rests : document.Rests policy declared)
    (rests' : other.Rests policy declared) (standard : policy.Standard) {next beside : Document}
    (mirrors : next.Mirrors (rests.footing rests' standard) 0 0 beside) :
    (∃ text, next.current.text = document.current.text ++ text ∧
      beside.current.text = other.current.text ++ text) ∧
      next.Rests policy declared ∧ beside.Rests policy declared := by
  have size := mirrors.tables.size.le
  have given (id : TableId) (made : id < madeTables) :=
    mirrors.tables.given (show (rests.footing rests' standard).names.tables.given id id from
      ⟨rfl, made⟩)
  have drafts := mirrors.drafts
  unfold Document.drafts at drafts
  generalize around : next.enclosing = enclosing at drafts
  generalize around' : beside.enclosing = enclosing' at drafts
  cases drafts with
  | root outermost =>
    obtain ⟨text, same, same', _⟩ := outermost.text
    refine ⟨⟨text, same, same'⟩, ?_, ?_⟩
    · exact ⟨mirrors.language, mirrors.policy, around, outermost.language, outermost.plain,
        outermost.depth, outermost.scope.1, Nat.le_trans rests.size size.1,
        fun id made => (given id made).1⟩
    · exact ⟨mirrors.language', mirrors.policy', around', outermost.language', outermost.plain',
        outermost.depth', outermost.scope.2, Nat.le_trans rests'.size size.2,
        fun id made => (given id made).2⟩

end Document

end Retarget

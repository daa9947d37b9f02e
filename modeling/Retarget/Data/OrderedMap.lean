/-!
# Maps that keep the order of insertion

A finite map as the list of its entries. A new key goes to the end, and writing a key again
changes its value in place.
-/

namespace Retarget

/-- A finite map whose entries stand in the order in which their keys were first written. -/
structure OrderedMap (κ ν : Type) where
  entries : List (κ × ν)
deriving Repr, DecidableEq

namespace OrderedMap

variable {κ ν : Type}

def empty : OrderedMap κ ν := ⟨[]⟩

instance : Inhabited (OrderedMap κ ν) := ⟨empty⟩

/-- The value written last for a key in a list of entries. -/
def lookup [DecidableEq κ] (key : κ) : List (κ × ν) → Option ν
  | [] => none
  | (k, value) :: rest => if k = key then some value else lookup key rest

/-- The entries after writing a value for a key. -/
def write [DecidableEq κ] (key : κ) (value : ν) : List (κ × ν) → List (κ × ν)
  | [] => [(key, value)]
  | (k, old) :: rest => if k = key then (k, value) :: rest else (k, old) :: write key value rest

def get? [DecidableEq κ] (map : OrderedMap κ ν) (key : κ) : Option ν :=
  lookup key map.entries

def contains [DecidableEq κ] (map : OrderedMap κ ν) (key : κ) : Bool :=
  (map.get? key).isSome

def insert [DecidableEq κ] (map : OrderedMap κ ν) (key : κ) (value : ν) : OrderedMap κ ν :=
  ⟨write key value map.entries⟩

/-- The keys in the order in which they were first written. -/
def keys (map : OrderedMap κ ν) : List κ :=
  map.entries.map Prod.fst

/-- The values in the order of their keys. -/
def values (map : OrderedMap κ ν) : List ν :=
  map.entries.map Prod.snd

def size (map : OrderedMap κ ν) : Nat :=
  map.entries.length

def isEmpty (map : OrderedMap κ ν) : Bool :=
  map.entries.isEmpty

/-- Writes every entry of `upper` over `lower`. -/
def overlay [DecidableEq κ] (upper lower : OrderedMap κ ν) : OrderedMap κ ν :=
  upper.entries.foldl (fun map entry => map.insert entry.1 entry.2) lower

theorem lookup_write [DecidableEq κ] (key other : κ) (value : ν) (entries : List (κ × ν)) :
    lookup other (write key value entries) =
      if key = other then some value else lookup other entries := by
  induction entries with
  | nil => simp [write, lookup]
  | cons entry rest ih =>
    obtain ⟨k, old⟩ := entry
    by_cases same : k = key
    · subst same
      simp only [write, lookup, if_true]
      split <;> rfl
    · simp only [write, same, if_false, lookup, ih]
      by_cases here : k = other
      · have apart : ¬ key = other := fun equal => same (here.trans equal.symm)
        simp [here, apart]
      · simp [here]

/-- Writing a key is seen at that key and nowhere else. -/
theorem get?_insert [DecidableEq κ] (map : OrderedMap κ ν) (key other : κ) (value : ν) :
    (map.insert key value).get? other = if key = other then some value else map.get? other :=
  lookup_write key other value map.entries

/-- Writing a new key takes no other entry away. -/
theorem get?_insert_of_get? [DecidableEq κ] {map : OrderedMap κ ν} {key other : κ} {value found : ν}
    (new : map.get? key = none) (present : map.get? other = some found) :
    (map.insert key value).get? other = some found := by
  rw [get?_insert, if_neg, present]
  rintro rfl
  rw [new] at present
  cases present

/-- An entry is either the one just written or was there before. -/
theorem eq_or_get?_of_get?_insert [DecidableEq κ] {map : OrderedMap κ ν} {key other : κ}
    {value found : ν} (present : (map.insert key value).get? other = some found) :
    other = key ∧ found = value ∨ map.get? other = some found := by
  rw [get?_insert] at present
  split at present
  · rename_i same
    exact .inl ⟨same.symm, (Option.some.inj present).symm⟩
  · exact .inr present

theorem mem_of_lookup [DecidableEq κ] {key : κ} {value : ν} {entries : List (κ × ν)}
    (found : lookup key entries = some value) : (key, value) ∈ entries := by
  induction entries with
  | nil => cases found
  | cons entry rest ih =>
    unfold lookup at found
    split at found
    · rename_i same
      cases found
      cases same
      exact List.mem_cons_self
    · exact List.mem_cons_of_mem _ (ih found)

theorem mem_keys_iff_lookup [DecidableEq κ] (key : κ) (entries : List (κ × ν)) :
    key ∈ entries.map Prod.fst ↔ (lookup key entries).isSome := by
  induction entries with
  | nil => simp [lookup]
  | cons entry rest ih =>
    obtain ⟨k, value⟩ := entry
    by_cases same : k = key
    · simp [lookup, same]
    · have apart : ¬ key = k := fun equal => same equal.symm
      simp only [List.map_cons, List.mem_cons, lookup, same, apart, if_false, false_or, ih]

/-- The keys are those that have a value. -/
theorem mem_keys [DecidableEq κ] (map : OrderedMap κ ν) (key : κ) :
    key ∈ map.keys ↔ (map.get? key).isSome :=
  mem_keys_iff_lookup key map.entries

theorem keys_write [DecidableEq κ] (key : κ) (value : ν) (entries : List (κ × ν)) :
    (write key value entries).map Prod.fst =
      if key ∈ entries.map Prod.fst then entries.map Prod.fst
      else entries.map Prod.fst ++ [key] := by
  induction entries with
  | nil => simp [write]
  | cons entry rest ih =>
    obtain ⟨k, old⟩ := entry
    by_cases same : k = key
    · simp [write, same]
    · have apart : ¬ key = k := fun equal => same equal.symm
      simp only [write, same, if_false, List.map_cons, ih, List.mem_cons, apart, false_or]
      split <;> simp

/-- A new key goes behind all others. -/
theorem keys_insert [DecidableEq κ] (map : OrderedMap κ ν) (key : κ) (value : ν) :
    (map.insert key value).keys = if key ∈ map.keys then map.keys else map.keys ++ [key] :=
  keys_write key value map.entries

theorem mem_keys_insert [DecidableEq κ] (map : OrderedMap κ ν) (key other : κ) (value : ν) :
    other ∈ (map.insert key value).keys ↔ other ∈ map.keys ∨ other = key := by
  rw [keys_insert]
  split
  · rename_i present
    constructor
    · exact Or.inl
    · rintro (member | rfl)
      · exact member
      · exact present
  · simp

/-- No key stands twice. -/
theorem nodup_keys_insert [DecidableEq κ] (map : OrderedMap κ ν) (key : κ) (value : ν)
    (distinct : map.keys.Nodup) : (map.insert key value).keys.Nodup := by
  rw [keys_insert]
  split
  · exact distinct
  · rename_i absent
    rw [List.nodup_append]
    refine ⟨distinct, by simp, ?_⟩
    rintro other member last inLast rfl
    rw [List.mem_singleton] at inLast
    exact absent (inLast ▸ member)

end OrderedMap

end Retarget

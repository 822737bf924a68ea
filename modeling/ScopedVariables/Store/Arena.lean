import ScopedVariables.Variable.Write

/-! # The arena of a store

The linked variables of a store lie in the slots of one arena. An entry is a
variable with its two links: to its successor in the sequence of all variables,
and to its successor among the variables of its scope.

A handle resolves while its slot is occupied in the handle's generation. A slot
that is emptied moves on to its next generation and becomes free again, so old
handles to it stay unresolved. A slot in the last generation is retired: it
stays empty and is never free. -/

namespace ScopedVariables

structure Store.Entry where
  var : Variable
  next : Option VarId := none
  nextInScope : Option VarId := none
  deriving DecidableEq, Inhabited

structure Store.Slot where
  generation : UInt32
  entry : Option Store.Entry
  deriving DecidableEq, Inhabited

structure Store where
  slots : Array Store.Slot
  /-- The slots to be used again, the one emptied last first. -/
  free : List Nat
  /-- The first variable of the sequence. -/
  head : Option VarId
  /-- The number of linked variables. -/
  count : Nat
  deriving DecidableEq, Inhabited

namespace Store

/-! ## Empty stores -/

def empty : Store := ⟨#[], [], none, 0⟩

def withCapacity (capacity : Nat) : Store :=
  { empty with slots := Array.emptyWithCapacity capacity }

@[simp] theorem withCapacity_eq (capacity : Nat) :
    withCapacity capacity = empty := by
  simp [withCapacity, empty]

/-! ## Resolving handles -/

def Slot.content? (generation : UInt32) (slot : Slot) : Option Entry :=
  if slot.generation = generation then slot.entry else none

def resolve? (store : Store) (id : VarId) : Option Entry :=
  store.slots[id.index]?.bind (·.content? id.generation)

def get? (store : Store) (id : VarId) : Option Variable :=
  (store.resolve? id).map Entry.var

def next? (store : Store) (id : VarId) : Option VarId :=
  (store.resolve? id).bind Entry.next

def nextInScope? (store : Store) (id : VarId) : Option VarId :=
  (store.resolve? id).bind Entry.nextInScope

@[simp] theorem resolve?_empty (id : VarId) : empty.resolve? id = none := by
  simp [empty, resolve?]

/-! ## Changing, placing and releasing entries

A new entry takes the slot emptied last, or else a new slot at the end of the
arena. -/

def Slot.modify (generation : UInt32) (change : Entry → Entry)
    (slot : Slot) : Slot :=
  if slot.generation = generation then
    { slot with entry := slot.entry.map change }
  else
    slot

def modify (store : Store) (id : VarId) (change : Entry → Entry) : Store :=
  { store with
    slots := store.slots.modify id.index (·.modify id.generation change) }

/-- A new slot is not checked against the 2^32 that a word can name. By
`AllocatesSafely.grown` it is one of them in every run of fewer commands. -/
def grow (store : Store) (entry : Entry) : VarId × Store :=
  (⟨store.slots.size, 0⟩,
    { store with slots := store.slots.push ⟨0, some entry⟩ })

def allocate (store : Store) (entry : Entry) : VarId × Store :=
  match store.free with
  | [] => store.grow entry
  | index :: free =>
      match store.slots[index]? with
      | none => { store with free }.grow entry
      | some slot =>
          (⟨index, slot.generation⟩,
            { store with
              free
              slots := store.slots.setIfInBounds index
                { slot with entry := some entry } })

def release (store : Store) (id : VarId) : Option (Entry × Store) :=
  match store.resolve? id with
  | none => none
  | some entry =>
      let count := store.count - 1
      match nextWord? id.generation with
      | some generation =>
          some (entry,
            { store with
              slots := store.slots.setIfInBounds id.index ⟨generation, none⟩
              free := id.index :: store.free
              count })
      | none =>
          some (entry,
            { store with
              slots := store.slots.setIfInBounds id.index ⟨id.generation, none⟩
              count })

/-! ## What each change does to the handles -/

private theorem content?_modify (generation other : UInt32)
    (change : Entry → Entry) (slot : Slot) :
    (slot.modify generation change).content? other =
      if other = generation then (slot.content? other).map change
      else slot.content? other := by
  simp only [Slot.modify, Slot.content?]
  by_cases current : slot.generation = generation
  · by_cases same : other = generation
    · simp [current, same]
    · have different : generation ≠ other := fun equal => same equal.symm
      simp [current, same, different]
  · by_cases same : other = generation
    · simp [current, same]
    · simp [current, same]

theorem resolve?_modify (store : Store) (id other : VarId)
    (change : Entry → Entry) :
    (store.modify id change).resolve? other =
      if other = id then (store.resolve? other).map change
      else store.resolve? other := by
  obtain ⟨index, generation⟩ := id
  obtain ⟨otherIndex, otherGeneration⟩ := other
  simp only [modify, resolve?, Array.getElem?_modify, VarId.mk.injEq]
  by_cases same : index = otherIndex
  · subst same
    cases store.slots[index]? with
    | none => simp
    | some slot => simp [content?_modify]
  · have different : otherIndex ≠ index := fun equal => same equal.symm
    simp [same, different]

@[simp] theorem head_modify (store : Store) (id : VarId)
    (change : Entry → Entry) : (store.modify id change).head = store.head := rfl

@[simp] theorem count_modify (store : Store) (id : VarId)
    (change : Entry → Entry) : (store.modify id change).count = store.count := rfl

@[simp] theorem free_modify (store : Store) (id : VarId)
    (change : Entry → Entry) : (store.modify id change).free = store.free := rfl

@[simp] theorem size_modify (store : Store) (id : VarId)
    (change : Entry → Entry) :
    (store.modify id change).slots.size = store.slots.size := by
  simp [modify]

private theorem content?_setIfInBounds {slots : Array Slot} {index : Nat}
    (generation : UInt32) (other : VarId) (inside : index < slots.size) :
    ((slots.setIfInBounds index ⟨generation, none⟩)[other.index]?).bind
        (·.content? other.generation) =
      if other.index = index then none
      else slots[other.index]?.bind (·.content? other.generation) := by
  rw [Array.getElem?_setIfInBounds]
  by_cases same : index = other.index
  · simp [same, same ▸ inside, Slot.content?]
  · have different : other.index ≠ index := fun equal => same equal.symm
    simp [same, different]

theorem resolve?_release {store after : Store} {id : VarId} {entry : Entry}
    (released : store.release id = some (entry, after)) (other : VarId) :
    store.resolve? id = some entry ∧
      after.resolve? other = if other = id then none else store.resolve? other := by
  have occupied : store.resolve? id = some entry := by
    unfold release at released
    cases found : store.resolve? id with
    | none => simp [found] at released
    | some current =>
        cases following : nextWord? id.generation <;>
          simp_all
  refine ⟨occupied, ?_⟩
  obtain ⟨slot, atIndex, resolved⟩ := Option.bind_eq_some_iff.mp occupied
  have inside : id.index < store.slots.size :=
    (Array.getElem?_eq_some_iff.mp atIndex).1
  have current : slot.generation = id.generation :=
    Decidable.byContradiction fun stale => by
      simp [Slot.content?, stale] at resolved
  have cleared : after.resolve? other =
      if other.index = id.index then none else store.resolve? other := by
    unfold release at released
    rw [occupied] at released
    cases following : nextWord? id.generation <;>
      simp only [following, Option.some.injEq, Prod.mk.injEq] at released <;>
      rw [← released.2] <;>
      exact content?_setIfInBounds _ other inside
  rw [cleared]
  by_cases sameIndex : other.index = id.index
  · by_cases same : other = id
    · simp [same]
    · have stale : slot.generation ≠ other.generation := by
        intro equal
        apply same
        cases other
        cases id
        simp_all
      simp [sameIndex, same, resolve?, atIndex, Slot.content?, stale]
  · have different : other ≠ id := fun equal => sameIndex (equal ▸ rfl)
    simp [sameIndex, different]

end Store

end ScopedVariables

import ScopedVariables.Proofs.ElementType.Registration

/-! # Both indexes of a table agree

Requests to register types are answered one after another. Those that are granted
are numbered in order and make up the table, each with the name and members that
it asked for. A table answers every look-up, by handle or by name, and every
further request from the list of what was granted so far. -/

namespace ScopedVariables.TypeTable

/-! ## Sequences of requests

A request that is refused keeps the table. A type that is granted is listed
under the handle that is answered. -/

structure Request where
  name : String
  members : List Member
  deriving DecidableEq, Repr

def attempt (table : TypeTable) (request : Request) :
    Except TypeTableError TypeId × TypeTable :=
  match table.register request.name request.members with
  | .error error => (.error error, table)
  | .ok (id, after) => (.ok id, after)

def attempts (table : TypeTable) :
    List Request → List (Except TypeTableError TypeId) × TypeTable
  | [] => ([], table)
  | request :: requests =>
      let (answer, table) := table.attempt request
      let (answers, table) := table.attempts requests
      (answer :: answers, table)

def granted (request : Request) :
    Except TypeTableError TypeId → Option TypeDescriptor
  | .ok id => some ⟨id, request.name, request.members⟩
  | .error _ => none

def grants (requests : List Request)
    (answers : List (Except TypeTableError TypeId)) : List TypeDescriptor :=
  (requests.zipWith granted answers).filterMap id

/-! ## What a table says about a list of types -/

/-- All that can be asked of the table is answered from the list of types. -/
structure Answers (table : TypeTable) (types : List TypeDescriptor) : Prop where
  handles_eq : types.map (·.id.index) = List.range types.length
  names_nodup : (types.map (·.name)).Nodup
  size_eq : table.size = types.length
  isSome_get?_iff : ∀ id, (table.get? id).isSome ↔ id.index < table.size
  get?_iff : ∀ id type, table.get? id = some type ↔ type ∈ types ∧ type.id = id
  isSome_lookup_iff : ∀ name,
    (table.lookup name).isSome ↔ ∃ type, type ∈ types ∧ type.name = name
  lookup_iff : ∀ name type,
    table.lookup name = some type ↔ table.get? type.id = some type ∧ type.name = name
  duplicate_iff : ∀ request name,
    (table.attempt request).1 = .error (.duplicate name) ↔
      name = request.name ∧ ∃ type, type ∈ types ∧ type.name = name
  refused_eq : ∀ request error,
    (table.attempt request).1 = .error error → (table.attempt request).2 = table
  granted_eq : ∀ request, (∀ type, type ∈ types → type.name ≠ request.name) →
    table.size < UInt32.size →
      ∃ id, (table.attempt request).1 = .ok id ∧ id.index = table.size

namespace Indexed

variable {table : TypeTable} {type : TypeDescriptor}

theorem get?_eq_some_iff (indexed : table.Indexed) {id : TypeId} :
    table.get? id = some type ↔ type ∈ table.descriptors ∧ type.id = id := by
  constructor
  · intro found
    have here : type.id.index = id.index := indexed.index_eq found
    exact ⟨Array.mem_iff_getElem?.mpr ⟨_, found⟩, TypeId.index_injective here⟩
  · rintro ⟨member, rfl⟩
    exact indexed.mem_descriptors_iff.mp member

theorem handles_eq (indexed : table.Indexed) :
    table.descriptors.toList.map (·.id.index) =
      List.range table.descriptors.toList.length := by
  apply List.ext_getElem
  · rw [List.length_map, List.length_range]
  · intro position inTable inRange
    rw [List.length_map, Array.length_toList] at inTable
    rw [List.getElem_map, List.getElem_range, Array.getElem_toList]
    exact indexed.index_eq (Array.getElem?_eq_getElem inTable)

theorem names_nodup (indexed : table.Indexed) :
    (table.descriptors.toList.map (·.name)).Nodup := by
  have handles : (table.descriptors.toList.map (·.id.index)).Nodup := by
    rw [indexed.handles_eq]
    exact List.nodup_range
  rw [List.Nodup, List.pairwise_map] at handles ⊢
  apply handles.imp_of_mem
  intro left right leftMember rightMember different sameName
  rw [Array.mem_toList_iff] at leftMember rightMember
  have found := indexed.lookup_eq_some_iff.mpr ⟨leftMember, sameName⟩
  rw [indexed.lookup_eq_some_iff.mpr ⟨rightMember, rfl⟩] at found
  cases found
  exact different rfl

end Indexed

/-! ## The answer to a request -/

section Attempt

variable {table : TypeTable} {request : Request} {types : List TypeDescriptor}

theorem mem_byName_iff (indexed : table.Indexed) {name : String} :
    name ∈ table.byName ↔
      ∃ type, type ∈ table.descriptors.toList ∧ type.name = name := by
  rw [Std.TreeMap.mem_iff_isSome_getElem?, Option.isSome_iff_exists]
  constructor
  · rintro ⟨id, named⟩
    rcases indexed.byName_iff.mp named with ⟨type, found, isNamed⟩
    exact ⟨type, Array.mem_toList_iff.mpr (indexed.get?_eq_some_iff.mp found).1, isNamed⟩
  · rintro ⟨type, member, isNamed⟩
    rw [Array.mem_toList_iff] at member
    exact ⟨type.id, indexed.byName_iff.mpr
      ⟨type, indexed.mem_descriptors_iff.mp member, isNamed⟩⟩

theorem attempt_cases (table : TypeTable) (request : Request) :
    (request.name ∈ table.byName ∧
        table.attempt request = (.error (.duplicate request.name), table)) ∨
      (request.name ∉ table.byName ∧ UInt32.size ≤ table.size ∧
        table.attempt request = (.error (.overflow table.size), table)) ∨
      ∃ id after, table.register request.name request.members = .ok (id, after) ∧
        table.attempt request = (.ok id, after) := by
  rw [attempt]
  by_cases taken : request.name ∈ table.byName
  · rw [register_duplicate taken]
    exact .inl ⟨taken, rfl⟩
  · by_cases room : table.size < UInt32.size
    · rw [register_fresh taken room]
      exact .inr (.inr ⟨_, _, rfl, rfl⟩)
    · rw [register, if_neg taken, if_neg room]
      exact .inr (.inl ⟨taken, Nat.not_lt.mp room, rfl⟩)

theorem Indexed.answers (indexed : table.Indexed) :
    table.Answers table.descriptors.toList where
  handles_eq := indexed.handles_eq
  names_nodup := indexed.names_nodup
  size_eq := rfl
  isSome_get?_iff := fun id => by simp [get?, size]
  get?_iff := fun id type => by
    rw [indexed.get?_eq_some_iff, Array.mem_toList_iff]
  isSome_lookup_iff := fun name => by
    simp only [Option.isSome_iff_exists, indexed.lookup_eq_some_iff,
      Array.mem_toList_iff]
  lookup_iff := fun name type => by
    rw [indexed.lookup_eq_some_iff, indexed.mem_descriptors_iff]
  duplicate_iff := fun request name => by
    rw [← mem_byName_iff indexed]
    rcases attempt_cases table request with
      ⟨taken, answer⟩ | ⟨fresh, _, answer⟩ | ⟨id, after, registers, answer⟩
    · rw [answer]
      constructor
      · intro reported
        cases reported
        exact ⟨rfl, taken⟩
      · rintro ⟨rfl, _⟩
        rfl
    · rw [answer]
      refine iff_of_false (by simp) ?_
      rintro ⟨rfl, taken⟩
      exact fresh taken
    · rw [answer]
      refine iff_of_false (by simp) ?_
      rintro ⟨rfl, taken⟩
      exact (register_eq_ok registers).1 taken
  refused_eq := fun request error refused => by
    rcases attempt_cases table request with
      ⟨_, answer⟩ | ⟨_, _, answer⟩ | ⟨id, after, _, answer⟩
    · rw [answer]
    · rw [answer]
    · rw [answer] at refused
      cases refused
  granted_eq := fun request fresh room => by
    rcases attempt_cases table request with
      ⟨taken, _⟩ | ⟨_, full, _⟩ | ⟨id, after, registers, answer⟩
    · rcases (mem_byName_iff indexed).mp taken with ⟨type, member, isNamed⟩
      exact absurd isNamed (fresh type member)
    · exact absurd room (Nat.not_lt.mpr full)
    · exact ⟨id, by rw [answer], (register_eq_ok registers).2.1⟩

theorem Registered.attempt (registered : table.Registered) (request : Request) :
    (table.attempt request).2.Registered ∧
      (table.attempt request).2.descriptors.toList =
        table.descriptors.toList ++
          (granted request (table.attempt request).1).toList := by
  rcases attempt_cases table request with
    ⟨_, answer⟩ | ⟨_, _, answer⟩ | ⟨id, after, registers, answer⟩
  · rw [answer]
    exact ⟨registered, (List.append_nil _).symm⟩
  · rw [answer]
    exact ⟨registered, (List.append_nil _).symm⟩
  · rw [answer, descriptors_register registers, Array.toList_push]
    exact ⟨.register registered registers, rfl⟩

end Attempt

/-! ## The answers to several requests -/

theorem grants_cons (request : Request) (requests : List Request)
    (answer : Except TypeTableError TypeId)
    (answers : List (Except TypeTableError TypeId)) :
    grants (request :: requests) (answer :: answers) =
      (granted request answer).toList ++ grants requests answers := by
  cases answer <;> rfl

theorem Registered.attempts {table : TypeTable} (registered : table.Registered)
    (requests : List Request) :
    (table.attempts requests).2.Registered ∧
      (table.attempts requests).2.descriptors.toList =
        table.descriptors.toList ++
          grants requests (table.attempts requests).1 := by
  induction requests generalizing table with
  | nil => exact ⟨registered, (List.append_nil _).symm⟩
  | cons request requests induction =>
      rcases registered.attempt request with ⟨registeredNext, next⟩
      rcases induction registeredNext with ⟨registeredLast, last⟩
      refine ⟨registeredLast, ?_⟩
      rw [TypeTable.attempts, grants_cons, ← List.append_assoc, ← next]
      exact last

/-- Whatever is requested, the table answers from the types that were granted, and
goes on to do so: further requests add the types that they are granted and change
none of the former ones. -/
theorem indexes_agree (requests later : List Request) :
    let table := (empty.attempts requests).2
    let types := grants requests (empty.attempts requests).1
    table.Answers types ∧
      (table.attempts later).2.Answers
        (types ++ grants later (table.attempts later).1) := by
  intro table types
  rcases Registered.empty.attempts requests with ⟨registered, listed⟩
  rcases registered.attempts later with ⟨registeredLater, listedLater⟩
  have same : table.descriptors.toList = types := listed
  rw [show (empty.attempts requests).2 = table from rfl, same] at listedLater
  rw [← listedLater, ← same]
  exact ⟨registered.indexed.answers, registeredLater.indexed.answers⟩

/-- A refused request takes no handle, and the empty name is a name. -/
example :
    (empty.attempts [⟨"", []⟩, ⟨"", [⟨"value", 4⟩]⟩, ⟨"float", [⟨"value", 4⟩]⟩]).1 =
      [.ok ⟨0⟩, .error (.duplicate ""), .ok ⟨1⟩] := rfl

end ScopedVariables.TypeTable

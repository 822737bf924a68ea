/-! Identity handles for scopes, element types and stored variables.

Scopes and element types are named by a 32-bit word. A stored variable is
named by the slot that holds it and by the generation of that slot, so that a
slot used again is not mistaken for its former content. Two handles of one
kind name the same thing exactly when they are equal. -/

namespace ScopedVariables

/-! ## Words that never wrap

The greatest word has no successor. -/

def nextWord? (word : UInt32) : Option UInt32 :=
  if word.toNat + 1 < UInt32.size then some (word + 1) else none

theorem nextWord?_eq_some_iff {word following : UInt32} :
    nextWord? word = some following ↔ following.toNat = word.toNat + 1 := by
  have bound := following.toNat_lt
  have size : UInt32.size = 2 ^ 32 := rfl
  unfold nextWord?
  split
  · rename_i fits
    rw [Option.some.injEq, ← UInt32.toNat_inj, UInt32.toNat_add]
    simp only [UInt32.toNat_one]
    omega
  · simp only [reduceCtorEq, false_iff]
    omega

theorem nextWord?_eq_none_iff {word : UInt32} :
    nextWord? word = none ↔ word.toNat + 1 = UInt32.size := by
  have bound := word.toNat_lt
  have size : UInt32.size = 2 ^ 32 := rfl
  simp only [nextWord?, ite_eq_right_iff, reduceCtorEq, imp_false]
  omega

/-! ## Scopes

The global scope is the outermost one and alive throughout a session. The
others are issued one after another, while there are words left. -/

structure ScopeId where
  raw : UInt32
  deriving DecidableEq, Hashable, Repr, Inhabited

namespace ScopeId

def global : ScopeId := ⟨0⟩

def successor? (scope : ScopeId) : Option ScopeId :=
  (nextWord? scope.raw).map ScopeId.mk

theorem successor?_eq_some_iff {scope following : ScopeId} :
    scope.successor? = some following ↔
      following.raw.toNat = scope.raw.toNat + 1 := by
  simp only [successor?, Option.map_eq_some_iff, nextWord?_eq_some_iff]
  constructor
  · rintro ⟨word, value, rfl⟩
    exact value
  · exact fun value => ⟨following.raw, value, rfl⟩

/-! Scopes are ordered by their raw words, which is the order of issue. -/

instance : LT ScopeId := ⟨fun left right => left.raw < right.raw⟩
instance : LE ScopeId := ⟨fun left right => left.raw ≤ right.raw⟩

instance (left right : ScopeId) : Decidable (left < right) :=
  inferInstanceAs (Decidable (left.raw < right.raw))

instance (left right : ScopeId) : Decidable (left ≤ right) :=
  inferInstanceAs (Decidable (left.raw ≤ right.raw))

/-- The given scopes in ascending order, each once. -/
def ascending (scopes : List ScopeId) : List ScopeId :=
  (scopes.mergeSort fun left right => left ≤ right).eraseReps

def text (scope : ScopeId) : String :=
  if scope = global then "ScopeId::GLOBAL"
  else "ScopeId(" ++ toString scope.raw.toNat ++ ")"

def optionText : Option ScopeId → String
  | none => "None"
  | some scope => "Some(" ++ scope.text ++ ")"

end ScopeId

/-! ## Element types

A type's handle is its position in the order of registration. -/

structure TypeId where
  raw : UInt32
  deriving DecidableEq, Hashable, Repr, Inhabited

namespace TypeId

def index (type : TypeId) : Nat := type.raw.toNat

@[simp] theorem index_ofNat {position : Nat} (fits : position < UInt32.size) :
    (TypeId.mk (UInt32.ofNat position)).index = position :=
  UInt32.toNat_ofNat_of_lt' fits

def text (type : TypeId) : String :=
  "TypeId(" ++ toString type.raw.toNat ++ ")"

end TypeId

/-! ## Stored variables -/

/-- A handle resolves while the slot at `index` is occupied in this very
`generation`. The index is to fit into a 32-bit word, too, and it is a fault to
need more than 2^32 slots. This fault is left out: no run of fewer than 2^32
commands comes to it, by `Store.AllocatesSafely.grown`. -/
structure VarId where
  index : Nat
  generation : UInt32
  deriving DecidableEq, Hashable, Repr, Inhabited

namespace VarId

def text (id : VarId) : String :=
  "VarId \x7b index: " ++ toString id.index ++ ", generation: " ++
    toString id.generation.toNat ++ " \x7d"

end VarId

end ScopedVariables

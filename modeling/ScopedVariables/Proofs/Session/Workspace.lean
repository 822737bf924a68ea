import Mathlib.Logic.Function.Basic
import ScopedVariables.Proofs.Session.Definitions
import ScopedVariables.Proofs.Variable.Fitting

/-! # Variables on the move

A client builds variables, holds them in registers, copies them, writes to them
and moves them between any number of stores, one of which belongs to a session.
Meanwhile the session goes on, and types are registered. A ghost notes for each
place from which descriptor the variable there was built. No step reads the
ghost but to pass it on, and every variable fits what it says. -/

namespace ScopedVariables

open Sequence (ids)

inductive Place where
  | register (number : Nat)
  | store (number : Nat) (id : VarId)
  deriving DecidableEq

inductive Draft where
  | scalar (name : String) (scope : Option ScopeId)
  | array (name : String) (scope : Option ScopeId) (length : Nat)
  | filled (name : String) (scope : Option ScopeId) (shape : Shape)
      (values : List Payload)

def Draft.build (descriptor : TypeDescriptor) : Draft → Except VariableError Variable
  | .scalar name scope => Variable.scalar name scope descriptor
  | .array name scope length => Variable.array name scope descriptor length
  | .filled name scope shape values =>
      Variable.ofValues name scope descriptor shape values

structure Workspace where
  config : SessionConfig
  types : TypeTable
  scopes : ScopeStack
  /-- The stores. That of the session comes first. -/
  stores : Nat → Store
  registers : Nat → Option Variable
  /-- What the variable at each place was built from. -/
  origin : Place → Option TypeDescriptor

theorem Session.Alters.fits {session : Session} {entered : Option ScopeId}
    {types : TypeTable} {scopes : ScopeStack}
    (alters : session.Alters entered types scopes) {var : Variable}
    {descriptor : TypeDescriptor} (fits : var.Fits session.types descriptor) :
    var.Fits types descriptor := by
  cases alters with
  | defined registers => exact fits.register registers
  | kept | entered | left | ended => exact fits

namespace Workspace

def start (config : SessionConfig) : Workspace where
  config := config
  types := .empty
  scopes := .initial
  stores := fun _ => .empty
  registers := fun _ => none
  origin := fun _ => none

def session (workspace : Workspace) : Session where
  config := workspace.config
  types := workspace.types
  scopes := workspace.scopes
  store := workspace.stores 0

def var? (workspace : Workspace) : Place → Option Variable
  | .register number => workspace.registers number
  | .store number id => (workspace.stores number).get? id

/-! ## Steps

A variable is built into a register or copied into one, linked from a register
into a store, and unlinked from a store into a register. The place that it is
put in is tagged with its origin. An origin is read for no other purpose than
to be passed on. -/

def setStore (workspace : Workspace) (number : Nat) (store : Store) : Workspace :=
  { workspace with stores := Function.update workspace.stores number store }

def setRegister (workspace : Workspace) (number : Nat) (var : Option Variable) :
    Workspace :=
  { workspace with registers := Function.update workspace.registers number var }

def setSession (workspace : Workspace) (session : Session) : Workspace :=
  { workspace.setStore 0 session.store with
    config := session.config, types := session.types, scopes := session.scopes }

def tag (workspace : Workspace) (place : Place) (origin : Option TypeDescriptor) :
    Workspace :=
  { workspace with origin := Function.update workspace.origin place origin }

def put (workspace : Workspace) (register : Nat) (var : Variable)
    (origin : Option TypeDescriptor) : Workspace :=
  ((workspace.setRegister register none).tag (.register register) origin).setRegister
    register (some var)

def build (workspace : Workspace) (register : Nat) (type : TypeId)
    (draft : Draft) : Workspace :=
  match workspace.types.get? type with
  | none => workspace
  | some descriptor =>
      match draft.build descriptor with
      | .error _ => workspace
      | .ok var => workspace.put register var (some descriptor)

def copy (workspace : Workspace) (register : Nat) (source : Place) : Workspace :=
  match workspace.var? source with
  | none => workspace
  | some var => workspace.put register var (workspace.origin source)

def link (workspace : Workspace) (register number : Nat) : Workspace :=
  match workspace.registers register with
  | none => workspace
  | some var =>
      let (id, store) := ((workspace.stores number).add var).value
      ((workspace.tag (.store number id) (workspace.origin (.register register))).setStore
        number store).setRegister register none

def unlink (workspace : Workspace) (register number : Nat) (id : VarId) :
    Workspace :=
  match ((workspace.stores number).remove id).value with
  | (none, _) => workspace
  | (some var, store) =>
      (workspace.setStore number store).put register var
        (workspace.origin (.store number id))

def declare (workspace : Workspace) (declaration : Declaration) : Workspace :=
  match (workspace.session.declare declaration).value with
  | (.error _, _) => workspace
  | (.ok id, session) =>
      (workspace.tag (.store 0 id)
        (workspace.types.lookup declaration.typeName)).setSession session

def storeCommand (workspace : Workspace) (number : Nat) :
    Store.Command → Workspace
  | .add _ => workspace
  | command =>
      workspace.setStore number ((workspace.stores number).execute command).value.2

inductive Command where
  | session (command : Session.Command)
  | store (number : Nat) (command : Store.Command)
  | build (register : Nat) (type : TypeId) (draft : Draft)
  | copy (register : Nat) (source : Place)
  | write (register : Nat) (write : Variable.Write)
  | drop (register : Nat)
  | link (register number : Nat)
  | unlink (register number : Nat) (id : VarId)

def execute (workspace : Workspace) : Command → Workspace
  | .session (.declare declaration) => workspace.declare declaration
  | .session (.store command) => workspace.storeCommand 0 command
  | .session command =>
      workspace.setSession (workspace.session.execute command).value.2
  | .store number command => workspace.storeCommand number command
  | .build register type draft => workspace.build register type draft
  | .copy register source => workspace.copy register source
  | .write register write =>
      workspace.setRegister register
        ((workspace.registers register).map (·.write write))
  | .drop register => workspace.setRegister register none
  | .link register number => workspace.link register number
  | .unlink register number id => workspace.unlink register number id

def run (workspace : Workspace) : List Command → Workspace
  | [] => workspace
  | command :: commands => (workspace.execute command).run commands

/-! ## What a change leaves elsewhere -/

section Change

variable (workspace : Workspace)

theorem stores_setStore_self (number : Nat) (store : Store) :
    (workspace.setStore number store).stores number = store :=
  Function.update_self ..

theorem stores_setStore_of_ne {number other : Nat} (different : other ≠ number)
    (store : Store) :
    (workspace.setStore number store).stores other = workspace.stores other :=
  Function.update_of_ne different ..

theorem registers_setRegister_self (number : Nat) (var : Option Variable) :
    (workspace.setRegister number var).registers number = var :=
  Function.update_self ..

theorem registers_setRegister_of_ne {number other : Nat}
    (different : other ≠ number) (var : Option Variable) :
    (workspace.setRegister number var).registers other =
      workspace.registers other :=
  Function.update_of_ne different ..

theorem origin_tag_self (place : Place) (origin : Option TypeDescriptor) :
    (workspace.tag place origin).origin place = origin :=
  Function.update_self ..

theorem origin_tag_of_ne {place other : Place} (different : other ≠ place)
    (origin : Option TypeDescriptor) :
    (workspace.tag place origin).origin other = workspace.origin other :=
  Function.update_of_ne different ..

end Change

/-! ## What every step keeps -/

def Known (workspace : Workspace) (place : Place) (var : Variable) : Prop :=
  ∃ descriptor, workspace.origin place = some descriptor ∧
    var.Fits workspace.types descriptor

structure Sound (workspace : Workspace) : Prop where
  registered : workspace.types.Registered
  represents : ∀ number,
    (workspace.stores number).Represents (workspace.stores number).toList
  known : ∀ place var, workspace.var? place = some var → workspace.Known place var

theorem Known.write {workspace : Workspace} {place : Place} {var : Variable}
    (known : workspace.Known place var) (write : Variable.Write) :
    workspace.Known place (var.write write) := by
  rcases known with ⟨descriptor, origin, fits⟩
  exact ⟨descriptor, origin, fits.write write⟩

namespace Sound

variable {workspace : Workspace}

theorem start (config : SessionConfig) : (start config).Sound where
  registered := .empty
  represents := fun _ => Store.represents_empty
  known := by
    intro place var found
    cases place with
    | register number => cases found
    | store number id =>
        change Store.empty.get? id = some var at found
        rw [Store.represents_empty.get?_eq] at found
        cases found

theorem known_of_mem (sound : workspace.Sound) {number : Nat}
    {item : VarId × Variable}
    (member : item ∈ (workspace.stores number).toList) :
    workspace.Known (.store number item.1) item.2 := by
  have represents := sound.represents number
  apply sound.known (.store number item.1)
  change (workspace.stores number).get? item.1 = some item.2
  rw [represents.get?_eq]
  exact Sequence.lookup_of_mem represents.nodup member

theorem setStore (sound : workspace.Sound) {number : Nat} {store : Store}
    {items : Sequence} (represents : store.Represents items)
    (known : ∀ item, item ∈ items → workspace.Known (.store number item.1) item.2) :
    (workspace.setStore number store).Sound where
  registered := sound.registered
  represents := by
    intro other
    rcases Decidable.eq_or_ne other number with rfl | different
    · rw [stores_setStore_self]
      exact represents.represents_toList
    · rw [stores_setStore_of_ne workspace different]
      exact sound.represents other
  known := by
    intro place var found
    cases place with
    | register register => exact sound.known (.register register) var found
    | store other id =>
        rw [var?] at found
        rcases Decidable.eq_or_ne other number with rfl | different
        · rw [stores_setStore_self, represents.get?_eq] at found
          exact known (id, var) (Sequence.mem_of_lookup found)
        · rw [stores_setStore_of_ne workspace different] at found
          exact sound.known (.store other id) var found

theorem setRegister (sound : workspace.Sound) {number : Nat}
    {content : Option Variable}
    (known : ∀ var, content = some var → workspace.Known (.register number) var) :
    (workspace.setRegister number content).Sound where
  registered := sound.registered
  represents := sound.represents
  known := by
    intro place var found
    cases place with
    | store other id => exact sound.known (.store other id) var found
    | register other =>
        rw [var?] at found
        rcases Decidable.eq_or_ne other number with rfl | different
        · rw [registers_setRegister_self] at found
          exact known var found
        · rw [registers_setRegister_of_ne workspace different] at found
          exact sound.known (.register other) var found

theorem tag (sound : workspace.Sound) {place : Place}
    (vacant : workspace.var? place = none) (origin : Option TypeDescriptor) :
    (workspace.tag place origin).Sound where
  registered := sound.registered
  represents := sound.represents
  known := by
    intro other var found
    change workspace.var? other = some var at found
    rcases Decidable.eq_or_ne other place with rfl | different
    · rw [vacant] at found
      cases found
    · rcases sound.known other var found with ⟨descriptor, known, fits⟩
      refine ⟨descriptor, ?_, fits⟩
      rw [origin_tag_of_ne workspace different]
      exact known

theorem put (sound : workspace.Sound) (register : Nat) {var : Variable}
    {descriptor : TypeDescriptor} (fits : var.Fits workspace.types descriptor) :
    (workspace.put register var (some descriptor)).Sound := by
  have cleared : (workspace.setRegister register none).Sound :=
    sound.setRegister fun _ found => nomatch found
  have vacant :
      (workspace.setRegister register none).var? (.register register) = none :=
    registers_setRegister_self ..
  apply (cleared.tag vacant (some descriptor)).setRegister
  intro _ content
  cases content
  exact ⟨descriptor, origin_tag_self .., fits⟩

theorem setSession (sound : workspace.Sound) {session : Session}
    {items : Sequence} (registered : session.types.Registered)
    (grown : ∀ {var : Variable} {descriptor : TypeDescriptor},
      var.Fits workspace.types descriptor → var.Fits session.types descriptor)
    (represents : session.store.Represents items)
    (known : ∀ item, item ∈ items → workspace.Known (.store 0 item.1) item.2) :
    (workspace.setSession session).Sound where
  registered := registered
  represents := (sound.setStore represents known).represents
  known := by
    intro place var found
    rcases (sound.setStore represents known).known place var found with
      ⟨descriptor, origin, fits⟩
    exact ⟨descriptor, origin, grown fits⟩

theorem build (sound : workspace.Sound) (register : Nat) (type : TypeId)
    (draft : Draft) : (workspace.build register type draft).Sound := by
  rw [Workspace.build]
  cases found : workspace.types.get? type with
  | none => exact sound
  | some descriptor =>
      have listed := sound.registered.indexed.get?_id found
      dsimp only
      cases built : draft.build descriptor with
      | error error => exact sound
      | ok var =>
          apply sound.put register
          cases draft <;> exact .of_ofValues listed built

theorem copy (sound : workspace.Sound) (register : Nat) (source : Place) :
    (workspace.copy register source).Sound := by
  rw [Workspace.copy]
  cases found : workspace.var? source with
  | none => exact sound
  | some var =>
      rcases sound.known source var found with ⟨descriptor, origin, fits⟩
      dsimp only
      rw [origin]
      exact sound.put register fits

theorem known_link (sound : workspace.Sound) (number : Nat) {var : Variable}
    {descriptor : TypeDescriptor} (fits : var.Fits workspace.types descriptor) :
    let outcome := (workspace.stores number).link var
    let tagged := workspace.tag (.store number outcome.1) (some descriptor)
    tagged.Sound ∧
      outcome.2.Represents ((workspace.stores number).toList ++ [(outcome.1, var)]) ∧
      ∀ item, item ∈ (workspace.stores number).toList ++ [(outcome.1, var)] →
        tagged.Known (.store number item.1) item.2 := by
  intro outcome tagged
  have represents := sound.represents number
  have vacant : workspace.var? (.store number outcome.1) = none := by
    rw [var?, represents.get?_eq]
    exact Sequence.lookup_eq_none_iff.mpr (represents.place_fresh var)
  have soundTagged : tagged.Sound := sound.tag vacant (some descriptor)
  refine ⟨soundTagged, represents.link var, ?_⟩
  intro item member
  rcases List.mem_append.mp member with member | member
  · exact soundTagged.known_of_mem member
  · rw [List.mem_singleton.mp member]
    exact ⟨descriptor, origin_tag_self .., fits⟩

theorem link (sound : workspace.Sound) (register number : Nat) :
    (workspace.link register number).Sound := by
  rw [Workspace.link]
  cases content : workspace.registers register with
  | none => exact sound
  | some var =>
      rcases sound.known (.register register) var content with
        ⟨descriptor, origin, fits⟩
      rcases sound.known_link number fits with ⟨soundTagged, represents, known⟩
      simp only [Store.value_add, origin]
      apply (soundTagged.setStore represents known).setRegister
      exact fun _ found => nomatch found

theorem unlink (sound : workspace.Sound) (register number : Nat) (id : VarId) :
    (workspace.unlink register number id).Sound := by
  rcases (sound.represents number).remove id with ⟨answer, represents⟩
  rw [Workspace.unlink]
  generalize ((workspace.stores number).remove id).value = outcome at answer represents ⊢
  rcases outcome with ⟨removed, store⟩
  cases removed with
  | none => exact sound
  | some var =>
      have member := Sequence.mem_of_lookup answer.symm
      rcases sound.known_of_mem member with ⟨descriptor, origin, fits⟩
      have soundAfter : (workspace.setStore number store).Sound := by
        apply sound.setStore represents
        intro item kept
        exact sound.known_of_mem (List.mem_filter.mp kept).1
      simp only [origin]
      exact soundAfter.put register fits

theorem declare (sound : workspace.Sound) (declaration : Declaration) :
    (workspace.declare declaration).Sound := by
  rw [Workspace.declare]
  cases prepared : workspace.session.prepare declaration with
  | error error =>
      rw [Session.declare_of_error prepared]
      exact sound
  | ok var =>
      rcases Session.prepare_eq_ok_iff.mp prepared with ⟨_, descriptor, named, built⟩
      change workspace.types.lookup declaration.typeName = some descriptor at named
      have inTable := (sound.registered.indexed.lookup_eq_some_iff.mp named).1
      have listed := sound.registered.indexed.mem_descriptors_iff.mp inTable
      have fits : var.Fits workspace.types descriptor := by
        cases declaration <;> exact .of_ofValues listed built
      rcases sound.known_link 0 fits with ⟨soundTagged, represents, known⟩
      rw [Session.value_declare_of_ok prepared]
      simp only [named]
      exact soundTagged.setSession sound.registered id represents known

theorem storeCommand (sound : workspace.Sound) (number : Nat)
    (command : Store.Command) : (workspace.storeCommand number command).Sound := by
  unfold Workspace.storeCommand
  split
  · exact sound
  · rename_i notAdd
    rcases (sound.represents number).execute command with ⟨after, step, represents⟩
    apply sound.setStore represents
    refine step.forall_items (fun id var => workspace.Known (.store number id) var)
      (fun _ _ write known => known.write write)
      (fun _ member => sound.known_of_mem member) ?_
    intro _ var isAdd _
    exact absurd isAdd (notAdd var)

theorem setSession_execute (sound : workspace.Sound) {command : Session.Command}
    (notDeclare : ∀ declaration, command ≠ .declare declaration)
    (notStore : ∀ stored, command ≠ .store stored) :
    (workspace.setSession (workspace.session.execute command).value.2).Sound := by
  have alters := (Session.alters_execute workspace.session command).2
  have represents : workspace.session.store.Represents workspace.session.store.toList :=
    sound.represents 0
  rcases represents.run (workspace.session.storeCommands command) with
    ⟨after, runs, representsAfter⟩
  rw [← Session.store_execute] at representsAfter
  apply sound.setSession (alters.registered sound.registered) alters.fits representsAfter
  refine runs.forall_items (fun id var => workspace.Known (.store 0 id) var)
    (fun _ _ write known => known.write write)
    (fun _ member => sound.known_of_mem member) ?_
  intro _ var member
  rcases Session.add_mem_storeCommands member with ⟨declaration, isDeclare, _⟩ | isStore
  · exact absurd isDeclare (notDeclare declaration)
  · exact absurd isStore (notStore _)

theorem execute (sound : workspace.Sound) (command : Command) :
    (workspace.execute command).Sound := by
  cases command with
  | session command =>
      cases command with
      | declare declaration => exact sound.declare declaration
      | store command => exact sound.storeCommand 0 command
      | _ => exact sound.setSession_execute nofun nofun
  | store number command => exact sound.storeCommand number command
  | build register type draft => exact sound.build register type draft
  | copy register source => exact sound.copy register source
  | write register write =>
      apply sound.setRegister
      intro after written
      rcases Option.map_eq_some_iff.mp written with ⟨before, content, rfl⟩
      exact (sound.known (.register register) before content).write write
  | drop register => exact sound.setRegister fun _ found => nomatch found
  | link register number => exact sound.link register number
  | unlink register number id => exact sound.unlink register number id

theorem run (sound : workspace.Sound) (commands : List Command) :
    (workspace.run commands).Sound := by
  induction commands generalizing workspace with
  | nil => exact sound
  | cons command commands induction => exact induction (sound.execute command)

end Sound

/-- Wherever a variable is after any steps, it fits the descriptor it was built
from. And what is built is exactly what has a name, a shape and as many payloads
as a variable that fits, the first of the faults being reported otherwise. -/
theorem variables_stay_well_typed :
    (∀ (config : SessionConfig) (commands : List Command) (place : Place)
        (var : Variable),
      let workspace := (start config).run commands
      workspace.var? place = some var →
        ∃ descriptor, workspace.origin place = some descriptor ∧
          var.Fits workspace.types descriptor) ∧
    ∀ (name : String) (scope : Option ScopeId) (descriptor : TypeDescriptor)
        (shape : Shape) (values : List Payload),
      (∀ var, Variable.ofValues name scope descriptor shape values = .ok var ↔
        (name ≠ "" ∧ shape ≠ .array 0 ∧
          values.length = shape.payloadCount descriptor) ∧
        var = ⟨name, scope, shape, descriptor.id, values, none⟩) ∧
      ∀ error, Variable.ofValues name scope descriptor shape values = .error error ↔
        Variable.Refused name descriptor shape values error := by
  refine ⟨?_, ?_⟩
  · intro config commands place var workspace found
    have sound : workspace.Sound := (Sound.start config).run commands
    exact sound.known place var found
  · intro name scope descriptor shape values
    exact ⟨fun _ => Variable.ofValues_eq_ok_iff, fun _ => Variable.ofValues_eq_error_iff⟩

/-- A variable and its copy, which alone is written to, are linked in two stores. There the
copy is given an internal value, another type is registered, and the copy is unlinked. -/
theorem copy_well_typed_across_stores :
    let pair : TypeDescriptor := ⟨⟨0⟩, "pair", [⟨"left", 4⟩, ⟨"right", 4⟩]⟩
    let x : Variable := ⟨"x", some ⟨1⟩, .scalar, ⟨0⟩, [.empty, .empty], none⟩
    let copied : Variable :=
      { x with values := [.empty, ⟨⟨#[7, 8]⟩⟩], internal := some ⟨#[9]⟩ }
    let commands : List Command :=
      [.session (.defineType pair.name pair.members), .build 0 ⟨0⟩ (.scalar "x" (some ⟨1⟩)),
        .copy 1 (.register 0), .write 1 (.value 1 ⟨#[7, 8]⟩), .link 0 1, .link 1 2,
        .store 2 (.write ⟨0, 0⟩ (.setInternal ⟨#[9]⟩)),
        .session (.defineType "unit" []), .unlink 3 2 ⟨0, 0⟩]
    let workspace := (start {}).run commands
    workspace.var? (.store 1 ⟨0, 0⟩) = some x ∧
      workspace.var? (.store 2 ⟨0, 0⟩) = none ∧
      workspace.var? (.register 3) = some copied ∧
      x.Fits workspace.types pair ∧ copied.Fits workspace.types pair := by
  intro pair x copied commands workspace
  have linked : workspace.var? (.store 1 ⟨0, 0⟩) = some x := by decide
  have moved : workspace.var? (.store 2 ⟨0, 0⟩) = none := by decide
  have held : workspace.var? (.register 3) = some copied := by decide
  have linkedFrom : workspace.origin (.store 1 ⟨0, 0⟩) = some pair := by decide
  have heldFrom : workspace.origin (.register 3) = some pair := by decide
  -- from here on the commands need not be run again
  clear_value commands
  have wellTyped := variables_stay_well_typed.1 {} commands
  rcases wellTyped (.store 1 ⟨0, 0⟩) x linked with ⟨descriptor, origin, linkedFits⟩
  rcases wellTyped (.register 3) copied held with ⟨copiedFrom, copiedOrigin, heldFits⟩
  cases Option.some.inj (linkedFrom.symm.trans origin)
  cases Option.some.inj (heldFrom.symm.trans copiedOrigin)
  exact ⟨linked, moved, held, linkedFits, heldFits⟩

end Workspace

end ScopedVariables

import Mathlib.Data.List.Nodup
import ScopedVariables.Proofs.Store.Aliasing

/-! # The turns of a slot

A slot is issued to a new variable, released when the variable leaves, and may be
issued again. Whatever a command does, it does in small steps: it changes entries
in place, moves the head, issues a slot or releases one. So what holds of the arena
after each small step holds at every moment of every run. -/

namespace ScopedVariables.Store

open Sequence (ids)

inductive Turn where
  | issued (id : VarId)
  | released (id : VarId)
  deriving DecidableEq, Repr

def issuedSlots (turns : List Turn) : List Nat :=
  turns.filterMap fun
    | .issued id => some id.index
    | .released _ => none

def releasedSlots (turns : List Turn) : List Nat :=
  turns.filterMap fun
    | .issued _ => none
    | .released id => some id.index

theorem issuedSlots_append (earlier later : List Turn) :
    issuedSlots (earlier ++ later) = issuedSlots earlier ++ issuedSlots later :=
  List.filterMap_append

theorem releasedSlots_append (earlier later : List Turn) :
    releasedSlots (earlier ++ later) = releasedSlots earlier ++ releasedSlots later :=
  List.filterMap_append

theorem issuedSlots_released (handles : List VarId) :
    issuedSlots (handles.map .released) = [] := by
  rw [issuedSlots, List.filterMap_map]
  exact List.filterMap_eq_nil_iff.mpr fun _ _ => rfl

theorem issuedSlots_append_released (past : List Turn) (handles : List VarId) :
    issuedSlots (past ++ handles.map .released) = issuedSlots past := by
  rw [issuedSlots_append, issuedSlots_released, List.append_nil]

/-! ## Small steps -/

inductive Step : Store → List Turn → Store → Prop
  | modified (store : Store) (id : VarId) (change : Entry → Entry) :
      Step store [] (store.modify id change)
  | headed (store : Store) (head : Option VarId) :
      Step store [] { store with head }
  | issued (store : Store) (var : Variable) :
      Step store [.issued (store.place var).1] (store.place var).2
  | released {store after : Store} {id : VarId} {entry : Entry} :
      store.release id = some (entry, after) → Step store [.released id] after

inductive Steps : Store → List Turn → Store → Prop
  | none (store : Store) : Steps store [] store
  | step {store middle after : Store} {turns later : List Turn} :
      Step store turns middle → Steps middle later after →
      Steps store (turns ++ later) after

namespace Steps

variable {store middle after : Store} {turns later : List Turn}

theorem one (step : Step store turns after) : Steps store turns after := by
  have steps := Steps.step step (.none after)
  rw [List.append_nil] at steps
  exact steps

theorem trans (first : Steps store turns middle) (second : Steps middle later after) :
    Steps store (turns ++ later) after := by
  induction first with
  | none => exact second
  | step first _ induction =>
      rw [List.append_assoc]
      exact .step first (induction second)

theorem keep (Holds : List Turn → Store → Prop)
    (kept : ∀ past store turns after, Holds past store → Step store turns after →
      Holds (past ++ turns) after)
    (steps : Steps store turns after) (past : List Turn) (holds : Holds past store) :
    Holds (past ++ turns) after := by
  induction steps generalizing past with
  | none =>
      rw [List.append_nil]
      exact holds
  | step first _ induction =>
      rw [← List.append_assoc]
      exact induction _ (kept _ _ _ _ holds first)

/-! ## The steps of each operation -/

theorem append (store : Store) (chain : Chain) (tail : Option VarId) (id : VarId) :
    Steps store [] (store.append chain tail id) := by
  cases tail with
  | none =>
      cases chain with
      | sequence => exact one (.headed store (some id))
      | scope => exact .none store
  | some last => exact one (.modified store last _)

theorem link (store : Store) (var : Variable) :
    Steps store [.issued (store.link var).1] (store.link var).2 := by
  rw [link_eq]
  exact (one (.issued store var)).trans ((append _ .sequence _ _).trans (append _ .scope _ _))

theorem bypass (store : Store) (chain : Chain) (target : VarId)
    (following : Option VarId) :
    Steps store [] (store.bypass chain target following) := by
  rw [Store.bypass]
  split
  · exact .none store
  · exact one (.modified store _ _)

theorem detach (store : Store) (target : VarId) (next : Option VarId) :
    Steps store [] (store.detach target next) := by
  rw [Store.detach]
  split
  · exact one (.headed store next)
  · exact bypass store .sequence target next

end Steps

/-! ## The releases of a command -/

theorem Command.adds_or_not (command : Command) :
    (∃ var, command = .add var) ∨ ∀ var, command ≠ .add var := by
  cases command with
  | add var => exact Or.inl ⟨var, rfl⟩
  | remove | removeByName | removeScope | destroyAll | write => exact Or.inr nofun

def unlinkReleases (store : Store) (target : VarId) : List (Store × VarId) :=
  match store.resolve? target with
  | none => []
  | some entry =>
      [((store.detach target entry.next).bypass .scope target entry.nextInScope, target)]

def discardReleases (store : Store) : List VarId → List (Store × VarId)
  | [] => []
  | id :: ids =>
      store.unlinkReleases id ++ (store.remove id).value.2.discardReleases ids

def drainReleases (store : Store) :
    (steps : Nat) → (position : Option VarId) → List (Store × VarId)
  | 0, _ => []
  | _, none => []
  | steps + 1, some id =>
      (store, id) ::
        match store.release id with
        | none => []
        | some (entry, after) => after.drainReleases steps entry.next

theorem drainReleases_of_resolve? {store : Store} {id : VarId} {entry : Entry}
    (found : store.resolve? id = some entry) (steps : Nat) :
    store.drainReleases (steps + 1) (some id) =
      (store, id) :: (store.vacate id).drainReleases steps entry.next := by
  rw [drainReleases, release_of_resolve? found]

def releases (store : Store) : Command → List (Store × VarId)
  | .remove id => store.unlinkReleases id
  | .removeByName name => (store.findByName name).toList.flatMap store.unlinkReleases
  | .removeScope scope => store.discardReleases ((store.scopeList scope).map Prod.fst)
  | .destroyAll => { store with head := none }.drainReleases store.slots.size store.head
  | .add _ | .write _ _ => []

/-- The calls lead from a store to the next one: each of them releases an entry, and
what happens between them issues and releases nothing. -/
inductive Releases : Store → List (Store × VarId) → Store → Prop
  | none {store after : Store} : Steps store [] after → Releases store [] after
  | call {store caller middle after : Store} {id : VarId} {entry : Entry}
      {calls : List (Store × VarId)} :
      Steps store [] caller → caller.release id = some (entry, middle) →
      Releases middle calls after → Releases store ((caller, id) :: calls) after

namespace Releases

variable {store middle after : Store} {calls later : List (Store × VarId)}

theorem steps (releases : Releases store calls after) :
    Steps store ((calls.map Prod.snd).map .released) after := by
  induction releases with
  | none steps => exact steps
  | call before released _ induction =>
      exact before.trans ((Steps.one (.released released)).trans induction)

theorem of_steps (steps : Steps store [] middle) (releases : Releases middle calls after) :
    Releases store calls after := by
  cases releases with
  | none later => exact .none (steps.trans later)
  | call before released rest => exact .call (steps.trans before) released rest

theorem trans (first : Releases store calls middle)
    (second : Releases middle later after) : Releases store (calls ++ later) after := by
  induction first with
  | none steps => exact of_steps steps second
  | call before released _ induction => exact .call before released (induction second)

theorem of_mem (releases : Releases store calls after) {caller : Store} {id : VarId}
    (member : (caller, id) ∈ calls) :
    (∃ earlier : List VarId, Steps store (earlier.map .released) caller) ∧
      (caller.resolve? id).isSome := by
  induction releases with
  | none => cases member
  | call before released _ induction =>
      rcases List.mem_cons.mp member with here | member
      · cases here
        refine ⟨⟨[], before⟩, ?_⟩
        rw [(resolve?_release released id).1]
        rfl
      · rcases induction member with ⟨⟨earlier, steps⟩, resolves⟩
        exact ⟨⟨_ :: earlier, before.trans ((Steps.one (.released released)).trans steps)⟩,
          resolves⟩

end Releases

variable {store : Store} {items : Sequence}

theorem taken_remove (nodup : items.ids.Nodup) (id : VarId) :
    items.taken (.remove id) = if id ∈ items.ids then [id] else [] := by
  have counted : items.taken (.remove id) = List.replicate (items.ids.count id) id :=
    List.filter_eq id
  rw [counted, nodup.count]
  split <;> rfl

namespace Represents

theorem releases_remove (represents : store.Represents items) (id : VarId) :
    (store.unlinkReleases id).map Prod.snd = items.taken (.remove id) ∧
      Releases store (store.unlinkReleases id) (store.remove id).value.2 := by
  rw [taken_remove represents.nodup, unlinkReleases]
  cases found : store.resolve? id with
  | none =>
      rw [if_neg (represents.resolve?_eq_none_iff.mp found),
        remove_of_unlink_eq_none (unlink_of_resolve?_eq_none found)]
      exact ⟨rfl, .none (.none store)⟩
  | some entry =>
      have listed : id ∈ items.ids := represents.resolves_iff.mp (by rw [found]; rfl)
      rw [if_pos listed]
      rcases represents.unlink (represents.lookup_of_resolve? found).1 with
        ⟨after, unlinked, _⟩
      rw [remove_of_unlink_eq_some unlinked]
      rw [unlink_of_resolve? found] at unlinked
      rcases Option.map_eq_some_iff.mp unlinked with ⟨⟨_, last⟩, released, equal⟩
      rcases (Prod.mk.injEq ..).mp equal with ⟨_, rfl⟩
      exact ⟨rfl, .call ((Steps.detach store id _).trans (Steps.bypass _ .scope id _))
        released (.none (.none last))⟩

theorem releases_discard (represents : store.Represents items)
    {targets : List VarId} (nodup : targets.Nodup)
    (listed : ∀ id, id ∈ targets → id ∈ items.ids) :
    (store.discardReleases targets).map Prod.snd = targets ∧
      Releases store (store.discardReleases targets) (store.discard targets).value := by
  induction targets generalizing store items with
  | nil => exact ⟨rfl, .none (.none store)⟩
  | cons target targets induction =>
      have parts := List.nodup_cons.mp nodup
      rcases represents.releases_remove target with ⟨handles, releases⟩
      rw [taken_remove represents.nodup, if_pos (listed target List.mem_cons_self)] at handles
      rcases induction (represents.remove target).2 parts.2 (fun id member => by
        rw [Sequence.mem_ids_without]
        exact ⟨listed id (List.mem_cons_of_mem _ member),
          fun same => parts.1 (same ▸ member)⟩) with ⟨laterHandles, laterReleases⟩
      rw [discard_cons, discardReleases, List.map_append, handles, laterHandles]
      exact ⟨rfl, releases.trans laterReleases⟩

end Represents

theorem Draining.releases_drain {rest : Sequence} (draining : store.Draining rest)
    {steps : Nat} (enough : rest.length ≤ steps) :
    (store.drainReleases steps rest.ids.head?).map Prod.snd = rest.ids ∧
      Releases store (store.drainReleases steps rest.ids.head?)
        (store.drain steps rest.ids.head?).2 := by
  induction rest generalizing store steps with
  | nil => cases steps <;> exact ⟨rfl, .none (.none store)⟩
  | cons first rest induction =>
      rcases first with ⟨id, var⟩
      rcases draining.shows_rest.1 with ⟨entry, found, _, link⟩
      cases steps with
      | zero => simp at enough
      | succ steps =>
          have next : entry.next = (ids rest).head? := link
          have released := release_of_resolve? found
          rcases induction draining.vacate (Nat.le_of_succ_le_succ enough) with
            ⟨handles, releases⟩
          rw [Sequence.ids_cons, List.head?_cons, drain_of_resolve? found,
            drainReleases_of_resolve? found, next, List.map_cons, handles]
          exact ⟨rfl, .call (.none store) released releases⟩

theorem Represents.releases_execute (represents : store.Represents items)
    {command : Command} (addsNothing : ∀ var, command ≠ .add var) :
    (store.releases command).map Prod.snd = items.taken command ∧
      Releases store (store.releases command) (store.execute command).value.2 := by
  cases command with
  | add var => exact absurd rfl (addsNothing var)
  | remove id => exact represents.releases_remove id
  | removeByName name =>
      have search := represents.findByName_eq_find? name
      rw [value_execute_removeByName, Sequence.taken, ← search, releases,
        Store.removeByName]
      cases found : store.findByName name with
      | none => exact ⟨rfl, .none (.none store)⟩
      | some id =>
          rw [found] at search
          rcases Option.map_eq_some_iff.mp search.symm with ⟨first, isFirst, rfl⟩
          rcases represents.releases_remove first.1 with ⟨handles, calls⟩
          have listed := Sequence.mem_ids (List.mem_of_find?_eq_some isFirst)
          rw [taken_remove represents.nodup, if_pos listed] at handles
          rw [Option.toList_some, List.flatMap_singleton, handles]
          exact ⟨rfl, calls⟩
  | removeScope scope =>
      rw [value_execute_removeScope, value_removeScope, releases, represents.scopeList_eq]
      exact represents.releases_discard (Sequence.nodup_members represents.nodup _)
        fun id member => Sequence.mem_ids_of_mem_members member
  | destroyAll =>
      rw [value_execute_destroyAll, value_destroyAll, Store.clear, releases,
        represents.head_eq]
      rcases represents.draining.releases_drain represents.length_le_size with
        ⟨handles, calls⟩
      exact ⟨handles, .of_steps (.one (.headed store none)) calls⟩
  | write id write => exact ⟨rfl, .none (.one (.modified store id _))⟩

theorem Represents.handles_releases (represents : store.Represents items)
    (command : Command) : (store.releases command).map Prod.snd = items.taken command := by
  rcases command.adds_or_not with ⟨var, rfl⟩ | addsNothing
  · rfl
  · exact (represents.releases_execute addsNothing).1

/-! ## The turns of a command and of a run -/

/-- The turns that a command takes: an addition issues a slot, and any other command
releases slots in the order of its calls. -/
def turns (store : Store) : Command → List Turn
  | .add var => [.issued (store.add var).value.1]
  | command => ((store.releases command).map Prod.snd).map .released

theorem turns_of_ne_add {command : Command} (addsNothing : ∀ var, command ≠ .add var) :
    store.turns command = ((store.releases command).map Prod.snd).map .released := by
  cases command with
  | add var => exact absurd rfl (addsNothing var)
  | remove | removeByName | removeScope | destroyAll | write => rfl

def history (store : Store) : List Command → List Turn
  | [] => []
  | command :: commands =>
      store.turns command ++ (store.execute command).value.2.history commands

theorem Represents.steps_execute (represents : store.Represents items)
    (command : Command) :
    Steps store (store.turns command) (store.execute command).value.2 := by
  rcases command.adds_or_not with ⟨var, rfl⟩ | addsNothing
  · change Steps store [.issued (store.add var).value.1] _
    rw [value_execute_add, value_add]
    exact .link store var
  · rw [turns_of_ne_add addsNothing]
    exact (represents.releases_execute addsNothing).2.steps

theorem Represents.steps_run (represents : store.Represents items)
    (commands : List Command) :
    Steps store (store.history commands) (store.run commands).value.2 := by
  induction commands generalizing store items with
  | nil => exact .none store
  | cons command commands induction =>
      rcases represents.execute command with ⟨_, _, representsAfter⟩
      rw [value_run_cons, history]
      exact (represents.steps_execute command).trans (induction representsAfter)

end ScopedVariables.Store

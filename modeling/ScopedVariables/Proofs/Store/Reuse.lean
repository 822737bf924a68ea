import Mathlib.Data.List.Induction
import Mathlib.Order.Bounds.Basic
import ScopedVariables.Proofs.Store.Accounting

/-! # The order of reuse

The turns of a run say which handle comes next. An addition gets the slot released
last among those not issued since, in the generation that counts its releases, and a
new slot only if no slot waits. So the arena is as large as the store once was, and
not larger. -/

namespace ScopedVariables.Store

open Sequence (ids)

/-! ## Slots that wait

A slot waits from its release until it is issued again. The next one to be
reused is the one released last of those that wait. -/

def AllReused (turns : List Turn) : Prop :=
  ∀ before id after, turns = before ++ .released id :: after →
    id.index ∈ issuedSlots after

def NextToReuse (turns : List Turn) (index : Nat) : Prop :=
  ∃ before id after, turns = before ++ .released id :: after ∧ id.index = index ∧
    index ∉ issuedSlots after ∧ AllReused after

def waiting : List Turn → List Nat
  | [] => []
  | .issued _ :: later => waiting later
  | .released id :: later =>
      if id.index ∈ issuedSlots later then waiting later
      else waiting later ++ [id.index]

theorem waiting_append_issued (past : List Turn) (id : VarId) :
    waiting (past ++ [.issued id]) = (waiting past).filter (· ≠ id.index) := by
  induction past with
  | nil => rfl
  | cons turn past induction =>
      cases turn with
      | issued => exact induction
      | released first =>
          have issuedSince : first.index ∈ issuedSlots (past ++ [.issued id]) ↔
              first.index ∈ issuedSlots past ∨ first.index = id.index := by
            rw [issuedSlots_append, List.mem_append]
            exact or_congr_right List.mem_singleton
          rw [List.cons_append, waiting, waiting, induction]
          by_cases reused : first.index ∈ issuedSlots past
          · rw [if_pos (issuedSince.mpr (.inl reused)), if_pos reused]
          · -- the slot waited so far, and only an issue of itself ends that
            by_cases same : first.index = id.index
            · rw [if_pos (issuedSince.mpr (.inr same)), if_neg reused, List.filter_append,
                List.filter_singleton]
              simp [same]
            · have stillWaits := fun issued =>
                (issuedSince.mp issued).elim reused same
              rw [if_neg stillWaits, if_neg reused, List.filter_append,
                List.filter_singleton]
              simp [same]

theorem waiting_append_released (past : List Turn) (id : VarId) :
    waiting (past ++ [.released id]) = id.index :: waiting past := by
  induction past with
  | nil => rfl
  | cons turn past induction =>
      cases turn with
      | issued => exact induction
      | released first =>
          have sameIssues : issuedSlots (past ++ [.released id]) = issuedSlots past := by
            rw [issuedSlots_append]
            exact List.append_nil _
          rw [List.cons_append, waiting, waiting, sameIssues, induction]
          split <;> rfl

theorem waiting_append_map_released (past : List Turn) (handles : List VarId) :
    waiting (past ++ handles.map .released) =
      (handles.map VarId.index).reverse ++ waiting past := by
  induction handles generalizing past with
  | nil => rw [List.map_nil, List.append_nil]; rfl
  | cons id handles induction =>
      rw [List.map_cons, List.append_cons, induction, waiting_append_released,
        List.map_cons, List.reverse_cons, List.append_assoc]
      rfl

theorem allReused_of_waiting_eq_nil {turns : List Turn} (nothing : waiting turns = []) :
    AllReused turns := by
  intro before id after equal
  induction before generalizing turns with
  | nil =>
      rw [equal, List.nil_append, waiting] at nothing
      by_cases reused : id.index ∈ issuedSlots after
      · exact reused
      · rw [if_neg reused] at nothing
        exact absurd nothing (by simp)
  | cons turn before induction =>
      refine induction ?_ rfl
      rw [equal, List.cons_append] at nothing
      cases turn with
      | issued => exact nothing
      | released first =>
          rw [waiting] at nothing
          split at nothing
          · exact nothing
          · exact absurd nothing (by simp)

theorem nextToReuse_of_waiting_eq_cons {turns : List Turn} {index : Nat} {rest : List Nat}
    (waits : waiting turns = index :: rest) : NextToReuse turns index := by
  induction turns generalizing rest with
  | nil => cases waits
  | cons turn later induction =>
      have inLater {rest : List Nat} (waits : waiting later = index :: rest) :
          NextToReuse (turn :: later) index := by
        rcases induction waits with ⟨before, id, after, equal, here, notIssued, reused⟩
        exact ⟨turn :: before, id, after, congrArg (turn :: ·) equal, here, notIssued,
          reused⟩
      cases turn with
      | issued => exact inLater waits
      | released id =>
          rw [waiting] at waits
          split at waits
          · exact inLater waits
          · rename_i notIssued
            cases others : waiting later with
            | nil =>
                rw [others] at waits
                cases waits
                exact ⟨[], id, later, rfl, rfl, notIssued,
                  allReused_of_waiting_eq_nil others⟩
            | cons first further =>
                rw [others] at waits
                cases waits
                exact inLater others

/-! ## The arena records the turns -/

def generationAt (store : Store) (index : Nat) : Nat :=
  store.slots[index]?.elim 0 (·.generation.toNat)

structure Records (store : Store) (turns : List Turn) : Prop where
  free_eq : store.free = waiting turns
  generationAt_eq : ∀ index, store.generationAt index = (releasedSlots turns).count index

theorem records_empty : empty.Records [] where
  free_eq := rfl
  generationAt_eq := fun index => by simp [empty, generationAt, releasedSlots]

theorem generationAt_modify (store : Store) (id : VarId) (change : Entry → Entry)
    (index : Nat) :
    (store.modify id change).generationAt index = store.generationAt index := by
  rw [generationAt, generationAt, modify, Array.getElem?_modify]
  split
  · cases store.slots[index]? with
    | none => rfl
    | some slot =>
        rw [Option.map_some, Slot.modify]
        split <;> rfl
  · rfl

namespace Tidy

variable {store : Store} (tidy : store.Tidy)

include tidy

theorem generationAt_allocate (entry : Entry) (index : Nat) :
    (store.allocate entry).2.generationAt index = store.generationAt index := by
  rw [generationAt, tidy.slots_allocate]
  split
  · rename_i here
    rcases tidy.allocate_cases entry with
      ⟨_, equal⟩ | ⟨reused, free, generation, _, empty, equal⟩
    · rw [equal] at here
      rw [equal, here, generationAt, grow, Array.getElem?_size]
      rfl
    · rw [equal] at here
      rw [equal, here, generationAt, empty]
      rfl
  · rfl

theorem free_place (var : Variable) :
    (store.place var).2.free = store.free.filter (· ≠ (store.place var).1.index) := by
  have nodup := tidy.free_nodup
  change (store.allocate { var }).2.free =
    store.free.filter (· ≠ (store.allocate { var }).1.index)
  rw [tidy.free_allocate]
  rcases tidy.allocate_cases { var } with
    ⟨nothingFree, _⟩ | ⟨index, free, generation, freed, _, equal⟩
  · rw [nothingFree]
    rfl
  · rw [freed] at nodup
    rw [equal, freed, List.tail_cons, List.filter_cons_of_neg (by simp)]
    refine (List.filter_eq_self.mpr fun other member => decide_eq_true ?_).symm
    rintro rfl
    exact (List.nodup_cons.mp nodup).1 member

end Tidy

theorem generationAt_vacate {store : Store} {id : VarId}
    (resolves : (store.resolve? id).isSome) {next : UInt32}
    (following : nextWord? id.generation = some next) (index : Nat) :
    (store.vacate id).generationAt index =
      store.generationAt index + if id.index = index then 1 else 0 := by
  rcases Option.isSome_iff_exists.mp resolves with ⟨entry, found⟩
  rw [generationAt, slots_vacate resolves, following]
  rcases Decidable.eq_or_ne id.index index with rfl | elsewhere
  · rw [if_pos rfl, if_pos rfl, generationAt, resolve?_eq_some_iff.mp found]
    exact nextWord?_eq_some_iff.mp following
  · rw [if_neg elsewhere.symm, if_neg elsewhere]
    rfl

theorem Records.step {store after : Store} {past turns : List Turn}
    (records : store.Records past) {issues : Nat} (accounted : store.Accounted issues)
    (few : issues < UInt32.size) (step : Step store turns after) :
    after.Records (past ++ turns) := by
  rcases records with ⟨freeEq, generationEq⟩
  have tidy := accounted.balanced.tidy
  cases step with
  | modified id change =>
      rw [List.append_nil]
      exact ⟨freeEq, fun index =>
        (generationAt_modify store id change index).trans (generationEq index)⟩
  | headed head =>
      rw [List.append_nil]
      exact ⟨freeEq, generationEq⟩
  | issued var =>
      refine ⟨?_, fun index => ?_⟩
      · rw [waiting_append_issued, ← freeEq, tidy.free_place]
      · rw [releasedSlots_append, List.count_append, ← generationEq]
        exact tidy.generationAt_allocate { var } index
  | @released _ id _ released =>
      rcases eq_vacate_of_release released with ⟨found, rfl⟩
      have resolves := Option.isSome_of_eq_some found
      rcases accounted.used.exists_nextWord few resolves with ⟨next, following⟩
      refine ⟨?_, fun index => ?_⟩
      · rw [waiting_append_released, ← freeEq, Store.vacate, following]
        rfl
      · rw [releasedSlots_append, List.count_append, ← generationEq,
          generationAt_vacate resolves following]
        change _ = _ + [id.index].count index
        simp only [List.count_singleton, beq_iff_eq]

theorem Steps.records {store : Store} {turns : List Turn} (steps : Steps empty turns store)
    (few : (issuedSlots turns).length < UInt32.size) : store.Records turns := by
  refine (steps.keep (fun past store => (issuedSlots past).length < UInt32.size →
    Steps empty past store ∧ store.Records past) ?_ []
      (fun _ => ⟨.none empty, records_empty⟩) few).2
  intro past middle turns after holds step few
  -- the accounts of each moment follow from the steps that led there
  have fewBefore : (issuedSlots past).length < UInt32.size := by
    rw [issuedSlots_append, List.length_append] at few
    omega
  rcases holds fewBefore with ⟨reached, records⟩
  exact ⟨reached.trans (.one step), records.step (reached.accounted fewBefore) fewBefore step⟩

/-! ## The next handle -/

/-- An addition gets the slot that waits to be reused next, or else a new one, in the
generation that counts its releases. -/
theorem Records.issues_next {store : Store} {turns : List Turn}
    (records : store.Records turns) (tidy : store.Tidy) (entry : Entry) :
    (NextToReuse turns (store.allocate entry).1.index ∨
        AllReused turns ∧ (store.allocate entry).1 = ⟨store.slots.size, 0⟩) ∧
      (store.allocate entry).1.generation.toNat =
        (releasedSlots turns).count (store.allocate entry).1.index := by
  rw [← records.generationAt_eq, generationAt]
  rcases tidy.allocate_cases entry with
    ⟨nothingFree, equal⟩ | ⟨index, free, generation, freed, empty, equal⟩
  · have nothingWaits := records.free_eq.symm.trans nothingFree
    rw [equal, grow, Array.getElem?_size]
    exact ⟨.inr ⟨allReused_of_waiting_eq_nil nothingWaits, rfl⟩, rfl⟩
  · have waits := records.free_eq.symm.trans freed
    rw [equal, empty]
    exact ⟨.inl (nextToReuse_of_waiting_eq_cons waits), rfl⟩

/-! ## The size of the arena -/

def linkedCounts (commands : List Command) : Set Nat :=
  { linked | ∃ earlier, earlier <+: commands ∧
    (empty.run earlier).value.2.toList.length = linked }

theorem linkedCounts_concat (commands : List Command) (command : Command) :
    linkedCounts (commands ++ [command]) =
      insert (empty.run (commands ++ [command])).value.2.toList.length
        (linkedCounts commands) := by
  ext linked
  simp only [linkedCounts, List.prefix_concat_iff, Set.mem_ofPred_eq, Set.mem_insert_iff]
  constructor
  · rintro ⟨earlier, rfl | before, rfl⟩
    · exact .inl rfl
    · exact .inr ⟨earlier, before, rfl⟩
  · rintro (rfl | ⟨earlier, before, rfl⟩)
    · exact ⟨_, .inl rfl, rfl⟩
    · exact ⟨earlier, .inr before, rfl⟩

theorem Steps.size_eq {store after : Store} {turns : List Turn}
    (steps : Steps store turns after) (issuesNothing : issuedSlots turns = []) :
    after.slots.size = store.slots.size := by
  induction steps with
  | none => rfl
  | step first _ induction =>
      rw [issuedSlots_append, List.append_eq_nil_iff] at issuesNothing
      rw [induction issuesNothing.2]
      cases first with
      | modified id change => exact size_modify _ id change
      | headed => rfl
      | issued => cases issuesNothing.1
      | released released =>
          rcases eq_vacate_of_release released with ⟨_, rfl⟩
          exact Array.size_setIfInBounds

theorem Balanced.size_link {store : Store} (balanced : store.Balanced) (var : Variable) :
    (store.link var).2.slots.size = max store.slots.size (store.count + 1) := by
  have sameSize : (store.link var).2.slots.size =
      (store.allocate { var }).2.slots.size := by
    rw [link_eq]
    exact ((Steps.append _ .sequence _ _).trans (Steps.append _ .scope _ _)).size_eq rfl
  have sized := balanced.tidy.size_allocate { var }
  have before := balanced.size_eq
  rw [balanced.tidy.free_allocate, List.length_tail] at sized
  omega

theorem Balanced.count_le_size {store : Store} (balanced : store.Balanced) :
    store.count ≤ store.slots.size :=
  balanced.size_eq ▸ Nat.le_add_right ..

theorem Represents.size_execute {store : Store} {items : Sequence}
    (represents : store.Represents items) (balanced : store.Balanced) (command : Command)
    (balancedAfter : (store.execute command).value.2.Balanced) :
    (store.execute command).value.2.slots.size =
      max store.slots.size (store.execute command).value.2.count := by
  rcases command.adds_or_not with ⟨var, rfl⟩ | addsNothing
  · rw [value_execute_add, balanced.size_link, (represents.link var).count_eq,
      List.length_append, represents.count_eq]
    rfl
  · have sameSize := (represents.releases_execute addsNothing).2.steps.size_eq
      (issuedSlots_released _)
    rw [← sameSize]
    exact (Nat.max_eq_left balancedAfter.count_le_size).symm

theorem isGreatest_size {commands : List Command} (few : commands.length < UInt32.size) :
    IsGreatest (linkedCounts commands) (empty.run commands).value.2.slots.size := by
  -- from the end of the run, since the size after a command depends on what came before
  induction commands using List.reverseRecOn with
  | nil =>
      refine ⟨⟨[], List.prefix_rfl, rfl⟩, ?_⟩
      rintro _ ⟨earlier, before, rfl⟩
      rw [List.prefix_nil.mp before]
      exact Nat.le_refl 0
  | append_singleton commands command induction =>
      have fewBefore : commands.length < UInt32.size := by
        rw [List.length_append] at few
        omega
      have represents := represents_run commands
      have representsAfter := represents_run (commands ++ [command])
      have executed : (empty.run (commands ++ [command])).value.2 =
          ((empty.run commands).value.2.execute command).value.2 := by
        rw [value_run_append]
        rfl
      have balanced := (accounted_run fewBefore).balanced
      have balancedAfter := (accounted_run few).balanced
      rw [linkedCounts_concat, ← representsAfter.count_eq, executed,
        represents.size_execute balanced command (executed ▸ balancedAfter), max_comm]
      exact (induction fewBefore).insert _

/-! ## Filling a store again -/

theorem Represents.issued_indices {store : Store} {items : Sequence}
    (represents : store.Represents items) {vars : List Variable}
    (enough : vars.length ≤ store.free.length) :
    (issuedBy (store.run (vars.map .add)).value.1).map VarId.index =
      store.free.take vars.length := by
  induction vars generalizing store items with
  | nil => rfl
  | cons var vars induction =>
      have freeAfter : (store.link var).2.free = store.free.tail := by
        rw [link_eq, free_append, free_append]
        exact represents.tidy.free_allocate { var }
      cases remaining : store.free with
      | nil => simp [remaining] at enough
      | cons index free =>
          have first : (store.link var).1.index = index :=
            (represents.tidy.index_allocate { var } remaining).1
          rw [remaining, List.tail_cons] at freeAfter
          rw [remaining] at enough
          have later := induction (represents.link var)
            (by rw [freeAfter]; exact Nat.le_of_succ_le_succ enough)
          rw [freeAfter] at later
          rw [List.map_cons, value_run_cons, value_execute_add, List.length_cons,
            List.take_succ_cons, ← later, ← first]
          rfl

theorem free_destroyAll {commands : List Command} (few : commands.length < UInt32.size) :
    let store := (empty.run commands).value.2
    store.destroyAll.value.free =
      ((ids store.toList).map VarId.index).reverse ++ store.free := by
  intro store
  have represents : store.Represents store.toList := represents_run commands
  have addsNothing : ∀ var, Command.destroyAll ≠ .add var := nofun
  have steps : Steps empty (empty.history commands) store :=
    represents_empty.steps_run commands
  have emptied := represents.steps_execute .destroyAll
  rw [turns_of_ne_add addsNothing, represents.handles_releases] at emptied
  have fewSoFar : (issuedSlots (empty.history commands ++
      (ids store.toList).map .released)).length < UInt32.size := by
    rw [issuedSlots_append_released]
    exact few_issuedSlots few
  rw [(steps.records (few_issuedSlots few)).free_eq, ← waiting_append_map_released]
  exact ((steps.trans emptied).records fewSoFar).free_eq

/-- After any run, with any handles in its removals, and for what follows it: an addition
gets the slot that was released last among those not issued since, in the generation that
counts its releases, or else a new slot. The variables of a scope are released in the
order of its chain, and all variables in the order of the sequence. There are as many
slots as the most variables that were ever linked at the same time. And a store that is
emptied at once is filled again from the last slot released to the first. -/
theorem reuse_follows_releases {commands : List Command}
    (few : commands.length < UInt32.size) :
    let store := (empty.run commands).value.2
    let history := empty.history commands
    (∀ var,
      let id := (store.add var).value.1
      (NextToReuse history id.index ∨
          AllReused history ∧ id = ⟨store.slots.size, 0⟩) ∧
        id.generation.toNat = (releasedSlots history).count id.index) ∧
      (∀ command,
        (store.releases command).map Prod.snd = Sequence.taken store.toList command) ∧
      (∀ scope,
        Sequence.taken store.toList (.removeScope scope) = ids (store.scopeList scope)) ∧
      IsGreatest (linkedCounts commands) store.slots.size ∧
      ∀ vars : List Variable, vars.length = store.toList.length →
        (issuedBy (store.destroyAll.value.run (vars.map .add)).value.1).map VarId.index =
          ((ids store.toList).map VarId.index).reverse := by
  intro store history
  have represents : store.Represents store.toList := represents_run commands
  have steps : Steps empty history store := represents_empty.steps_run commands
  have fewIssues := few_issuedSlots few
  refine ⟨fun var => ?_, represents.handles_releases, fun scope => ?_, isGreatest_size few,
    fun vars sameLength => ?_⟩
  · rw [value_add]
    exact (steps.records fewIssues).issues_next represents.tidy { var }
  · rw [represents.scopeList_eq]
    rfl
  · have freed : store.destroyAll.value.free =
        ((ids store.toList).map VarId.index).reverse ++ store.free := free_destroyAll few
    have counted : vars.length = ((ids store.toList).map VarId.index).reverse.length := by
      rw [sameLength, List.length_reverse, List.length_map, Sequence.ids, List.length_map]
    have enough : vars.length ≤ store.destroyAll.value.free.length := by
      rw [freed, counted, List.length_append]
      exact Nat.le_add_right ..
    rw [represents.destroyAll.issued_indices enough, freed, counted]
    exact List.take_left

/-- A scope was removed, so its slots wait in turn, and two of the three slots are used
for the second time. -/
theorem reuse_follows_scope_removal :
    let x : Variable := ⟨"x", some .global, .scalar, ⟨0⟩, [.empty], none⟩
    let y : Variable := ⟨"y", some ⟨1⟩, .scalar, ⟨0⟩, [.empty], none⟩
    let commands : List Command :=
      [.add y, .add x, .add y, .removeScope ⟨1⟩, .add x, .remove ⟨7, 0⟩, .remove ⟨1, 0⟩,
        .add y]
    let store := (empty.run commands).value.2
    let history := empty.history commands
    commands.length < UInt32.size ∧
      (store.add x).value.1 = ⟨0, 1⟩ ∧
      NextToReuse history 0 ∧
      (releasedSlots history).count 0 = 1 ∧
      IsGreatest (linkedCounts commands) 3 ∧
      ids store.toList = [⟨2, 1⟩, ⟨1, 1⟩] ∧
      (issuedBy (store.destroyAll.value.run [.add y, .add x]).value.1).map VarId.index =
        [1, 2] := by
  intro x y commands
  have few : commands.length < UInt32.size := by decide
  have issued : ((empty.run commands).value.2.add x).value.1 = ⟨0, 1⟩ := by decide
  have listed : ids (empty.run commands).value.2.toList = [⟨2, 1⟩, ⟨1, 1⟩] := by decide
  have size : (empty.run commands).value.2.slots.size = 3 := by decide
  rcases reuse_follows_releases few with ⟨next, _, _, greatest, refilled⟩
  have nextOfX := next x
  dsimp only at nextOfX
  rw [issued] at nextOfX
  rcases nextOfX with ⟨reused | ⟨_, isNew⟩, generation⟩
  · have refilledTwo := refilled [y, x] (by decide)
    rw [size] at greatest
    simp only [listed, List.map_cons, List.map_nil, List.reverse_cons, List.reverse_nil,
      List.nil_append, List.cons_append] at refilledTwo
    exact ⟨few, issued, reused, generation.symm, greatest, listed, refilledTwo⟩
  · rw [size] at isNew
    cases isNew

end ScopedVariables.Store

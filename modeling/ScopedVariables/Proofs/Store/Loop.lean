import Mathlib.Logic.Relation
import ScopedVariables.Proofs.Store.Refinement

/-! # Loops along the chains

The loops of a store follow links from entry to entry and count no steps. A loop ends
with its chain or at an entry that it looks for. At a handle that does not resolve it
would break off, and what lies behind would be lost. But in a store that stands for a
sequence, links lead to linked entries only, and always further on in the sequence. So
no loop breaks off, and none takes more steps than there are variables. -/

namespace ScopedVariables.Store

open Sequence (ids)

/-! ## Loops that count no steps -/

inductive Exit where
  | ended
  | found (id : VarId)
  | dangling (id : VarId)
  deriving DecidableEq, Repr

def Exit.ofSearch : Option VarId → Exit
  | none => .ended
  | some id => .found id

theorem Exit.ofSearch_ne_dangling (result : Option VarId) (id : VarId) :
    ofSearch result ≠ .dangling id := by
  cases result <;> nofun

/-- What a loop does where it has come to: how it gets the entry, whether it stops
there, and which chain leads on. -/
structure Loop where
  visit : Store → VarId → Option (Entry × Store)
  stops : Entry → Bool
  chain : Chain

namespace Loop

/-! Iterators, the scans of additions and removals and the walk that releases
all variables are such loops. A scan for the predecessor of `target` goes along
the sequence, whichever chain it looks at, and the release walk reads the link
that leads on off an entry that is already released. -/

def reading (chain : Chain) (stops : Entry → Bool) : Loop where
  visit := fun store id => (store.resolve? id).map (·, store)
  stops := stops
  chain := chain

def iteration (chain : Chain) : Loop := reading chain fun _ => false

def tailScan : Loop := iteration .sequence

def predecessorScan (chain : Chain) (target : VarId) : Loop :=
  reading .sequence fun entry => entry.link chain = some target

def releaseWalk : Loop where
  visit := release
  stops := fun _ => false
  chain := .sequence

inductive Runs (loop : Loop) :
    Store → Option VarId → List (VarId × Entry) → Exit → Store → Prop
  | ended (store : Store) : Runs loop store none [] .ended store
  | dangling {store : Store} {id : VarId} :
      loop.visit store id = none → Runs loop store (some id) [] (.dangling id) store
  | found {store after : Store} {id : VarId} {entry : Entry} :
      loop.visit store id = some (entry, after) → loop.stops entry = true →
      Runs loop store (some id) [(id, entry)] (.found id) after
  | step {store middle after : Store} {id : VarId} {entry : Entry}
      {passed : List (VarId × Entry)} {exit : Exit} :
      loop.visit store id = some (entry, middle) → loop.stops entry = false →
      Runs loop middle (entry.link loop.chain) passed exit after →
      Runs loop store (some id) ((id, entry) :: passed) exit after

/-- The loop comes to its exit by itself, in one way only, within `limit` steps and not
at a dangling link. -/
structure Completes (loop : Loop) (limit : Nat) (store : Store)
    (position : Option VarId) (passed : List (VarId × Entry)) (exit : Exit)
    (after : Store) : Prop where
  runs : loop.Runs store position passed exit after
  unique : ∀ otherPassed otherExit otherAfter,
    loop.Runs store position otherPassed otherExit otherAfter →
      otherPassed = passed ∧ otherExit = exit ∧ otherAfter = after
  length_le : passed.length ≤ limit
  not_dangling : ∀ id, exit ≠ .dangling id

variable {loop : Loop} {store after : Store} {position : Option VarId}
  {passed : List (VarId × Entry)} {exit : Exit}

theorem Runs.unique (runs : loop.Runs store position passed exit after)
    (otherPassed : List (VarId × Entry)) (otherExit : Exit) (otherAfter : Store)
    (other : loop.Runs store position otherPassed otherExit otherAfter) :
    otherPassed = passed ∧ otherExit = exit ∧ otherAfter = after := by
  -- both runs see the same visit, so the rule of the one is the rule of the other
  induction runs generalizing otherPassed with
  | ended =>
      cases other
      exact ⟨rfl, rfl, rfl⟩
  | dangling unresolved =>
      cases other with
      | dangling => exact ⟨rfl, rfl, rfl⟩
      | found visited | step visited => cases unresolved.symm.trans visited
  | found visited stops =>
      cases other with
      | dangling unresolved => cases visited.symm.trans unresolved
      | found again =>
          cases visited.symm.trans again
          exact ⟨rfl, rfl, rfl⟩
      | step again goesOn =>
          cases visited.symm.trans again
          cases stops.symm.trans goesOn
  | step visited goesOn _ induction =>
      cases other with
      | dangling unresolved => cases visited.symm.trans unresolved
      | found again stops =>
          cases visited.symm.trans again
          cases goesOn.symm.trans stops
      | step again _ later =>
          cases visited.symm.trans again
          rcases induction _ later with ⟨rfl, rfl, rfl⟩
          exact ⟨rfl, rfl, rfl⟩

theorem Runs.completes (runs : loop.Runs store position passed exit after)
    {limit : Nat} (short : passed.length ≤ limit)
    (sound : ∀ id, exit ≠ .dangling id) :
    loop.Completes limit store position passed exit after where
  runs := runs
  unique := runs.unique
  length_le := short
  not_dangling := sound

theorem visit_iteration_eq_some_iff {chain : Chain} {id : VarId} {entry : Entry} :
    (iteration chain).visit store id = some (entry, after) ↔
      store.resolve? id = some entry ∧ store = after := by
  simp [iteration, reading]

theorem Runs.search {chain : Chain} {rows : List (VarId × Entry)}
    (runs : (iteration chain).Runs store position rows .ended store)
    (stops : Entry → Bool) :
    ∃ passed, passed <+: rows ∧
      (reading chain stops).Runs store position passed
        (.ofSearch ((rows.find? fun row => stops row.2).map Prod.fst)) store := by
  induction rows generalizing position with
  | nil =>
      cases runs
      exact ⟨[], List.prefix_rfl, .ended store⟩
  | cons row rows induction =>
      cases runs with
      | @step _ _ _ id entry _ _ visited _ later =>
          obtain rfl := (visit_iteration_eq_some_iff.mp visited).2
          simp only [List.find?_cons]
          cases here : stops entry with
          | true => exact ⟨[(id, entry)], List.prefix_append _ rows, .found visited here⟩
          | false =>
              rcases induction later with ⟨passed, starts, searches⟩
              exact ⟨(id, entry) :: passed, List.cons_prefix_cons.mpr ⟨rfl, starts⟩,
                .step visited here searches⟩

end Loop

/-! ## Loops along a shown chain -/

variable {store : Store} {chain : Chain} {items : Sequence} {limit : Nat}

theorem Shows.iterates (shows : store.Shows chain items) {steps : Nat}
    (enough : items.length ≤ steps) :
    (Loop.iteration chain).Runs store items.ids.head?
      (store.follow chain steps items.ids.head?) .ended store := by
  induction items generalizing steps with
  | nil =>
      rw [show (ids ([] : Sequence)).head? = none from rfl, follow_none]
      exact .ended store
  | cons first rest induction =>
      rcases shows with ⟨⟨entry, found, _, link⟩, later⟩
      cases steps with
      | zero => simp at enough
      | succ steps =>
          have onward := induction later (Nat.le_of_succ_le_succ enough)
          rw [← link] at onward
          rw [Sequence.ids_cons, List.head?_cons, follow_some found]
          exact .step (Loop.visit_iteration_eq_some_iff.mpr ⟨found, rfl⟩) rfl onward

theorem Shows.length_follow_le (shows : store.Shows chain items) (steps : Nat) :
    (store.follow chain steps items.ids.head?).length ≤ items.length := by
  have walked := congrArg List.length (shows.follow steps)
  rw [List.length_map, List.length_take] at walked
  exact walked ▸ Nat.min_le_right steps items.length

theorem Shows.iteration_completes (shows : store.Shows chain items)
    (nodup : items.ids.Nodup) (short : items.length ≤ limit) :
    (Loop.iteration chain).Completes limit store items.ids.head?
      (store.follow chain store.slots.size items.ids.head?) .ended store :=
  (shows.iterates (shows.length_le_size nodup)).completes
    (Nat.le_trans (shows.length_follow_le _) short) nofun

def ScanCompletes (store : Store) (limit : Nat) (chain : Chain) (target : VarId) :
    Prop :=
  ∃ passed, (Loop.predecessorScan chain target).Completes limit store store.head passed
    (.ofSearch (store.predecessor? chain target)) store

theorem Shows.scan_completes (shows : store.Shows .sequence items)
    (nodup : items.ids.Nodup) (head : store.head = items.ids.head?)
    (short : items.length ≤ limit) (chain : Chain) (target : VarId) :
    store.ScanCompletes limit chain target := by
  have iterates := shows.iterates (shows.length_le_size nodup)
  rcases iterates.search fun entry => entry.link chain = some target with
    ⟨passed, starts, searches⟩
  have fewer := Nat.le_trans starts.length_le (shows.length_follow_le _)
  rw [← head] at searches
  exact ⟨passed, searches.completes (Nat.le_trans fewer short)
    (Exit.ofSearch_ne_dangling _)⟩

theorem Draining.walk {rest : Sequence} (draining : store.Draining rest)
    {steps : Nat} (enough : rest.length ≤ steps) :
    ∃ passed, passed.map (fun (id, entry) => (id, entry.var)) = rest ∧
      Loop.releaseWalk.Runs store rest.ids.head? passed .ended
        (store.drain steps rest.ids.head?).2 := by
  induction rest generalizing store steps with
  | nil =>
      have stopped : store.drain steps none = ([], store) := by
        cases steps <;> rfl
      rw [show (ids ([] : Sequence)).head? = none from rfl, stopped]
      exact ⟨[], rfl, .ended store⟩
  | cons first rest induction =>
      rcases first with ⟨id, var⟩
      rcases draining.shows_rest.1 with ⟨entry, found, sameVar, link⟩
      cases steps with
      | zero => simp at enough
      | succ steps =>
          have next : entry.next = (ids rest).head? := link
          rcases induction draining.vacate (Nat.le_of_succ_le_succ enough) with
            ⟨passed, vars, walks⟩
          rw [← next] at walks
          rw [Sequence.ids_cons, List.head?_cons, drain_of_resolve? found, ← sameVar]
          exact ⟨(id, entry) :: passed, by rw [List.map_cons, vars],
            .step (release_of_resolve? found) rfl walks⟩

/-! ## Links of a store that stands for a sequence -/

structure Grounded (store : Store) : Prop where
  resolves_iff : ∀ id, (store.resolve? id).isSome ↔ id ∈ ids store.toList
  head_linked : ∀ id, store.head = some id → id ∈ ids store.toList
  link_linked : ∀ chain id next, store.LeadsTo chain next id →
    next ∈ ids store.toList
  link_later : ∀ chain id next, store.LeadsTo chain next id →
    (ids store.toList).idxOf id < (ids store.toList).idxOf next
  acyclic : ∀ chain id,
    ¬Relation.TransGen (fun id next => store.LeadsTo chain next id) id id

theorem acyclic_of_link_later (place : VarId → Nat)
    (later : ∀ id next, store.LeadsTo chain next id → place id < place next)
    (id : VarId) :
    ¬Relation.TransGen (fun id next => store.LeadsTo chain next id) id id := by
  intro cycle
  have further : ∀ last,
      Relation.TransGen (fun id next => store.LeadsTo chain next id) id last →
        place id < place last := by
    intro last path
    induction path with
    | single leads => exact later _ _ leads
    | tail _ leads induction => exact Nat.lt_trans induction (later _ _ leads)
  exact Nat.lt_irrefl _ (further id cycle)

namespace Represents

theorem pair_sublist_of_leadsTo (represents : store.Represents items)
    {id next : VarId} (leads : store.LeadsTo chain next id) :
    [id, next].Sublist items.ids := by
  rcases leads with ⟨entry, found, link⟩
  rcases represents.lookup_of_resolve? found with ⟨_, nextLink, nextInScope⟩
  cases chain with
  | sequence =>
      exact pair_sublist_of_following?_eq_some (nextLink.symm.trans link)
  | scope =>
      -- a scope lists its handles in the order of the sequence
      have ordered := pair_sublist_of_following?_eq_some (nextInScope.symm.trans link)
      exact ordered.trans (List.filter_sublist.map Prod.fst)

theorem grounded (represents : store.Represents items) : store.Grounded := by
  obtain rfl : items = store.toList := represents.toList_eq.symm
  have later : ∀ chain id next, store.LeadsTo chain next id →
      (ids store.toList).idxOf id < (ids store.toList).idxOf next :=
    fun _ _ _ leads => idxOf_lt_idxOf_of_pair_sublist represents.nodup
      (represents.pair_sublist_of_leadsTo leads)
  refine ⟨fun id => represents.resolves_iff, ?_, ?_, later, ?_⟩
  · intro id isHead
    rw [represents.head_eq] at isHead
    exact List.mem_of_head? isHead
  · intro chain id next leads
    exact (represents.pair_sublist_of_leadsTo leads).subset (by simp)
  · intro chain
    exact acyclic_of_link_later (ids store.toList).idxOf (later chain)

theorem shows_from (represents : store.Represents items) (chain : Chain)
    {position : Option VarId} (linked : ∀ id, position = some id → id ∈ items.ids) :
    ∃ rest : Sequence, rest.ids.head? = position ∧ rest.ids.Nodup ∧
      rest.length ≤ items.length ∧ store.Shows chain rest := by
  cases position with
  | none => exact ⟨[], rfl, .nil, Nat.zero_le _, trivial⟩
  | some id =>
      have listed := linked id rfl
      cases chain with
      | sequence =>
          rcases represents.shows_sequence.from_mem listed with
            ⟨rest, begins, ending, shows⟩
          exact ⟨rest, begins, (ending.sublist.map Prod.fst).nodup represents.nodup,
            ending.length_le, shows⟩
      | scope =>
          -- the links behind a handle are those of its own scope
          rcases Option.isSome_iff_exists.mp (represents.resolves_iff.mpr listed) with
            ⟨entry, found⟩
          have member : id ∈ items.members entry.var.scope :=
            (Sequence.mem_members_iff represents.nodup).mpr
              ⟨entry.var, (represents.lookup_of_resolve? found).1, rfl⟩
          rcases (represents.shows_scope entry.var.scope).from_mem member with
            ⟨rest, begins, ending, shows⟩
          have part : rest.Sublist items := ending.sublist.trans List.filter_sublist
          exact ⟨rest, begins, (part.map Prod.fst).nodup represents.nodup,
            part.length_le, shows⟩

end Represents

/-! ## Cursors -/

namespace Cursor

inductive Reached (store : Store) : Cursor → Prop
  | iter : Reached store store.iter
  | scopeIter (scope : ScopeId) : Reached store (store.scopeIter scope)
  | advance {cursor after : Cursor} {item : VarId × Variable} :
      Reached store cursor → cursor.advance store = some (item, after) →
      Reached store after

def Grounded (store : Store) (cursor : Cursor) : Prop :=
  ∀ id, cursor.position = some id → id ∈ ids store.toList

end Cursor

namespace Grounded

variable (grounded : store.Grounded) {cursor after : Cursor}

include grounded

theorem advance_eq_none_iff (linked : cursor.Grounded store) :
    cursor.advance store = none ↔ cursor.position = none := by
  rcases cursor with ⟨chain, position⟩
  cases position with
  | none => exact iff_of_true rfl rfl
  | some id =>
      have resolves := (grounded.resolves_iff id).mpr (linked id rfl)
      rcases Option.isSome_iff_exists.mp resolves with ⟨entry, found⟩
      simp [Cursor.advance, found]

theorem cursor_advance {item : VarId × Variable}
    (advanced : cursor.advance store = some (item, after)) :
    after.Grounded store := by
  intro next leads
  rcases cursor with ⟨chain, _ | id⟩
  · cases advanced
  · cases found : store.resolve? id with
    | none => simp [Cursor.advance, found] at advanced
    | some entry =>
        simp only [Cursor.advance, found, Option.some.injEq, Prod.mk.injEq] at advanced
        rw [← advanced.2] at leads
        exact grounded.link_linked chain id next ⟨entry, found, leads⟩

theorem cursor_of_reached (reached : cursor.Reached store) :
    cursor.Grounded store := by
  induction reached with
  | iter => exact grounded.head_linked
  | scopeIter scope =>
      intro id begins
      rcases Option.map_eq_some_iff.mp begins with ⟨item, first, rfl⟩
      exact Sequence.mem_ids (List.mem_of_find?_eq_some first)
  | advance _ advanced _ => exact grounded.cursor_advance advanced

end Grounded

/-- In every store that commands make of an empty one, the head and all links lead to
linked entries, along either chain only further on in the sequence. So every loop along
the chains ends by itself, in no more steps than there are variables, and is never cut
off by a link that does not resolve: the scan of an addition, both scans of a removal,
the second one in the store that the first repair leaves, the walk that releases all
variables, and each iterator from wherever it is. What the loops pass and find is what
the operations compute. A scope is removed one variable after the other, so the scans on
that way start in stores that commands make as well. -/
theorem chain_loops_complete (commands : List Command) :
    let store := (empty.run commands).value.2
    store.Grounded ∧
      Loop.tailScan.Completes store.count store store.head store.rows .ended store ∧
      (∀ target entry, store.resolve? target = some entry →
        store.ScanCompletes store.count .sequence target ∧
          (store.detach target entry.next).ScanCompletes store.count .scope target) ∧
      (∃ passed, passed.map (fun (id, entry) => (id, entry.var)) = store.toList ∧
        Loop.releaseWalk.Completes store.count { store with head := none } store.head
          passed .ended store.destroyAll.value) ∧
      (∀ cursor : Cursor, cursor.Reached store → cursor.Grounded store) ∧
      ∀ cursor : Cursor, cursor.Grounded store →
        (cursor.advance store = none ↔ cursor.position = none) ∧
          (Loop.iteration cursor.chain).Completes store.count store cursor.position
            (store.follow cursor.chain store.slots.size cursor.position) .ended store := by
  intro store
  have represents : store.Represents store.toList := represents_run commands
  have short := Nat.le_of_eq represents.count_eq.symm
  have grounded := represents.grounded
  refine ⟨grounded, ?_, ?_, ?_, fun _ => grounded.cursor_of_reached, ?_⟩
  · have completes := represents.shows_sequence.iteration_completes represents.nodup short
    rw [← represents.head_eq] at completes
    exact completes
  · intro target entry found
    rw [(represents.lookup_of_resolve? found).2.1]
    have fewer : (Sequence.without store.toList target).length ≤ store.count :=
      Nat.le_trans (List.length_filter_le ..) short
    exact ⟨represents.shows_sequence.scan_completes represents.nodup represents.head_eq
        short .sequence target,
      (represents.shows_detach target).scan_completes
        (Sequence.nodup_without represents.nodup target) (represents.head_detach target)
        fewer .scope target⟩
  · rcases represents.draining.walk represents.length_le_size with ⟨passed, vars, walks⟩
    rw [← represents.head_eq] at walks
    refine ⟨passed, vars, walks.completes ?_ nofun⟩
    rw [← vars, List.length_map] at short
    exact short
  · intro cursor linked
    refine ⟨grounded.advance_eq_none_iff linked, ?_⟩
    rcases represents.shows_from cursor.chain linked with
      ⟨rest, begins, nodup, fewer, shows⟩
    rw [← begins]
    exact shows.iteration_completes nodup (Nat.le_trans fewer short)

/-- A scope link may lead to a lower slot, but still leads on in the sequence. -/
example :
    let x : Variable := ⟨"x", some .global, .scalar, ⟨0⟩, [.empty], none⟩
    let y : Variable := ⟨"y", some ⟨1⟩, .scalar, ⟨0⟩, [.empty], none⟩
    let store := (empty.run [.add x, .add y, .add x, .remove ⟨0, 0⟩, .add y]).value.2
    ids store.toList = [⟨1, 0⟩, ⟨2, 0⟩, ⟨0, 1⟩] ∧
      store.nextInScope? ⟨1, 0⟩ = some ⟨0, 1⟩ := by decide

end ScopedVariables.Store

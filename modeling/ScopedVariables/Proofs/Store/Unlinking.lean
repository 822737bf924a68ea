import ScopedVariables.Proofs.Store.Represents

/-! # Unlinking a variable

The sequence is repaired first, and the predecessor in the scope is then looked
for in the repaired sequence. Each repair redirects every entry that leads to
the target; there is one at most, and the scan meets it. After the release of
the target the store stands for the sequence without it. -/

namespace ScopedVariables.Store

open Sequence (ids)

/-! ## Redirecting a chain -/

def Entry.redirect (chain : Chain) (target : VarId) (following : Option VarId)
    (entry : Entry) : Entry :=
  if entry.link chain = some target then entry.setLink chain following
  else entry

@[simp] theorem Entry.var_redirect (chain : Chain) (target : VarId)
    (following : Option VarId) (entry : Entry) :
    (entry.redirect chain target following).var = entry.var := by
  rw [redirect]
  split
  · exact var_setLink chain following entry
  · rfl

theorem Entry.link_redirect (chain other : Chain) (target : VarId)
    (following : Option VarId) (entry : Entry) :
    (entry.redirect chain target following).link other =
      if other = chain ∧ entry.link chain = some target then following
      else entry.link other := by
  rw [redirect]
  split
  · rename_i leads
    rw [link_setLink]
    simp only [leads, and_true]
  · rename_i leadsElsewhere
    rw [if_neg fun both => leadsElsewhere both.2]

theorem Entry.redirect_redirect (target : VarId)
    (next nextInScope : Option VarId) (entry : Entry) :
    (entry.redirect .sequence target next).redirect .scope target nextInScope =
      { entry with
        next := if entry.next = some target then next else entry.next
        nextInScope := if entry.nextInScope = some target then nextInScope
          else entry.nextInScope } := by
  have sequenceStep : entry.redirect .sequence target next =
      { entry with
        next := if entry.next = some target then next else entry.next } := by
    change (if entry.next = some target then { entry with next } else entry) = _
    split <;> rfl
  rw [sequenceStep]
  change (if entry.nextInScope = some target then
    { entry with next := _, nextInScope } else { entry with next := _ }) = _
  split <;> rfl

def LeadsTo (store : Store) (chain : Chain) (target id : VarId) : Prop :=
  ∃ entry, store.resolve? id = some entry ∧ entry.link chain = some target

theorem not_leadsTo_of_predecessor?_eq_none {store : Store} {chain : Chain}
    {target id : VarId} (scan : store.predecessor? chain target = none)
    (listed : id ∈ ids store.toList) : ¬store.LeadsTo chain target id := by
  intro leads
  rcases leads with ⟨entry, found, link⟩
  rw [predecessor?, Option.map_eq_none_iff, List.find?_eq_none] at scan
  exact scan (id, entry) (mem_rows_iff.mpr ⟨listed, found⟩) (decide_eq_true link)

theorem leadsTo_predecessor? {store : Store} {chain : Chain}
    {target predecessor : VarId}
    (scan : store.predecessor? chain target = some predecessor) :
    store.LeadsTo chain target predecessor := by
  rw [predecessor?] at scan
  rcases Option.map_eq_some_iff.mp scan with ⟨row, first, rfl⟩
  have inRows := mem_rows_iff.mp (List.mem_of_find?_eq_some first)
  refine ⟨row.2, inRows.2, ?_⟩
  simpa using List.find?_some first

/-- The scan for a predecessor redirects everything that leads to `target`,
provided that this is a single listed handle. -/
theorem resolve?_bypass {store : Store} {chain : Chain} {target : VarId}
    (listed : ∀ id, store.LeadsTo chain target id → id ∈ ids store.toList)
    (unique : ∀ left right, store.LeadsTo chain target left →
      store.LeadsTo chain target right → left = right)
    (following : Option VarId) (id : VarId) :
    (store.bypass chain target following).resolve? id =
      (store.resolve? id).map (·.redirect chain target following) := by
  have untouched (absent : ¬store.LeadsTo chain target id) :
      store.resolve? id =
        (store.resolve? id).map (·.redirect chain target following) := by
    cases found : store.resolve? id with
    | none => rfl
    | some entry =>
        have leadsElsewhere : entry.link chain ≠ some target := fun leads =>
          absent ⟨entry, found, leads⟩
        rw [Option.map_some, Entry.redirect, if_neg leadsElsewhere]
  rw [bypass]
  cases scan : store.predecessor? chain target with
  | none =>
      apply untouched
      intro leads
      exact not_leadsTo_of_predecessor?_eq_none scan (listed id leads) leads
  | some predecessor =>
      have leadsFrom := leadsTo_predecessor? scan
      change (store.setLink chain predecessor following).resolve? id = _
      rw [setLink, resolve?_modify]
      split
      · rename_i here
        rcases leadsFrom with ⟨entry, found, leads⟩
        rw [here, found, Option.map_some, Option.map_some, Entry.redirect,
          if_pos leads]
      · rename_i different
        apply untouched
        intro leads
        exact different (unique id predecessor leads leadsFrom)

@[simp] theorem head_bypass (store : Store) (chain : Chain) (target : VarId)
    (following : Option VarId) :
    (store.bypass chain target following).head = store.head := by
  rw [bypass]
  split <;> rfl

@[simp] theorem count_bypass (store : Store) (chain : Chain) (target : VarId)
    (following : Option VarId) :
    (store.bypass chain target following).count = store.count := by
  rw [bypass]
  split <;> rfl

theorem Tidy.bypass {store : Store} (tidy : store.Tidy) (chain : Chain)
    (target : VarId) (following : Option VarId) :
    (store.bypass chain target following).Tidy := by
  rw [Store.bypass]
  split
  · exact tidy
  · exact tidy.modify _ _

/-! ## The two repairs -/

def detach (store : Store) (target : VarId) (next : Option VarId) : Store :=
  if store.head = some target then { store with head := next }
  else store.bypass .sequence target next

theorem unlink_of_resolve?_eq_none {store : Store} {target : VarId}
    (stale : store.resolve? target = none) : store.unlink target = none := by
  rw [unlink, stale]

theorem unlink_of_resolve? {store : Store} {target : VarId} {entry : Entry}
    (found : store.resolve? target = some entry) :
    store.unlink target =
      (((store.detach target entry.next).bypass .scope target
        entry.nextInScope).release target).map
          fun (entry, store) => (entry.var, store) := by
  rw [unlink, found]
  rfl

theorem count_detach (store : Store) (target : VarId) (next : Option VarId) :
    (store.detach target next).count = store.count := by
  rw [detach]
  split
  · rfl
  · exact count_bypass store .sequence target next

theorem Tidy.detach {store : Store} (tidy : store.Tidy) (target : VarId)
    (next : Option VarId) : (store.detach target next).Tidy := by
  rw [Store.detach]
  split
  · exact tidy.of_arena_eq rfl rfl
  · exact tidy.bypass .sequence target next

namespace Represents

variable {store : Store} {items : Sequence} {target : VarId} {var : Variable}

private theorem leadsTo_sequence_iff (represents : store.Represents items)
    {id : VarId} :
    store.LeadsTo .sequence target id ↔ following? items.ids id = some target := by
  rw [← represents.next?_eq, next?, Option.bind_eq_some_iff]
  rfl

private theorem leadsTo_scope (represents : store.Represents items)
    (listed : items.lookup target = some var) {id : VarId}
    (leads : store.LeadsTo .scope target id) :
    following? (items.members var.scope) id = some target := by
  rcases leads with ⟨entry, found, link⟩
  rcases represents.lookup_of_resolve? found with ⟨_, _, nextInScope⟩
  have follows : following? (items.members entry.var.scope) id = some target :=
    nextInScope.symm.trans link
  have sameScope : var.scope = entry.var.scope :=
    Sequence.scope_eq_of_mem_members represents.nodup
      (mem_of_eq_some_following? follows) listed
  rw [sameScope]
  exact follows

private theorem resolve?_detach (represents : store.Represents items)
    (target id : VarId) :
    (store.detach target (following? items.ids target)).resolve? id =
      (store.resolve? id).map
        (·.redirect .sequence target (following? items.ids target)) := by
  rw [detach]
  split
  · rename_i isHead
    change store.resolve? id = _
    cases found : store.resolve? id with
    | none => rfl
    | some entry =>
        have leadsElsewhere : entry.link .sequence ≠ some target := by
          intro leads
          have follows := represents.leadsTo_sequence_iff.mp ⟨entry, found, leads⟩
          rw [represents.head_eq] at isHead
          exact following?_ne_head? represents.nodup follows isHead
        rw [Option.map_some, Entry.redirect, if_neg leadsElsewhere]
  · apply resolve?_bypass
    · intro other leads
      rw [represents.toList_eq]
      exact mem_of_following?_eq_some (represents.leadsTo_sequence_iff.mp leads)
    · intro left right leftLeads rightLeads
      exact following?_injective represents.nodup
        (represents.leadsTo_sequence_iff.mp leftLeads)
        (represents.leadsTo_sequence_iff.mp rightLeads)

theorem head_detach (represents : store.Represents items)
    (target : VarId) :
    (store.detach target (following? items.ids target)).head =
      (items.without target).ids.head? := by
  rw [Sequence.ids_without, head?_filter_ne represents.nodup, detach,
    ← represents.head_eq]
  split
  · rfl
  · exact head_bypass store .sequence target _

theorem shows_detach (represents : store.Represents items)
    (target : VarId) :
    (store.detach target (following? items.ids target)).Shows .sequence
      (items.without target) := by
  apply shows_of_following? (Sequence.nodup_without represents.nodup target)
  rintro ⟨id, var⟩ member
  rcases List.mem_filter.mp member with ⟨inItems, kept⟩
  have different : id ≠ target := of_decide_eq_true kept
  have found := represents.resolve?_of_lookup
    (Sequence.lookup_of_mem represents.nodup inItems)
  refine ⟨_, by rw [represents.resolve?_detach, found, Option.map_some], ?_, ?_⟩
  · exact Entry.var_redirect _ _ _ _
  · rw [Sequence.ids_without, following?_filter_ne represents.nodup different,
      Entry.link_redirect]
    simp only [true_and]
    rfl

private theorem toList_detach (represents : store.Represents items)
    (target : VarId) :
    (store.detach target (following? items.ids target)).toList =
      items.without target :=
  (represents.shows_detach target).toList
    (Sequence.nodup_without represents.nodup target) (represents.head_detach target)

private theorem resolve?_repair (represents : store.Represents items)
    (listed : items.lookup target = some var) (id : VarId) :
    ((store.detach target (following? items.ids target)).bypass .scope target
        (following? (items.members var.scope) target)).resolve? id =
      ((store.resolve? id).map
        (·.redirect .sequence target (following? items.ids target))).map
          (·.redirect .scope target (following? (items.members var.scope) target)) := by
  rw [← represents.resolve?_detach]
  have leadsBefore : ∀ other,
      (store.detach target (following? items.ids target)).LeadsTo .scope target other →
        store.LeadsTo .scope target other := by
    rintro other ⟨entry, found, leads⟩
    rw [represents.resolve?_detach] at found
    rcases Option.map_eq_some_iff.mp found with ⟨before, foundBefore, rfl⟩
    refine ⟨before, foundBefore, ?_⟩
    rw [Entry.link_redirect, if_neg (by simp)] at leads
    exact leads
  apply resolve?_bypass
  · intro other leads
    have follows := represents.leadsTo_scope listed (leadsBefore other leads)
    have different : other ≠ target := by
      intro same
      rw [same] at follows
      exact following?_ne_self (Sequence.nodup_members represents.nodup _) target follows
    rw [represents.toList_detach, Sequence.ids_without]
    apply List.mem_filter.mpr
    exact ⟨Sequence.mem_ids_of_mem_members (mem_of_following?_eq_some follows),
      decide_eq_true different⟩
  · intro left right leftLeads rightLeads
    exact following?_injective (Sequence.nodup_members represents.nodup _)
      (represents.leadsTo_scope listed (leadsBefore left leftLeads))
      (represents.leadsTo_scope listed (leadsBefore right rightLeads))

/-! ## The release -/

theorem unlink (represents : store.Represents items)
    (listed : items.lookup target = some var) :
    ∃ after, store.unlink target = some (var, after) ∧
      after.Represents (items.without target) := by
  have found := represents.resolve?_of_lookup listed
  let repaired := (store.detach target (following? items.ids target)).bypass .scope
    target (following? (items.members var.scope) target)
  have resolved := represents.resolve?_repair listed
  rcases Option.isSome_iff_exists.mp
    (show (repaired.resolve? target).isSome by rw [resolved, found]; rfl) with
    ⟨released, occupied⟩
  have sameVar : released.var = var := by
    rw [resolved, found] at occupied
    cases occupied
    simp
  refine ⟨repaired.vacate target, ?_, ?_⟩
  · rw [unlink_of_resolve? found, release_of_resolve? occupied, ← sameVar]
    rfl
  · have resolves : (repaired.resolve? target).isSome := by rw [occupied]; rfl
    refine ⟨Sequence.nodup_without represents.nodup target, ?_, ?_, ?_, ?_⟩
    · intro id
      rw [resolve?_vacate resolves, resolved]
      split
      · rename_i same
        rw [same]
        exact (Sequence.entryOf_without_self target).symm
      · rename_i different
        rw [Sequence.entryOf_without_of_ne represents.nodup listed different,
          represents.resolve?_eq, Option.map_map]
        apply Option.map_congr
        intro entry _
        exact Entry.redirect_redirect target _ _ entry
    · exact (head_bypass _ _ _ _).trans (represents.head_detach target)
    · have counted : repaired.count = items.length := by
        rw [count_bypass, count_detach, represents.count_eq]
      rw [Sequence.length_without represents.nodup (Sequence.mem_ids_of_lookup listed),
        ← counted]
      rfl
    · exact ((represents.tidy.detach target _).bypass .scope target _).vacate resolves

theorem unlink_eq_none (represents : store.Represents items)
    (absent : items.lookup target = none) : store.unlink target = none := by
  apply unlink_of_resolve?_eq_none
  rw [represents.resolve?_eq_none_iff]
  exact Sequence.lookup_eq_none_iff.mp absent

end Represents

end ScopedVariables.Store

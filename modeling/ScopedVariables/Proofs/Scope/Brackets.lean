import ScopedVariables.Proofs.Scope.Renewal

/-! # Entering and leaving match like brackets

A history of a scope stack is a sequence of enters and leaves. Each leave matches
the latest enter not matched before, so that the moves between the two are
balanced. The stack needs nothing but the history: it answers an enter with the
next number and a leave with the answer to its enter, and what is live are the
scopes of the enters that no leave matches. -/

namespace ScopedVariables.ScopeStack

/-! ## Brackets

Moves close an enter in front of them if it is matched by a leave among them.
Their surplus is how many leaves match no enter, and unmatched are the numbers
of the enters that no leave matches, if `count` enters went before. -/

inductive Balanced : List Move → Prop
  | nil : Balanced []
  | block {inner rest} : Balanced inner → Balanced rest →
      Balanced (.enter :: (inner ++ .leave :: rest))

def Closes (moves : List Move) : Prop :=
  ∃ inner rest, moves = inner ++ .leave :: rest ∧ Balanced inner

def surplus : List Move → Nat
  | [] => 0
  | .enter :: rest => surplus rest - 1
  | .leave :: rest => surplus rest + 1

theorem surplus_append_of_balanced {inner : List Move} (balanced : Balanced inner)
    (rest : List Move) : surplus (inner ++ rest) = surplus rest := by
  induction balanced generalizing rest with
  | nil => rfl
  | @block inner following _ _ innerInduction followingInduction =>
      rw [List.cons_append, List.append_assoc, List.cons_append, surplus,
        innerInduction, surplus, followingInduction, Nat.add_sub_cancel]

theorem exists_split_of_surplus (moves : List Move) {count : Nat}
    (counted : surplus moves = count + 1) :
    ∃ inner rest, moves = inner ++ .leave :: rest ∧ Balanced inner ∧
      surplus rest = count := by
  match moves with
  | [] => cases counted
  | .leave :: rest => exact ⟨[], rest, rfl, .nil, Nat.succ.inj counted⟩
  | .enter :: moves =>
      have enough : surplus moves = count + 1 + 1 := by
        rw [surplus] at counted
        omega
      rcases exists_split_of_surplus moves enough with
        ⟨inner, middle, rfl, innerBalanced, middleCounted⟩
      rcases exists_split_of_surplus middle middleCounted with
        ⟨following, rest, rfl, followingBalanced, restCounted⟩
      exact ⟨.enter :: (inner ++ .leave :: following), rest, by simp,
        .block innerBalanced followingBalanced, restCounted⟩
termination_by moves.length
decreasing_by all_goals simp_all <;> omega

theorem closes_iff_surplus_ne_zero {moves : List Move} :
    Closes moves ↔ surplus moves ≠ 0 := by
  constructor
  · rintro ⟨inner, rest, rfl, balanced⟩
    rw [surplus_append_of_balanced balanced]
    exact Nat.succ_ne_zero _
  · intro nonzero
    rcases Nat.exists_eq_succ_of_ne_zero nonzero with ⟨count, counted⟩
    rcases exists_split_of_surplus moves counted with
      ⟨inner, rest, split, balanced, _⟩
    exact ⟨inner, rest, split, balanced⟩

instance (moves : List Move) : Decidable (Closes moves) :=
  decidable_of_iff (surplus moves ≠ 0) closes_iff_surplus_ne_zero.symm

def unmatched (count : Nat) : List Move → List Nat
  | [] => []
  | .leave :: rest => unmatched count rest
  | .enter :: rest =>
      if Closes rest then unmatched (count + 1) rest
      else (count + 1) :: unmatched (count + 1) rest

theorem unmatched_suffix (count : Nat) (earlier later : List Move) :
    unmatched (count + earlier.count .enter) later <:+
      unmatched count (earlier ++ later) := by
  induction earlier generalizing count with
  | nil => exact List.suffix_refl _
  | cons move earlier induction =>
      cases move with
      | leave => simpa [unmatched] using induction count
      | enter =>
          have shifted : count + (Move.enter :: earlier).count .enter =
              count + 1 + earlier.count .enter := by
            rw [List.count_cons_self]
            omega
          rw [shifted, List.cons_append, unmatched]
          split
          · exact induction (count + 1)
          · exact (induction (count + 1)).trans (List.suffix_cons _ _)

theorem balanced_of_unmatched_eq_nil (moves : List Move) {count : Nat}
    (noSurplus : ¬Closes moves) (matched : unmatched count moves = []) :
    Balanced moves := by
  match moves with
  | [] => exact .nil
  | .leave :: rest => exact absurd ⟨[], rest, rfl, .nil⟩ noSurplus
  | .enter :: moves =>
      rw [unmatched] at matched
      split at matched
      · rename_i closes
        rcases closes with ⟨inner, rest, rfl, innerBalanced⟩
        have restNoSurplus : ¬Closes rest := by
          rintro ⟨following, last, rfl, followingBalanced⟩
          exact noSurplus ⟨.enter :: (inner ++ .leave :: following), last, by simp,
            .block innerBalanced followingBalanced⟩
        have restMatched := unmatched_suffix (count + 1) inner (.leave :: rest)
        rw [matched, List.suffix_nil, unmatched] at restMatched
        exact .block innerBalanced
          (balanced_of_unmatched_eq_nil rest restNoSurplus restMatched)
      · cases matched
termination_by moves.length
decreasing_by
  simp_all
  omega

theorem exists_latest_unmatched {count : Nat} {moves : List Move}
    (pending : unmatched count moves ≠ []) :
    ∃ outer inner, moves = outer ++ .enter :: inner ∧ Balanced inner ∧
      (unmatched count moves).getLast? = some (count + outer.count .enter + 1) := by
  induction moves generalizing count with
  | nil => exact absurd rfl pending
  | cons move rest induction =>
      cases move with
      | leave =>
          have pendingRest : unmatched count rest ≠ [] := pending
          rcases induction pendingRest with ⟨outer, inner, rfl, balanced, last⟩
          refine ⟨.leave :: outer, inner, rfl, balanced, ?_⟩
          rw [unmatched, last, List.count_cons_of_ne (by decide)]
      | enter =>
          have later (more : unmatched (count + 1) rest ≠ []) :
              ∃ outer inner, .enter :: rest = outer ++ .enter :: inner ∧ Balanced inner ∧
                (unmatched (count + 1) rest).getLast? =
                  some (count + outer.count .enter + 1) := by
            rcases induction more with ⟨outer, inner, rfl, balanced, last⟩
            refine ⟨.enter :: outer, inner, rfl, balanced, ?_⟩
            rw [last, List.count_cons_self]
            congr 1
            omega
          rw [unmatched] at pending ⊢
          split
          · rename_i closes
            rw [if_pos closes] at pending
            exact later pending
          · rename_i noSurplus
            rcases Decidable.eq_or_ne (unmatched (count + 1) rest) [] with nothing | more
            · refine ⟨[], rest, rfl, balanced_of_unmatched_eq_nil rest noSurplus nothing, ?_⟩
              rw [nothing]
              rfl
            · rcases later more with ⟨outer, inner, split, balanced, last⟩
              refine ⟨outer, inner, split, balanced, ?_⟩
              rw [List.getLast?_cons, last]
              rfl

/-! ## Runs of moves -/

theorem moves_cons (stack : ScopeStack) (move : Move) (rest : List Move) :
    stack.moves (move :: rest) =
      ((stack.move move).1 :: ((stack.move move).2.moves rest).1,
        ((stack.move move).2.moves rest).2) := rfl

theorem moves_append (stack : ScopeStack) (earlier later : List Move) :
    stack.moves (earlier ++ later) =
      ((stack.moves earlier).1 ++ ((stack.moves earlier).2.moves later).1,
        ((stack.moves earlier).2.moves later).2) := by
  induction earlier generalizing stack with
  | nil => rfl
  | cons move earlier induction =>
      rw [List.cons_append, moves_cons, induction, moves_cons]
      rfl

theorem length_moves (stack : ScopeStack) (moves : List Move) :
    (stack.moves moves).1.length = moves.length := by
  induction moves generalizing stack with
  | nil => rfl
  | cons move rest induction =>
      rw [moves_cons, List.length_cons, List.length_cons, induction]

theorem answer_moves (stack : ScopeStack) (before : List Move) (move : Move)
    (after : List Move) :
    (stack.moves (before ++ move :: after)).1[before.length]? =
      some ((stack.moves before).2.move move).1 := by
  simp [moves_append, moves_cons, length_moves]

theorem move_leave (stack : ScopeStack) :
    stack.move .leave = (stack.entered.head?, ⟨stack.entered.tail, stack.next⟩) := by
  rcases stack with ⟨live, next⟩
  cases live <;> rfl

theorem move_leave_of_outermost {stack : ScopeStack} (outermost : stack.entered = []) :
    stack.move .leave = (none, stack) := by
  rcases stack with ⟨live, next⟩
  cases outermost
  rfl

theorem HasIssued.move_enter {stack : ScopeStack} {count : Nat}
    (issued : stack.HasIssued count) (fits : count + 1 < UInt32.size) :
    ∃ scope : ScopeId, scope.raw.toNat = count + 1 ∧
      (stack.move .enter).1 = some scope ∧
      (stack.move .enter).2.entered = scope :: stack.entered ∧
      (stack.move .enter).2.HasIssued (count + 1) := by
  rcases issued.exists_enter fits with ⟨scope, number, enters⟩
  rw [move, enters]
  exact ⟨scope, number, rfl, rfl, issued.enter enters⟩

theorem HasIssued.move_leave {stack : ScopeStack} {count : Nat}
    (issued : stack.HasIssued count) : (stack.move .leave).2.HasIssued count := by
  rw [ScopeStack.move_leave]
  exact issued

section Run

variable {stack : ScopeStack} {count : Nat} (issued : stack.HasIssued count)
  {history : List Move} (fits : count + history.count .enter < UInt32.size)

include issued fits

theorem HasIssued.moves :
    (stack.moves history).2.HasIssued (count + history.count .enter) := by
  induction history generalizing stack count with
  | nil => exact issued
  | cons move rest induction =>
      cases move with
      | leave =>
          rw [List.count_cons_of_ne (by decide)] at fits ⊢
          exact induction issued.move_leave fits
      | enter =>
          rw [List.count_cons_self, ← Nat.add_assoc, Nat.add_right_comm] at fits ⊢
          rcases issued.move_enter (by omega) with ⟨_, _, _, _, issuedAfter⟩
          exact induction issuedAfter fits

/-- The moves leave the scopes of the enters that are not matched, on top of what
their surplus of leaves has spared. -/
theorem HasIssued.live_moves :
    (stack.moves history).2.entered.map (·.raw.toNat) =
      (unmatched count history).reverse ++
        (stack.entered.drop (surplus history)).map (·.raw.toNat) := by
  induction history generalizing stack count with
  | nil => rfl
  | cons move rest induction =>
      cases move with
      | leave =>
          rw [List.count_cons_of_ne (by decide)] at fits
          rw [moves_cons, induction issued.move_leave fits, ScopeStack.move_leave,
            List.drop_tail]
          rfl
      | enter =>
          rw [List.count_cons_self, ← Nat.add_assoc, Nat.add_right_comm] at fits
          rcases issued.move_enter (by omega) with
            ⟨scope, number, _, entered, issuedAfter⟩
          rw [moves_cons, induction issuedAfter fits, entered, surplus, unmatched]
          cases left : surplus rest with
          | zero =>
              have noSurplus : ¬Closes rest := fun closes =>
                closes_iff_surplus_ne_zero.mp closes left
              rw [if_neg noSurplus]
              simp [number]
          | succ leaves =>
              have closes : Closes rest :=
                closes_iff_surplus_ne_zero.mpr (by rw [left]; exact Nat.succ_ne_zero _)
              rw [if_pos closes]
              rfl

end Run

theorem Ordered.moves {stack : ScopeStack} (ordered : stack.Ordered)
    (history : List Move) : (stack.moves history).2.Ordered := by
  induction history generalizing stack with
  | nil => exact ordered
  | cons move rest induction =>
      rw [moves_cons]
      apply induction
      cases move with
      | enter =>
          rw [ScopeStack.move]
          cases enters : stack.enter with
          | none => exact ordered
          | some outcome => exact ordered.enter enters
      | leave =>
          rw [ScopeStack.move]
          cases leaves : stack.leave with
          | none => exact ordered
          | some outcome => exact ordered.leave leaves

/-! ## Answers of a new stack -/

section History

variable {before after : List Move}

theorem live_history {history : List Move} (fits : history.count .enter < UInt32.size) :
    (initial.moves history).2.entered.map (·.raw.toNat) =
      (unmatched 0 history).reverse := by
  rw [← Nat.zero_add (history.count .enter)] at fits
  rw [hasIssued_initial.live_moves fits, show initial.entered = [] from rfl, List.drop_nil]
  exact List.append_nil _

theorem answer_enter (fits : (before ++ .enter :: after).count .enter < UInt32.size) :
    ∃ scope : ScopeId,
      (initial.moves (before ++ .enter :: after)).1[before.length]? = some (some scope) ∧
        scope.raw.toNat = before.count .enter + 1 := by
  rw [List.count_append, List.count_cons_self] at fits
  have fitsBefore : 0 + before.count .enter < UInt32.size := by omega
  have issued := hasIssued_initial.moves fitsBefore
  rcases issued.move_enter (by omega) with ⟨scope, number, answer, _⟩
  refine ⟨scope, ?_, by omega⟩
  rw [answer_moves, answer]

theorem answer_enter_ne {between : List Move}
    (fits : (before ++ .enter :: (between ++ .enter :: after)).count .enter < UInt32.size) :
    let answers := (initial.moves (before ++ .enter :: (between ++ .enter :: after))).1
    answers[before.length]? ≠ answers[(before ++ .enter :: between).length]? := by
  intro answers same
  rcases answer_enter fits with ⟨first, firstAnswer, firstNumber⟩
  have shifted : before ++ .enter :: (between ++ .enter :: after) =
      (before ++ .enter :: between) ++ .enter :: after := by simp
  simp only [answers] at same
  rw [shifted] at fits firstAnswer same
  rcases answer_enter fits with ⟨second, secondAnswer, secondNumber⟩
  rw [firstAnswer, secondAnswer] at same
  cases same
  rw [firstNumber, List.count_append, List.count_cons_self] at secondNumber
  omega

theorem answer_leave (before after : List Move) :
    (initial.moves (before ++ .leave :: after)).1[before.length]? =
      some (initial.moves before).2.entered.head? := by
  rw [answer_moves, move_leave]

theorem answer_leave_eq (fits : (before ++ .leave :: after).count .enter < UInt32.size)
    (pending : unmatched 0 before ≠ []) :
    ∃ outer inner, before = outer ++ .enter :: inner ∧ Balanced inner ∧
      (unmatched 0 before).getLast? = some (outer.count .enter + 1) ∧
      (initial.moves (before ++ .leave :: after)).1[before.length]? =
        (initial.moves (before ++ .leave :: after)).1[outer.length]? := by
  rcases exists_latest_unmatched pending with ⟨outer, inner, split, balanced, last⟩
  rw [Nat.zero_add] at last
  refine ⟨outer, inner, split, balanced, last, ?_⟩
  have live : (initial.moves before).2.entered.head?.map (·.raw.toNat) =
      some (outer.count .enter + 1) := by
    rw [← List.head?_map, live_history (by rw [List.count_append] at fits; omega),
      List.head?_reverse, last]
  rcases Option.map_eq_some_iff.mp live with ⟨innermost, isHead, number⟩
  have shifted : before ++ .leave :: after =
      outer ++ .enter :: (inner ++ .leave :: after) := by simp [split]
  rcases answer_enter (shifted ▸ fits) with ⟨scope, answer, enterNumber⟩
  rw [answer_leave, isHead, shifted, answer,
    ScopeId.eq_iff_toNat_eq.mpr (number.trans enterNumber.symm)]

theorem answer_leave_of_unmatched_eq_nil
    (fits : (before ++ .leave :: after).count .enter < UInt32.size)
    (nothing : unmatched 0 before = []) :
    (initial.moves (before ++ .leave :: after)).1[before.length]? = some none ∧
      (initial.moves (before ++ [.leave])).2 = (initial.moves before).2 := by
  rw [List.count_append] at fits
  have fitsBefore : before.count .enter < UInt32.size := by omega
  have outermost := live_history fitsBefore
  rw [nothing, List.reverse_nil, List.map_eq_nil_iff] at outermost
  have refused := move_leave_of_outermost outermost
  rw [answer_moves, moves_append, moves_cons, refused]
  exact ⟨rfl, rfl⟩

end History

/-! ## The main statement -/

/-- What a new stack answers to the moves of a history, and where they leave it. -/
structure Bracketed (history : List Move) (answers : List (Option ScopeId))
    (stack : ScopeStack) : Prop where
  /-- An enter answers the scope of its number among the enters. -/
  enter_eq : ∀ before after, history = before ++ .enter :: after →
    ∃ scope : ScopeId, answers[before.length]? = some (some scope) ∧
      scope.raw.toNat = before.count .enter + 1
  issued_once : ∀ before between after,
    history = before ++ .enter :: (between ++ .enter :: after) →
      answers[before.length]? ≠ answers[(before ++ .enter :: between).length]?
  /-- A leave answers the scope of the latest enter that is not matched before. -/
  leave_eq : ∀ before after, history = before ++ .leave :: after →
    unmatched 0 before ≠ [] →
      ∃ outer inner, before = outer ++ .enter :: inner ∧ Balanced inner ∧
        (unmatched 0 before).getLast? = some (outer.count .enter + 1) ∧
        answers[before.length]? = answers[outer.length]?
  /-- A leave that has no enter to match does nothing. -/
  surplus_eq : ∀ before after, history = before ++ .leave :: after →
    unmatched 0 before = [] →
      answers[before.length]? = some none ∧
        (initial.moves (before ++ [.leave])).2 = (initial.moves before).2
  /-- Above the global scope lie the scopes of the enters that no leave matches. -/
  live_eq : stack.innermostFirst.reverse.map (·.raw.toNat) = 0 :: unmatched 0 history
  bottom_eq : stack.innermostFirst.reverse.head? = some .global
  ascending : stack.innermostFirst.reverse.Pairwise (· < ·)
  current_eq : stack.innermostFirst.reverse.getLast? = some stack.current
  depth_eq : stack.depth = (unmatched 0 history).length + 1

/-- As long as there are words to number the scopes, a new stack treats enters and
leaves as brackets. -/
theorem enters_and_leaves_match {history : List Move}
    (fits : history.count .enter < UInt32.size) :
    Bracketed history (initial.moves history).1 (initial.moves history).2 := by
  have live := live_history fits
  refine {
    enter_eq := ?_
    issued_once := ?_
    leave_eq := ?_
    surplus_eq := ?_
    live_eq := ?_
    bottom_eq := ?_
    ascending := ?_
    current_eq := ?_
    depth_eq := ?_ }
  · rintro before after rfl
    exact answer_enter fits
  · rintro before between after rfl
    exact answer_enter_ne fits
  · rintro before after rfl pending
    exact answer_leave_eq fits pending
  · rintro before after rfl nothing
    exact answer_leave_of_unmatched_eq_nil fits nothing
  · rw [List.map_reverse, innermostFirst, List.map_append, live, List.reverse_append,
      List.reverse_reverse]
    rfl
  · rw [innermostFirst, List.reverse_append]
    rfl
  · rw [List.pairwise_reverse]
    exact (ordered_initial.moves history).descending
  · rcases innermostFirst_eq_cons (initial.moves history).2 with ⟨outer, split⟩
    rw [List.getLast?_reverse, split]
    rfl
  · have counted := congrArg List.length live
    rw [List.length_map, List.length_reverse] at counted
    rw [depth, counted]

/-- Leaves in excess come first and last, and scopes are entered after either. -/
theorem surplus_leaves_match_nothing :
    let history : List Move :=
      [.leave, .enter, .enter, .leave, .enter, .leave, .leave, .leave, .enter, .enter]
    history.count .enter < UInt32.size ∧
      Bracketed history
        [none, some ⟨1⟩, some ⟨2⟩, some ⟨2⟩, some ⟨3⟩, some ⟨3⟩, some ⟨1⟩, none,
          some ⟨4⟩, some ⟨5⟩]
        ⟨[⟨5⟩, ⟨4⟩], some ⟨6⟩⟩ := by
  intro history
  have fits : history.count .enter < UInt32.size := by decide
  have run : initial.moves history =
      ([none, some ⟨1⟩, some ⟨2⟩, some ⟨2⟩, some ⟨3⟩, some ⟨3⟩, some ⟨1⟩, none,
        some ⟨4⟩, some ⟨5⟩], ⟨[⟨5⟩, ⟨4⟩], some ⟨6⟩⟩) := by decide
  have bracketed := enters_and_leaves_match fits
  rw [run] at bracketed
  exact ⟨fits, bracketed⟩

end ScopedVariables.ScopeStack

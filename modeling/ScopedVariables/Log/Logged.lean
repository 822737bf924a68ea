import ScopedVariables.Log.Record

/-! # Computations that report

A logged computation yields a value together with the records it wrote, oldest
first. The records never influence the value, so both can be read off
separately. -/

namespace ScopedVariables

open Log

structure Logged (α : Type u) where
  value : α
  log : List Record := []

namespace Logged

instance : Monad Logged where
  pure value := ⟨value, []⟩
  bind step following :=
    let rest := following step.value
    ⟨rest.value, step.log ++ rest.log⟩

def note (event : Event) : Logged Unit := ⟨(), [.event event]⟩

def notes (events : List Event) : Logged Unit := ⟨(), events.map .event⟩

def within (span : Span) (inner : Logged α) : Logged α :=
  ⟨inner.value, .enter span :: inner.log ++ [.exit span]⟩

/-! ## Reading value and records -/

@[simp] theorem value_pure (value : α) : (pure value : Logged α).value = value := rfl

@[simp] theorem log_pure (value : α) : (pure value : Logged α).log = [] := rfl

@[simp] theorem value_bind (step : Logged α) (following : α → Logged β) :
    (step >>= following).value = (following step.value).value := rfl

@[simp] theorem log_bind (step : Logged α) (following : α → Logged β) :
    (step >>= following).log = step.log ++ (following step.value).log := rfl

@[simp] theorem value_map (change : α → β) (step : Logged α) :
    (change <$> step).value = change step.value := rfl

@[simp] theorem log_map (change : α → β) (step : Logged α) :
    (change <$> step).log = step.log := by
  simp [Functor.map]

@[simp] theorem log_note (event : Event) : (note event).log = [.event event] := rfl

@[simp] theorem log_notes (events : List Event) :
    (notes events).log = events.map .event := rfl

@[simp] theorem value_within (span : Span) (inner : Logged α) :
    (within span inner).value = inner.value := rfl

@[simp] theorem log_within (span : Span) (inner : Logged α) :
    (within span inner).log = .enter span :: inner.log ++ [.exit span] := rfl

end Logged

end ScopedVariables

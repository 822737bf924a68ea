import ScopedVariables.Log.Record

/-! # Reading a log

Whoever reads a log from its beginning can keep count of the linked variables
and of the open spans. The reading goes on as long as each reported count agrees
with the one that was kept, and each span that ends is the innermost open one. A
span that destroys all variables must end as many as were linked. -/

namespace ScopedVariables.Log

structure Reading where
  /-- The number of variables that are linked. -/
  count : Nat
  /-- The spans that are open, the innermost first. -/
  spans : List Span
  deriving DecidableEq, Repr

namespace Reading

def start : Reading := ⟨0, []⟩

def clears (reading : Reading) : Bool :=
  match reading.spans with
  | .destroyAll _ :: _ => true
  | _ => false

/-- A variable ends. That is one less of those that are linked if all of them
are being destroyed; else it was unlinked before. -/
def destroy? (reading : Reading) : Option Reading :=
  match reading.clears, reading.count with
  | false, _ => some reading
  | true, 0 => none
  | true, count + 1 => some { reading with count }

def next? (reading : Reading) : Record → Option Reading
  | .event (.linked _ count) =>
      if count = reading.count + 1 then some { reading with count } else none
  | .event (.unlinked _ count) =>
      if count + 1 = reading.count then some { reading with count } else none
  | .event (.destroying ..) => reading.destroy?
  | .event _ => some reading
  | .enter (.destroyAll count) =>
      if count = reading.count then
        some { reading with spans := .destroyAll count :: reading.spans }
      else none
  | .enter span => some { reading with spans := span :: reading.spans }
  | .exit span =>
      if reading.spans.head? = some span ∧ (reading.clears → reading.count = 0) then
        some { reading with spans := reading.spans.tail }
      else none

def read (reading : Reading) (records : List Record) : Option Reading :=
  records.foldlM next? reading

theorem read_cons (reading : Reading) (record : Record) (records : List Record) :
    reading.read (record :: records) = (reading.next? record).bind (·.read records) :=
  List.foldlM_cons

theorem next?_unlinked {count : Nat} (linked : 0 < count) (spans : List Span)
    (name : String) :
    next? ⟨count, spans⟩ (.event (.unlinked name (count - 1))) =
      some ⟨count - 1, spans⟩ :=
  if_pos (Nat.sub_add_cancel linked)

theorem read_append (reading : Reading) (earlier later : List Record) :
    reading.read (earlier ++ later) = (reading.read earlier).bind (·.read later) :=
  List.foldlM_append

end Reading

end ScopedVariables.Log

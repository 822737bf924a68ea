/-! A payload is the byte string behind one value of a variable. -/

namespace ScopedVariables

instance instDecidableEqBytes : DecidableEq ByteArray := ByteArray.decEq

structure Payload where
  bytes : ByteArray
  deriving DecidableEq, Inhabited

namespace Payload

def empty : Payload := ⟨ByteArray.empty⟩

def size (payload : Payload) : Nat := payload.bytes.size

def isEmpty (payload : Payload) : Bool := payload.bytes.isEmpty

def set (payload : Payload) (bytes : ByteArray) : Payload :=
  { payload with bytes }

end Payload

end ScopedVariables

/-
  Mpsx/Wire/Fault.lean
  ====================
  **What can be wrong with encoded fields.**  A fault is a cause and the fields
  around it, the innermost first.  Only a field that is declared and whose value
  cannot be read adds itself; a broken key or a broken undeclared field is
  reported by the fields that enclose it.
-/

namespace Mpsx.Wire

/-- The form of an encoded value, as its key announces it. -/
inductive WireType where
  | varint
  | fixed64
  | delimited
  | startGroup
  | endGroup
  | fixed32
deriving DecidableEq, Repr

namespace WireType

def code : WireType → Nat
  | varint => 0
  | fixed64 => 1
  | delimited => 2
  | startGroup => 3
  | endGroup => 4
  | fixed32 => 5

def ofCode? : Nat → Option WireType
  | 0 => some varint
  | 1 => some fixed64
  | 2 => some delimited
  | 3 => some startGroup
  | 4 => some endGroup
  | 5 => some fixed32
  | _ => none

def name : WireType → String
  | varint => "Varint"
  | fixed64 => "SixtyFourBit"
  | delimited => "LengthDelimited"
  | startGroup => "StartGroup"
  | endGroup => "EndGroup"
  | fixed32 => "ThirtyTwoBit"

theorem ofCode?_code (w : WireType) : ofCode? w.code = some w := by cases w <;> rfl

theorem code_lt (w : WireType) : w.code < 8 := by cases w <;> decide

end WireType

inductive Cause where
  /-- A variable-length number does not end, or does not fit in 64 bits. -/
  | varint
  /-- A key does not fit in 32 bits. -/
  | key (value : Nat)
  /-- A key announces a form that does not exist. -/
  | form (code : Nat)
  /-- A key has field number zero. -/
  | zeroNumber
  /-- A declared field comes in another form than its own. -/
  | mismatch (actual expected : WireType)
  /-- Fewer bytes are left than a value needs. -/
  | underflow
  /-- A value reaches past the end of the list or message it is in. -/
  | overrun
  /-- Messages or groups are nested too deeply. -/
  | nesting
  /-- A group ends that is not open. -/
  | endGroup
  /-- A text field is not UTF-8. -/
  | text
deriving DecidableEq, Repr

def Cause.message : Cause → String
  | varint => "invalid varint"
  | key value => "invalid key value: " ++ toString value
  | form code => "invalid wire type value: " ++ toString code
  | zeroNumber => "invalid tag value: 0"
  | mismatch actual expected =>
    "invalid wire type: " ++ actual.name ++ " (expected " ++ expected.name ++ ")"
  | underflow => "buffer underflow"
  | overrun => "delimited length exceeded"
  | nesting => "recursion limit reached"
  | endGroup => "unexpected end group tag"
  | text => "invalid string value: data is not UTF-8 encoded"

/-- A cause, and the message and field names around it, the innermost first. -/
structure Fault where
  path : List (String × String)
  cause : Cause
deriving DecidableEq, Repr

def Fault.message (f : Fault) : String :=
  "failed to decode Protobuf message: " ++
    String.join (f.path.map fun p => p.1 ++ "." ++ p.2 ++ ": ") ++ f.cause.message

end Mpsx.Wire

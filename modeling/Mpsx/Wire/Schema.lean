/-
  Mpsx/Wire/Schema.lean
  =====================
  **Reading messages by a schema.**  A schema names the messages of a format and
  says which fields each declares and in what form.  `Schema.decode` keeps declared
  fields and skips all others, whatever they hold.

  Nesting is bounded by a budget: a message inside a message has one less, and so
  has a field inside a skipped group.  The budget is what the recursion runs on.
-/

import Mpsx.Text.Utf8
import Mpsx.Wire.Message

namespace Mpsx.Wire

/-- What a declared field holds. -/
inductive FieldKind (τ : Type) where
  | single (form : NumberForm)
  /-- Numbers, behind one key each or packed. -/
  | repeated (form : NumberForm)
  | text
  | bytes
  | message (type : τ)
deriving DecidableEq, Repr

/-- A declared field: the name faults show, and what it holds. -/
structure Declaration (τ : Type) where
  name : String
  kind : FieldKind τ
deriving Repr

/-- The messages of a format, indexed by `τ`. -/
structure Schema (τ : Type) where
  name : τ → String
  field? : τ → Nat → Option (Declaration τ)

/-- How deep messages may be nested below the outermost one. -/
def nestingLimit : Nat := 100

/-- Walks over the fields of a group to its end.  A field takes at least one byte,
    so with more steps than bytes the input ends first. -/
def skipGroup (skipField : Key → Reader Unit) (number : Nat) : (steps : Nat) → Reader Unit
  | 0 => Reader.fail .varint
  | steps + 1 => do
    let key ← readKey
    if key.form = .endGroup then
      if key.number = number then return () else Reader.fail .endGroup
    else
      skipField key
      skipGroup skipField number steps

/-- Skips the value behind the key of an undeclared field. -/
def skip : (budget : Nat) → Key → Reader Unit
  | 0, _ => Reader.fail .nesting
  | budget + 1, key =>
    match key.form with
    | .varint => do
      let _ ← readVarint
    | .fixed32 => do
      let _ ← Reader.take 4
    | .fixed64 => do
      let _ ← Reader.take 8
    | .delimited => do
      let _ ← Reader.take (← readVarint)
    | .startGroup => do
      skipGroup (skip budget) key.number ((← Reader.left) + 1)
    | .endGroup => Reader.fail .endGroup

/-- A declared field has to come in its own form. -/
def expect (key : Key) (form : WireType) : Reader Unit :=
  if key.form = form then return () else Reader.fail (.mismatch key.form form)

namespace Schema

variable {τ : Type} (S : Schema τ)

/-- Reads the value of a declared field; `enter` reads a nested message. -/
def readValue (enter : τ → Reader Message) (key : Key) : FieldKind τ → Reader Field
  | .single form => do
    expect key form.wireType
    return .number key.number (← readNumber form)
  | .repeated form =>
    if key.form = .delimited then
      return .packed key.number (← readDelimited (readNumber form))
    else do
      expect key form.wireType
      return .number key.number (← readNumber form)
  | .text => do
    expect key .delimited
    match Utf8.decode (← Reader.take (← readVarint)) with
    | .ok s => return .text key.number s
    | .error _ => Reader.fail .text
  | .bytes => do
    expect key .delimited
    return .bytes key.number (← Reader.take (← readVarint))
  | .message type => do
    expect key .delimited
    return .message key.number (← enter type)

/-- Reads a key and its field: a declared one is kept, any other is skipped. -/
def readFieldWith (skipField : Key → Reader Unit) (enter : τ → Reader Message) (type : τ) :
    Reader (Option Field) := do
  let key ← readKey
  match S.field? type key.number with
  | none =>
    skipField key
    return none
  | some d => Reader.within (S.name type) d.name (some <$> readValue enter key d.kind)

/-- Reads one field of a message, with `budget` levels of nesting left. -/
def readField : (budget : Nat) → (type : τ) → Reader (Option Field)
  | 0 => S.readFieldWith (skip 0) fun _ => Reader.fail .nesting
  | budget + 1 => S.readFieldWith (skip (budget + 1)) fun type =>
      List.filterMap id <$> readDelimited (readField budget type)

/-- Reads the fields of a message up to the end of the input. -/
def decode (type : τ) (bytes : Bytes) : Except Fault Message :=
  match Reader.all (S.readField nestingLimit type) (.of bytes) with
  | .ok (fields, _) => .ok (fields.filterMap id)
  | .error f => .error f

end Schema

end Mpsx.Wire

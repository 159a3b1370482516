/-
  Mpsx/Model/ElementType.lean
  ===========================
  **Element types of tensors.**  Each has the integer code that files carry.  A
  code outside the known range is kept as `other`, so reading and writing a type
  loses nothing.

  `width?` is the size of an element in raw data: types without one (strings, the
  undefined type, unknown codes) cannot be addressed by element.  `Precision` picks
  out the two float types that conversion moves between.
-/

namespace Mpsx

/-- The two float precisions that weights are converted between. -/
inductive Precision where
  | single
  | half
deriving DecidableEq, Repr

inductive ElementType where
  | undefined
  | float32
  | uint8
  | int8
  | uint16
  | int16
  | int32
  | int64
  | string
  | bool
  | float16
  | float64
  | uint32
  | uint64
  | complex64
  | complex128
  | bfloat16
  | other (code : Int32)
deriving DecidableEq, Repr

namespace ElementType

def ofCode (code : Int32) : ElementType :=
  match code.toInt with
  | 0 => undefined
  | 1 => float32
  | 2 => uint8
  | 3 => int8
  | 4 => uint16
  | 5 => int16
  | 6 => int32
  | 7 => int64
  | 8 => string
  | 9 => bool
  | 10 => float16
  | 11 => float64
  | 12 => uint32
  | 13 => uint64
  | 14 => complex64
  | 15 => complex128
  | 16 => bfloat16
  | _ => other code

def code : ElementType → Int32
  | undefined => 0
  | float32 => 1
  | uint8 => 2
  | int8 => 3
  | uint16 => 4
  | int16 => 5
  | int32 => 6
  | int64 => 7
  | string => 8
  | bool => 9
  | float16 => 10
  | float64 => 11
  | uint32 => 12
  | uint64 => 13
  | complex64 => 14
  | complex128 => 15
  | bfloat16 => 16
  | other code => code

/-- The name diagnostics use. -/
def name : ElementType → String
  | undefined => "Undefined"
  | float32 => "F32"
  | uint8 => "U8"
  | int8 => "I8"
  | uint16 => "U16"
  | int16 => "I16"
  | int32 => "I32"
  | int64 => "I64"
  | string => "String"
  | bool => "Bool"
  | float16 => "F16"
  | float64 => "F64"
  | uint32 => "U32"
  | uint64 => "U64"
  | complex64 => "C64"
  | complex128 => "C128"
  | bfloat16 => "BF16"
  | other code => "Other(" ++ toString code.toInt ++ ")"

/-- Bytes per element in raw data, for the types that have a fixed width. -/
def width? : ElementType → Option Nat
  | uint8 | int8 | bool => some 1
  | uint16 | int16 | float16 | bfloat16 => some 2
  | float32 | int32 | uint32 => some 4
  | int64 | uint64 | float64 | complex64 => some 8
  | complex128 => some 16
  | undefined | string | other _ => none

/-- The precision of a convertible float type. -/
def precision? : ElementType → Option Precision
  | float32 => some .single
  | float16 => some .half
  | _ => none

/-- A type with a name of its own is read back from its code. -/
theorem ofCode_code_of_ne_other {t : ElementType} (h : ∀ c, t ≠ other c) : ofCode t.code = t := by
  cases t
  case other c => exact absurd rfl (h c)
  all_goals rfl

theorem code_ofCode (c : Int32) : (ofCode c).code = c := by
  unfold ofCode
  split
  case h_18 => rfl
  all_goals
    rename_i h
    exact Int32.toInt_inj.mp (by rw [h]; rfl)

end ElementType

namespace Precision

def elementType : Precision → ElementType
  | single => .float32
  | half => .float16

/-- Bytes per element. -/
def width : Precision → Nat
  | single => 4
  | half => 2

/-- The name users give and see. -/
def text : Precision → String
  | single => "f32"
  | half => "f16"

theorem width?_elementType (p : Precision) : p.elementType.width? = some p.width := by
  cases p <;> rfl

theorem precision?_elementType (p : Precision) : p.elementType.precision? = some p := by
  cases p <;> rfl

end Precision

end Mpsx

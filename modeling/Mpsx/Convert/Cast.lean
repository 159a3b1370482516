/-
  Mpsx/Convert/Cast.lean
  ======================
  **Casting float buffers.**  Elements are cast one by one, in order.  Bytes at the
  end that do not fill an element are dropped by a cast and kept where source and
  target are the same.
-/

import Mpsx.Binary.Half
import Mpsx.Bytes
import Mpsx.Model.ElementType

namespace Mpsx

/-- A buffer of little-endian floats in another precision. -/
def castFloats (bytes : Bytes) : (source target : Precision) → Bytes
  | .single, .half =>
    (Bytes.words32 bytes).flatMap fun w => Bytes.littleEndian 2 (Half.narrow w).toNat
  | .half, .single =>
    (Bytes.words16 bytes).flatMap fun w => Bytes.littleEndian 4 (Half.widen w).toNat
  | .single, .single => bytes
  | .half, .half => bytes

end Mpsx

/-
  Mpsx/Proofs/Convert/Exchange.lean
  =================================
  **Exchanging axes is a law about places.**  Every byte of a buffer has a row, a column
  and a place in its block, and only one of each.  `Exchanged` says which byte goes where,
  without saying how.  It is symmetric and leaves no choice, and that is all it takes:
  doing it twice gives back the original.

  A cast keeps elements in their places, and a block holds whole elements before and
  after it.  So blocks may be moved before or after a cast, and an initializer may be
  converted in two passes, one for each step.  The order of the steps shows in one place
  only: a block has another size before a cast than after it, and one of the two may be
  too large.  `Tensor.flat` is a weight, without any data, for which it is.
-/

import Mathlib.Algebra.Group.Nat.Defs
import Mpsx.Proofs.Convert.Meaning
import Mpsx.Proofs.Convert.Refused

namespace Mpsx

/-! ### Places in a buffer -/

theorem exists_place {m n size p : Nat} (h : p < m * n * size) :
    ∃ i < m, ∃ j < n, ∃ k < size, p = (i * n + j) * size + k := by
  have hsize : 0 < size := Nat.pos_of_lt_mul_left h
  have hblock : p / size < m * n := Nat.div_lt_of_lt_mul (by rwa [Nat.mul_comm])
  have hn : 0 < n := Nat.pos_of_lt_mul_left hblock
  refine ⟨p / size / n, Nat.div_lt_of_lt_mul (by rwa [Nat.mul_comm]), p / size % n,
    Nat.mod_lt _ hn, p % size, Nat.mod_lt _ hsize, ?_⟩
  rw [Nat.div_add_mod', Nat.div_add_mod']

theorem Bytes.getElem?_block {bytes : Bytes} {size n k : Nat} (hk : k < size) :
    (bytes.block size n)[k]? = bytes[n * size + k]? := by
  rw [block, List.getElem?_take_of_lt hk, List.getElem?_drop]

structure Exchanged (d0 d1 size : Nat) (bytes out : Bytes) : Prop where
  length : out.length = bytes.length
  entry : ∀ i < d0, ∀ j < d1, ∀ k < size, ∃ b,
    bytes[(i * d1 + j) * size + k]? = some b ∧ out[(j * d0 + i) * size + k]? = some b

namespace Exchanged

variable {d0 d1 size : Nat} {bytes out out' : Bytes}

theorem symm (h : Exchanged d0 d1 size bytes out) : Exchanged d1 d0 size out bytes := by
  refine ⟨h.length.symm, ?_⟩
  intro j hj i hi k hk
  obtain ⟨b, hbytes, hout⟩ := h.entry i hi j hj k hk
  exact ⟨b, hout, hbytes⟩

theorem unique (hlen : bytes.length = d0 * d1 * size) (h : Exchanged d0 d1 size bytes out)
    (h' : Exchanged d0 d1 size bytes out') : out = out' := by
  apply List.ext_getElem?
  intro p
  rcases Nat.lt_or_ge p bytes.length with hp | hp
  · rw [hlen, Nat.mul_comm d0] at hp
    obtain ⟨j, hj, i, hi, k, hk, rfl⟩ := exists_place hp
    obtain ⟨b, hbytes, hout⟩ := h.entry i hi j hj k hk
    obtain ⟨b', hbytes', hout'⟩ := h'.entry i hi j hj k hk
    rw [hout, hout', ← hbytes, ← hbytes']
  · rw [List.getElem?_eq_none (h.length ▸ hp), List.getElem?_eq_none (h'.length ▸ hp)]

end Exchanged

/-! ### Buffers of a shape -/

section Shape

variable {bytes : Bytes} {d0 d1 : UInt64} {rest : List UInt64} {width : Nat}

theorem exchanged_transposeBlocks {d0 d1 size : Nat} (hlen : bytes.length = d0 * d1 * size) :
    Exchanged d0 d1 size bytes (transposeBlocks bytes d0 d1 size) := by
  refine ⟨?_, ?_⟩
  · rw [length_transposeBlocks hlen, hlen, Nat.mul_comm d1]
  · intro i hi j hj k hk
    have hplace : (i * d1 + j) * size + k < bytes.length := by
      rw [hlen]
      exact index_lt (index_lt hi hj) hk
    refine ⟨bytes[(i * d1 + j) * size + k], List.getElem?_eq_getElem hplace, ?_⟩
    rw [← Bytes.getElem?_block hk, block_transposeBlocks hlen hi hj, Bytes.getElem?_block hk,
      List.getElem?_eq_getElem hplace]

/-- Moving blocks twice puts them back: the original and the second result are both
    exchanged with the first. -/
theorem transposeBlocks_transposeBlocks {d0 d1 size : Nat}
    (hlen : bytes.length = d0 * d1 * size) :
    transposeBlocks (transposeBlocks bytes d0 d1 size) d1 d0 size = bytes := by
  have hout := exchanged_transposeBlocks hlen
  have hlen' : (transposeBlocks bytes d0 d1 size).length = d1 * d0 * size := by
    rw [hout.length, hlen, Nat.mul_comm d0]
  exact (exchanged_transposeBlocks hlen').unique hlen' hout.symm

theorem SwapFits.symm (h : SwapFits d0 d1 rest width) : SwapFits d1 d0 rest width := by
  obtain ⟨hblock, hblocks, hbuffer⟩ := h
  rw [Nat.mul_comm] at hblocks
  rw [Nat.mul_comm d0.toNat] at hbuffer
  exact ⟨hblock, hblocks, hbuffer⟩

/-- **Exchanging the leading axes** is the transposition of blocks, byte by byte, and its
    own inverse.  It is done whenever all products are in range, and only then. -/
theorem swapLeadingAxes_exchanges
    (hlen : bytes.length = d0.toNat * d1.toNat * (volume rest * width)) :
    (Exchanged d0.toNat d1.toNat (volume rest * width) bytes
        (transposeBlocks bytes d0.toNat d1.toNat (volume rest * width)) ∧
      transposeBlocks (transposeBlocks bytes d0.toNat d1.toNat (volume rest * width))
        d1.toNat d0.toNat (volume rest * width) = bytes) ∧
    (SwapFits d0 d1 rest width →
      ∃ out, swapLeadingAxes? bytes (d0 :: d1 :: rest) width = some out ∧
        Exchanged d0.toNat d1.toNat (volume rest * width) bytes out ∧
        swapLeadingAxes? out (d1 :: d0 :: rest) width = some bytes) ∧
    (¬SwapFits d0 d1 rest width → swapLeadingAxes? bytes (d0 :: d1 :: rest) width = none) := by
  have hout := exchanged_transposeBlocks hlen
  have hback := transposeBlocks_transposeBlocks hlen
  refine ⟨⟨hout, hback⟩, ?_, (swapLeadingAxes?_eq_none_iff hlen).mpr⟩
  intro hfits
  refine ⟨_, swapLeadingAxes?_eq_some_iff.mpr ⟨hfits, hlen, rfl⟩, hout, ?_⟩
  refine swapLeadingAxes?_eq_some_iff.mpr ⟨hfits.symm, ?_, hback.symm⟩
  rw [hout.length, hlen, Nat.mul_comm d0.toNat]

end Shape

theorem swapLeadingAxes_exchanges_blocks :
    SwapFits 2 3 [1] 2 ∧
      Exchanged 2 3 2 [0, 1, 2, 3, 4, 5, 6, 7, 8, 9, 10, 11]
        [0, 1, 6, 7, 2, 3, 8, 9, 4, 5, 10, 11] ∧
      swapLeadingAxes? [0, 1, 6, 7, 2, 3, 8, 9, 4, 5, 10, 11] [3, 2, 1] 2 =
        some [0, 1, 2, 3, 4, 5, 6, 7, 8, 9, 10, 11] := by
  have hmoved : swapLeadingAxes? [0, 1, 2, 3, 4, 5, 6, 7, 8, 9, 10, 11] [2, 3, 1] 2 =
      some [0, 1, 6, 7, 2, 3, 8, 9, 4, 5, 10, 11] := by decide
  have hfits := (swapLeadingAxes?_eq_some_iff.mp hmoved).1
  obtain ⟨-, hsome, -⟩ := swapLeadingAxes_exchanges
    (show ([0, 1, 2, 3, 4, 5, 6, 7, 8, 9, 10, 11] : Bytes).length =
      (2 : UInt64).toNat * (3 : UInt64).toNat * (volume [1] * 2) from rfl)
  obtain ⟨out, hout, hexchanged, hback⟩ := hsome hfits
  cases hmoved.symm.trans hout
  exact ⟨hfits, hexchanged, hback⟩

/-! ### Moving and casting -/

/-- Blocks of whole elements may be moved before or after a cast. -/
theorem castFloats_transposeBlocks {bytes : Bytes} {d0 d1 n : Nat} (source target : Precision)
    (hlen : bytes.length = d0 * d1 * (n * source.width)) :
    castFloats (transposeBlocks bytes d0 d1 (n * source.width)) source target =
      transposeBlocks (castFloats bytes source target) d0 d1 (n * target.width) := by
  have hmoved : (transposeBlocks bytes d0 d1 (n * source.width)).length =
      d1 * d0 * n * source.width := by
    rw [length_transposeBlocks hlen, Nat.mul_assoc (d1 * d0)]
  have hcast : (castFloats bytes source target).length = d0 * d1 * (n * target.width) := by
    rw [← Nat.mul_assoc]
    apply length_castFloats
    rw [hlen, Nat.mul_assoc (d0 * d1)]
  apply Bytes.eq_of_elements (length_castFloats hmoved)
  · rw [length_transposeBlocks hcast, Nat.mul_assoc (d1 * d0)]
  · intro p hp
    obtain ⟨j, hj, i, hi, r, hr, rfl⟩ := exists_place hp
    -- both sides are the cast of one element of the original
    have hsource : ((i * d1 + j) * n + r + 1) * source.width ≤ bytes.length := by
      rw [hlen, ← Nat.mul_assoc]
      exact Nat.mul_le_mul_right _ (index_lt (index_lt hi hj) hr)
    have htarget : ((j * d0 + i) * n + r + 1) * source.width ≤
        (transposeBlocks bytes d0 d1 (n * source.width)).length := by
      rw [hmoved]
      exact Nat.mul_le_mul_right _ hp
    rw [block_castFloats htarget, block_transposeBlocks_part hlen hi hj hr,
      block_transposeBlocks_part hcast hi hj hr, block_castFloats hsource]

section Cast

variable {bytes : Bytes} {d0 d1 : UInt64} {rest : List UInt64} {source target : Precision}

theorem castFloats_swapLeadingAxes_of_fits
    (hlen : bytes.length = volume (d0 :: d1 :: rest) * source.width)
    (hsource : SwapFits d0 d1 rest source.width) (htarget : SwapFits d0 d1 rest target.width) :
    ∃ moved, swapLeadingAxes? bytes (d0 :: d1 :: rest) source.width = some moved ∧
      swapLeadingAxes? (castFloats bytes source target) (d0 :: d1 :: rest) target.width =
        some (castFloats moved source target) := by
  have hcast : (castFloats bytes source target).length =
      volume (d0 :: d1 :: rest) * target.width := length_castFloats hlen
  rw [volume_cons_cons] at hlen hcast
  refine ⟨_, swapLeadingAxes?_eq_some_iff.mpr ⟨hsource, hlen, rfl⟩, ?_⟩
  exact swapLeadingAxes?_eq_some_iff.mpr
    ⟨htarget, hcast, castFloats_transposeBlocks source target hlen⟩

/-- The two ways agree if there is a result both ways or neither way. -/
theorem map_castFloats_swapLeadingAxes?_iff
    (hlen : bytes.length = volume (d0 :: d1 :: rest) * source.width) :
    (swapLeadingAxes? bytes (d0 :: d1 :: rest) source.width).map (castFloats · source target) =
        swapLeadingAxes? (castFloats bytes source target) (d0 :: d1 :: rest) target.width ↔
      (SwapFits d0 d1 rest source.width ↔ SwapFits d0 d1 rest target.width) := by
  have hcast : (castFloats bytes source target).length =
      volume (d0 :: d1 :: rest) * target.width := length_castFloats hlen
  have hfirst := swapLeadingAxes?_eq_none_iff ((volume_cons_cons ..) ▸ hlen)
  have hsecond := swapLeadingAxes?_eq_none_iff ((volume_cons_cons ..) ▸ hcast)
  by_cases hsource : SwapFits d0 d1 rest source.width
  · by_cases htarget : SwapFits d0 d1 rest target.width
    · obtain ⟨moved, hmoved, hboth⟩ := castFloats_swapLeadingAxes_of_fits hlen hsource htarget
      simp [hmoved, hboth, hsource, htarget]
    · rw [hsecond.mpr htarget, Option.map_eq_none_iff, hfirst]
      simp [hsource, htarget]
  · rw [hfirst.mpr hsource, Option.map_none, eq_comm, hsecond]
    simp [hsource]

end Cast

/-! ### Converting in two passes -/

theorem swapsAxes_none (shape : List UInt64) : swapsAxes none shape = false := rfl

theorem castSource?_elementType (p target : Precision) :
    castSource? p.elementType target = if p = target then none else some p := by
  cases p <;> cases target <;> rfl

theorem addressable_swapFirstTwo {shape : List UInt64} {width : Nat}
    (h : Addressable shape width) : Addressable (swapFirstTwo shape) width := by
  obtain ⟨hleading, hsize⟩ := h
  refine ⟨?_, by rwa [volume_swapFirstTwo]⟩
  match shape with
  | [] => exact hleading
  | [_] => exact hleading
  | d0 :: d1 :: rest =>
    intro k
    match k with
    | 0 => exact hleading 0
    | 1 => simpa [swapFirstTwo] using d1.toNat_lt
    | k + 2 =>
      -- from two dimensions on the product does not see the exchange
      have hk := hleading (k + 2)
      simp only [List.take_succ_cons, volume_cons] at hk
      simpa only [swapFirstTwo, List.take_succ_cons, volume_cons, Nat.mul_left_comm] using hk

def SwapFitsAlike (shape : List UInt64) (p q : Precision) : Prop :=
  ∀ d0 d1 rest, shape = d0 :: d1 :: rest →
    (SwapFits d0 d1 rest p.width ↔ SwapFits d0 d1 rest q.width)

namespace Tensor

variable {t t' : Tensor} {group : Option Int64} {p target : Precision} {bytes data : Bytes}

/-- A tensor of floats with bytes that are in their places, cast. -/
def refit (t : Tensor) (swap : Bool) (p target : Precision) (data : Bytes) : Tensor :=
  ⟨t.name, if swap then swapFirstTwo t.shape else t.shape, target.elementType,
    .raw (castFloats data p target)⟩

theorem rebuild_eq_refit (hp : t.elementType = p.elementType) (swap : Bool) (data : Bytes) :
    t.rebuild swap (castSource? t.elementType target) target data =
      t.refit swap p target data := by
  rw [hp, castSource?_elementType]
  by_cases hsame : p = target
  · rw [if_pos hsame, rebuild, refit, hsame, castFloats_self, hp, hsame]
  · rw [if_neg hsame]
    rfl

theorem convert_eq_ok_iff_of_float (hp : t.elementType = p.elementType) :
    (t.convert group target).result = .ok t' ↔
      (swapsAxes group t.shape = false ∧ p = target ∧ t' = t) ∨
      (swapsAxes group t.shape = true ∨ p ≠ target) ∧
        (swapsAxes group t.shape = true → t.shape.length = 4) ∧
        ∃ bytes data, t.exactBytes p.width = .ok bytes ∧
          t.place? (swapsAxes group t.shape) p.width bytes = some data ∧
          t' = t.refit (swapsAxes group t.shape) p target data := by
  have hsource : castSource? t.elementType target = none ↔ p = target := by
    rw [hp, castSource?_elementType]
    simp
  have hwidth : t.elementType.width? = some p.width := by
    rw [hp, Precision.width?_elementType]
  rw [convert_eq_ok_iff]
  simp only [Ne, hsource, hwidth, rebuild_eq_refit hp, Option.some.injEq, exists_eq_left',
    exists_and_left]

/-- Raw data that is complete is moved and cast, also where there is nothing to do. -/
theorem convert_eq_ok_iff_of_raw (hp : t.elementType = p.elementType)
    (hraw : t.payload = .raw bytes) (hsize : Addressable t.shape p.width)
    (hlen : bytes.length = volume t.shape * p.width) :
    (t.convert group target).result = .ok t' ↔
      (swapsAxes group t.shape = true → t.shape.length = 4) ∧
        ∃ data, t.place? (swapsAxes group t.shape) p.width bytes = some data ∧
          t' = t.refit (swapsAxes group t.shape) p target data := by
  have hbytes : t.exactBytes p.width = .ok bytes := by
    refine exactBytes_eq_ok_iff.mpr ⟨?_, hsize, hlen⟩
    rw [rawBytes?, hraw]
  rw [convert_eq_ok_iff_of_float hp]
  simp only [hbytes, Except.ok.injEq, exists_eq_left', exists_and_left]
  by_cases hnone : swapsAxes group t.shape = false ∧ p = target
  · obtain ⟨hswap, rfl⟩ := hnone
    have hself : t = t.refit false p p bytes := by
      rw [refit, castFloats_self, ← hp, ← hraw]
      rfl
    simp [hswap, place?, ← hself]
  · have hany : swapsAxes group t.shape = true ∨ p ≠ target := by
      by_cases hswap : swapsAxes group t.shape = true
      · exact .inl hswap
      · exact .inr fun hsame => hnone ⟨by simpa using hswap, hsame⟩
    rw [← and_assoc, or_iff_right fun h => hnone h.1, and_iff_right hany]

/-- Bytes are put in their places before or after they are cast. -/
theorem place?_castFloats (swap : Bool) (hlen : bytes.length = volume t.shape * p.width)
    (halike : SwapFitsAlike t.shape p target) :
    t.place? swap target.width (castFloats bytes p target) =
      (t.place? swap p.width bytes).map (castFloats · p target) := by
  cases swap with
  | false => rfl
  | true =>
    rw [place?, place?, if_pos rfl, if_pos rfl]
    rcases hshape : t.shape with _ | ⟨d0, _ | ⟨d1, rest⟩⟩
    · rfl
    · rfl
    · rw [hshape] at hlen
      exact ((map_castFloats_swapLeadingAxes?_iff hlen).mpr (halike d0 d1 rest hshape)).symm

/-- A cast after a move is both. -/
theorem convert_refit_moved (hbytes : t.exactBytes p.width = .ok bytes)
    (hrank : t.shape.length = 4) (hplace : t.place? true p.width bytes = some data) :
    ((t.refit true p p data).convert none target).result = .ok t' ↔
      t' = t.refit true p target data := by
  obtain ⟨-, hsize, hlen⟩ := exactBytes_eq_ok_iff.mp hbytes
  have hraw : (t.refit true p p data).payload = .raw data := by
    rw [refit, castFloats_self]
  have hdata : data.length = volume (t.refit true p p data).shape * p.width := by
    rw [length_of_place? (fun _ => hrank) hplace, hlen]
    exact congrArg (· * p.width) (volume_swapFirstTwo t.shape).symm
  rw [convert_eq_ok_iff_of_raw rfl hraw (addressable_swapFirstTwo hsize) hdata]
  simp [swapsAxes_none, place?, refit]

theorem convert_refit_cast (hbytes : t.exactBytes p.width = .ok bytes)
    (hroom : volume t.shape * target.width < 2 ^ 64) (halike : SwapFitsAlike t.shape p target) :
    ((t.refit false p target bytes).convert group target).result = .ok t' ↔
      (swapsAxes group t.shape = true → t.shape.length = 4) ∧
        ∃ data, t.place? (swapsAxes group t.shape) p.width bytes = some data ∧
          t' = t.refit (swapsAxes group t.shape) p target data := by
  obtain ⟨-, hsize, hlen⟩ := exactBytes_eq_ok_iff.mp hbytes
  have hsize' : Addressable (t.refit false p target bytes).shape target.width := ⟨hsize.1, hroom⟩
  rw [convert_eq_ok_iff_of_raw rfl rfl hsize' (length_castFloats hlen)]
  refine and_congr_right fun _ => ?_
  show (∃ data, t.place? (swapsAxes group t.shape) target.width (castFloats bytes p target) =
    some data ∧ _) ↔ _
  simp only [place?_castFloats _ hlen halike, Option.map_eq_some_iff]
  constructor
  · rintro ⟨_, ⟨data, hdata, rfl⟩, rfl⟩
    refine ⟨data, hdata, ?_⟩
    rw [refit, castFloats_self]
    rfl
  · rintro ⟨data, hdata, rfl⟩
    refine ⟨_, ⟨data, hdata, rfl⟩, ?_⟩
    rw [refit, refit, castFloats_self]
    rfl

theorem convert_eq_ok_iff_moved_first (hp : t.elementType = p.elementType) :
    (t.convert group target).result = .ok t' ↔
      ∃ u, (t.convert group p).result = .ok u ∧ (u.convert none target).result = .ok t' := by
  simp only [convert_eq_ok_iff_of_float hp]
  cases hswap : swapsAxes group t.shape with
  | false =>
    -- nothing is moved, and the first pass gives back the tensor
    simp [convert_eq_ok_iff_of_float hp, swapsAxes_none]
  | true =>
    simp only [Bool.true_eq_false, false_and, false_or, true_or, true_and, forall_const]
    constructor
    · rintro ⟨hrank, bytes, data, hbytes, hplace, rfl⟩
      exact ⟨_, ⟨hrank, bytes, data, hbytes, hplace, rfl⟩,
        (convert_refit_moved hbytes hrank hplace).mpr rfl⟩
    · rintro ⟨_, ⟨hrank, bytes, data, hbytes, hplace, rfl⟩, hcast⟩
      exact ⟨hrank, bytes, data, hbytes, hplace, (convert_refit_moved hbytes hrank hplace).mp hcast⟩

theorem convert_eq_ok_iff_cast_first (hp : t.elementType = p.elementType)
    (hroom : volume t.shape * target.width < 2 ^ 64) (halike : SwapFitsAlike t.shape p target) :
    (t.convert group target).result = .ok t' ↔
      ∃ u, (t.convert none target).result = .ok u ∧ (u.convert group target).result = .ok t' := by
  by_cases hsame : p = target
  · -- nothing is cast, and the first pass gives back the tensor
    have hfirst : ∀ u, (t.convert none target).result = .ok u ↔ u = t := by
      intro u
      rw [convert_eq_ok_iff_of_float hp]
      simp [hsame, swapsAxes_none]
    simp [hfirst]
  · have hfirst : ∀ u, (t.convert none target).result = .ok u ↔
        ∃ bytes, t.exactBytes p.width = .ok bytes ∧ u = t.refit false p target bytes := by
      intro u
      rw [convert_eq_ok_iff_of_float hp]
      simp [hsame, swapsAxes_none, place?]
    rw [convert_eq_ok_iff_of_float hp]
    simp only [hfirst, hsame, and_false, false_and, false_or, ne_eq, not_false_iff, or_true,
      true_and]
    constructor
    · rintro ⟨hrank, bytes, data, hbytes, hplace, rfl⟩
      exact ⟨_, ⟨bytes, hbytes, rfl⟩,
        (convert_refit_cast hbytes hroom halike).mpr ⟨hrank, data, hplace, rfl⟩⟩
    · rintro ⟨_, ⟨bytes, hbytes, rfl⟩, hmove⟩
      obtain ⟨hrank, data, hplace, rfl⟩ := (convert_refit_cast hbytes hroom halike).mp hmove
      exact ⟨hrank, bytes, data, hbytes, hplace, rfl⟩

end Tensor

/-- **When moving and casting commute**, on buffers and in a conversion.  They do wherever
    there is a result both ways or neither way.  An initializer of floats that is moved and
    cast may be moved first, for its own precision, and cast without a group count; it may
    be cast first if its blocks can be addressed in both precisions or in neither. -/
theorem castFloats_swapLeadingAxes_commute (source target : Precision) :
    (∀ (d0 d1 : UInt64) (rest : List UInt64) (bytes : Bytes),
      bytes.length = volume (d0 :: d1 :: rest) * source.width →
      ((swapLeadingAxes? bytes (d0 :: d1 :: rest) source.width).map (castFloats · source target) =
          swapLeadingAxes? (castFloats bytes source target) (d0 :: d1 :: rest) target.width ↔
        (SwapFits d0 d1 rest source.width ↔ SwapFits d0 d1 rest target.width)) ∧
      (SwapFits d0 d1 rest source.width → SwapFits d0 d1 rest target.width →
        ∃ moved, swapLeadingAxes? bytes (d0 :: d1 :: rest) source.width = some moved ∧
          swapLeadingAxes? (castFloats bytes source target) (d0 :: d1 :: rest) target.width =
            some (castFloats moved source target))) ∧
    ∀ (t t' : Tensor) (group : Option Int64), t.elementType = source.elementType →
      ((t.convert group target).result = .ok t' ↔
        ∃ u, (t.convert group source).result = .ok u ∧ (u.convert none target).result = .ok t') ∧
      (volume t.shape * target.width < 2 ^ 64 → SwapFitsAlike t.shape source target →
        ((t.convert group target).result = .ok t' ↔
          ∃ u, (t.convert none target).result = .ok u ∧
            (u.convert group target).result = .ok t')) := by
  refine ⟨?_, ?_⟩
  · intro d0 d1 rest bytes hlen
    exact ⟨map_castFloats_swapLeadingAxes?_iff hlen, castFloats_swapLeadingAxes_of_fits hlen⟩
  · intro t t' group hp
    exact ⟨Tensor.convert_eq_ok_iff_moved_first hp, Tensor.convert_eq_ok_iff_cast_first hp⟩

def oblongHalves : Bytes := [0, 60, 0, 64, 0, 66, 0, 68, 0, 69, 0, 70]

def Tensor.oblong : Tensor := ⟨"w", [2, 3, 1, 1], .float16, .raw oblongHalves⟩

theorem castFloats_swapLeadingAxes_commute_oblong :
    (∃ moved, swapLeadingAxes? oblongHalves [2, 3, 1, 1] 2 = some moved ∧
      swapLeadingAxes? (castFloats oblongHalves .half .single) [2, 3, 1, 1] 4 =
        some (castFloats moved .half .single)) ∧
    ∃ t' u v : Tensor, (Tensor.oblong.convert (some 2) .single).result = .ok t' ∧
      t'.payload = .raw [0, 0, 128, 63, 0, 0, 128, 64, 0, 0, 0, 64, 0, 0, 160, 64, 0, 0, 64, 64,
        0, 0, 192, 64] ∧
      ((Tensor.oblong.convert (some 2) .half).result = .ok u ∧
        (u.convert none .single).result = .ok t') ∧
      ((Tensor.oblong.convert none .single).result = .ok v ∧
        (v.convert (some 2) .single).result = .ok t') := by
  obtain ⟨hbuffer, htensor⟩ := castFloats_swapLeadingAxes_commute .half .single
  -- the products are in range, as there are results
  have hhalf : SwapFits 2 3 [1, 1] 2 := (swapLeadingAxes?_eq_some_iff.mp
    (rfl : swapLeadingAxes? oblongHalves [2, 3, 1, 1] 2 = some _)).1
  have hsingle : SwapFits 2 3 [1, 1] 4 := (swapLeadingAxes?_eq_some_iff.mp
    (rfl : swapLeadingAxes? (castFloats oblongHalves .half .single) [2, 3, 1, 1] 4 = some _)).1
  refine ⟨(hbuffer 2 3 [1, 1] oblongHalves rfl).2 hhalf hsingle, ?_⟩
  obtain ⟨hmoved, hcast⟩ := htensor Tensor.oblong _ (some 2) rfl
  obtain ⟨u, hu⟩ := hmoved.mp rfl
  have halike : SwapFitsAlike Tensor.oblong.shape .half .single := by
    rintro _ _ _ ⟨⟩
    exact iff_of_true hhalf hsingle
  obtain ⟨v, hv⟩ := (hcast (by decide) halike).mp rfl
  exact ⟨_, u, v, rfl, rfl, hu, hv⟩

/-- A weight without columns whose blocks can be addressed in halves only. -/
def Tensor.flat : Tensor := ⟨"w", [2, 0, 0x100000000, 0x40000000], .float32, .raw []⟩

/-- There is nothing to move and nothing to cast, and one order stops on its way. -/
theorem castFloats_swapLeadingAxes_flat :
    ([] : Bytes).length = volume Tensor.flat.shape * Precision.single.width ∧
    swapLeadingAxes? [] Tensor.flat.shape 4 = none ∧
    swapLeadingAxes? (castFloats [] .single .half) Tensor.flat.shape 2 = some [] ∧
    (Tensor.flat.convert (some 2) .half).result = .error .overflow ∧
    ∃ u, (Tensor.flat.convert none .half).result = .ok u ∧
      (u.convert (some 2) .half).result =
        .ok ⟨"w", [0, 2, 0x100000000, 0x40000000], .float16, .raw []⟩ := by
  refine ⟨by decide, by decide, by decide, rfl, _, rfl, rfl⟩

end Mpsx

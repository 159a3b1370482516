/-
  Mpsx/Proofs/Binary/Widen.lean
  =============================
  **Half precision survives widening.**  A widened half is the same number, which is a
  matter of `widen` alone: a subnormal half moves its leading one to the place of the
  implicit one and the exponent makes up for it.  That it comes back is then a matter of
  rounding alone.  No half is nearer to a number than the half that is this number, so
  the narrowed one has the same value and sign, and these fix the pattern.

  Infinities come back as they are.  A NaN becomes quiet, which sets the first bit of its
  fraction, and a half that has been narrowed from a single is quiet already.
-/

import Mpsx.Proofs.Binary.Narrow
import Mpsx.Proofs.Convert.Elements

namespace Mpsx

namespace Half

/-! ### Fields of widened patterns -/

theorem fraction_lt (half : Nat) : Format.binary16.fraction half < 1024 :=
  Nat.mod_lt _ (by decide)

theorem biased_lt (half : Nat) : Format.binary16.biased half < 32 :=
  Nat.mod_lt _ (by decide)

/-- The fields of a renormalised fraction: nothing is lost on the way. -/
theorem normalise_fields {fraction : Nat} (hpos : fraction ≠ 0) (hlt : fraction < 1024) :
    fraction.log2 < 10 ∧ normalise fraction / 0x800000 = 103 + fraction.log2 ∧
      0x800000 + normalise fraction % 0x800000 = fraction * 2 ^ (23 - fraction.log2) := by
  have hplace : fraction.log2 < 10 := (Nat.log2_lt hpos).mpr hlt
  have hsum : fraction.log2 + (23 - fraction.log2) = 23 := by omega
  have hlow : 2 ^ 23 ≤ fraction * 2 ^ (23 - fraction.log2) :=
    calc 2 ^ 23 = 2 ^ fraction.log2 * 2 ^ (23 - fraction.log2) := by rw [← Nat.pow_add, hsum]
      _ ≤ fraction * 2 ^ (23 - fraction.log2) :=
        Nat.mul_le_mul_right _ (Nat.log2_self_le hpos)
  have hhigh : fraction * 2 ^ (23 - fraction.log2) < 2 ^ 24 :=
    calc fraction * 2 ^ (23 - fraction.log2)
        < 2 ^ (fraction.log2 + 1) * 2 ^ (23 - fraction.log2) :=
        Nat.mul_lt_mul_of_pos_right Nat.lt_log2_self (Nat.two_pow_pos _)
      _ = 2 ^ 24 := by rw [← Nat.pow_add, Nat.add_right_comm, hsum]
  have hnormalise : normalise fraction = (103 + fraction.log2) * 0x800000 +
      (fraction * 2 ^ (23 - fraction.log2) - 0x800000) := rfl
  refine ⟨hplace, ?_, ?_⟩
  · omega
  · omega

theorem quieted_shift_lt {fraction : Nat} (h : fraction < 1024) :
    fraction * 0x2000 ||| 0x400000 < 0x800000 :=
  Nat.or_lt_two_pow (n := 23) (by omega) (by decide)

/-- Finite halves stay below the single infinity. -/
theorem spread_lt_of_ne {half : Nat} (h : Format.binary16.biased half ≠ 31) :
    spread half < 0x7F800000 := by
  have hfraction := fraction_lt half
  have hbiased := biased_lt half
  rw [spread, if_neg h]
  split
  · split
    · decide
    · next hpos =>
      have hfields := normalise_fields hpos hfraction
      omega
  · omega

theorem spread_lt (half : Nat) : spread half < 0x80000000 := by
  by_cases hspecial : Format.binary16.biased half = 31
  · have hquieted := quieted_shift_lt (fraction_lt half)
    rw [spread, if_pos hspecial]
    split
    · decide
    · omega
  · exact (spread_lt_of_ne hspecial).trans (by decide)

theorem toNat_widen (half : UInt16) :
    (widen half).toNat =
      (if Format.binary16.negative half.toNat then 0x80000000 else 0) + spread half.toNat := by
  have hspread := spread_lt half.toNat
  rw [widen, UInt32.toNat_ofNat', Nat.mod_eq_of_lt]
  split <;> omega

theorem negative_widen (half : UInt16) :
    Format.binary32.negative (widen half).toNat = Format.binary16.negative half.toNat := by
  have hspread := spread_lt half.toNat
  rw [toNat_widen]
  show decide (_ / 2147483648 % 2 = 1) = _
  cases Format.binary16.negative half.toNat with
  | false => exact decide_eq_false (by simp only [Bool.false_eq_true, if_false]; omega)
  | true => exact decide_eq_true (by simp only [if_true]; omega)

theorem biased_widen (half : UInt16) :
    Format.binary32.biased (widen half).toNat = spread half.toNat / 0x800000 := by
  have hspread := spread_lt half.toNat
  rw [toNat_widen]
  show _ / 0x800000 % 256 = _
  split <;> omega

theorem fraction_widen (half : UInt16) :
    Format.binary32.fraction (widen half).toNat = spread half.toNat % 0x800000 := by
  rw [toNat_widen]
  show _ % 0x800000 = _
  split <;> omega

/-! ### Widening is exact -/

/-- Ticks of halves are worth `2 ^ 125` ticks of singles. -/
theorem ticks_widen {half : UInt16} (h : Format.binary16.isFinite half.toNat = true) :
    Format.binary32.ticks (widen half).toNat = Format.binary16.ticks half.toNat * 2 ^ 125 := by
  have hfinite : Format.binary16.biased half.toNat ≠ 31 := of_decide_eq_true h
  have hfraction := fraction_lt half.toNat
  have hbiased := biased_lt half.toNat
  rw [Format.ticks, Format.ticks, Format.significand, Format.significand, biased_widen,
    fraction_widen, spread, if_neg hfinite]
  generalize Format.binary16.biased half.toNat = biased at *
  generalize Format.binary16.fraction half.toNat = fraction at *
  by_cases hsubnormal : biased = 0
  · rw [if_pos hsubnormal, if_pos hsubnormal, hsubnormal]
    by_cases hzero : fraction = 0
    · simp [hzero]
    · -- the place of the leading one cancels
      obtain ⟨hplace, hquotient, hremainder⟩ := normalise_fields hzero hfraction
      have hplaces : 23 - fraction.log2 + (103 + fraction.log2 - 1) = 125 := by omega
      rw [if_neg hzero, hquotient, if_neg (by omega)]
      show (0x800000 + _) * _ = _
      rw [hremainder, Nat.mul_assoc, ← Nat.pow_add, hplaces, Nat.zero_sub, Nat.pow_zero,
        Nat.mul_one]
  · rw [if_neg hsubnormal, if_neg hsubnormal]
    have hquotient : ((biased + 112) * 0x800000 + fraction * 0x2000) / 0x800000 = biased + 112 := by
      omega
    have hremainder :
        ((biased + 112) * 0x800000 + fraction * 0x2000) % 0x800000 = fraction * 0x2000 := by
      omega
    have hplaces : 2 ^ 13 * 2 ^ (biased + 112 - 1) = 2 ^ (biased - 1) * 2 ^ 125 := by
      rw [← Nat.pow_add, ← Nat.pow_add]
      congr 1
      omega
    rw [hquotient, hremainder, if_neg (by omega)]
    show (0x800000 + fraction * 0x2000) * _ = (1024 + fraction) * _ * _
    rw [show 0x800000 + fraction * 0x2000 = (1024 + fraction) * 2 ^ 13 by omega, Nat.mul_assoc,
      hplaces, Nat.mul_assoc]

theorem value_widen {half : UInt16} (h : Format.binary16.isFinite half.toNat = true) :
    Format.binary32.value (widen half).toNat = Format.binary16.value half.toNat := by
  rw [value_binary32, value_binary16, negative_widen, ticks_widen h, ticks_binary16]

theorem isFinite_widen {half : UInt16} (h : Format.binary16.isFinite half.toNat = true) :
    Format.binary32.isFinite (widen half).toNat = true := by
  have hspread := spread_lt_of_ne (of_decide_eq_true h)
  apply decide_eq_true
  rw [biased_widen]
  show spread half.toNat / 0x800000 ≠ 255
  omega

/-- The largest half is below where rounding gives up. -/
theorem abs_value_widen_lt {half : UInt16} (h : Format.binary16.isFinite half.toNat = true) :
    |Format.binary32.value (widen half).toNat| < 65520 := by
  apply (abs_value_lt_iff (widen half).toNat 65520).mpr
  rw [ticks_widen h, ticks_binary16]
  have hle : scaled (unsigned half.toNat) ≤ scaled 0x7BFF :=
    scaled_strictMono.monotone (Nat.le_of_lt_succ ((isFinite_binary16 half.toNat).mp h))
  have hlargest : scaled 0x7BFF = 65504 * 2 ^ 24 := by decide
  omega

/-! ### Narrowing brings back what was widened -/

theorem eq_of_unsigned_eq {a b : UInt16}
    (hsign : Format.binary16.negative a.toNat = Format.binary16.negative b.toNat)
    (hrest : unsigned a.toNat = unsigned b.toNat) : a = b := by
  have ha := a.toNat_lt
  have hb := b.toNat_lt
  have hsign' : a.toNat / 32768 % 2 = 1 ↔ b.toNat / 32768 % 2 = 1 := decide_eq_decide.mp hsign
  unfold unsigned at hrest
  apply UInt16.toNat_inj.mp
  omega

theorem eq_of_value_eq {a b : UInt16}
    (hsign : Format.binary16.negative a.toNat = Format.binary16.negative b.toNat)
    (hvalue : Format.binary16.value a.toNat = Format.binary16.value b.toNat) : a = b := by
  have hunit : (2 : ℚ) ^ (-149 : ℤ) ≠ 0 := by positivity
  rw [value_binary16, value_binary16, hsign] at hvalue
  have hsigned := congrArg abs (mul_right_cancel₀ hunit hvalue)
  rw [abs_signed, abs_signed, Nat.cast_inj] at hsigned
  have hscaled := Nat.eq_of_mul_eq_mul_right (Nat.two_pow_pos 125) hsigned
  exact eq_of_unsigned_eq hsign (scaled_strictMono.injective hscaled)

theorem negative_narrow_widen (half : UInt16) :
    Format.binary16.negative (narrow (widen half)).toNat = Format.binary16.negative half.toNat :=
  (rounds_narrow (widen half)).sign.trans (negative_widen half)

theorem narrow_widen_of_isFinite {half : UInt16}
    (h : Format.binary16.isFinite half.toNat = true) : narrow (widen half) = half := by
  have hnearest := (rounds_narrow (widen half)).nearest (isFinite_widen h) (abs_value_widen_lt h)
  apply eq_of_value_eq (negative_narrow_widen half)
  -- the half itself is at no distance, and nothing is nearer than the narrowed one
  have hdistance := hnearest.near half h
  rw [value_widen h, sub_self, abs_zero] at hdistance
  exact sub_eq_zero.mp (abs_nonpos_iff.mp hdistance)

theorem narrow_widen_of_isInfinite {half : UInt16}
    (h : Format.binary16.isInfinite half.toNat = true) : narrow (widen half) = half := by
  obtain ⟨hbiased, hfraction⟩ : Format.binary16.biased half.toNat = 31 ∧
      Format.binary16.fraction half.toNat = 0 := of_decide_eq_true h
  have hspread : spread half.toNat = 0x7F800000 := by
    rw [spread, if_pos hbiased, if_pos hfraction]
  have hinfinite : Format.binary32.isInfinite (widen half).toNat = true := by
    apply decide_eq_true
    rw [biased_widen, fraction_widen, hspread]
    decide
  apply eq_of_unsigned_eq (negative_narrow_widen half)
  rw [(isInfinite_binary16 _).mp ((rounds_narrow (widen half)).infinite hinfinite),
    (isInfinite_binary16 _).mp h]

def quiet (half : Nat) : Nat := if Format.binary16.isNaN half then half ||| 0x200 else half

theorem fraction_widen_of_isNaN {half : UInt16}
    (h : Format.binary16.isNaN half.toNat = true) :
    Format.binary32.isNaN (widen half).toNat = true ∧
      Format.binary32.fraction (widen half).toNat =
        Format.binary16.fraction half.toNat * 0x2000 ||| 0x400000 := by
  obtain ⟨hbiased, hfraction⟩ : Format.binary16.biased half.toNat = 31 ∧
      Format.binary16.fraction half.toNat ≠ 0 := of_decide_eq_true h
  have hquieted := quieted_shift_lt (fraction_lt half.toNat)
  have hset : 0x400000 ≤ Format.binary16.fraction half.toNat * 0x2000 ||| 0x400000 :=
    Nat.right_le_or
  have hspread : spread half.toNat =
      0x7F800000 + (Format.binary16.fraction half.toNat * 0x2000 ||| 0x400000) := by
    rw [spread, if_pos hbiased, if_neg hfraction]
  have hwidened : Format.binary32.fraction (widen half).toNat =
      Format.binary16.fraction half.toNat * 0x2000 ||| 0x400000 := by
    rw [fraction_widen, hspread]
    omega
  refine ⟨decide_eq_true ⟨?_, ?_⟩, hwidened⟩
  · rw [biased_widen, hspread]
    show _ = 255
    omega
  · omega

/-- A pattern that differs from another in the first bit of the fraction alone, where it
    has this bit set. -/
theorem eq_or_of_fields {a b : Nat} (hhigh : a / 2 ^ 10 = b / 2 ^ 10)
    (hfraction : Format.binary16.fraction a = Format.binary16.fraction b ||| 2 ^ 9) :
    a = b ||| 2 ^ 9 := by
  have hlow : a % 2 ^ 10 = (b ||| 2 ^ 9) % 2 ^ 10 := by
    rw [Nat.or_mod_two_pow]
    exact hfraction
  have hhigh' : a / 2 ^ 10 = (b ||| 2 ^ 9) / 2 ^ 10 := by
    rw [Nat.or_div_two_pow, hhigh]
    exact (Nat.or_zero _).symm
  rw [← Nat.div_add_mod a (2 ^ 10), hhigh', hlow, Nat.div_add_mod]

theorem narrow_widen_of_isNaN {half : UInt16}
    (h : Format.binary16.isNaN half.toNat = true) :
    (narrow (widen half)).toNat = half.toNat ||| 2 ^ 9 := by
  obtain ⟨hnan, hfraction⟩ := fraction_widen_of_isNaN h
  obtain ⟨hback, hbits⟩ := (rounds_narrow (widen half)).quiet hnan
  apply eq_or_of_fields
  · -- both exponents are the largest one, so only the sign could differ
    have hsign : (narrow (widen half)).toNat / 32768 % 2 = 1 ↔ half.toNat / 32768 % 2 = 1 :=
      decide_eq_decide.mp (negative_narrow_widen half)
    have hlt := (narrow (widen half)).toNat_lt
    have hlt' := half.toNat_lt
    rw [isNaN_binary16, unsigned] at h hback
    omega
  · rw [hbits, hfraction]
    show (_ * 2 ^ 13 ||| 2 ^ 22) / 2 ^ 13 ||| 2 ^ 9 = _
    rw [Nat.or_div_two_pow, Nat.mul_div_cancel _ (Nat.two_pow_pos 13), Nat.or_assoc]
    rfl

/-- **Widening a half and narrowing it again** changes nothing but the quiet bit. -/
theorem toNat_narrow_widen (half : UInt16) :
    (narrow (widen half)).toNat = quiet half.toNat := by
  unfold quiet
  split
  · next hnan => exact narrow_widen_of_isNaN hnan
  · next hnan =>
    rw [isNaN_binary16] at hnan
    rcases Nat.lt_or_eq_of_le (Nat.le_of_not_lt hnan) with hfinite | hinfinite
    · rw [narrow_widen_of_isFinite ((isFinite_binary16 _).mpr hfinite)]
    · rw [narrow_widen_of_isInfinite ((isInfinite_binary16 _).mpr hinfinite)]

theorem isNaN_of_isNaN_narrow {single : UInt32}
    (h : Format.binary16.isNaN (narrow single).toNat = true) :
    Format.binary32.isNaN single.toNat = true := by
  have hrounds := rounds_narrow single
  rw [isNaN_binary16] at h
  by_cases hbiased : Format.binary32.biased single.toNat = 255
  · by_cases hfraction : Format.binary32.fraction single.toNat = 0
    · have hinfinite := hrounds.infinite (decide_eq_true ⟨hbiased, hfraction⟩)
      rw [isInfinite_binary16] at hinfinite
      omega
    · exact decide_eq_true ⟨hbiased, hfraction⟩
  · have hfinite : Format.binary32.isFinite single.toNat = true := decide_eq_true hbiased
    rcases lt_or_ge |Format.binary32.value single.toNat| 65520 with hlt | hge
    · have hnearest := (hrounds.nearest hfinite hlt).finite
      rw [isFinite_binary16] at hnearest
      omega
    · have hoverflow := hrounds.overflow hfinite hge
      rw [isInfinite_binary16] at hoverflow
      omega

theorem quiet_narrow (single : UInt32) : quiet (narrow single).toNat = (narrow single).toNat := by
  unfold quiet
  split
  · next hnan =>
    obtain ⟨-, hbits⟩ := (rounds_narrow single).quiet (isNaN_of_isNaN_narrow hnan)
    refine (eq_or_of_fields rfl ?_).symm
    rw [hbits, Nat.or_assoc, Nat.or_self]
  · rfl

end Half

/-! ### Buffers -/

/-- Element `k` of a buffer of halves that is widened and narrowed again. -/
theorem toNat_block_narrowed {bytes : Bytes} {k : Nat} (hk : k < bytes.length / 2) :
    ((castFloats (castFloats bytes .half .single) .single .half).block 2 k).toNat =
      Half.quiet (bytes.block 2 k).toNat := by
  have hfit : (k + 1) * Precision.half.width ≤ bytes.length := by
    show (k + 1) * 2 ≤ bytes.length
    omega
  have hfit' : (k + 1) * Precision.single.width ≤ (castFloats bytes .half .single).length := by
    rw [length_castFloats_of_ne (by decide)]
    exact Nat.mul_le_mul_right _ hk
  have hword : (bytes.block 2 k).toNat < 2 ^ 16 := by
    rw [Bytes.toNat_block]
    exact Nat.mod_lt _ (by decide)
  have hwiden : ((castFloats bytes .half .single).block 4 k).toNat =
      (Half.widen (UInt16.ofNat (bytes.block 2 k).toNat)).toNat := block_castFloats hfit
  have hnarrow : ((castFloats (castFloats bytes .half .single) .single .half).block 2 k).toNat =
      (Half.narrow (UInt32.ofNat ((castFloats bytes .half .single).block 4 k).toNat)).toNat :=
    block_castFloats hfit'
  rw [hnarrow, hwiden, UInt32.ofNat_toNat, Half.toNat_narrow_widen,
    UInt16.toNat_ofNat_of_lt' hword]

theorem length_castFloats_widened (bytes : Bytes) :
    (castFloats (castFloats bytes .half .single) .single .half).length = bytes.length / 2 * 2 := by
  rw [length_castFloats_of_ne (by decide), length_castFloats_of_ne (by decide)]
  show bytes.length / 2 * 4 / 4 * 2 = _
  omega

theorem quiet_block_castFloats {bytes : Bytes} {k : Nat} (hk : k < bytes.length / 4) :
    Half.quiet ((castFloats bytes .single .half).block 2 k).toNat =
      ((castFloats bytes .single .half).block 2 k).toNat := by
  have hfit : (k + 1) * Precision.single.width ≤ bytes.length := by
    show (k + 1) * 4 ≤ bytes.length
    omega
  have hnarrow : ((castFloats bytes .single .half).block 2 k).toNat =
      (Half.narrow (UInt32.ofNat (bytes.block 4 k).toNat)).toNat := block_castFloats hfit
  rw [hnarrow, Half.quiet_narrow]

/-- **Half precision survives widening.**  Halves that are widened and narrowed again are
    the same, apart from an odd byte at the end and from the quiet bit of NaNs, and what
    has been narrowed once stays the same to the byte. -/
theorem castFloats_widened_narrowed (bytes : Bytes) :
    ((castFloats (castFloats bytes .half .single) .single .half).length = bytes.length / 2 * 2 ∧
      ∀ k < bytes.length / 2,
        ((castFloats (castFloats bytes .half .single) .single .half).block 2 k).toNat =
          if Format.binary16.isNaN (bytes.block 2 k).toNat then (bytes.block 2 k).toNat ||| 0x200
          else (bytes.block 2 k).toNat) ∧
    castFloats (castFloats (castFloats bytes .single .half) .half .single) .single .half =
      castFloats bytes .single .half := by
  refine ⟨⟨length_castFloats_widened bytes, fun k hk => toNat_block_narrowed hk⟩, ?_⟩
  have hlength : (castFloats bytes .single .half).length = bytes.length / 4 * 2 :=
    length_castFloats_of_ne (by decide) bytes
  have hcount : (castFloats bytes .single .half).length / 2 = bytes.length / 4 := by omega
  apply Bytes.eq_of_elements _ hlength
  · intro k hk
    rw [toNat_block_narrowed (by omega), quiet_block_castFloats hk]
  · rw [length_castFloats_widened, hcount]

/-- The smallest subnormal, a negative signalling NaN, an infinity and half an element. -/
def edgeHalves : Bytes := [0x01, 0x00, 0x01, 0xFC, 0x00, 0x7C, 0x55]

theorem castFloats_widened_narrowed_edgeHalves :
    castFloats (castFloats edgeHalves .half .single) .single .half =
        [0x01, 0x00, 0x01, 0xFE, 0x00, 0x7C] ∧
      ∀ k < 3, ((castFloats (castFloats edgeHalves .half .single) .single .half).block 2 k).toNat =
        if Format.binary16.isNaN (edgeHalves.block 2 k).toNat then
          (edgeHalves.block 2 k).toNat ||| 0x200
        else (edgeHalves.block 2 k).toNat := by
  obtain ⟨⟨-, helements⟩, -⟩ := castFloats_widened_narrowed edgeHalves
  exact ⟨rfl, helements⟩

end Mpsx

/-
  Mpsx/Proofs/Binary/Narrow.lean
  ==============================
  **Casting to half precision rounds correctly.**  `Format.value` is the exact rational
  value of a finite pattern.  `Half.IsNearest` says what it means to be the nearest half
  of a number, with ties decided for the even fraction, and `Half.Rounds` what becomes of
  any single: a half of the same sign, which is the nearest one as long as the single is
  closer to a half than to the next grid point behind the largest, and else an infinity
  or a quiet NaN.

  Signs are what is left to do here.  A half of the other sign is at least as far away as
  its opposite, and equally far only where both zeros are concerned.
-/

import Mathlib.Algebra.Order.Field.Power
import Mathlib.Algebra.Order.Field.Rat
import Mathlib.Tactic.Positivity
import Mathlib.Tactic.Ring
import Mpsx.Proofs.Binary.Rounding
import Mpsx.Proofs.Convert.Blocks

namespace Mpsx

/-! ### Exact values -/

namespace Format

variable (f : Format)

/-- The number that a finite pattern stands for. -/
def value (bits : Nat) : ℚ :=
  (if f.negative bits then -1 else 1) * (f.significand bits * 2 ^ f.exponent bits)

/-- The same without its sign, as a multiple of the smallest positive value. -/
def ticks (bits : Nat) : Nat := f.significand bits * 2 ^ (f.biased bits - 1)

def isInfinite (bits : Nat) : Bool := f.biased bits = f.special ∧ f.fraction bits = 0

end Format

def signed (negative : Bool) (ticks : Nat) : ℚ := if negative then -ticks else ticks

theorem Format.value_eq (f : Format) (bits : Nat) :
    f.value bits = signed (f.negative bits) (f.ticks bits) *
      2 ^ (1 - (f.bias : ℤ) - (f.fractionWidth : ℤ)) := by
  have hexponent : f.exponent bits =
      ((f.biased bits - 1 : Nat) : ℤ) + (1 - (f.bias : ℤ) - (f.fractionWidth : ℤ)) := by
    unfold exponent
    omega
  rw [value, hexponent, zpow_add₀ (by norm_num), zpow_natCast, signed, ticks]
  split
  · push_cast
    ring
  · push_cast
    ring

def gap (s : Bool) (a : Nat) (t : Bool) (b : Nat) : Nat := if s = t then Nat.dist a b else a + b

theorem abs_signed (s : Bool) (a : Nat) : |signed s a| = a := by
  cases s with
  | false => exact abs_of_nonneg (Nat.cast_nonneg a)
  | true => exact (abs_neg _).trans (abs_of_nonneg (Nat.cast_nonneg a))

theorem abs_cast_sub_cast (a b : Nat) : |(a : ℚ) - b| = Nat.dist a b := by
  rcases Nat.le_total a b with h | h
  · rw [Nat.dist_eq_sub_of_le h, Nat.cast_sub h, abs_sub_comm]
    exact abs_of_nonneg (sub_nonneg.mpr (Nat.cast_le.mpr h))
  · rw [Nat.dist_eq_sub_of_le_right h, Nat.cast_sub h]
    exact abs_of_nonneg (sub_nonneg.mpr (Nat.cast_le.mpr h))

theorem abs_signed_sub (s t : Bool) (a b : Nat) : |signed s a - signed t b| = gap s a t b := by
  have hsum : |(a : ℚ) + b| = a + b := abs_of_nonneg (by positivity)
  cases s with
  | false =>
    cases t with
    | false => exact abs_cast_sub_cast a b
    | true =>
      simp only [signed, gap, Bool.false_eq_true, if_false, if_true, sub_neg_eq_add, hsum]
      push_cast
      rfl
  | true =>
    cases t with
    | false =>
      simp only [signed, gap, Bool.false_eq_true, Bool.true_eq_false, if_false, if_true]
      rw [← neg_add', abs_neg, hsum]
      push_cast
      rfl
    | true =>
      simp only [signed, gap, if_true]
      rw [neg_sub_neg, abs_sub_comm]
      exact abs_cast_sub_cast a b

/-! ### Fields of patterns -/

namespace Half

def unsigned (bits : Nat) : Nat := bits % 0x8000

theorem isFinite_binary16 (bits : Nat) :
    Format.binary16.isFinite bits = true ↔ unsigned bits < 0x7C00 := by
  show decide (bits / 1024 % 32 ≠ 31) = true ↔ bits % 32768 < 31744
  rw [decide_eq_true_iff]
  omega

theorem isInfinite_binary16 (bits : Nat) :
    Format.binary16.isInfinite bits = true ↔ unsigned bits = 0x7C00 := by
  show decide (bits / 1024 % 32 = 31 ∧ bits % 1024 = 0) = true ↔ bits % 32768 = 31744
  rw [decide_eq_true_iff]
  omega

theorem isNaN_binary16 (bits : Nat) :
    Format.binary16.isNaN bits = true ↔ 0x7C00 < unsigned bits := by
  show decide (bits / 1024 % 32 = 31 ∧ bits % 1024 ≠ 0) = true ↔ 31744 < bits % 32768
  rw [decide_eq_true_iff]
  omega

theorem fraction_binary16 (bits : Nat) :
    Format.binary16.fraction bits = unsigned bits % 1024 := by
  show bits % 1024 = bits % 32768 % 1024
  omega

theorem ticks_binary16 (bits : Nat) : Format.binary16.ticks bits = scaled (unsigned bits) := by
  have hbiased : Format.binary16.biased bits = unsigned bits / 1024 := by
    show bits / 1024 % 32 = bits % 32768 / 1024
    omega
  rw [Format.ticks, Format.significand, hbiased, fraction_binary16]
  rfl

theorem isSingle (bits : Nat) :
    IsSingle (Format.binary32.significand bits) (Format.binary32.biased bits) := by
  have hfraction : Format.binary32.fraction bits < 2 ^ 23 := Nat.mod_lt _ (by decide)
  unfold Format.significand
  constructor
  · split
    · omega
    · show 2 ^ 23 + Format.binary32.fraction bits < 2 ^ 24
      omega
  · intro hpos
    rw [if_neg (by omega)]
    exact Nat.le_add_right ..

theorem value_binary32 (bits : Nat) : Format.binary32.value bits =
    signed (Format.binary32.negative bits) (Format.binary32.ticks bits) * 2 ^ (-149 : ℤ) :=
  Format.value_eq .binary32 bits

theorem value_binary16 (bits : Nat) : Format.binary16.value bits =
    signed (Format.binary16.negative bits) (scaled (unsigned bits) * 2 ^ 125) *
      2 ^ (-149 : ℤ) := by
  have hunit : (2 : ℚ) ^ (-24 : ℤ) = 2 ^ 125 * 2 ^ (-149 : ℤ) := by
    rw [← zpow_natCast, ← zpow_add₀ (by norm_num)]
    rfl
  have hvalue : Format.binary16.value bits =
      signed (Format.binary16.negative bits) (Format.binary16.ticks bits) * 2 ^ (-24 : ℤ) :=
    Format.value_eq .binary16 bits
  rw [hvalue, ticks_binary16, hunit, signed, signed]
  split
  · push_cast
    ring
  · push_cast
    ring

/-- Distances of halves from a single, in ticks of singles. -/
theorem abs_value_sub (half single : Nat) :
    |Format.binary16.value half - Format.binary32.value single| =
      gap (Format.binary16.negative half) (scaled (unsigned half) * 2 ^ 125)
        (Format.binary32.negative single) (Format.binary32.ticks single) * 2 ^ (-149 : ℤ) := by
  have hunit : (0 : ℚ) < 2 ^ (-149 : ℤ) := by positivity
  rw [value_binary16, value_binary32, ← sub_mul, abs_mul, abs_signed_sub, abs_of_pos hunit]

theorem abs_value_lt_iff (single bound : Nat) :
    |Format.binary32.value single| < bound ↔
      Format.binary32.ticks single < bound * 2 ^ 149 := by
  have hunit : (0 : ℚ) < 2 ^ (-149 : ℤ) := by positivity
  have hinverse : (2 : ℚ) ^ 149 * 2 ^ (-149 : ℤ) = 1 := by
    rw [← zpow_natCast, ← zpow_add₀ (by norm_num)]
    rfl
  have hbound : (bound : ℚ) = ((bound * 2 ^ 149 : Nat) : ℚ) * 2 ^ (-149 : ℤ) := by
    rw [Nat.cast_mul, Nat.cast_pow, Nat.cast_ofNat, mul_assoc, hinverse, mul_one]
  rw [value_binary32, abs_mul, abs_signed, abs_of_pos hunit, hbound,
    mul_lt_mul_iff_of_pos_right hunit, Nat.cast_lt]

/-! ### Signs -/

/-- Among halves of both signs none is nearer than the rounded one with the sign of the
    single, and what is equally near is the same number or has an odd pattern where the
    rounded one is even. -/
theorem gap_magnitude {significand biased : Nat} (h : IsSingle significand biased)
    (hfinite : magnitude significand biased < 0x7C00) (s t : Bool) (n : Nat) :
    gap s (scaled (magnitude significand biased) * 2 ^ 125) s (significand * 2 ^ (biased - 1)) ≤
        gap t (scaled n * 2 ^ 125) s (significand * 2 ^ (biased - 1)) ∧
      (gap s (scaled (magnitude significand biased) * 2 ^ 125) s
          (significand * 2 ^ (biased - 1)) =
        gap t (scaled n * 2 ^ 125) s (significand * 2 ^ (biased - 1)) →
        signed t (scaled n * 2 ^ 125) =
            signed s (scaled (magnitude significand biased) * 2 ^ 125) ∨
          magnitude significand biased % 2 = 0 ∧ n % 2 = 1) := by
  obtain ⟨hle, htie⟩ := magnitude_nearest h hfinite n
  obtain ⟨hzero, -⟩ := magnitude_nearest h hfinite 0
  by_cases hsign : t = s
  · subst hsign
    rw [gap, if_pos rfl, gap, if_pos rfl]
    refine ⟨hle, ?_⟩
    intro hequal
    rcases htie hequal with rfl | hparity
    · exact .inl rfl
    · exact .inr hparity
  · rw [gap, if_pos rfl, gap, if_neg hsign]
    have hfar : Nat.dist (scaled n * 2 ^ 125) (significand * 2 ^ (biased - 1)) ≤
        scaled n * 2 ^ 125 + significand * 2 ^ (biased - 1) := by
      unfold Nat.dist
      omega
    refine ⟨hle.trans hfar, ?_⟩
    intro hequal
    rw [← hequal] at hfar
    rcases htie (le_antisymm hle hfar) with rfl | hparity
    · -- a half and its opposite, equally near: both are zero
      have hnone : scaled (magnitude significand biased) * 2 ^ 125 = 0 := by
        rw [show scaled 0 = 0 from rfl] at hzero
        unfold Nat.dist at hzero hequal
        omega
      rw [hnone]
      cases s <;> cases t <;> simp [signed]
    · exact .inr hparity

/-! ### Rounding -/

/-- The pattern is that of the half nearest to a number: no finite half is nearer, and of
    two that are equally near it is the one with an even fraction. -/
structure IsNearest (x : ℚ) (half : Nat) : Prop where
  finite : Format.binary16.isFinite half = true
  near : ∀ other : UInt16, Format.binary16.isFinite other.toNat = true →
    |Format.binary16.value half - x| ≤ |Format.binary16.value other.toNat - x|
  even : ∀ other : UInt16, Format.binary16.isFinite other.toNat = true →
    |Format.binary16.value half - x| = |Format.binary16.value other.toNat - x| →
    Format.binary16.value other.toNat = Format.binary16.value half ∨
      Format.binary16.fraction half % 2 = 0 ∧ Format.binary16.fraction other.toNat % 2 = 1

structure Rounds (single half : Nat) : Prop where
  sign : Format.binary16.negative half = Format.binary32.negative single
  nearest : Format.binary32.isFinite single = true → |Format.binary32.value single| < 65520 →
    IsNearest (Format.binary32.value single) half
  overflow : Format.binary32.isFinite single = true → 65520 ≤ |Format.binary32.value single| →
    Format.binary16.isInfinite half = true
  infinite : Format.binary32.isInfinite single = true → Format.binary16.isInfinite half = true
  /-- The leading bits of the fraction stay, and the first of them is set. -/
  quiet : Format.binary32.isNaN single = true → Format.binary16.isNaN half = true ∧
    Format.binary16.fraction half = Format.binary32.fraction single / 2 ^ 13 ||| 2 ^ 9

def body (single : Nat) : Nat :=
  if Format.binary32.biased single = 255 then
    if Format.binary32.fraction single = 0 then 0x7C00
    else 0x7C00 + (Format.binary32.fraction single / 0x2000 ||| 0x200)
  else magnitude (Format.binary32.significand single) (Format.binary32.biased single)

/-- The leading fraction bits with the first of them set. -/
theorem quieted_lt (single : Nat) :
    Format.binary32.fraction single / 0x2000 ||| 0x200 < 1024 := by
  have hfraction : Format.binary32.fraction single < 0x800000 := Nat.mod_lt _ (by decide)
  exact Nat.or_lt_two_pow (n := 10) (by omega) (by decide)

theorem body_lt (single : Nat) : body single < 0x8000 := by
  have hquieted := quieted_lt single
  unfold body
  split
  · split
    · decide
    · omega
  · rw [magnitude_eq]
    omega

theorem toNat_narrow (single : UInt32) :
    (narrow single).toNat =
      (if Format.binary32.negative single.toNat then 0x8000 else 0) + body single.toNat := by
  have hbody := body_lt single.toNat
  have hnarrow : narrow single = UInt16.ofNat
      ((if Format.binary32.negative single.toNat then 0x8000 else 0) + body single.toNat) := rfl
  rw [hnarrow, UInt16.toNat_ofNat', Nat.mod_eq_of_lt]
  split <;> omega

theorem unsigned_narrow (single : UInt32) :
    unsigned (narrow single).toNat = body single.toNat := by
  have hbody := body_lt single.toNat
  rw [toNat_narrow, unsigned]
  split <;> omega

theorem negative_narrow (single : UInt32) :
    Format.binary16.negative (narrow single).toNat = Format.binary32.negative single.toNat := by
  have hbody := body_lt single.toNat
  rw [toNat_narrow]
  show decide (_ / 32768 % 2 = 1) = _
  cases Format.binary32.negative single.toNat with
  | false => exact decide_eq_false (by simp only [Bool.false_eq_true, if_false]; omega)
  | true => exact decide_eq_true (by simp only [if_true]; omega)

theorem body_of_isFinite {single : Nat} (h : Format.binary32.isFinite single = true) :
    body single =
      magnitude (Format.binary32.significand single) (Format.binary32.biased single) :=
  if_neg (of_decide_eq_true h)

theorem magnitude_lt_iff_abs_value (single : Nat) :
    magnitude (Format.binary32.significand single) (Format.binary32.biased single) < 0x7C00 ↔
      |Format.binary32.value single| < 65520 :=
  (magnitude_lt_iff (isSingle single)).trans (abs_value_lt_iff single 65520).symm

theorem isNearest_narrow (single : UInt32)
    (hfinite : Format.binary32.isFinite single.toNat = true)
    (hlt : |Format.binary32.value single.toNat| < 65520) :
    IsNearest (Format.binary32.value single.toNat) (narrow single).toNat := by
  have hunit : (0 : ℚ) < 2 ^ (-149 : ℤ) := by positivity
  have hmagnitude := (magnitude_lt_iff_abs_value single.toNat).mpr hlt
  have hbody := (unsigned_narrow single).trans (body_of_isFinite hfinite)
  have hgap := gap_magnitude (isSingle single.toNat) hmagnitude
    (Format.binary32.negative single.toNat)
  constructor
  case finite =>
    rw [isFinite_binary16, hbody]
    exact hmagnitude
  case near =>
    intro other _
    obtain ⟨hle, -⟩ := hgap (Format.binary16.negative other.toNat) (unsigned other.toNat)
    rw [abs_value_sub, abs_value_sub, hbody, negative_narrow]
    exact mul_le_mul_of_nonneg_right (Nat.cast_le.mpr hle) hunit.le
  case even =>
    intro other _ hequal
    obtain ⟨-, htie⟩ := hgap (Format.binary16.negative other.toNat) (unsigned other.toNat)
    rw [abs_value_sub, abs_value_sub, hbody, negative_narrow] at hequal
    rcases htie (Nat.cast_injective (mul_right_cancel₀ hunit.ne' hequal)) with hsame | hparity
    · left
      rw [value_binary16, value_binary16, hbody, negative_narrow, hsame]
    · right
      rw [fraction_binary16, fraction_binary16, hbody]
      omega

/-- Every single is rounded as it should be. -/
theorem rounds_narrow (single : UInt32) : Rounds single.toNat (narrow single).toNat := by
  constructor
  case sign => exact negative_narrow single
  case nearest => exact isNearest_narrow single
  case overflow =>
    intro hfinite hge
    have hmagnitude := mt (magnitude_lt_iff_abs_value single.toNat).mp (not_lt.mpr hge)
    rw [isInfinite_binary16, unsigned_narrow, body_of_isFinite hfinite]
    rw [magnitude_eq] at hmagnitude ⊢
    omega
  case infinite =>
    intro hinfinite
    obtain ⟨hbiased, hfraction⟩ : Format.binary32.biased single.toNat = 255 ∧
        Format.binary32.fraction single.toNat = 0 := of_decide_eq_true hinfinite
    rw [isInfinite_binary16, unsigned_narrow, body, if_pos hbiased, if_pos hfraction]
  case quiet =>
    intro hnan
    obtain ⟨hbiased, hfraction⟩ : Format.binary32.biased single.toNat = 255 ∧
        Format.binary32.fraction single.toNat ≠ 0 := of_decide_eq_true hnan
    have hquieted := quieted_lt single.toNat
    have hpos : 0x200 ≤ Format.binary32.fraction single.toNat / 0x2000 ||| 0x200 :=
      Nat.right_le_or
    have hbody : unsigned (narrow single).toNat =
        0x7C00 + (Format.binary32.fraction single.toNat / 0x2000 ||| 0x200) := by
      rw [unsigned_narrow, body, if_pos hbiased, if_neg hfraction]
    rw [isNaN_binary16, fraction_binary16, hbody]
    show _ ∧ _ = Format.binary32.fraction single.toNat / 0x2000 ||| 0x200
    omega

end Half

/-! ### Buffers -/

theorem Bytes.toNat_lt (bytes : Bytes) : bytes.toNat < 256 ^ bytes.length := by
  induction bytes with
  | nil => decide
  | cons b rest ih =>
    have hb := b.toNat_lt
    rw [toNat, List.length_cons, Nat.pow_succ]
    omega

/-- **A cast to half precision rounds every element correctly**, and has one for each. -/
theorem castFloats_rounds {bytes : Bytes} (h : 4 ∣ bytes.length) :
    (castFloats bytes .single .half).length = bytes.length / 4 * 2 ∧
      ∀ k < bytes.length / 4, Half.Rounds (bytes.block 4 k).toNat
        ((castFloats bytes .single .half).block 2 k).toNat := by
  have hlength : bytes.length = bytes.length / 4 * Precision.single.width :=
    (Nat.div_mul_cancel h).symm
  refine ⟨length_castFloats hlength, ?_⟩
  intro k hk
  have hfit : (k + 1) * Precision.single.width ≤ bytes.length := by
    show (k + 1) * 4 ≤ bytes.length
    omega
  have hword : (bytes.block 4 k).toNat < 2 ^ 32 := by
    have hlt := (bytes.block Precision.single.width k).toNat_lt
    rw [Bytes.length_block hfit] at hlt
    exact hlt
  have hcast : ((castFloats bytes .single .half).block 2 k).toNat =
      (Half.narrow (UInt32.ofNat (bytes.block 4 k).toNat)).toNat := block_castFloats hfit
  have hrounds := Half.rounds_narrow (UInt32.ofNat (bytes.block 4 k).toNat)
  rw [UInt32.toNat_ofNat_of_lt' hword] at hrounds
  rw [hcast]
  exact hrounds

def edgeSingles : Bytes :=
  [0x00, 0xF0, 0x7F, 0x47, 0x00, 0x00, 0xC0, 0x33, 0x01, 0x00, 0x80, 0xFF]

theorem castFloats_rounds_edgeSingles :
    castFloats edgeSingles .single .half = [0x00, 0x7C, 0x02, 0x00, 0x00, 0xFE] ∧
      ∀ k < 3, Half.Rounds (edgeSingles.block 4 k).toNat
        ((castFloats edgeSingles .single .half).block 2 k).toNat := by
  obtain ⟨-, hrounds⟩ := castFloats_rounds (show 4 ∣ edgeSingles.length by decide)
  exact ⟨rfl, hrounds⟩

end Mpsx

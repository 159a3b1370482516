/-
  Mpsx/Proofs/Binary/Rounding.lean
  ================================
  **Rounding on integers.**  Every finite single is a whole number of the smallest single,
  `2 ^ -149`, and every finite half a whole number of the smallest half, which is
  `2 ^ 125` times that.  So without signs all values are natural numbers, and a pattern
  of a half counts up through its values: `scaled` is strictly monotone.

  A single lies between two neighbours on a grid of halves, and no half lies between
  these.  That is why comparing with the two neighbours is enough, and it is the only
  place where the layout of the patterns matters; subnormal halves and the carry into
  the next exponent are no cases of their own.
-/

import Mathlib.Data.Nat.Dist
import Mathlib.Order.Monotone.Basic
import Mpsx.Binary.Half

namespace Mpsx.Half

/-! ### Rounding to an integer -/

theorem roundShift_cases (m shift : Nat) :
    (roundShift m shift = m / 2 ^ shift ∧
      (2 * (m % 2 ^ shift) < 2 ^ shift ∨
        2 * (m % 2 ^ shift) = 2 ^ shift ∧ m / 2 ^ shift % 2 = 0)) ∨
    (roundShift m shift = m / 2 ^ shift + 1 ∧
      (2 ^ shift < 2 * (m % 2 ^ shift) ∨
        2 * (m % 2 ^ shift) = 2 ^ shift ∧ m / 2 ^ shift % 2 = 1)) := by
  simp only [roundShift, Nat.pow_eq]
  split
  · next h => exact .inr ⟨rfl, h⟩
  · next h => exact .inl ⟨rfl, by omega⟩

/-- Of the two neighbours of `m / 2 ^ shift` the rounded quotient is the nearer one, on any
    scale, and nothing outside of them is nearer.  What is equally near is a neighbour as
    well, and then the rounded quotient is the even one of the two. -/
theorem roundShift_nearest (m shift : Nat) {scale v : Nat} (hscale : 0 < scale)
    (hv : v ≤ m / 2 ^ shift * (2 ^ shift * scale) ∨
      (m / 2 ^ shift + 1) * (2 ^ shift * scale) ≤ v) :
    Nat.dist (roundShift m shift * (2 ^ shift * scale)) (m * scale) ≤ Nat.dist v (m * scale) ∧
      (Nat.dist (roundShift m shift * (2 ^ shift * scale)) (m * scale) = Nat.dist v (m * scale) →
        ∃ c, v = c * (2 ^ shift * scale) ∧ (c = m / 2 ^ shift ∨ c = m / 2 ^ shift + 1) ∧
          (c = roundShift m shift ∨ roundShift m shift % 2 = 0 ∧ c % 2 = 1)) := by
  have hsplit : m * scale =
      m / 2 ^ shift * (2 ^ shift * scale) + m % 2 ^ shift * scale := by
    rw [← Nat.mul_assoc, ← Nat.add_mul, Nat.div_add_mod']
  have hrest : m % 2 ^ shift * scale < 2 ^ shift * scale :=
    Nat.mul_lt_mul_of_pos_right (Nat.mod_lt m (Nat.two_pow_pos shift)) hscale
  have htwice : 2 * (m % 2 ^ shift * scale) = 2 * (m % 2 ^ shift) * scale :=
    (Nat.mul_assoc ..).symm
  have hnext : (m / 2 ^ shift + 1) * (2 ^ shift * scale) =
      m / 2 ^ shift * (2 ^ shift * scale) + 2 ^ shift * scale := Nat.succ_mul ..
  rw [hnext] at hv
  rw [hsplit]
  unfold Nat.dist
  rcases roundShift_cases m shift with ⟨hround, hlow⟩ | ⟨hround, hhigh⟩
  · have hnear : 2 * (m % 2 ^ shift * scale) ≤ 2 ^ shift * scale := by
      rw [htwice]
      exact Nat.mul_le_mul_right scale (by omega)
    rw [hround]
    refine ⟨by omega, ?_⟩
    intro hequal
    rcases hv with hv | hv
    · exact ⟨m / 2 ^ shift, by omega, .inl rfl, .inl rfl⟩
    · -- a tie
      have htie : 2 * (m % 2 ^ shift) * scale = 2 ^ shift * scale := by omega
      have := Nat.eq_of_mul_eq_mul_right hscale htie
      exact ⟨m / 2 ^ shift + 1, by omega, .inr rfl, .inr (by omega)⟩
  · have hnear : 2 ^ shift * scale ≤ 2 * (m % 2 ^ shift * scale) := by
      rw [htwice]
      exact Nat.mul_le_mul_right scale (by omega)
    rw [hround, hnext]
    refine ⟨by omega, ?_⟩
    intro hequal
    rcases hv with hv | hv
    · have htie : 2 * (m % 2 ^ shift) * scale = 2 ^ shift * scale := by omega
      have := Nat.eq_of_mul_eq_mul_right hscale htie
      exact ⟨m / 2 ^ shift, by omega, .inl rfl, .inr (by omega)⟩
    · exact ⟨m / 2 ^ shift + 1, by omega, .inr rfl, .inl rfl⟩

/-! ### The values of half patterns -/

def scaled (n : Nat) : Nat :=
  (if n / 1024 = 0 then n % 1024 else 1024 + n % 1024) * 2 ^ (n / 1024 - 1)

/-- On a grid of equally spaced halves, which goes from one exponent to the next, the
    pattern counts the grid points. -/
theorem scaled_grid {lift r : Nat} (h : lift = 0 ∨ 1024 ≤ r) (hr : r ≤ 2048) :
    scaled (lift * 1024 + r) = r * 2 ^ lift := by
  unfold scaled
  rcases Nat.lt_or_ge r 1024 with hsmall | hlarge
  · obtain rfl : lift = 0 := by omega
    rw [if_pos (by omega), Nat.mod_eq_of_lt (by omega), Nat.div_eq_of_lt (by omega)]
    omega
  · rcases Nat.lt_or_ge r 2048 with hlt | hge
    · have hq : (lift * 1024 + r) / 1024 = lift + 1 := by omega
      have hm : (lift * 1024 + r) % 1024 = r - 1024 := by omega
      rw [if_neg (by omega), hq, hm, Nat.add_sub_cancel, Nat.add_sub_cancel' hlarge]
    · -- the carry: the first pattern with the next exponent
      obtain rfl : r = 2048 := by omega
      have hq : (lift * 1024 + 2048) / 1024 = lift + 2 := by omega
      have hm : (lift * 1024 + 2048) % 1024 = 0 := by omega
      rw [if_neg (by omega), hq, hm, show lift + 2 - 1 = lift + 1 by omega, Nat.pow_succ]
      omega

theorem exists_grid (n : Nat) :
    ∃ lift r, n = lift * 1024 + r ∧ (lift = 0 ∨ 1024 ≤ r) ∧ r < 2048 := by
  rcases Nat.lt_or_ge n 1024 with hsmall | hlarge
  · exact ⟨0, n, by omega, .inl rfl, by omega⟩
  · exact ⟨n / 1024 - 1, 1024 + n % 1024, by omega, .inr (by omega), by omega⟩

theorem scaled_strictMono : StrictMono scaled := by
  apply strictMono_nat_of_lt_succ
  intro n
  obtain ⟨lift, r, rfl, hgrid, hr⟩ := exists_grid n
  rw [Nat.add_assoc, scaled_grid hgrid (by omega), scaled_grid (by omega) hr]
  exact Nat.mul_lt_mul_of_pos_right (Nat.lt_succ_self r) (Nat.two_pow_pos lift)

/-- No half lies between two neighbours on a grid. -/
theorem scaled_gap {lift a : Nat} (h : lift = 0 ∨ 1024 ≤ a) (ha : a < 2048) (n : Nat) :
    scaled n ≤ a * 2 ^ lift ∨ (a + 1) * 2 ^ lift ≤ scaled n := by
  rw [← scaled_grid h (by omega), ← scaled_grid (show lift = 0 ∨ 1024 ≤ a + 1 by omega) ha]
  rcases Nat.lt_or_ge (lift * 1024 + a) n with hlt | hge
  · exact .inr (scaled_strictMono.monotone hlt)
  · exact .inl (scaled_strictMono.monotone hge)

/-! ### Rounding to a half -/

/-- What a significand and a biased exponent of a single are like: above the subnormals
    there is a leading one. -/
structure IsSingle (significand biased : Nat) : Prop where
  lt : significand < 2 ^ 24
  le : 0 < biased → 2 ^ 23 ≤ significand

/-- How many places of a single with the given biased exponent a half has no room for. -/
def lostPlaces (biased : Nat) : Nat := if 113 ≤ biased then 13 else 126 - max biased 1

theorem magnitude_eq (significand biased : Nat) :
    magnitude significand biased =
      min 0x7C00 ((biased - 113) * 1024 + roundShift significand (lostPlaces biased)) := rfl

/-- The distance of neighbouring halves, on the scale of the single. -/
theorem two_pow_lostPlaces_mul (biased : Nat) :
    2 ^ lostPlaces biased * 2 ^ (biased - 1) = 2 ^ (biased - 113) * 2 ^ 125 := by
  rw [← Nat.pow_add, ← Nat.pow_add]
  congr 1
  unfold lostPlaces
  split <;> omega

section Magnitude

variable {significand biased : Nat} (h : IsSingle significand biased)
include h

/-- The neighbours of a single are on a grid of halves. -/
theorem quotient_grid :
    (biased - 113 = 0 ∨ 1024 ≤ significand / 2 ^ lostPlaces biased) ∧
      significand / 2 ^ lostPlaces biased < 2048 := by
  have hlt := h.lt
  unfold lostPlaces
  split
  · next hnormal =>
    have hle := h.le (by omega)
    omega
  · next hsmall =>
    refine ⟨.inl (by omega), Nat.div_lt_of_lt_mul ?_⟩
    have hshift : 2 ^ 14 ≤ 2 ^ (126 - max biased 1) :=
      Nat.pow_le_pow_right (by decide) (by omega)
    omega

theorem roundShift_grid :
    (biased - 113 = 0 ∨ 1024 ≤ roundShift significand (lostPlaces biased)) ∧
      roundShift significand (lostPlaces biased) ≤ 2048 := by
  have hgrid := quotient_grid h
  have hround := roundShift_cases significand (lostPlaces biased)
  omega

theorem scaled_magnitude (hfinite : magnitude significand biased < 0x7C00) :
    scaled (magnitude significand biased) * 2 ^ 125 =
      roundShift significand (lostPlaces biased) *
        (2 ^ lostPlaces biased * 2 ^ (biased - 1)) := by
  obtain ⟨hgrid, hle⟩ := roundShift_grid h
  rw [magnitude_eq] at hfinite ⊢
  rw [Nat.min_eq_right (by omega), scaled_grid hgrid hle, two_pow_lostPlaces_mul, Nat.mul_assoc]

/-- **No half is nearer.**  What is equally near is the same half, or one with an odd
    pattern where that of the rounded one is even. -/
theorem magnitude_nearest (hfinite : magnitude significand biased < 0x7C00) (n : Nat) :
    Nat.dist (scaled (magnitude significand biased) * 2 ^ 125) (significand * 2 ^ (biased - 1)) ≤
        Nat.dist (scaled n * 2 ^ 125) (significand * 2 ^ (biased - 1)) ∧
      (Nat.dist (scaled (magnitude significand biased) * 2 ^ 125)
          (significand * 2 ^ (biased - 1)) =
        Nat.dist (scaled n * 2 ^ 125) (significand * 2 ^ (biased - 1)) →
        n = magnitude significand biased ∨
          magnitude significand biased % 2 = 0 ∧ n % 2 = 1) := by
  obtain ⟨hgrid, hlt⟩ := quotient_grid h
  have hv : scaled n * 2 ^ 125 ≤ significand / 2 ^ lostPlaces biased *
        (2 ^ lostPlaces biased * 2 ^ (biased - 1)) ∨
      (significand / 2 ^ lostPlaces biased + 1) *
        (2 ^ lostPlaces biased * 2 ^ (biased - 1)) ≤ scaled n * 2 ^ 125 := by
    rw [two_pow_lostPlaces_mul, ← Nat.mul_assoc, ← Nat.mul_assoc]
    exact (scaled_gap hgrid hlt n).imp (Nat.mul_le_mul_right _) (Nat.mul_le_mul_right _)
  rw [scaled_magnitude h hfinite]
  obtain ⟨hle, htie⟩ :=
    roundShift_nearest significand (lostPlaces biased) (Nat.two_pow_pos (biased - 1)) hv
  refine ⟨hle, ?_⟩
  intro hequal
  specialize htie hequal
  obtain ⟨c, hc, hneighbour, hparity⟩ := htie
  -- what is equally near is a grid point, and its pattern counts the grid points
  have hvalue : scaled n = scaled ((biased - 113) * 1024 + c) := by
    rw [scaled_grid (by omega) (by omega)]
    rw [two_pow_lostPlaces_mul, ← Nat.mul_assoc] at hc
    exact Nat.eq_of_mul_eq_mul_right (Nat.two_pow_pos 125) hc
  have hn := scaled_strictMono.injective hvalue
  have hmagnitude := magnitude_eq significand biased
  omega

/-- **Where halves end.**  From halfway between the largest half and the next grid point
    on, the result is not finite. -/
theorem magnitude_lt_iff :
    magnitude significand biased < 0x7C00 ↔
      significand * 2 ^ (biased - 1) < 65520 * 2 ^ 149 := by
  obtain ⟨hgrid, hle⟩ := roundShift_grid h
  have hlt := h.lt
  rw [magnitude_eq]
  rcases Nat.lt_trichotomy biased 142 with hbelow | rfl | habove
  · have hscale : 2 ^ (biased - 1) ≤ 2 ^ 140 := Nat.pow_le_pow_right (by decide) (by omega)
    have hvalue : significand * 2 ^ (biased - 1) < 2 ^ 24 * 2 ^ 140 :=
      Nat.mul_lt_mul_of_lt_of_le hlt hscale (by decide)
    omega
  · -- the exponent of the largest half
    have hround := roundShift_cases significand (lostPlaces 142)
    have hplaces : lostPlaces 142 = 13 := rfl
    rw [hplaces] at hround hgrid hle ⊢
    omega
  · have hscale : 2 ^ 142 ≤ 2 ^ (biased - 1) := Nat.pow_le_pow_right (by decide) (by omega)
    have hvalue : 2 ^ 23 * 2 ^ 142 ≤ significand * 2 ^ (biased - 1) :=
      Nat.mul_le_mul (h.le (by omega)) hscale
    omega

end Magnitude

end Mpsx.Half

import Mathlib.Data.Int.ModEq
import Mathlib.Tactic.Ring
import Mathlib.Tactic.Linarith

/-!
# Serial numbers: counters on a circle

A counter that wraps at `M` numbers an unbounded sequence of events by `position M a i`, the serial
number of event `i` when event `0` has number `a`.  `delta M x y` is the number of steps from `x`
forward to `y` on the circle.  As long as two events are less than `M` apart, `delta` of their
numbers recovers their distance when the second one is not older (`delta_position_of_le`) and its
complement when it is (`delta_position_of_lt`); this is what makes window tests on wrapped numbers
agree with the order of the events.
-/

namespace SerialNumber

/-- Steps forward from `x` to `y` modulo `M`. -/
def delta (M x y : ℕ) : ℕ := (((y : ℤ) - (x : ℤ)) % (M : ℤ)).toNat

/-- The serial number of event `i`, counting from `a`. -/
def position (M a i : ℕ) : ℕ := (a + i) % M

variable {M : ℕ}

theorem delta_cast (hM : 0 < M) (x y : ℕ) :
    ((delta M x y : ℕ) : ℤ) = ((y : ℤ) - (x : ℤ)) % (M : ℤ) :=
  Int.toNat_of_nonneg (Int.emod_nonneg _ (by omega))

theorem delta_lt (hM : 0 < M) (x y : ℕ) : delta M x y < M := by
  have h := Int.emod_lt_of_pos ((y : ℤ) - (x : ℤ)) (show (0 : ℤ) < M by omega)
  rw [← delta_cast hM] at h
  exact_mod_cast h

theorem position_lt (hM : 0 < M) (a i : ℕ) : position M a i < M := Nat.mod_lt _ hM

@[simp] theorem delta_self (x : ℕ) : delta M x x = 0 := by
  simp [delta]

/-- Only the residues of the two numbers matter. -/
theorem delta_mod_mod (x y : ℕ) : delta M (x % M) (y % M) = delta M x y := by
  rw [delta, delta]
  congr 1
  push_cast
  exact (Int.sub_emod (y : ℤ) (x : ℤ) (M : ℤ)).symm

/-- Forward distance: the second event is not older. -/
theorem delta_position_of_le {a i j : ℕ} (hij : i ≤ j) (hlt : j - i < M) :
    delta M (position M a i) (position M a j) = j - i := by
  rw [position, position, delta_mod_mod, delta]
  have h : ((a + j : ℕ) : ℤ) - ((a + i : ℕ) : ℤ) = ((j - i : ℕ) : ℤ) := by omega
  rw [h, Int.emod_eq_of_lt (by omega) (by omega)]
  simp

/-- Backward distance: the second event is older, so the circle is almost gone round. -/
theorem delta_position_of_lt {a i j : ℕ} (hij : j < i) (hlt : i - j < M) :
    delta M (position M a i) (position M a j) = M - (i - j) := by
  rw [position, position, delta_mod_mod, delta]
  have h : ((a + j : ℕ) : ℤ) - ((a + i : ℕ) : ℤ) = ((M - (i - j) : ℕ) : ℤ) + (M : ℤ) * (-1) := by
    omega
  rw [h, Int.add_mul_emod_self_left, Int.emod_eq_of_lt (by omega) (by omega)]
  simp

/-- Distinct events less than `M` apart have distinct numbers. -/
theorem position_inj {a i j : ℕ} (hij : i - j < M) (hji : j - i < M)
    (h : position M a i = position M a j) : i = j := by
  have hd : delta M (position M a i) (position M a j) = 0 := by rw [h, delta_self]
  rcases Nat.lt_trichotomy i j with hlt | rfl | hlt
  · rw [delta_position_of_le (le_of_lt hlt) hji] at hd
    omega
  · rfl
  · rw [delta_position_of_lt hlt hij] at hd
    omega

/-- Numbers of the circle without a step between them are equal. -/
theorem delta_eq_zero {x y : ℕ} (hx : x < M) (hy : y < M) (h : delta M x y = 0) : x = y := by
  have hcast := delta_cast (by omega : 0 < M) x y
  rw [h] at hcast
  have hdvd : (M : ℤ) ∣ (y : ℤ) - (x : ℤ) := Int.dvd_of_emod_eq_zero hcast.symm
  have hzero := Int.eq_zero_of_abs_lt_dvd hdvd (abs_lt.mpr ⟨by omega, by omega⟩)
  omega

/-- Numbers of the circle at the same distance from a third are equal. -/
theorem delta_left_inj {x y z : ℕ} (hx : x < M) (hy : y < M) (h : delta M x z = delta M y z) :
    x = y := by
  have hM : 0 < M := by omega
  have hcast : ((z : ℤ) - (x : ℤ)) % (M : ℤ) = ((z : ℤ) - (y : ℤ)) % (M : ℤ) := by
    rw [← delta_cast hM, ← delta_cast hM, h]
  have hsub : (M : ℤ) ∣ ((z : ℤ) - (x : ℤ)) - ((z : ℤ) - (y : ℤ)) := Int.ModEq.dvd hcast.symm
  have hzero := Int.eq_zero_of_abs_lt_dvd hsub (abs_lt.mpr ⟨by omega, by omega⟩)
  omega

theorem position_add_one (a i : ℕ) : (position M a i + 1) % M = position M a (i + 1) := by
  rw [position, position, Nat.mod_add_mod, Nat.add_assoc]

end SerialNumber

import Mathlib.Data.Nat.Log
import Mathlib.Tactic.SplitIfs
import Mathlib.Algebra.Order.Group.Nat

/-!
# Periods with a phase

The numbers `φ, φ + P, φ + 2 * P, …` cut the naturals from `φ` on into periods
of length `P`. `start P φ n` is the first number of the period that holds `n`.
A phase stored with less than full precision (rounded down to a multiple of a
quantum `q` that divides `P`) moves every start back by less than `q`.

Powers of two come last: the least one above a number, and its checked form in
a machine word.
-/

namespace Framework.PhaseGrid

/-! ## Periods -/

/-- The first number of the period that holds `n`. A number before the phase
counts as the phase. -/
def start (P φ n : ℕ) : ℕ :=
  (max n φ - φ) / P * P + φ

theorem lt_start_add {P φ : ℕ} (hP : 0 < P) (n : ℕ) : n < start P φ n + P := by
  have hlt := Nat.lt_div_mul_add (a := max n φ - φ) hP
  have hmax := le_max_left n φ
  rw [start]
  omega

theorem start_eq {P φ n j : ℕ} (hP : 0 < P) (hlo : φ + j * P ≤ n) (hhi : n < φ + j * P + P) :
    start P φ n = φ + j * P := by
  have hquot : (n - φ) / P = j := by
    rw [Nat.div_eq_iff hP]
    omega
  rw [start, max_eq_left (by omega), hquot, Nat.add_comm]

theorem start_on_grid (P φ n : ℕ) : ∃ j, start P φ n = φ + j * P :=
  ⟨(max n φ - φ) / P, Nat.add_comm _ _⟩

/-- **A period is the set of numbers with its start.** -/
theorem start_congr {P φ m n : ℕ} (hP : 0 < P) (hlo : start P φ m ≤ n)
    (hhi : n < start P φ m + P) : start P φ n = start P φ m := by
  obtain ⟨j, hj⟩ := start_on_grid P φ m
  rw [hj] at hlo hhi ⊢
  exact start_eq hP hlo hhi

theorem start_lt_of_past {P φ m n : ℕ} (hP : 0 < P) (h : start P φ m + P ≤ n) :
    start P φ m < start P φ n := by
  have hlt := lt_start_add (φ := φ) hP n
  omega

/-! ## Quantised phases -/

/-- The offset of `b` in its period, rounded down to a multiple of `q`. -/
def phase (P q b : ℕ) : ℕ := b % P / q * q

/-- **A quantised phase is off by less than a quantum.** The period that `b`
is placed in starts at `b` rounded down to a multiple of `q`. -/
theorem start_phase {P q : ℕ} (hP : 0 < P) (hq : 0 < q) (hdvd : q ∣ P) (b : ℕ) :
    start P (phase P q b) b = b - b % q := by
  -- `q` divides `P`, so the two remainders of `b` differ by a multiple of `q`
  have hround : phase P q b + b % q = b % P := by
    rw [phase, ← Nat.mod_mod_of_dvd b hdvd, Nat.div_add_mod']
  have hsplit := Nat.div_add_mod' b P
  have hmod := Nat.mod_lt b hP
  have hgrid : phase P q b + b / P * P = b - b % q := by omega
  have hquantum : b % q < P := lt_of_lt_of_le (Nat.mod_lt b hq) (Nat.le_of_dvd hP hdvd)
  rw [start_eq (j := b / P) hP (by omega) (by omega), hgrid]

theorem start_phase_eq_iff {P q : ℕ} (hP : 0 < P) (hq : 0 < q) (hdvd : q ∣ P) {bound : ℕ}
    (hbound : 1 < bound) : (∀ b < bound, start P (phase P q b) b = b) ↔ q = 1 := by
  constructor
  · intro h
    have hone := h 1 hbound
    rw [start_phase hP hq hdvd] at hone
    by_contra hne
    rw [Nat.mod_eq_of_lt (by omega)] at hone
    exact absurd hone (by decide)
  · rintro rfl b -
    rw [start_phase hP hq hdvd, Nat.mod_one, Nat.sub_zero]

/-! ## Powers of two -/

/-- The least power of two that is at least `n`. -/
def nextPowerOfTwo (n : ℕ) : ℕ := 2 ^ Nat.clog 2 n

theorem nextPowerOfTwo_two_pow (k : ℕ) : nextPowerOfTwo (2 ^ k) = 2 ^ k := by
  rw [nextPowerOfTwo, Nat.clog_pow 2 k Nat.one_lt_two]

/-- The checked form in a word of `w` bits: nothing if the power of two is out
of range. -/
def checkedNextPowerOfTwo (w n : ℕ) : Option ℕ :=
  if nextPowerOfTwo n < 2 ^ w then some (nextPowerOfTwo n) else none

/-- The checked form overflows exactly above the greatest power of two of the
word. -/
theorem checkedNextPowerOfTwo_eq_none {w n : ℕ} (hw : 1 ≤ w) :
    checkedNextPowerOfTwo w n = none ↔ 2 ^ (w - 1) < n := by
  have hlt : 2 ^ Nat.clog 2 n < 2 ^ w ↔ n ≤ 2 ^ (w - 1) := by
    rw [Nat.pow_lt_pow_iff_right Nat.one_lt_two, ← Nat.clog_le_iff_le_pow Nat.one_lt_two]
    omega
  simp only [checkedNextPowerOfTwo, nextPowerOfTwo, hlt]
  simp

theorem checkedNextPowerOfTwo_eq_some {w n : ℕ} (h : n ≤ 2 ^ (w - 1)) (hw : 1 ≤ w) :
    checkedNextPowerOfTwo w n = some (nextPowerOfTwo n) := by
  have hne : checkedNextPowerOfTwo w n ≠ none := by
    rw [ne_eq, checkedNextPowerOfTwo_eq_none hw]
    omega
  rw [checkedNextPowerOfTwo] at hne ⊢
  split_ifs at hne ⊢ with hlt
  · rfl
  · exact absurd rfl hne

theorem clamp_two_pow (lo hi k : ℕ) :
    max (2 ^ lo) (min (2 ^ k) (2 ^ hi)) = 2 ^ max lo (min k hi) := by
  have hmono : Monotone fun e : ℕ => 2 ^ e := by
    intro e e' h
    exact Nat.pow_le_pow_right (by decide) h
  rw [hmono.map_max, hmono.map_min]

theorem quantum_two_pow (e w : ℕ) : max (2 ^ e / 2 ^ w) 1 = 2 ^ (e - w) := by
  rcases Nat.le_total w e with h | h
  · rw [Nat.pow_div h (by decide), max_eq_left Nat.one_le_two_pow]
  · rw [Nat.sub_eq_zero_of_le h, Nat.pow_zero]
    apply max_eq_right
    rw [Nat.div_le_iff_le_mul_add_pred (Nat.two_pow_pos w)]
    have := Nat.pow_le_pow_right (show 0 < 2 by decide) h
    omega

end Framework.PhaseGrid

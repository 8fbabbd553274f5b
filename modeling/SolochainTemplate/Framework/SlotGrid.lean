import SolochainTemplate.Framework.Runs

/-!
# Times on a slot grid

Time is cut into slots of length `L`; the slot of a time is its floor quotient
by `L`. A sequence of times is *spaced* when every time lies in a later slot
than the one before and, unless the one before is the initial time `0`, at
least a minimum period `p` after it.

The results are about any `p` and `L`; the case `L = 2 * p`, a period of half a
slot, is the one in which the two rules interact at every length.
-/

namespace Framework.SlotGrid

/-! ## One step on the grid -/

/-- `b` may follow `a`: a strictly later slot, and the minimum period is kept
unless `a` is the initial time. -/
def Follows (p L a b : ℕ) : Prop :=
  a / L < b / L ∧ (a = 0 ∨ a + p ≤ b)

instance (p L a b : ℕ) : Decidable (Follows p L a b) := by
  unfold Follows; infer_instance

theorem slot_eq_iff {L t s : ℕ} (hL : 0 < L) : t / L = s ↔ s * L ≤ t ∧ t < (s + 1) * L := by
  rw [Nat.div_eq_iff hL]
  have hsucc : (s + 1) * L = s * L + L := Nat.succ_mul s L
  omega

theorem lt_of_slot_lt {L a b : ℕ} (hL : 0 < L) (h : a / L < b / L) : a < b / L * L :=
  (Nat.div_lt_iff_lt_mul hL).mp h

/-- **Pushing a time forward keeps its slot.** A time `d` in a later slot than
`a`, pushed to at least `a + p`, stays in its own slot when `p` is at most one
slot: `a + p` ends before the slot after `d`'s. -/
theorem push_slot {p L a d : ℕ} (hL : 0 < L) (hp : p ≤ L) (h : a / L < d / L) :
    max d (a + p) / L = d / L := by
  have hbefore : a < d / L * L := lt_of_slot_lt hL h
  have hd := (slot_eq_iff (t := d) hL).mp rfl
  rw [slot_eq_iff hL]
  have hsucc : (d / L + 1) * L = d / L * L + L := Nat.succ_mul _ L
  constructor
  · exact le_trans hd.1 (le_max_left _ _)
  · exact max_lt hd.2 (by omega)

theorem add_half_slot_iff {p a : ℕ} (hp : 0 < p) :
    (a + p) / (2 * p) = a / (2 * p) ↔ a % (2 * p) < p := by
  have hL : 0 < 2 * p := by omega
  have hdiv := Nat.div_add_mod' a (2 * p)
  have hmod := Nat.mod_lt a hL
  have hsucc : (a / (2 * p) + 1) * (2 * p) = a / (2 * p) * (2 * p) + 2 * p := Nat.succ_mul _ _
  rw [slot_eq_iff hL]
  generalize a / (2 * p) * (2 * p) = base at *
  omega

/-- With slots of two periods, a pushed time is in the slot of `d` exactly if `d`
is in a later slot than `a`, or in the same and `a` in its first half. -/
theorem push_half_slot_iff {p a d : ℕ} (hp : 0 < p) :
    max d (a + p) / (2 * p) = d / (2 * p) ↔
      a / (2 * p) < d / (2 * p) ∨ d / (2 * p) = a / (2 * p) ∧ a % (2 * p) < p := by
  have hL : 0 < 2 * p := Nat.mul_pos (by decide) hp
  have hpush : a / (2 * p) ≤ (a + p) / (2 * p) := Nat.div_le_div_right (Nat.le_add_right a p)
  rcases lt_trichotomy (a / (2 * p)) (d / (2 * p)) with hlt | heq | hgt
  · have hkeep := push_slot hL (Nat.le_mul_of_pos_left p (by decide)) hlt
    exact ⟨fun _ => Or.inl hlt, fun _ => hkeep⟩
  · rw [← heq, ← add_half_slot_iff hp]
    rcases le_total d (a + p) with hle | hle
    · rw [max_eq_right hle]
      simp
    · -- the push is not needed, and ends before `d`
      rw [max_eq_left hle]
      have hbefore : (a + p) / (2 * p) ≤ d / (2 * p) := Nat.div_le_div_right hle
      rw [← heq] at hbefore
      have hsame : (a + p) / (2 * p) = a / (2 * p) := le_antisymm hbefore hpush
      exact ⟨fun _ => Or.inr ⟨rfl, hsame⟩, fun _ => heq.symm⟩
  · have hlate : d / (2 * p) < max d (a + p) / (2 * p) :=
      lt_of_lt_of_le hgt (le_trans hpush (Nat.div_le_div_right (le_max_right _ _)))
    constructor
    · intro h
      exact absurd h hlate.ne'
    · rintro (hlt | ⟨heq, -⟩)
      · exact absurd hlt hgt.asymm
      · exact absurd heq hgt.ne

/-- **Two grids drift apart.** Once the starts of the slots with one number are far
enough apart, a time that is at most `d` after `t` is not in the slot of the second
grid that has the number of `t`'s slot of the first. -/
theorem slot_ne_of_drift {L L' d t u : ℕ} (hL : 0 < L) (hL' : 0 < L') (htu : t ≤ u)
    (hud : u ≤ t + d)
    (hdrift : L' ≤ t / L * (L - L') ∨ L + d ≤ t / L * (L' - L)) : u / L' ≠ t / L := by
  have ht := (slot_eq_iff hL).mp (rfl : t / L = t / L)
  generalize t / L = q at *
  rw [Ne, slot_eq_iff hL']
  have hsucc : (q + 1) * L = q * L + L := Nat.succ_mul q L
  have hsucc' : (q + 1) * L' = q * L' + L' := Nat.succ_mul q L'
  rw [Nat.mul_sub, Nat.mul_sub] at hdrift
  rcases hdrift with hshorter | hlonger
  · -- slot `q` of the second grid is over when that of the first starts
    omega
  · -- slot `q` of the second grid has not started
    omega

/-- Two times `k` slots apart are at least `k - 1` full slots and one unit
apart. -/
theorem gap_of_slots {L a b k : ℕ} (hL : 0 < L) (hk : 1 ≤ k) (h : a / L + k ≤ b / L) :
    a + ((k - 1) * L + 1) ≤ b := by
  have ha := (slot_eq_iff (t := a) hL).mp rfl
  have hb := (slot_eq_iff (t := b) hL).mp rfl
  obtain ⟨m, rfl⟩ : ∃ m, k = m + 1 := ⟨k - 1, by omega⟩
  have hbase : (a / L + 1) * L + m * L ≤ b / L * L := by
    rw [← Nat.add_mul]
    exact Nat.mul_le_mul_right L (by omega)
  rw [Nat.add_sub_cancel]
  omega

/-! ## Spaced sequences -/

/-- The times after the initial time `0`, in order. -/
def Spaced (p L : ℕ) (times : List ℕ) : Prop :=
  List.IsChain (Follows p L) (0 :: times)

variable {p L : ℕ} {times : List ℕ}

theorem Spaced.pos (h : Spaced p L times) {t : ℕ} (ht : t ∈ times) : 0 < t := by
  obtain ⟨i, hi, rfl⟩ := List.getElem_of_mem ht
  have hlink := List.isChain_iff_getElem.mp h i (by simpa using hi)
  rw [List.getElem_cons_succ] at hlink
  by_contra hnot
  have hzero : times[i] = 0 := by omega
  have hslot := hlink.1
  rw [hzero, Nat.zero_div] at hslot
  exact Nat.not_lt_zero _ hslot

theorem Spaced.slot_gain (h : Spaced p L times) (i k : ℕ) {a b : ℕ}
    (ha : (0 :: times)[i]? = some a) (hb : (0 :: times)[i + k]? = some b) :
    a / L + k ≤ b / L := by
  have hlink : ∀ a b, Follows p L a b → a / L + 1 ≤ b / L := by
    intro a b hab
    exact Nat.succ_le_of_lt hab.1
  have hgain := isChain_gain (f := (· / L)) (c := 1) hlink h i k ha hb
  simpa using hgain

theorem Spaced.period_gain (h : Spaced p L times) (i k : ℕ) {a b : ℕ}
    (ha : times[i]? = some a) (hb : times[i + k]? = some b) : a + k * p ≤ b := by
  have hperiod : List.IsChain (fun a b => a + p ≤ b) times := by
    apply List.isChain_iff_getElem.mpr
    intro j hj
    have hlink := List.isChain_iff_getElem.mp h (j + 1) (by simpa using hj)
    rcases hlink.2 with hzero | hle
    · -- only the initial time is zero
      exact absurd hzero (h.pos (List.getElem_mem (by omega))).ne'
    · exact hle
  exact isChain_gain (f := id) (fun _ _ hab => hab) hperiod i k ha hb

/-- **Rate bound.** `k` steps take at least `k` periods, and at least `k - 1`
slots and one unit. -/
theorem Spaced.gap (hL : 0 < L) (h : Spaced p L times) (i k : ℕ) (hk : 1 ≤ k) {a b : ℕ}
    (ha : times[i]? = some a) (hb : times[i + k]? = some b) :
    a + max (k * p) ((k - 1) * L + 1) ≤ b := by
  have hperiod : a + k * p ≤ b := h.period_gain i k ha hb
  have hslots : a / L + k ≤ b / L :=
    h.slot_gain (i + 1) k (by simpa using ha) (by
      rw [show i + 1 + k = i + k + 1 by omega]
      simpa using hb)
  have hgrid : a + ((k - 1) * L + 1) ≤ b := gap_of_slots hL hk hslots
  omega

theorem Spaced.le_time (h : Spaced p L times) {i t : ℕ} (ht : times[i]? = some t) :
    (i + 1) * L ≤ t := by
  have hslot := h.slot_gain 0 (i + 1) (a := 0) (b := t) rfl (by simpa using ht)
  rw [Nat.zero_div, Nat.zero_add] at hslot
  calc (i + 1) * L ≤ t / L * L := Nat.mul_le_mul_right L hslot
    _ ≤ t := Nat.div_mul_le_self t L

/-! ## The rate bound is attained

With `L = 2 * p`. One step: from the middle of a slot to the start of the next.
More steps: from the last unit of slot 1, through the middles of the slots
between, to the first unit of slot `k + 1`. -/

/-- The `i`-th time of a fastest sequence of `k` steps, `0 ≤ i ≤ k`. -/
def tightTime (p k i : ℕ) : ℕ :=
  if i = k then (k + 1) * (2 * p)
  else if i = 0 then if k = 1 then 3 * p else 4 * p - 1
  else (i + 1) * (2 * p) + p

def tightTimes (p k : ℕ) : List ℕ := (List.range (k + 1)).map (tightTime p k)

theorem tightTimes_getElem? {p k i : ℕ} (hi : i ≤ k) :
    (tightTimes p k)[i]? = some (tightTime p k i) := by
  simp [tightTimes, Nat.lt_succ_of_le hi]

theorem tightTime_slot {p k i : ℕ} (hp : 0 < p) (hk : 1 ≤ k) (hi : i ≤ k) :
    tightTime p k i / (2 * p) = i + 1 := by
  have hL : 0 < 2 * p := by omega
  have hsucc : (i + 1 + 1) * (2 * p) = (i + 1) * (2 * p) + 2 * p := Nat.succ_mul _ _
  rw [slot_eq_iff hL]
  unfold tightTime
  split_ifs with hik hi0 hk1
  · subst hik; omega
  · subst hi0; omega
  · subst hi0; omega
  · omega

theorem tightTime_period {p k i : ℕ} (hi : i < k) :
    tightTime p k i + p ≤ tightTime p k (i + 1) := by
  have hsucc : (i + 1 + 1) * (2 * p) = (i + 1) * (2 * p) + 2 * p := Nat.succ_mul _ _
  unfold tightTime
  split_ifs with h₁ h₂ h₃ h₄ h₅ h₆ h₇ <;> subst_vars <;> first | contradiction | omega

theorem tightTimes_spaced {p k : ℕ} (hp : 0 < p) (hk : 1 ≤ k) :
    Spaced p (2 * p) (tightTimes p k) := by
  apply List.isChain_iff_getElem.mpr
  intro i hi
  have hlen : i ≤ k := by simpa [tightTimes, Nat.lt_succ_iff] using hi
  rw [List.getElem_cons_succ]
  cases i with
  | zero =>
      -- the initial time exempts the first link from the period
      refine ⟨?_, Or.inl rfl⟩
      simp [tightTimes, tightTime_slot hp hk (Nat.zero_le k)]
  | succ i =>
      rw [List.getElem_cons_succ]
      simp only [tightTimes, List.getElem_map, List.getElem_range]
      refine ⟨?_, Or.inr (tightTime_period (by omega))⟩
      rw [tightTime_slot hp hk (by omega), tightTime_slot hp hk hlen]
      exact Nat.lt_succ_self _

/-- From its first to its last time the fastest sequence attains `Spaced.gap`. -/
theorem tightTime_gap {p k : ℕ} (hp : 0 < p) (hk : 1 ≤ k) :
    tightTime p k k = tightTime p k 0 + max (k * p) ((k - 1) * (2 * p) + 1) := by
  obtain ⟨m, rfl⟩ : ∃ m, k = m + 1 := ⟨k - 1, by omega⟩
  have hlast : tightTime p (m + 1) (m + 1) = m * (2 * p) + 4 * p := by
    simp only [tightTime, if_true]
    rw [Nat.succ_mul, Nat.succ_mul]
    omega
  rw [hlast, Nat.add_sub_cancel]
  cases m with
  | zero =>
      have hfirst : tightTime p 1 0 = 3 * p := rfl
      simp only [hfirst, Nat.zero_mul, Nat.zero_add, Nat.one_mul]
      omega
  | succ m =>
      have hfirst : tightTime p (m + 1 + 1) 0 = 4 * p - 1 := by simp [tightTime]
      have hperiods : (m + 1 + 1) * p ≤ (m + 1) * (2 * p) + 1 := by
        rw [Nat.succ_mul (m + 1), Nat.succ_mul m, Nat.succ_mul m, ← Nat.mul_assoc, Nat.mul_comm m 2,
          Nat.mul_assoc]
        omega
      rw [hfirst, max_eq_right hperiods]
      omega

end Framework.SlotGrid

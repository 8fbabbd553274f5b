import Mathlib.Data.Nat.Periodic

/-!
# Turns

Parties take slots in turn: slot `s` is the turn of the party at position
`s % n`. Turns repeat with period `n`, so a window of `k` whole periods has
exactly `k` turns for each position, wherever it starts. A party listed more
than once has as many turns as it is listed.
-/

namespace Framework.RoundRobin

variable {α : Type*} (parties : List α) (p : α → Bool)

/-- Whose turn the slot is; nobody's if there are no parties. -/
def turn (slot : ℕ) : Option α := parties[slot % parties.length]?

/-- The slot is the turn of a party with `p`. -/
def TurnOf (slot : ℕ) : Prop := (turn parties slot).any p = true

/-- As many turns as they are listed, for every period it takes to cover `w`
slots. -/
def maxTurns (w : ℕ) : ℕ :=
  (w + parties.length - 1) / parties.length * parties.countP p

instance : DecidablePred (TurnOf parties p) :=
  fun slot => inferInstanceAs (Decidable ((turn parties slot).any p = true))

theorem turnOf_periodic : Function.Periodic (TurnOf parties p) parties.length := by
  intro slot
  unfold TurnOf turn
  rw [Nat.add_mod_right]

theorem turnOf_periodic_mul (k : ℕ) :
    Function.Periodic (TurnOf parties p) (k * parties.length) := by
  have h := (turnOf_periodic parties p).nat_mul k
  rwa [Nat.cast_id] at h

theorem count_turnOf_take {k : ℕ} (hk : k ≤ parties.length) :
    k.count (TurnOf parties p) = (parties.take k).countP p := by
  induction k with
  | zero => simp
  | succ k ih =>
      have hlt : k < parties.length := hk
      have hturn : TurnOf parties p k ↔ p parties[k] = true := by
        unfold TurnOf turn
        rw [Nat.mod_eq_of_lt hlt, List.getElem?_eq_getElem hlt, Option.any_some]
      rw [Nat.count_succ, ih (Nat.le_of_succ_le hk), List.take_succ_eq_append_getElem hlt,
        List.countP_append, List.countP_singleton]
      simp only [hturn]

theorem count_turnOf_period : parties.length.count (TurnOf parties p) = parties.countP p := by
  rw [count_turnOf_take parties p le_rfl, List.take_length]

theorem count_turnOf_periods (k : ℕ) :
    (k * parties.length).count (TurnOf parties p) = k * parties.countP p := by
  induction k with
  | zero => simp
  | succ k ih =>
      have hshift : ∀ slot, TurnOf parties p (k * parties.length + slot) ↔
          TurnOf parties p slot := by
        intro slot
        rw [Nat.add_comm]
        exact (turnOf_periodic_mul parties p k slot).to_iff
      rw [Nat.succ_mul, Nat.count_add, ih, Nat.succ_mul]
      simp only [hshift, count_turnOf_period]

/-- **Whole periods**: wherever the window starts. -/
theorem card_window (a k : ℕ) :
    ((Finset.Ico a (a + k * parties.length)).filter (TurnOf parties p)).card =
      k * parties.countP p := by
  rw [Nat.filter_Ico_card_eq_of_periodic a _ _ (turnOf_periodic_mul parties p k),
    count_turnOf_periods]

/-- **Any window**: the periods that cover it bound the turns in it. -/
theorem length_le_turns {slots : List ℕ} (hnodup : slots.Nodup) {s w : ℕ}
    (hwindow : ∀ x ∈ slots, s < x ∧ x ≤ s + w) (hturn : ∀ x ∈ slots, TurnOf parties p x) :
    slots.length ≤ maxTurns parties p w := by
  have hcover : w ≤ (w + parties.length - 1) / parties.length * parties.length ∨
      parties.length = 0 := by
    rcases Nat.eq_zero_or_pos parties.length with hzero | hpos
    · exact Or.inr hzero
    · have hdiv := Nat.div_add_mod (w + parties.length - 1) parties.length
      have hmod := Nat.mod_lt (w + parties.length - 1) hpos
      rw [Nat.mul_comm] at hdiv
      exact Or.inl (by omega)
  rcases hcover with hcover | hzero
  · rw [maxTurns, ← List.toFinset_card_of_nodup hnodup, ← card_window parties p (s + 1)]
    apply Finset.card_le_card
    intro x hx
    rw [List.mem_toFinset] at hx
    obtain ⟨hlo, hhi⟩ := hwindow x hx
    rw [Finset.mem_filter, Finset.mem_Ico]
    exact ⟨⟨hlo, by omega⟩, hturn x hx⟩
  · -- without parties no slot is anybody's turn
    cases slots with
    | nil => exact Nat.zero_le _
    | cons x slots =>
        have hx := hturn x List.mem_cons_self
        rw [List.length_eq_zero_iff.mp hzero] at hx
        exact absurd hx (by simp [TurnOf, turn])

end Framework.RoundRobin

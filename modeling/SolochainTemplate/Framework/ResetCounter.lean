import Mathlib.Data.List.DropRight
import Mathlib.Data.List.Induction
import Mathlib.Order.Basic

/-!
# Counters with resets and a ceiling

A counter is set by a reset, raised by one by a tick and left alone by the
rest. It is unset before the first reset and stops at a ceiling `M`. Two views
of one history are connected: the counter kept step by step, and its closed
form read off the whole history, the argument of the last reset plus the ticks
since, cut off at `M`.
-/

namespace Framework.ResetCounter

/-- What one input means to the counter. -/
inductive Action where
  | reset (n : ℕ)
  | tick
  | skip
deriving DecidableEq, Repr

def Action.resetValue : Action → Option ℕ
  | .reset n => some n
  | _ => none

def Action.isReset : Action → Bool
  | .reset _ => true
  | _ => false

def Action.isTick : Action → Bool
  | .tick => true
  | _ => false

/-! ## The history, read as a whole -/

/-- The argument of the most recent reset. -/
def lastReset (acts : List Action) : Option ℕ :=
  (acts.filterMap Action.resetValue).getLast?

/-- The number of ticks after the most recent reset. -/
def ticksSince (acts : List Action) : ℕ :=
  (acts.rtakeWhile fun a => !a.isReset).countP Action.isTick

/-- The closed form: unset before the first reset, then the last reset plus the
ticks since, at most `M`. -/
def value (M : ℕ) (acts : List Action) : Option ℕ :=
  (lastReset acts).map fun s => min (s + ticksSince acts) M

theorem lastReset_snoc (acts : List Action) (a : Action) :
    lastReset (acts ++ [a]) = a.resetValue.or (lastReset acts) := by
  cases a <;> simp [lastReset, Action.resetValue]

theorem ticksSince_snoc_reset (acts : List Action) (n : ℕ) :
    ticksSince (acts ++ [.reset n]) = 0 := by
  simp [ticksSince, Action.isReset]

theorem ticksSince_snoc_tick (acts : List Action) :
    ticksSince (acts ++ [.tick]) = ticksSince acts + 1 := by
  simp [ticksSince, Action.isReset, Action.isTick]

theorem ticksSince_snoc_skip (acts : List Action) :
    ticksSince (acts ++ [.skip]) = ticksSince acts := by
  simp [ticksSince, Action.isReset, Action.isTick]

/-! ## The counter, kept step by step -/

/-- One step of the counter with ceiling `M`. -/
def step (M : ℕ) : Option ℕ → Action → Option ℕ
  | _, .reset n => some (min n M)
  | v, .tick => v.map fun v => min (v + 1) M
  | v, .skip => v

theorem value_snoc (M : ℕ) (acts : List Action) (a : Action) :
    value M (acts ++ [a]) = step M (value M acts) a := by
  cases a with
  | reset n => simp [value, step, lastReset_snoc, ticksSince_snoc_reset, Action.resetValue]
  | tick =>
      rw [value, lastReset_snoc, ticksSince_snoc_tick]
      cases hs : lastReset acts with
      | none => simp [value, step, hs, Action.resetValue]
      | some s =>
          simp only [value, step, hs, Action.resetValue, Option.none_or, Option.map_some,
            Option.some.injEq]
          omega
  | skip => simp [value, step, lastReset_snoc, ticksSince_snoc_skip, Action.resetValue]

/-- **The counter is its closed form** after every history. -/
theorem foldl_step (M : ℕ) (acts : List Action) : acts.foldl (step M) none = value M acts := by
  induction acts using List.reverseRecOn with
  | nil => rfl
  | append_singleton acts a ih => rw [List.foldl_append, ih, value_snoc]; rfl

/-! ## Order

Ticks and skips commute with each other, and a reset forgets what was before
it. -/

/-- Below the ceiling or at it, the order of two inputs that are no resets does
not matter. -/
theorem step_comm {M : ℕ} {a b : Action} (ha : a.isReset = false) (hb : b.isReset = false)
    (v : Option ℕ) : step M (step M v a) b = step M (step M v b) a := by
  cases a with
  | reset n => cases ha
  | skip => rfl
  | tick =>
      cases b with
      | reset n => cases hb
      | skip => rfl
      | tick => rfl

theorem foldl_step_perm {M : ℕ} {acts acts' : List Action} (h : acts.Perm acts')
    (hreset : ∀ a ∈ acts, a.isReset = false) (v : Option ℕ) :
    acts.foldl (step M) v = acts'.foldl (step M) v := by
  apply h.foldl_eq'
  intro a ha b hb v
  exact step_comm (hreset a ha) (hreset b hb) v

end Framework.ResetCounter

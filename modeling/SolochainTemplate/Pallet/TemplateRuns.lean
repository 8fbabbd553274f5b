import SolochainTemplate.Framework.ResetCounter
import SolochainTemplate.Pallet.Template

/-!
# Whole runs of the template pallet

The pallet is a counter with a ceiling: `do_something` resets it, `cause_error`
ticks it, everything without a signature leaves it alone. The counter of
`Framework.ResetCounter` is the abstract machine; the storage item refines it
step by step, and so its closed form gives value, outcomes and event log at
every position of every run.
-/

namespace SolochainTemplate.Pallet.Template

open SolochainTemplate.Sdk
open Framework.ResetCounter (Action lastReset ticksSince)

variable {AccountId : Type}

/-! ## The abstract reading of a call -/

/-- What a call means to the stored number. -/
def Extrinsic.action (x : Extrinsic AccountId) : Action :=
  match x.origin, x.call with
  | .signed _, .doSomething something => .reset something.toNat
  | .signed _, .causeError => .tick
  | _, _ => .skip

/-- The event a call deposits, if any. -/
def Extrinsic.event (x : Extrinsic AccountId) : Option (Event AccountId) :=
  match x.origin, x.call with
  | .signed who, .doSomething something => some (.somethingStored something who)
  | _, _ => none

/-- The argument of the most recent signed `do_something`. -/
def lastStored (xs : List (Extrinsic AccountId)) : Option ℕ :=
  lastReset (xs.map Extrinsic.action)

/-- How many signed `cause_error` calls came after it, failed ones included. -/
def causeErrorsSince (xs : List (Extrinsic AccountId)) : ℕ :=
  ticksSince (xs.map Extrinsic.action)

def u32Max : ℕ := 2 ^ 32 - 1

/-- The stored number as the abstract counter sees it. -/
def Storage.counter (s : Storage AccountId) : Option ℕ := s.something.map UInt32.toNat

/-- The outcome of a call on a counter, as the documentation has it: unsigned
calls are refused, `cause_error` fails on an unset and on a full counter. -/
def Extrinsic.outcome (x : Extrinsic AccountId) (counter : Option ℕ) :
    Except (DispatchError Error) Unit :=
  match x.origin, x.call with
  | .signed _, .doSomething _ => .ok ()
  | .signed _, .causeError =>
    match counter with
    | none => .error (.module .noneValue)
    | some v => if u32Max ≤ v then .error (.module .storageOverflow) else .ok ()
  | _, _ => .error .badOrigin

theorem Extrinsic.action_of_not_signed {x : Extrinsic AccountId}
    (h : x.origin.isSigned = false) : x.action = .skip := by
  rcases x with ⟨n, origin, call⟩
  cases origin with
  | signed who => cases h
  | root => rfl
  | none => rfl

theorem Extrinsic.event_of_not_signed {x : Extrinsic AccountId}
    (h : x.origin.isSigned = false) : x.event = none := by
  rcases x with ⟨n, origin, call⟩
  cases origin with
  | signed who => cases h
  | root => rfl
  | none => rfl

theorem Extrinsic.outcome_of_not_signed {x : Extrinsic AccountId}
    (h : x.origin.isSigned = false) (counter : Option ℕ) :
    x.outcome counter = .error .badOrigin := by
  rcases x with ⟨n, origin, call⟩
  cases origin with
  | signed who => cases h
  | root => rfl
  | none => rfl

/-! ## One call -/

section Step

variable {sys : System AccountId} (hsys : sys.Laws)
include hsys

/-- **Refinement, one step**: the stored number moves as the abstract counter
does. -/
theorem execute_counter {x : Extrinsic AccountId} (hn : 1 ≤ x.blockNumber)
    (s : Storage AccountId) :
    (execute sys x s).2.counter = Framework.ResetCounter.step u32Max s.counter x.action := by
  have heffect := execute_effect hsys hn s
  generalize execute sys x s = result at heffect
  cases heffect with
  | badOrigin horigin =>
      rw [Extrinsic.action_of_not_signed horigin]
      rfl
  | stored who something horigin hcall =>
      -- the argument is a word, so the ceiling does not cut it off
      have hmax : something.toNat ≤ u32Max := Nat.le_pred_of_lt something.toNat_lt
      simp [Storage.counter, Extrinsic.action, horigin, hcall, Framework.ResetCounter.step, hmax]
  | noneValue who horigin hcall hs =>
      simp [Storage.counter, Extrinsic.action, horigin, hcall, Framework.ResetCounter.step, hs]
  | overflow who v horigin hcall hs hv =>
      -- the call fails where the abstract counter stands still
      have hceiling : v.toNat = u32Max := hv
      simp [Storage.counter, Extrinsic.action, horigin, hcall, Framework.ResetCounter.step, hs,
        hceiling]
  | incremented who v w horigin hcall hs hw =>
      have hle : v.toNat + 1 ≤ u32Max := hw ▸ Nat.le_pred_of_lt w.toNat_lt
      simp [Storage.counter, Extrinsic.action, horigin, hcall, Framework.ResetCounter.step, hs,
        hw, hle]

theorem execute_events {x : Extrinsic AccountId} (hn : 1 ≤ x.blockNumber)
    (s : Storage AccountId) :
    (execute sys x s).2.events = s.events ++ x.event.toList := by
  have heffect := execute_effect hsys hn s
  generalize execute sys x s = result at heffect
  cases heffect with
  | badOrigin horigin => simp [Extrinsic.event_of_not_signed horigin]
  | stored who something horigin hcall => simp [Extrinsic.event, horigin, hcall]
  | noneValue who horigin hcall => simp [Extrinsic.event, horigin, hcall]
  | overflow who v horigin hcall => simp [Extrinsic.event, horigin, hcall]
  | incremented who v w horigin hcall => simp [Extrinsic.event, horigin, hcall]

/-- **Failed calls change nothing**: neither the item nor the event log. -/
theorem execute_error_frame {x : Extrinsic AccountId} (hn : 1 ≤ x.blockNumber)
    {s : Storage AccountId} {e : DispatchError Error} (he : (execute sys x s).1 = .error e) :
    (execute sys x s).2.something = s.something ∧ (execute sys x s).2.events = s.events := by
  have heffect := execute_effect hsys hn s
  generalize execute sys x s = result at heffect he
  cases heffect with
  | badOrigin => exact ⟨rfl, rfl⟩
  | stored => cases he
  | noneValue => exact ⟨rfl, rfl⟩
  | overflow => exact ⟨rfl, rfl⟩
  | incremented => cases he

/-- The outcome as a function of the call and the counter before it. -/
theorem execute_outcome {x : Extrinsic AccountId} (hn : 1 ≤ x.blockNumber)
    (s : Storage AccountId) :
    (execute sys x s).1 = x.outcome s.counter := by
  have heffect := execute_effect hsys hn s
  generalize execute sys x s = result at heffect
  cases heffect with
  | badOrigin horigin => rw [Extrinsic.outcome_of_not_signed horigin]
  | stored who something horigin hcall => simp [Extrinsic.outcome, horigin, hcall]
  | noneValue who horigin hcall hs =>
      simp [Extrinsic.outcome, horigin, hcall, Storage.counter, hs]
  | overflow who v horigin hcall hs hv =>
      have hceiling : v.toNat = u32Max := hv
      simp [Extrinsic.outcome, horigin, hcall, Storage.counter, hs, hceiling]
  | incremented who v w horigin hcall hs hw =>
      have hle : v.toNat + 1 ≤ u32Max := hw ▸ Nat.le_pred_of_lt w.toNat_lt
      have hlt : ¬ u32Max ≤ v.toNat := Nat.not_le_of_lt hle
      simp [Extrinsic.outcome, horigin, hcall, Storage.counter, hs, hlt]

/-! ## Whole runs -/

/-- **Refinement, whole runs**: the stored number is the abstract counter, run
over what the calls mean. -/
theorem runCalls_refines {xs : List (Extrinsic AccountId)} (hn : ∀ x ∈ xs, 1 ≤ x.blockNumber) :
    (runCalls sys xs).counter =
      (xs.map Extrinsic.action).foldl (Framework.ResetCounter.step u32Max) none := by
  induction xs using List.reverseRecOn with
  | nil => rfl
  | append_singleton xs x ih =>
      have hxs : ∀ y ∈ xs, 1 ≤ y.blockNumber := by
        intro y hy
        exact hn y (List.mem_append_left _ hy)
      rw [runCalls_snoc, execute_counter hsys (hn x (by simp)), ih hxs, List.map_append,
        List.foldl_append]
      rfl

theorem runCalls_counter {xs : List (Extrinsic AccountId)} (hn : ∀ x ∈ xs, 1 ≤ x.blockNumber) :
    (runCalls sys xs).counter =
      (lastStored xs).map fun s => min (s + causeErrorsSince xs) u32Max := by
  rw [runCalls_refines hsys hn]
  exact Framework.ResetCounter.foldl_step _ _

theorem runCalls_events {xs : List (Extrinsic AccountId)} (hn : ∀ x ∈ xs, 1 ≤ x.blockNumber) :
    (runCalls sys xs).events = xs.filterMap Extrinsic.event := by
  induction xs using List.reverseRecOn with
  | nil => rfl
  | append_singleton xs x ih =>
      have hxs : ∀ y ∈ xs, 1 ≤ y.blockNumber := by
        intro y hy
        exact hn y (List.mem_append_left _ hy)
      rw [runCalls_snoc, execute_events hsys (hn x (by simp)), ih hxs, List.filterMap_append]
      cases hx : x.event with
      | none => simp [hx]
      | some event => simp [hx]

end Step

/-- What is promised at one position of a run: `xs` are the calls before it and
`x` is the next one. -/
structure RunSpec (sys : System AccountId) (xs : List (Extrinsic AccountId))
    (x : Extrinsic AccountId) : Prop where
  something_unset : (runCalls sys xs).something = none ↔ lastStored xs = none
  something_value : ∀ s, lastStored xs = some s →
    ∃ v, (runCalls sys xs).something = some v ∧
      v.toNat = min (s + causeErrorsSince xs) (2 ^ 32 - 1)
  badOrigin_iff : (execute sys x (runCalls sys xs)).1 = .error .badOrigin ↔
    x.origin.isSigned = false
  doSomething_ok : x.origin.isSigned = true → ∀ something, x.call = .doSomething something →
    (execute sys x (runCalls sys xs)).1 = .ok ()
  causeError_noneValue : x.origin.isSigned = true → x.call = .causeError →
    ((execute sys x (runCalls sys xs)).1 = .error (.module .noneValue) ↔ lastStored xs = none)
  causeError_overflow : x.origin.isSigned = true → x.call = .causeError →
    ((execute sys x (runCalls sys xs)).1 = .error (.module .storageOverflow) ↔
      ∃ s, lastStored xs = some s ∧ s + causeErrorsSince xs ≥ 2 ^ 32 - 1)
  causeError_ok : x.origin.isSigned = true → x.call = .causeError →
    ((execute sys x (runCalls sys xs)).1 = .ok () ↔
      ∃ s, lastStored xs = some s ∧ s + causeErrorsSince xs < 2 ^ 32 - 1)
  error_frame : ∀ e, (execute sys x (runCalls sys xs)).1 = .error e →
    (execute sys x (runCalls sys xs)).2.something = (runCalls sys xs).something ∧
      (execute sys x (runCalls sys xs)).2.events = (runCalls sys xs).events
  events_eq : (runCalls sys xs).events = xs.filterMap Extrinsic.event
  events_next : (execute sys x (runCalls sys xs)).2.events =
    (runCalls sys xs).events ++ x.event.toList

section Position

variable {sys : System AccountId} (hsys : sys.Laws)
include hsys

theorem outcome_after {xs : List (Extrinsic AccountId)} (hxs : ∀ x ∈ xs, 1 ≤ x.blockNumber)
    {x : Extrinsic AccountId} (hn : 1 ≤ x.blockNumber) :
    (execute sys x (runCalls sys xs)).1 =
      x.outcome ((lastStored xs).map fun s => min (s + causeErrorsSince xs) u32Max) := by
  rw [execute_outcome hsys hn, runCalls_counter hsys hxs]

theorem causeError_outcome_after {xs : List (Extrinsic AccountId)}
    (hxs : ∀ x ∈ xs, 1 ≤ x.blockNumber) {x : Extrinsic AccountId} (hn : 1 ≤ x.blockNumber)
    (hsigned : x.origin.isSigned = true) (hcall : x.call = .causeError) :
    (execute sys x (runCalls sys xs)).1 =
      match lastStored xs with
      | none => .error (.module .noneValue)
      | some s =>
        if s + causeErrorsSince xs ≥ 2 ^ 32 - 1 then .error (.module .storageOverflow)
        else .ok () := by
  rw [outcome_after hsys hxs hn]
  rcases x with ⟨n, origin, call⟩
  obtain rfl : call = .causeError := hcall
  cases origin with
  | root => cases hsigned
  | none => cases hsigned
  | signed who =>
      cases lastStored xs with
      | none => rfl
      | some s =>
          have hfull : u32Max ≤ min (s + causeErrorsSince xs) u32Max ↔
              s + causeErrorsSince xs ≥ 2 ^ 32 - 1 := by
            unfold u32Max
            omega
          simp only [Extrinsic.outcome, Option.map_some, hfull]

theorem badOrigin_iff {x : Extrinsic AccountId} (hn : 1 ≤ x.blockNumber)
    (s : Storage AccountId) :
    (execute sys x s).1 = .error .badOrigin ↔ x.origin.isSigned = false := by
  have heffect := execute_effect hsys hn s
  generalize execute sys x s = result at heffect
  cases heffect with
  | badOrigin horigin => simp [horigin]
  | stored who something horigin => simp [horigin]
  | noneValue who horigin => simp [horigin]
  | overflow who v horigin => simp [horigin]
  | incremented who v w horigin => simp [horigin]

/-- **Every position of every run.** From the genesis storage, whatever calls
come in whatever order from whatever origins. -/
theorem run_spec (calls : List (Extrinsic AccountId))
    (hblocks : ∀ x ∈ calls, 1 ≤ x.blockNumber) (pre post : List (Extrinsic AccountId))
    (x : Extrinsic AccountId) (hposition : calls = pre ++ x :: post) : RunSpec sys pre x := by
  subst hposition
  have hpre : ∀ y ∈ pre, 1 ≤ y.blockNumber := by
    intro y hy
    exact hblocks y (List.mem_append_left _ hy)
  have hx : 1 ≤ x.blockNumber := hblocks x (by simp)
  have hcounter := runCalls_counter hsys hpre
  have hcause := causeError_outcome_after hsys hpre hx
  constructor
  case something_unset =>
    rw [← Option.map_eq_none_iff (f := UInt32.toNat), ← Storage.counter, hcounter,
      Option.map_eq_none_iff]
  case something_value =>
    intro s hs
    rw [hs] at hcounter
    exact Option.map_eq_some_iff.mp hcounter
  case badOrigin_iff => exact badOrigin_iff hsys hx _
  case doSomething_ok =>
    intro hsigned something hcall
    rw [outcome_after hsys hpre hx]
    rcases x with ⟨n, origin, call⟩
    obtain rfl : call = .doSomething something := hcall
    cases origin with
    | root => cases hsigned
    | none => cases hsigned
    | signed who => rfl
  case causeError_noneValue =>
    intro hsigned hcall
    rw [hcause hsigned hcall]
    cases lastStored pre with
    | none => exact iff_of_true rfl rfl
    | some s =>
        apply iff_of_false _ (Option.some_ne_none s)
        intro h
        dsimp only at h
        split at h
        · cases h
        · cases h
  case causeError_overflow =>
    intro hsigned hcall
    rw [hcause hsigned hcall]
    constructor
    · intro h
      cases hs : lastStored pre with
      | none => rw [hs] at h; cases h
      | some s =>
          refine ⟨s, rfl, ?_⟩
          by_contra hfull
          simp only [hs, if_neg hfull] at h
          cases h
    · rintro ⟨s, hs, hfull⟩
      rw [hs]
      exact if_pos hfull
  case causeError_ok =>
    intro hsigned hcall
    rw [hcause hsigned hcall]
    constructor
    · intro h
      cases hs : lastStored pre with
      | none => rw [hs] at h; cases h
      | some s =>
          refine ⟨s, rfl, ?_⟩
          by_contra hlt
          simp only [hs, if_pos (Nat.le_of_not_lt hlt)] at h
          cases h
    · rintro ⟨s, hs, hlt⟩
      rw [hs]
      exact if_neg (Nat.not_le_of_lt hlt)
  case error_frame =>
    intro e he
    exact execute_error_frame hsys hx he
  case events_eq => exact runCalls_events hsys hpre
  case events_next => exact execute_events hsys hx _

end Position

/-- A run into the ceiling: a `do_something` below it, one increment, a refused
reset, a failed increment, and the next one fails too. -/
theorem run_spec_at_ceiling :
    (execute (FrameSystem.documented ℕ Error (Event ℕ)) ⟨3, .signed 2, .causeError⟩
      (runCalls (FrameSystem.documented ℕ Error (Event ℕ))
        [⟨1, .signed 1, .doSomething 4294967294⟩, ⟨1, .signed 2, .causeError⟩,
          ⟨2, .root, .doSomething 5⟩, ⟨2, .signed 2, .causeError⟩])).1 =
      .error (.module .storageOverflow) := by
  have hspec := run_spec (FrameSystem.documented_laws ℕ Error (Event ℕ)) _ (by decide)
    [⟨1, .signed 1, .doSomething 4294967294⟩, ⟨1, .signed 2, .causeError⟩,
      ⟨2, .root, .doSomething 5⟩, ⟨2, .signed 2, .causeError⟩]
    [] ⟨3, .signed 2, .causeError⟩ rfl
  exact (hspec.causeError_overflow rfl rfl).mpr ⟨4294967294, rfl, by decide⟩

end SolochainTemplate.Pallet.Template

import SolochainTemplate.Pallet.TemplateRuns

/-!
# The order of calls

Who builds a block chooses the order of its calls. For the template pallet that
choice matters at one point only, where a `do_something` stands: between two of
them any order leaves the same storage and lets as many calls succeed, and after
one of them nothing that came before can be told from the item or from any later
outcome.
-/

namespace SolochainTemplate.Pallet.Template

open SolochainTemplate.Sdk
open Framework.ResetCounter (Action foldl_step_perm)

variable {AccountId : Type} (sys : System AccountId)

/-- The storage after a sequence of calls on any storage. -/
def runFrom (s : Storage AccountId) (xs : List (Extrinsic AccountId)) : Storage AccountId :=
  xs.foldl (fun s x => (execute sys x s).2) s

/-- The outcomes of the calls, in order. -/
def outcomes (s : Storage AccountId) :
    List (Extrinsic AccountId) → List (Except (DispatchError Error) Unit)
  | [] => []
  | x :: xs => (execute sys x s).1 :: outcomes (execute sys x s).2 xs

def isOk : Except (DispatchError Error) Unit → Bool
  | .ok _ => true
  | .error _ => false

/-- How many of the calls succeed. -/
def successes (s : Storage AccountId) (xs : List (Extrinsic AccountId)) : ℕ :=
  (outcomes sys s xs).countP isOk

/-- A signed `do_something`. -/
def Extrinsic.isStore (x : Extrinsic AccountId) : Bool := x.action.isReset

theorem something_eq_of_counter {s t : Storage AccountId} (h : s.counter = t.counter) :
    s.something = t.something :=
  Option.map_injective (fun _ _ => UInt32.toNat_inj.mp) h

section Order

variable {sys} (hsys : sys.Laws)
include hsys

theorem runFrom_counter {xs : List (Extrinsic AccountId)} (hn : ∀ x ∈ xs, 1 ≤ x.blockNumber)
    (s : Storage AccountId) :
    (runFrom sys s xs).counter =
      (xs.map Extrinsic.action).foldl (Framework.ResetCounter.step u32Max) s.counter := by
  induction xs generalizing s with
  | nil => rfl
  | cons x xs ih =>
      obtain ⟨hx, hxs⟩ := List.forall_mem_cons.mp hn
      rw [List.map_cons, List.foldl_cons, ← execute_counter hsys hx]
      exact ih hxs _

theorem runFrom_events {xs : List (Extrinsic AccountId)} (hn : ∀ x ∈ xs, 1 ≤ x.blockNumber)
    (s : Storage AccountId) :
    (runFrom sys s xs).events = s.events ++ xs.filterMap Extrinsic.event := by
  induction xs generalizing s with
  | nil => exact (List.append_nil _).symm
  | cons x xs ih =>
      obtain ⟨hx, hxs⟩ := List.forall_mem_cons.mp hn
      have hrest : (runFrom sys s (x :: xs)).events = _ := ih hxs (execute sys x s).2
      rw [hrest, execute_events hsys hx, List.append_assoc]
      cases hevent : x.event with
      | none => rw [List.filterMap_cons_none hevent]; rfl
      | some event => rw [List.filterMap_cons_some hevent]; rfl

/-- Without a `do_something` a call succeeds exactly if it raises the number. -/
theorem execute_raises {x : Extrinsic AccountId} (hn : 1 ≤ x.blockNumber)
    (hx : x.isStore = false) (s : Storage AccountId) :
    ((execute sys x s).2.counter).getD 0 =
      s.counter.getD 0 + if isOk (execute sys x s).1 then 1 else 0 := by
  have heffect := execute_effect hsys hn s
  generalize execute sys x s = result at heffect
  cases heffect with
  | badOrigin horigin => rfl
  | stored who something horigin hcall =>
      simp [Extrinsic.isStore, Extrinsic.action, horigin, hcall, Action.isReset] at hx
  | noneValue who horigin hcall hs => rfl
  | overflow who v horigin hcall hs hv => rfl
  | incremented who v w horigin hcall hs hw => simp [Storage.counter, hs, hw, isOk]

theorem runFrom_raises {xs : List (Extrinsic AccountId)} (hn : ∀ x ∈ xs, 1 ≤ x.blockNumber)
    (hxs : ∀ x ∈ xs, x.isStore = false) (s : Storage AccountId) :
    ((runFrom sys s xs).counter).getD 0 = s.counter.getD 0 + successes sys s xs := by
  induction xs generalizing s with
  | nil => rfl
  | cons x xs ih =>
      obtain ⟨hx, hn'⟩ := List.forall_mem_cons.mp hn
      obtain ⟨hstore, hxs'⟩ := List.forall_mem_cons.mp hxs
      have hfirst := execute_raises hsys hx hstore s
      have hrest : ((runFrom sys s (x :: xs)).counter).getD 0 = _ :=
        ih hn' hxs' (execute sys x s).2
      rw [hrest, hfirst, Nat.add_assoc]
      congr 1
      unfold successes
      rw [outcomes, List.countP_cons, Nat.add_comm]

theorem outcomes_congr {xs : List (Extrinsic AccountId)} (hn : ∀ x ∈ xs, 1 ≤ x.blockNumber)
    {s t : Storage AccountId} (h : s.counter = t.counter) :
    outcomes sys s xs = outcomes sys t xs := by
  induction xs generalizing s t with
  | nil => rfl
  | cons x xs ih =>
      obtain ⟨hx, hxs⟩ := List.forall_mem_cons.mp hn
      have hnext : (execute sys x s).2.counter = (execute sys x t).2.counter := by
        rw [execute_counter hsys hx, execute_counter hsys hx, h]
      rw [outcomes, outcomes, execute_outcome hsys hx, execute_outcome hsys hx, h,
        ih hxs hnext]

theorem execute_store_counter {x : Extrinsic AccountId} (hn : 1 ≤ x.blockNumber)
    (hx : x.isStore = true) (s t : Storage AccountId) :
    (execute sys x s).2.counter = (execute sys x t).2.counter := by
  rw [execute_counter hsys hn, execute_counter hsys hn]
  unfold Extrinsic.isStore at hx
  cases haction : x.action with
  | reset n => rfl
  | tick => rw [haction] at hx; cases hx
  | skip => rw [haction] at hx; cases hx

omit hsys in
theorem event_of_not_store {x : Extrinsic AccountId} (hx : x.isStore = false) :
    x.event = none := by
  rcases x with ⟨n, origin, call⟩
  cases origin with
  | root => rfl
  | none => rfl
  | signed who =>
      cases call with
      | doSomething something => cases hx
      | causeError => rfl

end Order

/-- **Between two `do_something` the order of calls does not matter**: from any
storage, two orders of the same calls leave the same item and the same event log
and let as many calls succeed. -/
theorem order_irrelevant (sys : System AccountId) (hsys : sys.Laws) (s : Storage AccountId)
    (xs ys : List (Extrinsic AccountId)) (hperm : xs.Perm ys)
    (hn : ∀ x ∈ xs, 1 ≤ x.blockNumber) (hstore : ∀ x ∈ xs, x.isStore = false) :
    (runFrom sys s xs).something = (runFrom sys s ys).something ∧
      (runFrom sys s xs).events = (runFrom sys s ys).events ∧
      successes sys s xs = successes sys s ys := by
  have hn' : ∀ y ∈ ys, 1 ≤ y.blockNumber := by
    intro y hy
    exact hn y (hperm.mem_iff.mpr hy)
  have hstore' : ∀ y ∈ ys, y.isStore = false := by
    intro y hy
    exact hstore y (hperm.mem_iff.mpr hy)
  have hcounter : (runFrom sys s xs).counter = (runFrom sys s ys).counter := by
    rw [runFrom_counter hsys hn, runFrom_counter hsys hn']
    apply foldl_step_perm (hperm.map _)
    intro a ha
    obtain ⟨x, hx, rfl⟩ := List.mem_map.mp ha
    exact hstore x hx
  refine ⟨something_eq_of_counter hcounter, ?_, ?_⟩
  · have hnone : ∀ zs : List (Extrinsic AccountId), (∀ z ∈ zs, z.isStore = false) →
        zs.filterMap Extrinsic.event = [] := by
      intro zs hzs
      rw [List.filterMap_eq_nil_iff]
      intro z hz
      exact event_of_not_store (hzs z hz)
    rw [runFrom_events hsys hn, runFrom_events hsys hn', hnone xs hstore, hnone ys hstore']
  · have hraised := runFrom_raises hsys hn hstore s
    rw [hcounter, runFrom_raises hsys hn' hstore' s] at hraised
    exact (Nat.add_left_cancel hraised).symm

/-- Two orders into the ceiling: the unsigned call and the failing one change
places. -/
theorem order_irrelevant_at_ceiling :
    successes (FrameSystem.documented ℕ Error (Event ℕ)) ⟨0, some 4294967294, []⟩
        [⟨1, .signed 1, .causeError⟩, ⟨1, .signed 2, .causeError⟩, ⟨1, .root, .causeError⟩] =
      successes (FrameSystem.documented ℕ Error (Event ℕ)) ⟨0, some 4294967294, []⟩
        [⟨1, .root, .causeError⟩, ⟨1, .signed 2, .causeError⟩, ⟨1, .signed 1, .causeError⟩] :=
  (order_irrelevant (FrameSystem.documented ℕ Error (Event ℕ))
    (FrameSystem.documented_laws ℕ Error (Event ℕ)) ⟨0, some 4294967294, []⟩
    [⟨1, .signed 1, .causeError⟩, ⟨1, .signed 2, .causeError⟩, ⟨1, .root, .causeError⟩]
    [⟨1, .root, .causeError⟩, ⟨1, .signed 2, .causeError⟩, ⟨1, .signed 1, .causeError⟩]
    (by decide) (by decide) (by decide)).2.2

/-- **A `do_something` is a checkpoint**: what two storages held before it shows
neither in the item nor in the outcome of any later call. -/
theorem store_checkpoint (sys : System AccountId) (hsys : sys.Laws) (s t : Storage AccountId)
    (x : Extrinsic AccountId) (hx : x.isStore = true) (xs : List (Extrinsic AccountId))
    (hn : ∀ y ∈ x :: xs, 1 ≤ y.blockNumber) :
    (runFrom sys s (x :: xs)).something = (runFrom sys t (x :: xs)).something ∧
      outcomes sys (execute sys x s).2 xs = outcomes sys (execute sys x t).2 xs := by
  obtain ⟨hfirst, hrest⟩ := List.forall_mem_cons.mp hn
  have hsame := execute_store_counter hsys hfirst hx s t
  refine ⟨something_eq_of_counter ?_, outcomes_congr hsys hrest hsame⟩
  show (runFrom sys (execute sys x s).2 xs).counter = (runFrom sys (execute sys x t).2 xs).counter
  rw [runFrom_counter hsys hrest, runFrom_counter hsys hrest, hsame]

/-- One storage is unset, the other full; after a `do_something` an increment
succeeds on both. -/
theorem store_checkpoint_unset_full :
    outcomes (FrameSystem.documented ℕ Error (Event ℕ))
        (execute (FrameSystem.documented ℕ Error (Event ℕ)) ⟨1, .signed 1, .doSomething 5⟩
          ⟨0, none, []⟩).2 [⟨1, .signed 2, .causeError⟩] =
      outcomes (FrameSystem.documented ℕ Error (Event ℕ))
        (execute (FrameSystem.documented ℕ Error (Event ℕ)) ⟨1, .signed 1, .doSomething 5⟩
          ⟨0, some 4294967295, []⟩).2 [⟨1, .signed 2, .causeError⟩] :=
  (store_checkpoint (FrameSystem.documented ℕ Error (Event ℕ))
    (FrameSystem.documented_laws ℕ Error (Event ℕ)) ⟨0, none, []⟩ ⟨0, some 4294967295, []⟩
    ⟨1, .signed 1, .doSomething 5⟩ rfl [⟨1, .signed 2, .causeError⟩] (by decide)).2

end SolochainTemplate.Pallet.Template

import Mathlib.Data.List.Induction
import Mathlib.Order.MinMax
import SolochainTemplate.Pallet.Template

/-!
# Weights of the template pallet

`pallets/template/src/weights.rs` declares what a call costs, from the accesses
to `Something` that the benchmarks of `pallets/template/src/benchmarking.rs`
measured. Here the dispatchables are run with a count of these accesses beside
the storage; what `deposit_event` reads and writes in `frame_system` is not
counted, nor listed in `weights.rs`. The counting run is the plain one with the
count erased (`runCounted_storage`), the declared weight covers what it counts on
every path, and the benchmarks take the path that costs most.
-/

namespace SolochainTemplate.Pallet.Template

open SolochainTemplate.Sdk

/-! ## The weight functions -/

/-- The trait `WeightInfo`. -/
structure WeightInfo where
  doSomething : Weight
  causeError : Weight
deriving DecidableEq, Repr

variable (weights : WeightSdk)

/-- The `Weight::from_parts` of the two calls. -/
def doSomethingBase : Weight := ⟨9000000, 0⟩

def causeErrorBase : Weight := ⟨6000000, 1489⟩

/-- The two implementations differ in the database only. -/
def weightInfo (db : RuntimeDbWeight) : WeightInfo where
  doSomething := weights.saturatingAdd doSomethingBase (weights.writes db 1)
  causeError :=
    weights.saturatingAdd (weights.saturatingAdd causeErrorBase (weights.reads db 1))
      (weights.writes db 1)

/-- `impl WeightInfo for SubstrateWeight<T>`, with the runtime's `DbWeight`. -/
def substrateWeight (dbWeight : RuntimeDbWeight) : WeightInfo := weightInfo weights dbWeight

/-- `impl WeightInfo for ()`, with `RocksDbWeight`. -/
def unitWeight (rocksDbWeight : RuntimeDbWeight) : WeightInfo := weightInfo weights rocksDbWeight

/-- The `#[pallet::weight]` of a call. -/
def Call.weight (info : WeightInfo) : Call → Weight
  | .doSomething _ => info.doSomething
  | .causeError => info.causeError

/-! ## Counting accesses -/

/-- Accesses to `Something`. -/
structure Accesses where
  reads : ℕ
  writes : ℕ
deriving DecidableEq, Repr

def Accesses.add (c d : Accesses) : Accesses := ⟨c.reads + d.reads, c.writes + d.writes⟩

/-- What a number of accesses costs. -/
def Accesses.cost (db : RuntimeDbWeight) (c : Accesses) : ℕ :=
  c.reads * db.read + c.writes * db.write

variable {AccountId α : Type}

/-- An operation on the storage, with what it adds to a count. -/
def counted (accesses : Accesses) (op : Dispatch (Storage AccountId) α) :
    Dispatch (Storage AccountId × Accesses) α :=
  ExceptT.mk fun (s, c) => ((op.run s).1, (op.run s).2, c.add accesses)

variable (sys : System AccountId)

/-- The storage operations with the accesses to `Something` counted. -/
def countedApi : StorageApi AccountId (Storage AccountId × Accesses) where
  putSomething value := counted ⟨0, 1⟩ ((storageApi sys).putSomething value)
  getSomething := counted ⟨1, 0⟩ (storageApi sys).getSomething
  depositEvent event := counted ⟨0, 0⟩ ((storageApi sys).depositEvent event)

/-- `execute` with a count. -/
def executeCounted (x : Extrinsic AccountId) (s : Storage AccountId) (c : Accesses) :
    Except (DispatchError Error) Unit × Storage AccountId × Accesses :=
  (x.call.dispatch sys (countedApi sys) x.origin).run ({ s with blockNumber := x.blockNumber }, c)

/-- The accesses a call makes, read off its outcome. -/
def accessesOf (call : Call) (outcome : Except (DispatchError Error) Unit) : Accesses :=
  match call, outcome with
  | .doSomething _, .ok _ => ⟨0, 1⟩
  | .causeError, .ok _ => ⟨1, 1⟩
  | .causeError, .error (.module _) => ⟨1, 0⟩
  | _, .error _ => ⟨0, 0⟩

/-- A run with a count. -/
def runCounted (xs : List (Extrinsic AccountId)) : Storage AccountId × Accesses :=
  xs.foldl (fun (s, c) x => (executeCounted sys x s c).2) (genesis AccountId, ⟨0, 0⟩)

/-- The declared weight of a run, added up as the block does. -/
def declaredWeight (info : WeightInfo) (xs : List (Extrinsic AccountId)) : Weight :=
  xs.foldl (fun w x => weights.saturatingAdd w (x.call.weight info)) ⟨0, 0⟩

section Spec

variable {sys} (hsys : sys.Laws)
include hsys

/-- **Erasing the count gives the plain call**, and the count grows by what the
outcome says. -/
theorem executeCounted_eq (x : Extrinsic AccountId) (s : Storage AccountId) (c : Accesses) :
    executeCounted sys x s c =
      ((execute sys x s).1, (execute sys x s).2,
        c.add (accessesOf x.call (execute sys x s).1)) := by
  rcases x with ⟨n, origin, call⟩
  rcases s with ⟨m, something, events⟩
  by_cases hsigned : origin.isSigned = false
  · have hbad := hsys.ensureSigned_of_not_signed hsigned
    rw [execute_of_not_signed hsys hsigned]
    cases call with
    | doSomething value =>
        simp only [executeCounted, Call.dispatch, doSomething, hbad]
        rfl
    | causeError =>
        simp only [executeCounted, Call.dispatch, causeError, hbad]
        rfl
  · cases origin with
    | root => exact absurd rfl hsigned
    | none => exact absurd rfl hsigned
    | signed who =>
        cases call with
        | doSomething value =>
            simp only [executeCounted, execute, Call.dispatch, doSomething,
              hsys.ensureSigned_signed]
            rfl
        | causeError =>
            rw [execute_causeError hsys]
            have hget : (countedApi sys).getSomething.run (⟨n, something, events⟩, c) =
                (.ok something, ⟨n, something, events⟩, c.add ⟨1, 0⟩) := rfl
            simp only [executeCounted, Call.dispatch, causeError]
            rw [run_bind_ok (run_ensureSigned hsys who _), run_bind_ok hget]
            cases something with
            | none => rfl
            | some old => cases hadd : checkedAdd old 1 <;> simp only [hadd] <;> rfl

theorem runCounted_snoc (xs : List (Extrinsic AccountId)) (x : Extrinsic AccountId) :
    runCounted sys (xs ++ [x]) =
      ((execute sys x (runCounted sys xs).1).2,
        (runCounted sys xs).2.add (accessesOf x.call (execute sys x (runCounted sys xs).1).1)) := by
  rw [runCounted, List.foldl_append]
  exact congrArg Prod.snd (executeCounted_eq hsys x _ _)

theorem runCounted_storage (xs : List (Extrinsic AccountId)) :
    (runCounted sys xs).1 = runCalls sys xs := by
  induction xs using List.reverseRecOn with
  | nil => rfl
  | append_singleton xs x ih => rw [runCounted_snoc hsys, runCalls_snoc, ih]

end Spec

/-! ## The declared weight covers the accesses -/

/-- The weight of a call without its accesses. -/
def Call.baseWeight : Call → Weight
  | .doSomething _ => doSomethingBase
  | .causeError => causeErrorBase

/-- No path makes more accesses than the successful one. -/
theorem accessesOf_le (call : Call) (outcome : Except (DispatchError Error) Unit) :
    (accessesOf call outcome).reads ≤ (accessesOf call (.ok ())).reads ∧
      (accessesOf call outcome).writes ≤ (accessesOf call (.ok ())).writes := by
  cases call with
  | doSomething value =>
      cases outcome with
      | error e => exact ⟨Nat.zero_le _, Nat.zero_le _⟩
      | ok u => exact ⟨le_rfl, le_rfl⟩
  | causeError =>
      cases outcome with
      | error e =>
          cases e with
          | badOrigin => exact ⟨Nat.zero_le _, Nat.zero_le _⟩
          | module e => exact ⟨le_rfl, Nat.zero_le _⟩
      | ok u => exact ⟨le_rfl, le_rfl⟩

theorem cost_le {c d : Accesses} (db : RuntimeDbWeight) (hreads : c.reads ≤ d.reads)
    (hwrites : c.writes ≤ d.writes) : c.cost db ≤ d.cost db :=
  Nat.add_le_add (Nat.mul_le_mul_right _ hreads) (Nat.mul_le_mul_right _ hwrites)

theorem cost_add (db : RuntimeDbWeight) (c d : Accesses) :
    (c.add d).cost db = c.cost db + d.cost db := by
  unfold Accesses.cost Accesses.add
  dsimp only
  rw [Nat.add_mul, Nat.add_mul]
  omega

section Cover

variable {weights} (hweights : weights.Laws) (db : RuntimeDbWeight)
include hweights

/-- A weight is the base weight and the accesses of a successful call. -/
theorem weight_eq (call : Call) :
    call.weight (weightInfo weights db) =
      ⟨min (call.baseWeight.refTime + (accessesOf call (.ok ())).cost db) u64Max,
        call.baseWeight.proofSize⟩ := by
  cases call with
  | doSomething value =>
      show weights.saturatingAdd doSomethingBase (weights.writes db 1) = _
      rw [hweights.saturatingAdd_eq, hweights.writes_eq]
      simp only [Weight.mk.injEq, Call.baseWeight, doSomethingBase, accessesOf, Accesses.cost]
      exact ⟨by omega, by decide⟩
  | causeError =>
      show weights.saturatingAdd (weights.saturatingAdd causeErrorBase (weights.reads db 1))
        (weights.writes db 1) = _
      rw [hweights.saturatingAdd_eq, hweights.saturatingAdd_eq, hweights.reads_eq,
        hweights.writes_eq]
      simp only [Weight.mk.injEq, Call.baseWeight, causeErrorBase, accessesOf, Accesses.cost]
      exact ⟨by omega, by decide⟩

/-- On every path a call costs the database no more than its weight says; the
weight itself stops at the end of the word. -/
theorem cost_le_weight (call : Call) (outcome : Except (DispatchError Error) Unit) :
    min ((accessesOf call outcome).cost db) u64Max ≤
      (call.weight (weightInfo weights db)).refTime := by
  obtain ⟨hreads, hwrites⟩ := accessesOf_le call outcome
  rw [weight_eq hweights]
  apply min_le_min _ le_rfl
  exact le_trans (cost_le db hreads hwrites) (Nat.le_add_left _ _)

theorem declaredWeight_snoc (info : WeightInfo) (xs : List (Extrinsic AccountId))
    (x : Extrinsic AccountId) :
    (declaredWeight weights info (xs ++ [x])).refTime =
      min ((declaredWeight weights info xs).refTime + (x.call.weight info).refTime) u64Max := by
  rw [declaredWeight, List.foldl_append, List.foldl_cons, List.foldl_nil,
    hweights.saturatingAdd_eq]
  rfl

theorem runCounted_cost {sys : System AccountId} (hsys : sys.Laws)
    (xs : List (Extrinsic AccountId)) :
    min ((runCounted sys xs).2.cost db) u64Max ≤
      (declaredWeight weights (weightInfo weights db) xs).refTime := by
  induction xs using List.reverseRecOn with
  | nil =>
      show min (0 * db.read + 0 * db.write) u64Max ≤ 0
      simp
  | append_singleton xs x ih =>
      have hcall := cost_le_weight hweights db x.call (execute sys x (runCounted sys xs).1).1
      rw [runCounted_snoc hsys, cost_add, declaredWeight_snoc hweights]
      generalize (runCounted sys xs).2.cost db = before at *
      generalize Accesses.cost db _ = cost at *
      omega

end Cover

/-- **The declared weights cover every run.** Counting the accesses to `Something`
changes nothing about a run; whatever calls it makes, with whatever origins and
outcomes, these accesses cost at most the sum of the declared weights, up to the
end of the word. -/
theorem run_weight_covers (sys : System AccountId) (hsys : sys.Laws) (weights : WeightSdk)
    (hweights : weights.Laws) (dbWeight : RuntimeDbWeight) (xs : List (Extrinsic AccountId)) :
    (runCounted sys xs).1 = runCalls sys xs ∧
      min ((runCounted sys xs).2.cost dbWeight) u64Max ≤
        (declaredWeight weights (substrateWeight weights dbWeight) xs).refTime :=
  ⟨runCounted_storage hsys xs, runCounted_cost hweights dbWeight hsys xs⟩

theorem run_weight_covers_one_failure :
    min ((runCounted (FrameSystem.documented ℕ Error (Event ℕ))
        [⟨1, .signed 7, .causeError⟩, ⟨1, .signed 7, .doSomething 5⟩]).2.cost ⟨25000, 100000⟩)
        u64Max ≤
      (declaredWeight WeightSdk.documented (substrateWeight WeightSdk.documented ⟨25000, 100000⟩)
        ([⟨1, .signed 7, .causeError⟩, ⟨1, .signed 7, .doSomething 5⟩] :
          List (Extrinsic ℕ))).refTime :=
  (run_weight_covers (FrameSystem.documented ℕ Error (Event ℕ))
    (FrameSystem.documented_laws ℕ Error (Event ℕ)) WeightSdk.documented
    WeightSdk.documented_laws ⟨25000, 100000⟩ _).2

/-! ## The benchmarks -/

section Benchmarks

variable (sys : System AccountId)

/-- The extrinsic call and the assertion after it: the accesses, if it passes. -/
def benchmarkCall (x : Extrinsic AccountId) (s : Storage AccountId) (expected : UInt32) :
    Option Accesses :=
  match executeCounted sys x s ⟨0, 0⟩ with
  | (.ok _, s', c) => if s'.something = some expected then some c else none
  | (.error _, _, _) => none

/-- The benchmark `do_something`. -/
def benchmarkDoSomething (blockNumber : ℕ) (caller : AccountId) (s : Storage AccountId) :
    Option Accesses :=
  let value := 100
  benchmarkCall sys ⟨blockNumber, .signed caller, .doSomething value⟩ s value

/-- The benchmark `cause_error`. -/
def benchmarkCauseError (blockNumber : ℕ) (caller : AccountId) (s : Storage AccountId) :
    Option Accesses :=
  benchmarkCall sys ⟨blockNumber, .signed caller, .causeError⟩ { s with something := some 100 } 101

end Benchmarks

section BenchmarkSpec

variable {sys : System AccountId} (hsys : sys.Laws)
include hsys

theorem benchmarkDoSomething_eq {blockNumber : ℕ} (hblock : 1 ≤ blockNumber) (caller : AccountId)
    (s : Storage AccountId) : benchmarkDoSomething sys blockNumber caller s = some ⟨0, 1⟩ := by
  show benchmarkCall sys ⟨blockNumber, .signed caller, .doSomething 100⟩ s 100 = _
  unfold benchmarkCall
  rw [executeCounted_eq hsys, execute_doSomething hsys hblock]
  rfl

theorem benchmarkCauseError_eq (blockNumber : ℕ) (caller : AccountId) (s : Storage AccountId) :
    benchmarkCauseError sys blockNumber caller s = some ⟨1, 1⟩ := by
  unfold benchmarkCauseError benchmarkCall
  rw [executeCounted_eq hsys, execute_causeError hsys]
  rfl

theorem executeCounted_le (x : Extrinsic AccountId) (s : Storage AccountId) :
    (executeCounted sys x s ⟨0, 0⟩).2.2.reads ≤ (accessesOf x.call (.ok ())).reads ∧
      (executeCounted sys x s ⟨0, 0⟩).2.2.writes ≤ (accessesOf x.call (.ok ())).writes := by
  rw [executeCounted_eq hsys]
  unfold Accesses.add
  dsimp only
  rw [Nat.zero_add, Nat.zero_add]
  exact accessesOf_le _ _

end BenchmarkSpec

/-- **The benchmarks pass and measure the dearest path.** On any storage both
succeed; no run of the same dispatchable makes more accesses to `Something` than
they count, and the weight is the base weight and exactly that count. -/
theorem benchmarks_measure_worst (sys : System AccountId) (hsys : sys.Laws) (weights : WeightSdk)
    (hweights : weights.Laws) (dbWeight : RuntimeDbWeight) (blockNumber : ℕ)
    (hblock : 1 ≤ blockNumber) (caller : AccountId) (s : Storage AccountId) (call : Call) :
    ∃ c : Accesses,
      (match call with
        | .doSomething _ => benchmarkDoSomething sys blockNumber caller s
        | .causeError => benchmarkCauseError sys blockNumber caller s) = some c ∧
      (∀ n origin s', (executeCounted sys ⟨n, origin, call⟩ s' ⟨0, 0⟩).2.2.reads ≤ c.reads ∧
        (executeCounted sys ⟨n, origin, call⟩ s' ⟨0, 0⟩).2.2.writes ≤ c.writes) ∧
      call.weight (substrateWeight weights dbWeight) =
        ⟨min (call.baseWeight.refTime + c.cost dbWeight) u64Max, call.baseWeight.proofSize⟩ := by
  refine ⟨accessesOf call (.ok ()), ?_, ?_, weight_eq hweights dbWeight call⟩
  · cases call with
    | doSomething value => exact benchmarkDoSomething_eq hsys hblock caller s
    | causeError => exact benchmarkCauseError_eq hsys blockNumber caller s
  · intro n origin s'
    exact executeCounted_le hsys ⟨n, origin, call⟩ s'

theorem benchmarks_measure_worst_causeError :
    ∃ c : Accesses,
      benchmarkCauseError (FrameSystem.documented ℕ Error (Event ℕ)) 1 7 (genesis ℕ) = some c ∧
      (substrateWeight WeightSdk.documented ⟨25000, 100000⟩).causeError =
        ⟨6000000 + c.cost ⟨25000, 100000⟩, 1489⟩ := by
  obtain ⟨c, hpass, -, hweight⟩ := benchmarks_measure_worst
    (FrameSystem.documented ℕ Error (Event ℕ)) (FrameSystem.documented_laws ℕ Error (Event ℕ))
    WeightSdk.documented WeightSdk.documented_laws ⟨25000, 100000⟩ 1 (by decide) 7 (genesis ℕ)
    .causeError
  obtain rfl : c = ⟨1, 1⟩ := Option.some.inj (hpass.symm.trans rfl)
  have hsum : 6000000 + Accesses.cost ⟨25000, 100000⟩ ⟨1, 1⟩ ≤ u64Max := by decide
  exact ⟨_, hpass, hweight.trans (congrArg (Weight.mk · 1489) (min_eq_left hsum))⟩

end SolochainTemplate.Pallet.Template

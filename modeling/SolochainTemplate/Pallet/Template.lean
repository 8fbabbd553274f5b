import Mathlib.Algebra.Group.Nat.Defs
import Mathlib.Tactic.SplitIfs
import SolochainTemplate.Sdk.FrameSystem

/-!
# The template pallet

`pallets/template/src/lib.rs`: one storage item, two dispatchables. A
dispatchable may change the storage before it fails, so the storage is threaded
through failures too: nothing is rolled back by the types used here.
-/

namespace SolochainTemplate.Pallet.Template

open SolochainTemplate.Sdk

/-! ## Storage, events and errors -/

/-- `Event`, the one event of the pallet. -/
inductive Event (AccountId : Type) where
  | somethingStored (something : UInt32) (who : AccountId)
deriving DecidableEq, Repr

/-- `Error`. -/
inductive Error where
  | noneValue
  | storageOverflow
deriving DecidableEq, Repr

/-- The storage the pallet reads and writes: its own item `Something`, the
block number and the event log of `frame_system`. -/
structure Storage (AccountId : Type) where
  blockNumber : ℕ
  something : Option UInt32
  events : List (Event AccountId)
deriving DecidableEq, Repr

/-- The storage of the genesis block: `Something` is not set. -/
def genesis (AccountId : Type) : Storage AccountId :=
  { blockNumber := 0, something := none, events := [] }

abbrev System (AccountId : Type) : Type := FrameSystem AccountId Error (Event AccountId)

variable {AccountId σ : Type}

/-- Code that may fail and may change a state, failing or not. -/
abbrev Dispatch (σ α : Type) : Type :=
  ExceptT (DispatchError Error) (StateM σ) α

/-- The storage operations the dispatchables are written with, on a state `σ`. -/
structure StorageApi (AccountId σ : Type) where
  /-- `Something::<T>::put`. -/
  putSomething : UInt32 → Dispatch σ Unit
  /-- `Something::<T>::get`. -/
  getSomething : Dispatch σ (Option UInt32)
  /-- The generated `Pallet::deposit_event`. -/
  depositEvent : Event AccountId → Dispatch σ Unit

variable (sys : System AccountId)

/-- The operations on the storage itself. -/
def storageApi : StorageApi AccountId (Storage AccountId) where
  putSomething value := modify fun s => { s with something := some value }
  getSomething := do return (← get).something
  depositEvent event :=
    modify fun s => { s with events := sys.depositEvent s.blockNumber event s.events }

/-! ## The dispatchables -/

/-- `u32::checked_add`. -/
def checkedAdd (a b : UInt32) : Option UInt32 :=
  if a.toNat + b.toNat < 2 ^ 32 then some (a + b) else none

variable (api : StorageApi AccountId σ)

/-- `Pallet::do_something`. -/
def doSomething (origin : RawOrigin AccountId) (something : UInt32) : Dispatch σ Unit := do
  let who ← ofExcept (sys.ensureSigned origin)
  api.putSomething something
  api.depositEvent (.somethingStored something who)

/-- `Pallet::cause_error`. -/
def causeError (origin : RawOrigin AccountId) : Dispatch σ Unit := do
  let _who ← ofExcept (sys.ensureSigned origin)
  match ← api.getSomething with
  | none => throw (.module .noneValue)
  | some old =>
    match checkedAdd old 1 with
    | none => throw (.module .storageOverflow)
    | some new => api.putSomething new

/-! ## Executing calls -/

/-- `Call`. -/
inductive Call where
  | doSomething (something : UInt32)
  | causeError
deriving DecidableEq, Repr

def Call.dispatch (call : Call) (origin : RawOrigin AccountId) : Dispatch σ Unit :=
  match call with
  | .doSomething something => Template.doSomething sys api origin something
  | .causeError => Template.causeError sys api origin

/-- A call as a block executes it. -/
structure Extrinsic (AccountId : Type) where
  blockNumber : ℕ
  origin : RawOrigin AccountId
  call : Call
deriving DecidableEq, Repr

/-- Executing one call in its block: the outcome and the storage after it. -/
def execute (x : Extrinsic AccountId) (s : Storage AccountId) :
    Except (DispatchError Error) Unit × Storage AccountId :=
  (x.call.dispatch sys (storageApi sys) x.origin).run { s with blockNumber := x.blockNumber }

/-- The storage after a sequence of calls, failed ones included. -/
def runCalls (xs : List (Extrinsic AccountId)) : Storage AccountId :=
  xs.foldl (fun s x => (execute sys x s).2) (genesis AccountId)

theorem runCalls_snoc (xs : List (Extrinsic AccountId)) (x : Extrinsic AccountId) :
    runCalls sys (xs ++ [x]) = (execute sys x (runCalls sys xs)).2 := by
  rw [runCalls, List.foldl_append]
  rfl

/-! ## The checked increment -/

theorem checkedAdd_one_eq_none {v : UInt32} :
    checkedAdd v 1 = none ↔ v.toNat = 2 ^ 32 - 1 := by
  have hv := v.toNat_lt
  have hone : (1 : UInt32).toNat = 1 := rfl
  rw [checkedAdd, hone]
  split_ifs with h
  · simp only [false_iff]
    omega
  · simp only [true_iff]
    omega

theorem checkedAdd_one_eq_some {v w : UInt32} (h : checkedAdd v 1 = some w) :
    w.toNat = v.toNat + 1 := by
  have hone : (1 : UInt32).toNat = 1 := rfl
  rw [checkedAdd, hone] at h
  split_ifs at h with hlt
  rw [← Option.some.inj h, UInt32.toNat_add, hone, Nat.mod_eq_of_lt hlt]

/-! ## Running a dispatchable step by step -/

/-- A step that succeeds hands its value and its state to what follows. -/
theorem run_bind_ok {α β : Type} {op : Dispatch σ α} {f : α → Dispatch σ β} {s s' : σ} {a : α}
    (hop : op.run s = (.ok a, s')) : (op >>= f).run s = (f a).run s' := by
  have hbind : (op >>= f).run s =
      (ExceptT.bindCont f (op.run s).1 : StateM σ (Except (DispatchError Error) β))
        (op.run s).2 := rfl
  rw [hbind, hop]
  rfl

theorem run_ensureSigned {sys : System AccountId} (hsys : sys.Laws) (who : AccountId) (s : σ) :
    (ofExcept (sys.ensureSigned (.signed who)) : Dispatch σ AccountId).run s = (.ok who, s) := by
  rw [hsys.ensureSigned_signed]
  rfl

/-! ## What each call does -/

/-- Everything a call can do: its outcome and the storage after it. -/
inductive Effect (x : Extrinsic AccountId) (s : Storage AccountId) :
    Except (DispatchError Error) Unit × Storage AccountId → Prop where
  | badOrigin (horigin : x.origin.isSigned = false) :
      Effect x s (.error .badOrigin, { s with blockNumber := x.blockNumber })
  | stored (who : AccountId) (something : UInt32) (horigin : x.origin = .signed who)
      (hcall : x.call = .doSomething something) :
      Effect x s (.ok (), { blockNumber := x.blockNumber, something := some something,
                            events := s.events ++ [.somethingStored something who] })
  | noneValue (who : AccountId) (horigin : x.origin = .signed who)
      (hcall : x.call = .causeError) (hs : s.something = none) :
      Effect x s (.error (.module .noneValue), { s with blockNumber := x.blockNumber })
  | overflow (who : AccountId) (v : UInt32) (horigin : x.origin = .signed who)
      (hcall : x.call = .causeError) (hs : s.something = some v)
      (hv : v.toNat = 2 ^ 32 - 1) :
      Effect x s (.error (.module .storageOverflow), { s with blockNumber := x.blockNumber })
  | incremented (who : AccountId) (v w : UInt32) (horigin : x.origin = .signed who)
      (hcall : x.call = .causeError) (hs : s.something = some v)
      (hw : w.toNat = v.toNat + 1) :
      Effect x s (.ok (), { s with blockNumber := x.blockNumber, something := some w })

section Spec

variable {sys} (hsys : sys.Laws)
include hsys

theorem execute_of_not_signed {x : Extrinsic AccountId} (h : x.origin.isSigned = false)
    (s : Storage AccountId) :
    execute sys x s = (.error .badOrigin, { s with blockNumber := x.blockNumber }) := by
  rcases x with ⟨n, origin, call⟩
  have hbad := hsys.ensureSigned_of_not_signed h
  cases call <;> simp only [execute, Call.dispatch, doSomething, causeError, hbad] <;> rfl

theorem execute_doSomething {n : ℕ} (hn : 1 ≤ n) (who : AccountId) (something : UInt32)
    (s : Storage AccountId) :
    execute sys ⟨n, .signed who, .doSomething something⟩ s =
      (.ok (), { blockNumber := n, something := some something,
                 events := s.events ++ [.somethingStored something who] }) := by
  rw [← hsys.depositEvent_eq n _ s.events hn]
  simp only [execute, Call.dispatch, doSomething, hsys.ensureSigned_signed]
  rfl

theorem execute_causeError (n : ℕ) (who : AccountId) (s : Storage AccountId) :
    execute sys ⟨n, .signed who, .causeError⟩ s =
      match s.something with
      | none => (.error (.module .noneValue), { s with blockNumber := n })
      | some old =>
        match checkedAdd old 1 with
        | none => (.error (.module .storageOverflow), { s with blockNumber := n })
        | some new => (.ok (), { s with blockNumber := n, something := some new }) := by
  rcases s with ⟨m, something, events⟩
  have hget : (storageApi sys).getSomething.run ⟨n, something, events⟩ =
      (.ok something, ⟨n, something, events⟩) := rfl
  simp only [execute, Call.dispatch, causeError]
  rw [run_bind_ok (run_ensureSigned hsys who _), run_bind_ok hget]
  cases something with
  | none => rfl
  | some old => cases hadd : checkedAdd old 1 <;> simp only [hadd] <;> rfl

/-- **The inversion lemma**: past the genesis block a call does one of five
things. -/
theorem execute_effect {x : Extrinsic AccountId} (hn : 1 ≤ x.blockNumber)
    (s : Storage AccountId) : Effect x s (execute sys x s) := by
  rcases x with ⟨n, origin, call⟩
  cases origin with
  | root => rw [execute_of_not_signed hsys (by rfl)]; exact .badOrigin rfl
  | none => rw [execute_of_not_signed hsys (by rfl)]; exact .badOrigin rfl
  | signed who =>
      cases call with
      | doSomething something =>
          rw [execute_doSomething hsys hn]
          exact .stored who something rfl rfl
      | causeError =>
          rcases s with ⟨m, something, events⟩
          rw [execute_causeError hsys]
          cases something with
          | none => exact .noneValue who rfl rfl rfl
          | some v =>
              cases hadd : checkedAdd v 1 with
              | none =>
                  simp only [hadd]
                  exact .overflow who v rfl rfl rfl (checkedAdd_one_eq_none.mp hadd)
              | some w =>
                  simp only [hadd]
                  exact .incremented who v w rfl rfl rfl (checkedAdd_one_eq_some hadd)

end Spec

end SolochainTemplate.Pallet.Template

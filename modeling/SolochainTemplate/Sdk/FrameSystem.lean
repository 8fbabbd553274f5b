import Mathlib.Algebra.Group.Nat.Defs
import Mathlib.Order.Lattice

/-!
# FRAME as the template pallet uses it

The pallet's source calls `ensure_signed` and `deposit_event` of `frame_system`;
both belong to the SDK, which is not part of the repository. They are a parameter
`FrameSystem` here, and `FrameSystem.Laws` states what the pallet relies on. So is
the arithmetic of weights, `WeightSdk`.
-/

namespace SolochainTemplate.Sdk

/-- Who a call comes from (`frame_system::RawOrigin`). -/
inductive RawOrigin (AccountId : Type) where
  | root
  | signed (who : AccountId)
  | none
deriving DecidableEq, Repr

namespace RawOrigin

variable {AccountId : Type}

/-- The account behind a signed origin. -/
def signer : RawOrigin AccountId → Option AccountId
  | .signed who => some who
  | _ => Option.none

def isSigned (origin : RawOrigin AccountId) : Bool := origin.signer.isSome

@[simp] theorem isSigned_root : (root : RawOrigin AccountId).isSigned = false := rfl
@[simp] theorem isSigned_none : (none : RawOrigin AccountId).isSigned = false := rfl
@[simp] theorem isSigned_signed (who : AccountId) : (signed who).isSigned = true := rfl

end RawOrigin

/-- A failed dispatch: a bad origin, or an error of the pallet itself. -/
inductive DispatchError (PalletError : Type) where
  | badOrigin
  | module (error : PalletError)
deriving DecidableEq, Repr

/-- The SDK functions the pallet calls. `depositEvent` gets the current block
number and the log so far. -/
structure FrameSystem (AccountId PalletError Event : Type) where
  ensureSigned : RawOrigin AccountId → Except (DispatchError PalletError) AccountId
  depositEvent : ℕ → Event → List Event → List Event

/-- What the SDK documents: `ensure_signed` succeeds exactly on signed origins,
and past the genesis block an event is appended to the log. -/
structure FrameSystem.Laws {AccountId PalletError Event : Type}
    (sys : FrameSystem AccountId PalletError Event) : Prop where
  ensureSigned_signed : ∀ who, sys.ensureSigned (.signed who) = .ok who
  ensureSigned_root : sys.ensureSigned .root = .error .badOrigin
  ensureSigned_none : sys.ensureSigned .none = .error .badOrigin
  depositEvent_eq : ∀ n event log, 1 ≤ n → sys.depositEvent n event log = log ++ [event]

theorem FrameSystem.Laws.ensureSigned_of_not_signed {AccountId PalletError Event : Type}
    {sys : FrameSystem AccountId PalletError Event} (hsys : sys.Laws)
    {origin : RawOrigin AccountId} (h : origin.isSigned = false) :
    sys.ensureSigned origin = .error .badOrigin := by
  cases origin with
  | root => exact hsys.ensureSigned_root
  | signed who => exact absurd h (by simp)
  | none => exact hsys.ensureSigned_none

/-- A `FrameSystem` that behaves as documented, so that the laws have a model;
events of the genesis block are dropped. -/
def FrameSystem.documented (AccountId PalletError Event : Type) :
    FrameSystem AccountId PalletError Event where
  ensureSigned
    | .signed who => .ok who
    | _ => .error .badOrigin
  depositEvent n event log := if n = 0 then log else log ++ [event]

theorem FrameSystem.documented_laws (AccountId PalletError Event : Type) :
    (FrameSystem.documented AccountId PalletError Event).Laws where
  ensureSigned_signed _ := rfl
  ensureSigned_root := rfl
  ensureSigned_none := rfl
  depositEvent_eq n event log hn := if_neg (by omega)

/-! ## Weights

`frame_support::weights` as the pallet's weight functions use it: a weight is
computing time and proof size, a database has a price for a read and one for a
write. -/

structure Weight where
  refTime : ℕ
  proofSize : ℕ
deriving DecidableEq, Repr

/-- What one read and one write of the database cost. -/
structure RuntimeDbWeight where
  read : ℕ
  write : ℕ
deriving DecidableEq, Repr

/-- `u64::MAX`. -/
def u64Max : ℕ := 2 ^ 64 - 1

structure WeightSdk where
  saturatingAdd : Weight → Weight → Weight
  reads : RuntimeDbWeight → ℕ → Weight
  writes : RuntimeDbWeight → ℕ → Weight

/-- What the SDK documents: sums and products stop at the end of the word. -/
structure WeightSdk.Laws (sdk : WeightSdk) : Prop where
  saturatingAdd_eq : ∀ v w, sdk.saturatingAdd v w =
    ⟨min (v.refTime + w.refTime) u64Max, min (v.proofSize + w.proofSize) u64Max⟩
  reads_eq : ∀ db n, sdk.reads db n = ⟨min (db.read * n) u64Max, 0⟩
  writes_eq : ∀ db n, sdk.writes db n = ⟨min (db.write * n) u64Max, 0⟩

/-- Arithmetic as documented, so that the laws have a model. -/
def WeightSdk.documented : WeightSdk where
  saturatingAdd v w :=
    ⟨min (v.refTime + w.refTime) u64Max, min (v.proofSize + w.proofSize) u64Max⟩
  reads db n := ⟨min (db.read * n) u64Max, 0⟩
  writes db n := ⟨min (db.write * n) u64Max, 0⟩

theorem WeightSdk.documented_laws : WeightSdk.documented.Laws :=
  ⟨fun _ _ => rfl, fun _ _ => rfl, fun _ _ => rfl⟩

end SolochainTemplate.Sdk

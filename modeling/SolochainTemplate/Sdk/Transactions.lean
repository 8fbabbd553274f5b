import SolochainTemplate.Framework.PhaseGrid

/-!
# Eras and transaction extensions

What `TxExtension` is composed of: `sp_runtime::generic::Era`, the extensions of
the SDK and the implicit data each recomputes from the state of `frame_system`.
They are a parameter `TransactionSdk`, and `TransactionSdk.Laws` states the
documented behaviour. No sum here can leave its word, so block numbers are
natural numbers.
-/

namespace SolochainTemplate.Sdk

open Framework.PhaseGrid (nextPowerOfTwo)

inductive Era where
  | immortal
  | mortal (period phase : ℕ)
deriving DecidableEq, Repr

structure RuntimeVersion where
  specVersion : UInt32
  transactionVersion : UInt32
deriving DecidableEq, Repr

/-- The state of `frame_system` that the extensions read, while the block
`blockNumber` is executed. -/
structure SystemState (Hash : Type) where
  blockNumber : ℕ
  blockHash : ℕ → Option Hash
  runtimeVersion : RuntimeVersion

/-- `st` is a state of the block after `chain`, with `BlockHashCount = count`:
the hashes of the last `count` blocks are stored, the genesis hash always is,
and what is stored is right. -/
structure SystemState.At {Hash : Type} (st : SystemState Hash) (count : ℕ)
    (chain : List Hash) : Prop where
  blockNumber_eq : st.blockNumber = chain.length
  recent : ∀ m h, chain.length ≤ m + count → chain[m]? = some h → st.blockHash m = some h
  genesis : ∀ h, chain[0]? = some h → st.blockHash 0 = some h
  sound : ∀ m h, st.blockHash m = some h → chain[m]? = some h

/-- Why the implicit data cannot be recomputed. -/
inductive InvalidTransaction where
  | ancientBirthBlock
  | other
deriving DecidableEq, Repr

/-! ## The extensions -/

structure AuthorizeCall where
structure CheckNonZeroSender where
structure CheckSpecVersion where
structure CheckTxVersion where
structure CheckGenesis where
structure CheckEra where
  era : Era
structure CheckNonce where
  nonce : UInt32
structure CheckWeight where
structure ChargeTransactionPayment where
  tip : ℕ
structure CheckMetadataHash where
  enabled : Bool
structure WeightReclaim where

/-- `TransactionExtension::implicit` of an extension. -/
abbrev Recompute (Hash Ext Implicit : Type) : Type :=
  Ext → SystemState Hash → Except InvalidTransaction Implicit

/-! ## The parameter -/

structure TransactionSdk (Hash MetadataHash : Type) where
  -- `Era::mortal` and `Era::birth`
  mortal : (period current : ℕ) → Era
  birth : Era → (current : ℕ) → ℕ
  -- the implicit data, one per extension
  authorizeCall : Recompute Hash AuthorizeCall Unit
  checkNonZeroSender : Recompute Hash CheckNonZeroSender Unit
  checkSpecVersion : Recompute Hash CheckSpecVersion UInt32
  checkTxVersion : Recompute Hash CheckTxVersion UInt32
  checkGenesis : Recompute Hash CheckGenesis Hash
  checkEra : Recompute Hash CheckEra Hash
  checkNonce : Recompute Hash CheckNonce Unit
  checkWeight : Recompute Hash CheckWeight Unit
  chargeTransactionPayment : Recompute Hash ChargeTransactionPayment Unit
  checkMetadataHash : Recompute Hash CheckMetadataHash (Option MetadataHash)
  weightReclaim : Recompute Hash WeightReclaim Unit

namespace TransactionSdk

variable {Hash MetadataHash : Type}

/-- The period an era is stored with: the next power of two, clamped. -/
def storedPeriod (period : ℕ) : ℕ := max 4 (min (nextPowerOfTwo period) 65536)

/-- The precision a phase is stored with: 4096 steps to a period. -/
def phaseQuantum (period : ℕ) : ℕ := max (period / 4096) 1

structure Laws (sdk : TransactionSdk Hash MetadataHash) : Prop where
  mortal_eq : ∀ period current, sdk.mortal period current =
    .mortal (storedPeriod period)
      (current % storedPeriod period / phaseQuantum (storedPeriod period) *
        phaseQuantum (storedPeriod period))
  birth_eq : ∀ period phase n, sdk.birth (.mortal period phase) n =
    (max n phase - phase) / period * period + phase
  authorizeCall_eq : ∀ x st, sdk.authorizeCall x st = .ok ()
  checkNonZeroSender_eq : ∀ x st, sdk.checkNonZeroSender x st = .ok ()
  checkSpecVersion_eq : ∀ x st,
    sdk.checkSpecVersion x st = .ok st.runtimeVersion.specVersion
  checkTxVersion_eq : ∀ x st,
    sdk.checkTxVersion x st = .ok st.runtimeVersion.transactionVersion
  checkGenesis_eq : ∀ x st h, st.blockHash 0 = some h → sdk.checkGenesis x st = .ok h
  -- the hash of the birth block, or `AncientBirthBlock` when it is not stored
  checkEra_eq : ∀ x st, sdk.checkEra x st =
    match st.blockHash (sdk.birth x.era st.blockNumber) with
    | some h => .ok h
    | none => .error .ancientBirthBlock
  checkNonce_eq : ∀ x st, sdk.checkNonce x st = .ok ()
  checkWeight_eq : ∀ x st, sdk.checkWeight x st = .ok ()
  chargeTransactionPayment_eq : ∀ x st, sdk.chargeTransactionPayment x st = .ok ()
  checkMetadataHash_disabled : ∀ x st, x.enabled = false →
    sdk.checkMetadataHash x st = .ok none
  weightReclaim_eq : ∀ x st, sdk.weightReclaim x st = .ok ()

/-- An SDK that behaves as documented, so that the laws have a model. -/
def documented (Hash MetadataHash : Type) : TransactionSdk Hash MetadataHash where
  mortal period current :=
    .mortal (storedPeriod period)
      (current % storedPeriod period / phaseQuantum (storedPeriod period) *
        phaseQuantum (storedPeriod period))
  birth
    | .immortal, _ => 0
    | .mortal period phase, n => (max n phase - phase) / period * period + phase
  authorizeCall _ _ := .ok ()
  checkNonZeroSender _ _ := .ok ()
  checkSpecVersion _ st := .ok st.runtimeVersion.specVersion
  checkTxVersion _ st := .ok st.runtimeVersion.transactionVersion
  checkGenesis _ st :=
    match st.blockHash 0 with
    | some h => .ok h
    | none => .error .other
  checkEra x st :=
    match st.blockHash
      (match x.era with
      | .immortal => 0
      | .mortal period phase =>
        (max st.blockNumber phase - phase) / period * period + phase) with
    | some h => .ok h
    | none => .error .ancientBirthBlock
  checkNonce _ _ := .ok ()
  checkWeight _ _ := .ok ()
  chargeTransactionPayment _ _ := .ok ()
  checkMetadataHash x _ := if x.enabled then .error .other else .ok none
  weightReclaim _ _ := .ok ()

theorem documented_laws (Hash MetadataHash : Type) :
    (documented Hash MetadataHash).Laws where
  mortal_eq _ _ := rfl
  birth_eq _ _ _ := rfl
  authorizeCall_eq _ _ := rfl
  checkNonZeroSender_eq _ _ := rfl
  checkSpecVersion_eq _ _ := rfl
  checkTxVersion_eq _ _ := rfl
  checkGenesis_eq x st h hh := by simp only [documented, hh]
  checkEra_eq x st := by
    rcases x with ⟨era⟩
    cases era <;> rfl
  checkNonce_eq _ _ := rfl
  checkWeight_eq _ _ := rfl
  chargeTransactionPayment_eq _ _ := rfl
  checkMetadataHash_disabled x st h := by simp [documented, h]
  weightReclaim_eq _ _ := rfl

end TransactionSdk

end SolochainTemplate.Sdk

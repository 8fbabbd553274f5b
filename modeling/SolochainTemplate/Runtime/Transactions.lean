import SolochainTemplate.Sdk.Transactions

/-!
# The runtime's transactions

`runtime/src/lib.rs`: `VERSION`, `TxExtension` and `SignedPayload`, and
`BlockHashCount` of `runtime/src/configs/mod.rs`. Neighbouring components of the
implicit data have one type (two versions, two hashes), so only their order
tells them apart.
-/

namespace SolochainTemplate.Runtime

open SolochainTemplate.Sdk

/-- `VERSION`. -/
def version : RuntimeVersion where
  specVersion := 100
  transactionVersion := 1

/-- `configs::BlockHashCount`. -/
def blockHashCount : ℕ := 2400

/-- `TxExtension`. -/
abbrev TxExtension : Type :=
  AuthorizeCall × CheckNonZeroSender × CheckSpecVersion × CheckTxVersion × CheckGenesis ×
    CheckEra × CheckNonce × CheckWeight × ChargeTransactionPayment × CheckMetadataHash ×
    WeightReclaim

/-- The implicit data of `TxExtension`, component by component. -/
abbrev TxImplicit (Hash MetadataHash : Type) : Type :=
  Unit × Unit × UInt32 × UInt32 × Hash × Hash × Unit × Unit × Unit × Option MetadataHash × Unit

variable {Hash MetadataHash RuntimeCall : Type}

/-- `TxExtension::implicit`: every component in order, stopping at the first
that fails. -/
def txImplicit (sdk : TransactionSdk Hash MetadataHash) (x : TxExtension)
    (st : SystemState Hash) : Except InvalidTransaction (TxImplicit Hash MetadataHash) := do
  let (authorizeCall, checkNonZeroSender, checkSpecVersion, checkTxVersion, checkGenesis,
    checkEra, checkNonce, checkWeight, chargeTransactionPayment, checkMetadataHash,
    weightReclaim) := x
  return (← sdk.authorizeCall authorizeCall st, ← sdk.checkNonZeroSender checkNonZeroSender st,
    ← sdk.checkSpecVersion checkSpecVersion st, ← sdk.checkTxVersion checkTxVersion st,
    ← sdk.checkGenesis checkGenesis st, ← sdk.checkEra checkEra st,
    ← sdk.checkNonce checkNonce st, ← sdk.checkWeight checkWeight st,
    ← sdk.chargeTransactionPayment chargeTransactionPayment st,
    ← sdk.checkMetadataHash checkMetadataHash st, ← sdk.weightReclaim weightReclaim st)

/-- `SignedPayload`: what is encoded and signed. -/
structure SignedPayload (Hash MetadataHash RuntimeCall : Type) where
  call : RuntimeCall
  extension : TxExtension
  implicit : TxImplicit Hash MetadataHash

/-- `UncheckedExtrinsic`, signed. -/
structure UncheckedExtrinsic (RuntimeCall AccountId Signature : Type) where
  call : RuntimeCall
  address : AccountId
  signature : Signature
  extension : TxExtension

theorem txImplicit_eq {sdk : TransactionSdk Hash MetadataHash} (hsdk : sdk.Laws)
    {a : AuthorizeCall} {s : CheckNonZeroSender} {v : CheckSpecVersion} {t : CheckTxVersion}
    {g : CheckGenesis} {e : CheckEra} {n : CheckNonce} {w : CheckWeight}
    {p : ChargeTransactionPayment} {m : CheckMetadataHash} {r : WeightReclaim}
    (hmetadata : m.enabled = false) {st : SystemState Hash} {genesisHash : Hash}
    (hgenesis : st.blockHash 0 = some genesisHash) :
    txImplicit sdk (a, s, v, t, g, e, n, w, p, m, r) st =
      (sdk.checkEra e st).map fun birthHash =>
        ((), (), st.runtimeVersion.specVersion, st.runtimeVersion.transactionVersion,
          genesisHash, birthHash, (), (), (), none, ()) := by
  simp only [txImplicit, hsdk.authorizeCall_eq, hsdk.checkNonZeroSender_eq,
    hsdk.checkSpecVersion_eq, hsdk.checkTxVersion_eq, hsdk.checkGenesis_eq _ _ _ hgenesis,
    hsdk.checkNonce_eq, hsdk.checkWeight_eq, hsdk.chargeTransactionPayment_eq,
    hsdk.checkMetadataHash_disabled _ _ hmetadata, hsdk.weightReclaim_eq]
  cases sdk.checkEra e st <;> rfl

end SolochainTemplate.Runtime

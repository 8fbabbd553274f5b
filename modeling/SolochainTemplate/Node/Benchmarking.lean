import SolochainTemplate.Runtime.Transactions
import SolochainTemplate.Sdk.Consensus

/-!
# The benchmark extrinsic

`node/src/benchmarking.rs`, `create_benchmark_extrinsic`. The signed payload is
written by hand: the era's period is derived from `BlockHashCount`, and the best
block's hash stands where the runtime will look up the hash of the era's birth
block. The two agree as long as the era is alive, which is a fact about phases
(`Framework.PhaseGrid`) and about how many block hashes are kept.
-/

namespace SolochainTemplate.Node

open SolochainTemplate.Sdk
open SolochainTemplate.Runtime
open Framework

variable {Hash MetadataHash RuntimeCall Error AccountId Signature : Type}

/-! ## Building the extrinsic -/

/-- A key pair: its account, and its signature on a payload's encoding. -/
structure Sender (Hash MetadataHash RuntimeCall AccountId Signature : Type) where
  accountId : AccountId
  sign : SignedPayload Hash MetadataHash RuntimeCall → Signature

/-- `period`, from `BlockHashCount`. -/
def eraPeriod (blockHashCount : ℕ) : ℕ :=
  ((PhaseGrid.checkedNextPowerOfTwo 32 blockHashCount).map (· / 2)).getD 2

variable (sdk : TransactionSdk Hash MetadataHash)

/-- `tx_ext`. -/
def benchmarkTxExtension (bestBlock : ℕ) (nonce : UInt32) : TxExtension :=
  (⟨⟩, ⟨⟩, ⟨⟩, ⟨⟩, ⟨⟩, ⟨sdk.mortal (eraPeriod blockHashCount) bestBlock⟩, ⟨nonce⟩, ⟨⟩, ⟨0⟩,
    ⟨false⟩, ⟨⟩)

/-- `raw_payload`; `none` when there is no genesis block and the `expect`
panics. -/
def benchmarkPayload (client : FullClient Hash Error) (call : RuntimeCall) (nonce : UInt32) :
    Option (SignedPayload Hash MetadataHash RuntimeCall) := do
  let genesisHash ← (client.blockHash 0).toOption.join
  let bestHash := client.chainInfo.bestHash
  let bestBlock := client.chainInfo.bestNumber
  return {
    call
    extension := benchmarkTxExtension sdk bestBlock nonce
    implicit := ((), (), version.specVersion, version.transactionVersion, genesisHash, bestHash,
      (), (), (), none, ()) }

/-- `create_benchmark_extrinsic`. -/
def createBenchmarkExtrinsic (client : FullClient Hash Error)
    (sender : Sender Hash MetadataHash RuntimeCall AccountId Signature) (call : RuntimeCall)
    (nonce : UInt32) : Option (UncheckedExtrinsic RuntimeCall AccountId Signature) := do
  let rawPayload ← benchmarkPayload sdk client call nonce
  let signature := sender.sign rawPayload
  return { call, address := sender.accountId, signature, extension := rawPayload.extension }

/-! ## The era -/

/-- The exponent of the period an era is stored with, for a retention of `c`
blocks: half the power of two above `c`, clamped, and the least one when that
power overflows. -/
def periodExponent (c : ℕ) : ℕ :=
  if c ≤ 2 ^ 31 then max 2 (min (Nat.clog 2 c - 1) 16) else 2

theorem eraPeriod_of_le {c : ℕ} (hc : 2 ≤ c) (h : c ≤ 2 ^ 31) :
    eraPeriod c = 2 ^ (Nat.clog 2 c - 1) := by
  have hclog : 0 < Nat.clog 2 c := Nat.clog_pos Nat.one_lt_two hc
  rw [eraPeriod, PhaseGrid.checkedNextPowerOfTwo_eq_some h (by decide)]
  show PhaseGrid.nextPowerOfTwo c / 2 = _
  rw [PhaseGrid.nextPowerOfTwo, ← Nat.pow_div hclog (by decide), Nat.pow_one]

theorem eraPeriod_of_lt {c : ℕ} (h : 2 ^ 31 < c) : eraPeriod c = 2 := by
  rw [eraPeriod, (PhaseGrid.checkedNextPowerOfTwo_eq_none (by decide)).mpr h]
  rfl

theorem storedPeriod_eraPeriod {c : ℕ} (hc : 2 ≤ c) :
    TransactionSdk.storedPeriod (eraPeriod c) = 2 ^ periodExponent c := by
  have hclamp : ∀ k, TransactionSdk.storedPeriod (2 ^ k) = 2 ^ max 2 (min k 16) := by
    intro k
    rw [TransactionSdk.storedPeriod, PhaseGrid.nextPowerOfTwo_two_pow]
    exact PhaseGrid.clamp_two_pow 2 16 k
  rw [periodExponent]
  split_ifs with h
  · rw [eraPeriod_of_le hc h, hclamp]
  · rw [eraPeriod_of_lt (Nat.lt_of_not_le h)]
    exact hclamp 1

theorem two_pow_periodExponent_le {c : ℕ} (hc : 4 ≤ c) : 2 ^ periodExponent c ≤ c := by
  rw [periodExponent]
  split_ifs with h
  · have hbelow : 2 ^ (Nat.clog 2 c - 1) < c :=
      Nat.pow_pred_clog_lt_self Nat.one_lt_two (by omega)
    rcases Nat.le_total (Nat.clog 2 c - 1) 2 with hk | hk
    · rw [max_eq_left (le_trans (min_le_left _ _) hk)]
      exact hc
    · rw [max_eq_right (le_min hk (by decide))]
      exact le_trans (Nat.pow_le_pow_right (by decide) (min_le_left _ _)) hbelow.le
  · exact hc

/-- It is stored at full precision for small retentions and on overflow. -/
theorem periodExponent_le_iff (c : ℕ) : periodExponent c ≤ 12 ↔ c ≤ 8192 ∨ 2 ^ 31 < c := by
  have hclog : Nat.clog 2 c ≤ 13 ↔ c ≤ 2 ^ 13 := Nat.clog_le_iff_le_pow Nat.one_lt_two
  rw [periodExponent]
  split_ifs with h <;> omega

theorem phaseQuantum_two_pow (e : ℕ) : TransactionSdk.phaseQuantum (2 ^ e) = 2 ^ (e - 12) :=
  PhaseGrid.quantum_two_pow e 12

section Era

variable {sdk} (hsdk : sdk.Laws)
include hsdk

/-- The era of a benchmark extrinsic: its period, and the phase of the best
block on the quantised grid. -/
theorem mortal_eraPeriod {c : ℕ} (hc : 2 ≤ c) (b : ℕ) :
    sdk.mortal (eraPeriod c) b =
      .mortal (2 ^ periodExponent c)
        (PhaseGrid.phase (2 ^ periodExponent c) (2 ^ (periodExponent c - 12)) b) := by
  rw [hsdk.mortal_eq, storedPeriod_eraPeriod hc, phaseQuantum_two_pow]
  rfl

theorem birth_mortal (P φ n : ℕ) : sdk.birth (.mortal P φ) n = PhaseGrid.start P φ n :=
  hsdk.birth_eq P φ n

/-- The era of the best block is born at that block, rounded down to a
quantum. -/
theorem birth_best {c : ℕ} (hc : 2 ≤ c) (b : ℕ) :
    sdk.birth (sdk.mortal (eraPeriod c) b) b = b - b % 2 ^ (periodExponent c - 12) := by
  rw [mortal_eraPeriod hsdk hc, birth_mortal hsdk]
  exact PhaseGrid.start_phase (Nat.two_pow_pos _) (Nat.two_pow_pos _)
    (Nat.pow_dvd_pow 2 (Nat.sub_le _ _)) b

/-- **The birth block stands** for the whole period that follows it. -/
theorem birth_stable {c : ℕ} (hc : 2 ≤ c) {b n : ℕ}
    (hlo : sdk.birth (sdk.mortal (eraPeriod c) b) b ≤ n)
    (hhi : n < sdk.birth (sdk.mortal (eraPeriod c) b) b + 2 ^ periodExponent c) :
    sdk.birth (sdk.mortal (eraPeriod c) b) n = sdk.birth (sdk.mortal (eraPeriod c) b) b := by
  rw [mortal_eraPeriod hsdk hc, birth_mortal hsdk] at hlo hhi ⊢
  rw [birth_mortal hsdk]
  exact PhaseGrid.start_congr (Nat.two_pow_pos _) hlo hhi

theorem birth_lt_of_past {c : ℕ} (hc : 2 ≤ c) {b n : ℕ}
    (h : sdk.birth (sdk.mortal (eraPeriod c) b) b + 2 ^ periodExponent c ≤ n) :
    sdk.birth (sdk.mortal (eraPeriod c) b) b < sdk.birth (sdk.mortal (eraPeriod c) b) n := by
  rw [mortal_eraPeriod hsdk hc, birth_mortal hsdk] at h ⊢
  rw [birth_mortal hsdk]
  exact PhaseGrid.start_lt_of_past (Nat.two_pow_pos _) h

/-- `CheckEra` finds the hash of the birth block among the last `c`. -/
theorem checkEra_alive {c : ℕ} {era : Era} {st : SystemState Hash} {chain : List Hash}
    (hst : st.At c chain) (hlt : sdk.birth era chain.length < chain.length)
    (hrecent : chain.length ≤ sdk.birth era chain.length + c) :
    ∃ h, chain[sdk.birth era chain.length]? = some h ∧ sdk.checkEra ⟨era⟩ st = .ok h := by
  obtain ⟨h, hh⟩ : ∃ h, chain[sdk.birth era chain.length]? = some h :=
    ⟨_, List.getElem?_eq_getElem hlt⟩
  refine ⟨h, hh, ?_⟩
  rw [hsdk.checkEra_eq, hst.blockNumber_eq, hst.recent _ _ hrecent hh]

end Era

end SolochainTemplate.Node

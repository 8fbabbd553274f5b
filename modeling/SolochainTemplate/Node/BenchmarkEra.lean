import SolochainTemplate.Node.Benchmarking

/-!
# The benchmark extrinsic's life

For the retention the runtime is configured with, the payload signed over the
best block verifies in the 2047 blocks after it and in no later one. For any
retention, the derived period keeps the birth block within reach, and signing
the best block's hash is right exactly while the phase is stored at full
precision.
-/

namespace SolochainTemplate.Node

open SolochainTemplate.Sdk
open SolochainTemplate.Runtime
open Framework

variable {Hash MetadataHash RuntimeCall Error AccountId Signature : Type}

theorem periodExponent_blockHashCount : periodExponent blockHashCount = 11 := by decide

section Payload

variable {sdk : TransactionSdk Hash MetadataHash} (hsdk : sdk.Laws)

theorem benchmarkPayload_eq {client : FullClient Hash Error} {genesisHash : Hash}
    (hgenesis : client.blockHash 0 = .ok (some genesisHash)) (call : RuntimeCall)
    (nonce : UInt32) :
    benchmarkPayload sdk client call nonce = some
      ⟨call, benchmarkTxExtension sdk client.chainInfo.bestNumber nonce,
        ((), (), version.specVersion, version.transactionVersion, genesisHash,
          client.chainInfo.bestHash, (), (), (), none, ())⟩ := by
  rw [benchmarkPayload, hgenesis]
  rfl

include hsdk

/-- What the runtime recomputes for a benchmark extrinsic: everything but the
birth block's hash is as signed. -/
theorem txImplicit_benchmark {st : SystemState Hash} {genesisHash : Hash}
    (hgenesis : st.blockHash 0 = some genesisHash) (hversion : st.runtimeVersion = version)
    (bestBlock : ℕ) (nonce : UInt32) :
    txImplicit sdk (benchmarkTxExtension sdk bestBlock nonce) st =
      (sdk.checkEra ⟨sdk.mortal (eraPeriod blockHashCount) bestBlock⟩ st).map fun birthHash =>
        ((), (), version.specVersion, version.transactionVersion, genesisHash, birthHash,
          (), (), (), none, ()) := by
  rw [← hversion]
  exact txImplicit_eq hsdk rfl hgenesis

theorem birth_configured (b : ℕ) :
    sdk.birth (sdk.mortal (eraPeriod blockHashCount) b) b = b := by
  rw [birth_best hsdk (by decide), periodExponent_blockHashCount]
  show b - b % 1 = b
  rw [Nat.mod_one, Nat.sub_zero]

/-- **Alive**: at the blocks `b + 1` to `b + 2047` the hash of block `b` is
recomputed. -/
theorem checkEra_configured_alive {st : SystemState Hash} {chain : List Hash} {b : ℕ}
    {bestHash : Hash} (hst : st.At blockHashCount chain) (hbest : chain[b]? = some bestHash)
    (hlt : chain.length ≤ b + 2047) :
    sdk.birth (sdk.mortal (eraPeriod blockHashCount) b) chain.length = b ∧
      sdk.checkEra ⟨sdk.mortal (eraPeriod blockHashCount) b⟩ st = .ok bestHash := by
  obtain ⟨hb, -⟩ := List.getElem?_eq_some_iff.mp hbest
  have hborn := birth_configured hsdk b
  have hbirth : sdk.birth (sdk.mortal (eraPeriod blockHashCount) b) chain.length = b := by
    have hstable := birth_stable hsdk (c := blockHashCount) (b := b) (n := chain.length)
      (by decide) (by omega) (by rw [periodExponent_blockHashCount]; omega)
    exact hstable.trans hborn
  obtain ⟨h, hh, hcheck⟩ := checkEra_alive hsdk hst (by rw [hbirth]; exact hb)
    (by rw [hbirth]; unfold blockHashCount; omega)
  rw [hbirth, hbest] at hh
  exact ⟨hbirth, Option.some.inj hh ▸ hcheck⟩

/-- **Dead**: from block `b + 2048` on, what is recomputed, if anything, is the
hash of a later block. -/
theorem checkEra_configured_dead {st : SystemState Hash} {chain : List Hash} {b : ℕ}
    {bestHash : Hash} (hst : st.At blockHashCount chain) (hnodup : chain.Nodup)
    (hbest : chain[b]? = some bestHash) (hpast : b + 2048 ≤ chain.length) :
    sdk.checkEra ⟨sdk.mortal (eraPeriod blockHashCount) b⟩ st ≠ .ok bestHash := by
  intro hcheck
  have hlater : b < sdk.birth (sdk.mortal (eraPeriod blockHashCount) b) chain.length := by
    have hlt := birth_lt_of_past hsdk (c := blockHashCount) (b := b) (n := chain.length)
      (by decide) (by rw [birth_configured hsdk, periodExponent_blockHashCount]; omega)
    rwa [birth_configured hsdk] at hlt
  rw [hsdk.checkEra_eq, hst.blockNumber_eq] at hcheck
  cases hstored : st.blockHash
      (sdk.birth (sdk.mortal (eraPeriod blockHashCount) b) chain.length) with
  | none => simp only [hstored] at hcheck; cases hcheck
  | some h =>
      simp only [hstored] at hcheck
      cases hcheck
      -- the two blocks share a hash, so they are one block
      have hsame := hst.sound _ _ hstored
      obtain ⟨hb, -⟩ := List.getElem?_eq_some_iff.mp hbest
      have heq := (List.getElem?_inj hb hnodup).mp (hbest.trans hsame.symm)
      omega

end Payload

/-- **The benchmark extrinsic verifies during its era and never after.** For
every call, nonce, sender and chain: the runtime recomputes the signed payload
at the blocks `b + 1` to `b + 2047` after the best block `b`, and at no later
block. -/
theorem benchmark_payload_verifies (sdk : TransactionSdk Hash MetadataHash) (hsdk : sdk.Laws)
    (client : FullClient Hash Error) (chain : List Hash) (hclient : client.Follows chain)
    (sender : Sender Hash MetadataHash RuntimeCall AccountId Signature) (call : RuntimeCall)
    (nonce : UInt32) :
    ∃ payload : SignedPayload Hash MetadataHash RuntimeCall,
      benchmarkPayload sdk client call nonce = some payload ∧
      createBenchmarkExtrinsic sdk client sender call nonce =
        some ⟨call, sender.accountId, sender.sign payload, payload.extension⟩ ∧
      payload.call = call ∧
      ∀ (later : List Hash) (st : SystemState Hash), (chain ++ later).Nodup →
        st.At blockHashCount (chain ++ later) → st.runtimeVersion = version →
        client.chainInfo.bestNumber + 1 ≤ st.blockNumber ∧
        (st.blockNumber ≤ client.chainInfo.bestNumber + 2047 →
          txImplicit sdk payload.extension st = .ok payload.implicit ∧
          sdk.birth (sdk.mortal (eraPeriod blockHashCount) client.chainInfo.bestNumber)
            st.blockNumber = client.chainInfo.bestNumber ∧
          st.blockHash client.chainInfo.bestNumber = some client.chainInfo.bestHash) ∧
        (client.chainInfo.bestNumber + 2048 ≤ st.blockNumber →
          ∀ implicit, txImplicit sdk payload.extension st = .ok implicit →
            implicit ≠ payload.implicit) := by
  have hlength := hclient.bestNumber_eq
  obtain ⟨genesisHash, hgenesis⟩ : ∃ h, chain[0]? = some h :=
    ⟨_, List.getElem?_eq_getElem (by omega)⟩
  have hpayload := @benchmarkPayload_eq _ _ _ _ sdk _ _ (hclient.genesis _ hgenesis) call nonce
  refine ⟨_, hpayload, ?_, rfl, ?_⟩
  · rw [createBenchmarkExtrinsic, hpayload]
    rfl
  intro later st hnodup hst hversion
  have hnumber : st.blockNumber = (chain ++ later).length := hst.blockNumber_eq
  have hearlier : ∀ {i : ℕ} {h : Hash}, chain[i]? = some h → (chain ++ later)[i]? = some h := by
    intro i h hi
    obtain ⟨hlt, -⟩ := List.getElem?_eq_some_iff.mp hi
    rw [List.getElem?_append_left hlt, hi]
  have himplicit := txImplicit_benchmark hsdk (hst.genesis _ (hearlier hgenesis)) hversion
    client.chainInfo.bestNumber nonce
  have hbest := hearlier hclient.bestHash_eq
  refine ⟨?_, ?_, ?_⟩
  · rw [hnumber, List.length_append]
    omega
  · intro halive
    rw [hnumber] at halive ⊢
    obtain ⟨hbirth, hcheck⟩ := checkEra_configured_alive hsdk hst hbest halive
    refine ⟨?_, hbirth, hst.recent _ _ (by unfold blockHashCount; omega) hbest⟩
    rw [himplicit, hcheck]
    rfl
  · rintro hpast implicit hrecomputed rfl
    rw [hnumber] at hpast
    rw [himplicit] at hrecomputed
    refine checkEra_configured_dead hsdk hst hnodup hbest hpast ?_
    cases hcheck : sdk.checkEra
        ⟨sdk.mortal (eraPeriod blockHashCount) client.chainInfo.bestNumber⟩ st with
    | error e => rw [hcheck] at hrecomputed; cases hrecomputed
    | ok h =>
        rw [hcheck] at hrecomputed
        injection hrecomputed with htuple
        simp only [Prod.mk.injEq] at htuple
        rw [htuple.2.2.2.2.2.1]

/-- The block after the best block 5: what is recomputed is what was signed. -/
theorem benchmark_payload_verifies_next :
    ∃ payload : SignedPayload ℕ Unit Unit,
      benchmarkPayload (TransactionSdk.documented ℕ Unit)
        (FullClient.ofChain 0 [1, 2, 3, 4, 5] 6000 : FullClient ℕ Unit) () 0 = some payload ∧
      txImplicit (TransactionSdk.documented ℕ Unit) payload.extension
        ⟨7, fun n => [0, 1, 2, 3, 4, 5, 6][n]?, version⟩ = .ok payload.implicit := by
  let st : SystemState ℕ := ⟨7, fun n => [0, 1, 2, 3, 4, 5, 6][n]?, version⟩
  have hst : st.At blockHashCount ([0, 1, 2, 3, 4, 5] ++ [6]) :=
    ⟨rfl, fun _ _ _ h => h, fun _ h => h, fun _ _ h => h⟩
  obtain ⟨payload, hpayload, -, -, hlater⟩ :=
    benchmark_payload_verifies (TransactionSdk.documented ℕ Unit)
      (TransactionSdk.documented_laws ℕ Unit)
      (FullClient.ofChain 0 [1, 2, 3, 4, 5] 6000 : FullClient ℕ Unit) [0, 1, 2, 3, 4, 5]
      (FullClient.ofChain_follows _ _ _) (⟨(), fun _ => ()⟩ : Sender ℕ Unit Unit Unit Unit) () 0
  obtain ⟨-, halive, -⟩ := hlater [6] st (by decide) hst rfl
  exact ⟨payload, hpayload, (halive (by decide)).1⟩

/-! ## Every retention -/

/-- **The period derivation is sound for every retention, and its limit is
exact.** `P` is the stored period and `q` the quantum of its phase. -/
theorem era_period_sound (sdk : TransactionSdk Hash MetadataHash) (hsdk : sdk.Laws) (c : ℕ)
    (hc : 4 ≤ c) (hc32 : c < 2 ^ 32) :
    (∃ P q : ℕ, (∃ e, P = 2 ^ e) ∧ P ≤ c ∧ q = max (P / 4096) 1 ∧
      ∀ b : ℕ, ∃ era phase,
        era = sdk.mortal (eraPeriod c) b ∧ era = .mortal P phase ∧
        sdk.birth era b = b - b % q ∧
        (∀ n, sdk.birth era b ≤ n → n < sdk.birth era b + P →
          sdk.birth era n = sdk.birth era b) ∧
        (∀ n, b < n → n < sdk.birth era b + P →
          sdk.birth era b < n ∧ n ≤ sdk.birth era b + c) ∧
        (∀ (chain : List Hash) (st : SystemState Hash), st.At c chain →
          b < chain.length → chain.length < sdk.birth era b + P →
          ∃ h, chain[sdk.birth era b]? = some h ∧ sdk.checkEra ⟨era⟩ st = .ok h)) ∧
    ((∀ b, b < 2 ^ 32 → sdk.birth (sdk.mortal (eraPeriod c) b) b = b) ↔
      c ≤ 8192 ∨ 2 ^ 31 < c) := by
  have hc2 : 2 ≤ c := by omega
  have hle := two_pow_periodExponent_le hc
  refine ⟨⟨2 ^ periodExponent c, 2 ^ (periodExponent c - 12), ⟨_, rfl⟩, hle,
    (phaseQuantum_two_pow _).symm, ?_⟩, ?_⟩
  · intro b
    have hbest := birth_best hsdk hc2 b
    have hstable : ∀ n, sdk.birth (sdk.mortal (eraPeriod c) b) b ≤ n →
        n < sdk.birth (sdk.mortal (eraPeriod c) b) b + 2 ^ periodExponent c →
        sdk.birth (sdk.mortal (eraPeriod c) b) n = sdk.birth (sdk.mortal (eraPeriod c) b) b := by
      intro n hlo hhi
      exact birth_stable hsdk hc2 hlo hhi
    have hpreceding : ∀ n, b < n →
        n < sdk.birth (sdk.mortal (eraPeriod c) b) b + 2 ^ periodExponent c →
        sdk.birth (sdk.mortal (eraPeriod c) b) b < n ∧
          n ≤ sdk.birth (sdk.mortal (eraPeriod c) b) b + c := by
      intro n hn hlt
      omega
    refine ⟨_, _, rfl, mortal_eraPeriod hsdk hc2 b, hbest, hstable, hpreceding, ?_⟩
    intro chain st hst hb hlt
    obtain ⟨hborn, hrecent⟩ := hpreceding _ hb hlt
    have hbirth := hstable _ hborn.le hlt
    rw [← hbirth] at hborn hrecent ⊢
    exact checkEra_alive hsdk hst hborn hrecent
  · rw [← periodExponent_le_iff]
    have hexact := @PhaseGrid.start_phase_eq_iff _ _ (Nat.two_pow_pos (periodExponent c))
      (Nat.two_pow_pos (periodExponent c - 12)) (Nat.pow_dvd_pow 2 (Nat.sub_le _ _)) (2 ^ 32)
      (by decide)
    have hquantum : 2 ^ (periodExponent c - 12) = 1 ↔ periodExponent c ≤ 12 := by
      rw [Nat.pow_eq_one]
      omega
    -- the first block that a quantum of 2 or more misplaces is block 1
    rw [← hquantum, ← hexact]
    simp only [mortal_eraPeriod hsdk hc2, birth_mortal hsdk]

/-- The configured retention is exact, and 8193 is the first that is not. -/
theorem era_period_sound_configured :
    (∀ b < 2 ^ 32, (TransactionSdk.documented ℕ Unit).birth
      ((TransactionSdk.documented ℕ Unit).mortal (eraPeriod 2400) b) b = b) ∧
    ¬ ∀ b < 2 ^ 32, (TransactionSdk.documented ℕ Unit).birth
      ((TransactionSdk.documented ℕ Unit).mortal (eraPeriod 8193) b) b = b := by
  have hlaws := TransactionSdk.documented_laws ℕ Unit
  obtain ⟨-, hconfigured⟩ := era_period_sound _ hlaws 2400 (by decide) (by decide)
  obtain ⟨-, hfirst⟩ := era_period_sound _ hlaws 8193 (by decide) (by decide)
  exact ⟨hconfigured.mpr (by decide), hfirst.not.mpr (by decide)⟩

end SolochainTemplate.Node

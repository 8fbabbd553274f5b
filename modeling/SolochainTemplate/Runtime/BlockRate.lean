import SolochainTemplate.Runtime.Blocks

/-!
# How fast the chain can run

The documentation of `block_times` speaks of a minimum block time of
`SLOT_DURATION`. Two rules decide it: the minimum period, half a slot, and the
strictly growing slots. Both are facts about spaced sequences, so the accepted
chains inherit the bound and its tightness from `Framework.SlotGrid`.
-/

namespace SolochainTemplate.Runtime

open SolochainTemplate.Sdk
open Framework.SlotGrid (tightTime tightTimes)

variable {sdk : ConsensusSdk} {slotDuration : ℕ}

theorem blockAt_timestamp {blocks : List SealedBlock} {h : ℕ} {b : SealedBlock}
    (hb : blockAt blocks (h + 1) = some b) :
    (blocks.map SealedBlock.timestamp)[h]? = some b.timestamp := by
  rw [blockAt] at hb
  rw [List.getElem?_map, hb, Option.map_some]

theorem exists_blockAt_of_timestamp {blocks : List SealedBlock} {h t : ℕ}
    (ht : (blocks.map SealedBlock.timestamp)[h]? = some t) :
    ∃ b, blockAt blocks (h + 1) = some b ∧ b.timestamp = t := by
  rw [List.getElem?_map] at ht
  exact Option.map_eq_some_iff.mp ht

section Bounds

variable (hsdk : sdk.Laws Unbounded) (hD : 2 ≤ slotDuration)
include hsdk hD

theorem AcceptedChain.gap (chain : AcceptedChain sdk slotDuration) {i k : ℕ}
    {b b' : SealedBlock} (hi : 1 ≤ i) (hk : 1 ≤ k) (hb : blockAt chain.blocks i = some b)
    (hb' : blockAt chain.blocks (i + k) = some b') :
    b.timestamp + max (k * (slotDuration / 2)) ((k - 1) * (2 * (slotDuration / 2)) + 1) ≤
      b'.timestamp := by
  obtain ⟨j, rfl⟩ : ∃ j, i = j + 1 := ⟨i - 1, by omega⟩
  rw [show j + 1 + k = j + k + 1 by omega] at hb'
  exact (chain.spaced hsdk hD).gap (by omega) j k hk (blockAt_timestamp hb)
    (blockAt_timestamp hb')

theorem AcceptedChain.le_timestamp (chain : AcceptedChain sdk slotDuration) {h : ℕ}
    {b : SealedBlock} (hb : blockAt chain.blocks h = some b) :
    h * (2 * (slotDuration / 2)) ≤ b.timestamp := by
  cases h with
  | zero => cases hb
  | succ h => exact (chain.spaced hsdk hD).le_time (blockAt_timestamp hb)

theorem exists_chain_gap {k : ℕ} (hk : 1 ≤ k) :
    ∃ (chain : AcceptedChain sdk slotDuration) (b b' : SealedBlock),
      blockAt chain.blocks 1 = some b ∧ blockAt chain.blocks (1 + k) = some b' ∧
        b'.timestamp = b.timestamp +
          max (k * (slotDuration / 2)) ((k - 1) * (2 * (slotDuration / 2)) + 1) := by
  have hp : 0 < slotDuration / 2 := by omega
  obtain ⟨chain, htimes⟩ :=
    exists_chain_of_spaced hsdk hD (Framework.SlotGrid.tightTimes_spaced hp hk)
  have hfirst : (chain.blocks.map SealedBlock.timestamp)[0]? = _ :=
    htimes ▸ Framework.SlotGrid.tightTimes_getElem? (Nat.zero_le k)
  have hlast : (chain.blocks.map SealedBlock.timestamp)[k]? = _ :=
    htimes ▸ Framework.SlotGrid.tightTimes_getElem? (Nat.le_refl k)
  obtain ⟨b, hb, hbt⟩ := exists_blockAt_of_timestamp hfirst
  obtain ⟨b', hb', hbt'⟩ := exists_blockAt_of_timestamp hlast
  refine ⟨chain, b, b', hb, by rwa [Nat.add_comm], ?_⟩
  rw [hbt, hbt']
  exact Framework.SlotGrid.tightTime_gap hp hk

end Bounds

/-- **Block rate of the configured runtime**, for every slot duration: the
bounds for every accepted chain, and for every number of steps a chain that
attains the first. -/
theorem block_rate (sdk : ConsensusSdk) (hsdk : sdk.Laws Unbounded) (slotDuration : ℕ)
    (hD : 2 ≤ slotDuration) :
    (∀ (chain : AcceptedChain sdk slotDuration) (i k : ℕ) (b b' : SealedBlock),
      1 ≤ i → 1 ≤ k → blockAt chain.blocks i = some b →
      blockAt chain.blocks (i + k) = some b' →
      b.timestamp + max (k * (slotDuration / 2)) ((k - 1) * (2 * (slotDuration / 2)) + 1) ≤
        b'.timestamp) ∧
    (∀ (chain : AcceptedChain sdk slotDuration) (h : ℕ) (b : SealedBlock),
      blockAt chain.blocks h = some b → h * (2 * (slotDuration / 2)) ≤ b.timestamp) ∧
    (∀ k : ℕ, 1 ≤ k →
      ∃ (chain : AcceptedChain sdk slotDuration) (i : ℕ) (b b' : SealedBlock),
        1 ≤ i ∧ blockAt chain.blocks i = some b ∧ blockAt chain.blocks (i + k) = some b' ∧
          b'.timestamp = b.timestamp +
            max (k * (slotDuration / 2)) ((k - 1) * (2 * (slotDuration / 2)) + 1)) := by
  refine ⟨?_, ?_, ?_⟩
  · intro chain i k b b' hi hk hb hb'
    exact chain.gap hsdk hD hi hk hb hb'
  · intro chain h b hb
    exact chain.le_timestamp hsdk hD hb
  · intro k hk
    obtain ⟨chain, b, b', hb, hb', hgap⟩ := exists_chain_gap hsdk hD hk
    exact ⟨chain, 1, b, b', Nat.le_refl 1, hb, hb', hgap⟩

/-- With 6000 ms: two consecutive blocks can be 3000 ms apart, and four can lie
within 12001 ms. -/
theorem block_rate_documented :
    (∃ (chain : AcceptedChain ConsensusSdk.documented 6000) (i : ℕ) (b b' : SealedBlock),
      1 ≤ i ∧ blockAt chain.blocks i = some b ∧ blockAt chain.blocks (i + 1) = some b' ∧
        b'.timestamp = b.timestamp + 3000) ∧
    ∃ (chain : AcceptedChain ConsensusSdk.documented 6000) (i : ℕ) (b b' : SealedBlock),
      1 ≤ i ∧ blockAt chain.blocks i = some b ∧ blockAt chain.blocks (i + 3) = some b' ∧
        b'.timestamp = b.timestamp + 12001 := by
  obtain ⟨-, -, htight⟩ := block_rate ConsensusSdk.documented ConsensusSdk.documented_laws 6000
    (by decide)
  exact ⟨htight 1 (by decide), htight 3 (by decide)⟩

end SolochainTemplate.Runtime

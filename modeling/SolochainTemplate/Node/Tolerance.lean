import SolochainTemplate.Node.Agreement

/-!
# How far apart clocks may be

`Node.Agreement` shows that an importer one slot behind its author accepts the
block. Here the bound is shown to be exact: no larger skew is tolerated on every
chain, and one slot is as long as half a slot on top of it stays within the
timestamp drift.
-/

namespace SolochainTemplate.Node

open SolochainTemplate.Sdk
open SolochainTemplate.Runtime

variable {Hash ApiError : Type}

/-- On every accepted chain, what an author builds passes an importer whose clock
is at most `skew` behind, at both readings. -/
def Tolerates (sdk : ConsensusSdk) (slotDuration : ℕ) (client : FullClient Hash ApiError)
    (parentHash : Hash) (skew : ℕ) : Prop :=
  ∀ (chain : AcceptedChain sdk slotDuration) (clock : ℕ) (readings : Readings),
    U64 (clock + slotDuration / 2) → U64 (readings.header + 1) →
    U64 (readings.inherents + sdk.maxTimestampDriftMillis) →
    chain.head.currentSlot < clock / (2 * (slotDuration / 2)) →
    clock ≤ readings.header + skew → clock ≤ readings.inherents + skew →
    ∃ block st,
      authorBlock sdk slotDuration chain.head (auraApiSlotDuration sdk slotDuration) clock =
        some (block, st) ∧
      importVerified sdk slotDuration client parentHash chain.head readings block = .ok st

section Tolerance

variable {sdk : ConsensusSdk} (hsdk : sdk.Laws U64) {slotDuration : ℕ} (hD : 2 ≤ slotDuration)
  (hfits : U64 (2 * (slotDuration / 2))) {client : FullClient Hash ApiError} {parentHash : Hash}
  (hclient : client.slotDurationAt parentHash = .ok (auraApiSlotDuration sdk slotDuration))
include hsdk hD hfits hclient

theorem importVerified_authored_iff {st st' : ChainState} {clock : ℕ} {readings : Readings}
    (hst : st.Aligned slotDuration)
    (hslot : st.currentSlot < clock / (2 * (slotDuration / 2)))
    (hperiod : U64 (st.now + slotDuration / 2)) (hheader : U64 (readings.header + 1))
    (hinherents : U64 (readings.inherents + sdk.maxTimestampDriftMillis)) {block : Block}
    (hauthor : authorBlock sdk slotDuration st (auraApiSlotDuration sdk slotDuration) clock =
      some (block, st')) :
    importVerified sdk slotDuration client parentHash st readings block = .ok st' ↔
      clock / (2 * (slotDuration / 2)) ≤ readings.header / (2 * (slotDuration / 2)) + 1 ∧
        max clock (st.now + slotDuration / 2) ≤
          readings.inherents + sdk.maxTimestampDriftMillis := by
  have hL : auraApiSlotDuration sdk slotDuration = 2 * (slotDuration / 2) :=
    auraConfig_slotDuration hsdk hfits
  rw [authorBlock_authored hsdk hD hfits hst hslot hperiod] at hauthor
  obtain ⟨rfl, rfl⟩ := Prod.mk.inj (Option.some.inj hauthor)
  have hexecute := importBlock_authored hsdk hD hfits hst hslot hperiod
  have hnext : U64 (readings.header / (2 * (slotDuration / 2)) + 1) :=
    lt_of_le_of_lt (Nat.add_le_add_right (Nat.div_le_self _ _) 1) hheader
  rw [hL] at hclient
  -- the pushed timestamp is never too early, so two comparisons are left
  rw [importVerified_ok_iff hsdk hclient (by omega) hperiod hnext hinherents]
  constructor
  · rintro ⟨slot, hdigest, hahead, hfar, -, -⟩
    rw [hsdk.findPreDigest_auraPreRuntime] at hdigest
    obtain rfl : clock / (2 * (slotDuration / 2)) = slot := Except.ok.inj hdigest
    exact ⟨hahead, hfar⟩
  · rintro ⟨hahead, hfar⟩
    exact ⟨_, hsdk.findPreDigest_auraPreRuntime _, hahead, hfar, le_max_right _ _, hexecute⟩

end Tolerance

theorem slot_fits_of_room {sdk : ConsensusSdk} {slotDuration : ℕ}
    (hD64 : U64 (3 * slotDuration + sdk.maxTimestampDriftMillis)) :
    U64 (2 * (slotDuration / 2)) := by
  unfold U64 at *
  omega

section Exact

variable {sdk : ConsensusSdk} (hsdk : sdk.Laws U64) {slotDuration : ℕ} (hD : 2 ≤ slotDuration)
  (hD64 : U64 (3 * slotDuration + sdk.maxTimestampDriftMillis))
  {client : FullClient Hash ApiError} {parentHash : Hash}
  (hclient : client.slotDurationAt parentHash = .ok (auraApiSlotDuration sdk slotDuration))
include hsdk hD hD64 hclient

theorem skew_le_of_tolerates {skew : ℕ}
    (h : Tolerates sdk slotDuration client parentHash skew) : skew ≤ 2 * (slotDuration / 2) := by
  have hfits := slot_fits_of_room hD64
  have hL : 0 < 2 * (slotDuration / 2) := by omega
  -- on genesis, an importer at the end of slot 0 defers a block of slot 2
  have hclockSlot : 2 * (2 * (slotDuration / 2)) / (2 * (slotDuration / 2)) = 2 :=
    Nat.mul_div_cancel _ hL
  have hslot : genesis.currentSlot < 2 * (2 * (slotDuration / 2)) / (2 * (slotDuration / 2)) := by
    rw [hclockSlot]
    decide
  have hclock : U64 (2 * (2 * (slotDuration / 2)) + slotDuration / 2) := by
    unfold U64 at *
    omega
  have hnext : U64 (2 * (slotDuration / 2) - 1 + 1) := by
    rwa [Nat.sub_add_cancel hL]
  have hreading : U64 (2 * (slotDuration / 2) - 1 + sdk.maxTimestampDriftMillis) := by
    unfold U64 at *
    omega
  by_contra hnot
  obtain ⟨block, st, hauthor, himport⟩ := h ⟨[], genesis, rfl⟩ (2 * (2 * (slotDuration / 2)))
    ⟨2 * (slotDuration / 2) - 1, 2 * (slotDuration / 2) - 1⟩ hclock hnext hreading hslot
    (by dsimp only; omega) (by dsimp only; omega)
  have hperiod := Aligned.period_fits hD (genesis_aligned slotDuration) hclock hslot
  obtain ⟨hahead, -⟩ := (importVerified_authored_iff hsdk hD hfits hclient
    (genesis_aligned slotDuration) hslot hperiod hnext hreading hauthor).mp himport
  dsimp only at hahead
  rw [hclockSlot, Nat.div_eq_of_lt (Nat.sub_lt hL Nat.one_pos)] at hahead
  exact absurd hahead (by decide)

theorem skew_add_half_le_of_tolerates {skew : ℕ}
    (h : Tolerates sdk slotDuration client parentHash skew) :
    skew + slotDuration / 2 ≤ sdk.maxTimestampDriftMillis + 1 := by
  have hskew := skew_le_of_tolerates hsdk hD hD64 hclient h
  have hfits := slot_fits_of_room hD64
  have hL : 0 < 2 * (slotDuration / 2) := by omega
  -- on a head in the last millisecond of slot 1 the block of slot 2 is pushed by
  -- half a slot less one
  have hlast : (2 * (2 * (slotDuration / 2)) - 1) / (2 * (slotDuration / 2)) = 1 := by
    rw [Framework.SlotGrid.slot_eq_iff hL]
    omega
  have hperiod : U64 (slotDuration / 2) := by
    unfold U64 at *
    omega
  obtain ⟨chain, hhead⟩ := exists_chain_of_first hsdk hD hfits hperiod (hlast ▸ Nat.one_pos)
  rw [hlast] at hhead
  have hslot : chain.head.currentSlot <
      2 * (2 * (slotDuration / 2)) / (2 * (slotDuration / 2)) := by
    rw [Nat.mul_div_cancel _ hL, hhead]
    exact Nat.one_lt_two
  have hclock : U64 (2 * (2 * (slotDuration / 2)) + slotDuration / 2) := by
    unfold U64 at *
    omega
  have hnext : U64 (2 * (2 * (slotDuration / 2)) - skew + 1) := by
    unfold U64 at *
    omega
  have hreading : U64 (2 * (2 * (slotDuration / 2)) - skew + sdk.maxTimestampDriftMillis) := by
    unfold U64 at *
    omega
  obtain ⟨block, st, hauthor, himport⟩ := h chain (2 * (2 * (slotDuration / 2)))
    ⟨2 * (2 * (slotDuration / 2)) - skew, 2 * (2 * (slotDuration / 2)) - skew⟩ hclock hnext
    hreading hslot (by dsimp only; omega) (by dsimp only; omega)
  have hst := chain.aligned hsdk hD hfits
  have hperiod := Aligned.period_fits hD hst hclock hslot
  obtain ⟨-, hfar⟩ := (importVerified_authored_iff hsdk hD hfits hclient hst hslot hperiod hnext
    hreading hauthor).mp himport
  have hpushed := le_trans (le_max_right _ _) hfar
  rw [hhead] at hpushed
  dsimp only at hpushed
  omega

theorem tolerates_of_le {skew : ℕ} (hskew : skew ≤ 2 * (slotDuration / 2))
    (hhalf : skew + slotDuration / 2 ≤ sdk.maxTimestampDriftMillis + 1) :
    Tolerates sdk slotDuration client parentHash skew := by
  have hfits := slot_fits_of_room hD64
  rintro chain clock readings hclock hheader hinherents hslot hle hle'
  have hst := chain.aligned hsdk hD hfits
  have hperiod := Aligned.period_fits hD hst hclock hslot
  have hnow := Aligned.now_lt hD hst hslot
  have hauthor := authorBlock_authored hsdk hD hfits hst hslot hperiod
  refine ⟨_, _, hauthor, ?_⟩
  rw [importVerified_authored_iff hsdk hD hfits hclient hst hslot hperiod hheader hinherents
    hauthor]
  constructor
  · rw [← Nat.add_div_right _ (by omega)]
    exact Nat.div_le_div_right (by omega)
  · exact max_le (by omega) (by omega)

end Exact

/-- **The tolerated skew is exactly one slot**, unless half a slot on top of it
is more than the drift leaves. -/
theorem tolerates_iff (sdk : ConsensusSdk) (hsdk : sdk.Laws U64) (slotDuration : ℕ)
    (hD : 2 ≤ slotDuration) (hD64 : U64 (3 * slotDuration + sdk.maxTimestampDriftMillis))
    (client : FullClient Hash ApiError) (parentHash : Hash)
    (hclient : client.slotDurationAt parentHash = .ok (auraApiSlotDuration sdk slotDuration))
    (skew : ℕ) :
    Tolerates sdk slotDuration client parentHash skew ↔
      skew ≤ 2 * (slotDuration / 2) ∧
        skew + slotDuration / 2 ≤ sdk.maxTimestampDriftMillis + 1 := by
  constructor
  · intro h
    exact ⟨skew_le_of_tolerates hsdk hD hD64 hclient h,
      skew_add_half_le_of_tolerates hsdk hD hD64 hclient h⟩
  · rintro ⟨hskew, hhalf⟩
    exact tolerates_of_le hsdk hD hD64 hclient hskew hhalf

/-- The template tolerates a skew of one slot of 6000 milliseconds, and no more. -/
theorem tolerates_iff_template :
    Tolerates ConsensusSdk.documented 6000 (FullClient.ofChain 0 [] 6000 : FullClient ℕ Unit) 0
        6000 ∧
      ¬ Tolerates ConsensusSdk.documented 6000 (FullClient.ofChain 0 [] 6000 : FullClient ℕ Unit) 0
        6001 := by
  have hiff := tolerates_iff ConsensusSdk.documented ConsensusSdk.documented_laws_u64 6000
    (by decide) (by decide) (FullClient.ofChain 0 [] 6000 : FullClient ℕ Unit) 0 rfl
  rw [hiff, hiff]
  decide

end SolochainTemplate.Node

import SolochainTemplate.Framework.SlotGrid
import SolochainTemplate.Sdk.Consensus

/-!
# Building and executing blocks

The pallet configurations of `runtime/src/lib.rs` (`block_times`) and
`runtime/src/configs/mod.rs` are functions of `SLOT_DURATION`, which the source
marks as the value to change; `slotDuration` is the value it has.

The runtime's view of time: `Now` of `pallet_timestamp` and `CurrentSlot` of
`pallet_aura`, and how a block moves them. A block passes `on_initialize` of
Aura with its digest, then the timestamp inherent, whose setting calls Aura
back because the runtime is configured with `OnTimestampSet = Aura`.

The abstract view is `Framework.SlotGrid`: on the states that blocks reach, the
slot is a function of the timestamp, and the accepted chains are the spaced
sequences of timestamps (`run_importBlock_iff`).
-/

namespace SolochainTemplate.Runtime

open SolochainTemplate.Sdk
open Framework (run run_cons_eq_some run_gain run_growing run_between run_invariant)
open Framework.SlotGrid (Follows Spaced)

/-! ## The pallet configurations -/

/-- `block_times::MILLI_SECS_PER_BLOCK`. -/
def milliSecsPerBlock : ℕ := 6000

/-- `block_times::SLOT_DURATION`. -/
def slotDuration : ℕ := milliSecsPerBlock

/-- `impl pallet_timestamp::Config for Runtime`. -/
def timestampConfig (slotDuration : ℕ) : TimestampConfig where
  minimumPeriod := slotDuration / 2
  onTimestampSet := .aura

/-- `impl pallet_aura::Config for Runtime`. -/
def auraConfig (sdk : ConsensusSdk) (slotDuration : ℕ) : AuraConfig where
  allowMultipleBlocksPerSlot := false
  slotDuration := sdk.minimumPeriodTimesTwo (timestampConfig slotDuration).minimumPeriod

/-- `AuraApi::slot_duration` of the runtime API. -/
def auraApiSlotDuration (sdk : ConsensusSdk) (slotDuration : ℕ) : ℕ :=
  (auraConfig sdk slotDuration).slotDuration

@[simp] theorem timestampConfig_minimumPeriod (slotDuration : ℕ) :
    (timestampConfig slotDuration).minimumPeriod = slotDuration / 2 := rfl

@[simp] theorem auraConfig_allowMultipleBlocksPerSlot (sdk : ConsensusSdk) (slotDuration : ℕ) :
    (auraConfig sdk slotDuration).allowMultipleBlocksPerSlot = false := rfl

/-- The Aura slot is twice the halved slot duration: one millisecond short of
an odd one. -/
theorem auraConfig_slotDuration {sdk : ConsensusSdk} {fits : ℕ → Prop} (hsdk : sdk.Laws fits)
    {slotDuration : ℕ} (hfits : fits (2 * (slotDuration / 2))) :
    (auraConfig sdk slotDuration).slotDuration = 2 * (slotDuration / 2) :=
  hsdk.minimumPeriodTimesTwo_eq _ hfits

/-! ## States and blocks -/

/-- `Now` and `CurrentSlot`. -/
structure ChainState where
  now : ℕ
  currentSlot : ℕ
deriving DecidableEq, Repr

/-- The genesis state: both values are at their default. -/
def genesis : ChainState := ⟨0, 0⟩

/-- The invariant: the current slot is the slot of the stored time. -/
def ChainState.Aligned (slotDuration : ℕ) (st : ChainState) : Prop :=
  st.now / (2 * (slotDuration / 2)) = st.currentSlot

theorem ChainState.Aligned.slot_eq {slotDuration : ℕ} {st : ChainState}
    (h : st.Aligned slotDuration) : st.now / (2 * (slotDuration / 2)) = st.currentSlot := h

theorem genesis_aligned (slotDuration : ℕ) : genesis.Aligned slotDuration :=
  Nat.zero_div _

/-- What the two pallets read of a block. -/
structure Block where
  digest : List DigestItem
  timestamp : ℕ
deriving DecidableEq, Repr

/-- A block as an Aura author seals it: the digest is the slot's pre-digest. -/
structure SealedBlock where
  slot : ℕ
  timestamp : ℕ
deriving DecidableEq, Repr

def SealedBlock.toBlock (b : SealedBlock) : Block :=
  ⟨[.auraPreRuntime b.slot], b.timestamp⟩

/-- The state an accepted block leaves. -/
def SealedBlock.state (b : SealedBlock) : ChainState :=
  ⟨b.timestamp, b.slot⟩

/-! ## Transitions -/

variable (sdk : ConsensusSdk) (slotDuration : ℕ)

/-- The timestamp inherent: `Timestamp::set` and its hook. -/
def setTimestamp (now currentSlot moment : ℕ) : Option ChainState := do
  let now' ← sdk.timestampSet (timestampConfig slotDuration) now moment
  match (timestampConfig slotDuration).onTimestampSet with
  | .nothing => pure ()
  | .aura => sdk.auraOnTimestampSet (auraConfig sdk slotDuration) currentSlot moment
  return ⟨now', currentSlot⟩

/-- `Executive::execute_block`, as far as the two pallets go; `none` when an
assertion fails and the block panics. -/
def executeBlock (st : ChainState) (block : Block) : Option ChainState := do
  let currentSlot ←
    sdk.auraOnInitialize (auraConfig sdk slotDuration) block.digest st.currentSlot
  setTimestamp sdk slotDuration st.now currentSlot block.timestamp

/-- Building a block on a state: the timestamp is the inherent the pallet makes
from the inherent data, and the block is executed as it is built. -/
def buildBlock (st : ChainState) (digest : List DigestItem) (data : InherentData) :
    Option (Block × ChainState) := do
  let timestamp ← sdk.timestampCreateInherent (timestampConfig slotDuration) st.now data
  let st' ← executeBlock sdk slotDuration st ⟨digest, timestamp⟩
  return (⟨digest, timestamp⟩, st')

/-- Importing a sealed block. -/
def importBlock (st : ChainState) (b : SealedBlock) : Option ChainState :=
  executeBlock sdk slotDuration st b.toBlock

/-- A chain of blocks that were all accepted, from genesis on. -/
structure AcceptedChain where
  blocks : List SealedBlock
  head : ChainState
  accepted : run (importBlock sdk slotDuration) genesis blocks = some head

/-- Block `h` of a chain; block 0 is the genesis block and not in the list. -/
def blockAt (blocks : List SealedBlock) : ℕ → Option SealedBlock
  | 0 => none
  | h + 1 => blocks[h]?

/-! ## What a block does to the state -/

variable {sdk slotDuration} {fits : ℕ → Prop}

theorem setTimestamp_eq_bind (now currentSlot moment : ℕ) :
    setTimestamp sdk slotDuration now currentSlot moment =
      (sdk.timestampSet (timestampConfig slotDuration) now moment).bind fun now' =>
        (sdk.auraOnTimestampSet (auraConfig sdk slotDuration) currentSlot moment).bind fun _ =>
          some ⟨now', currentSlot⟩ := rfl

section Spec

variable (hsdk : sdk.Laws fits) (hD : 2 ≤ slotDuration)
  (hfits : fits (2 * (slotDuration / 2)))
include hsdk hD hfits

theorem auraOnTimestampSet_eq_some {currentSlot moment : ℕ} {u : Unit} :
    sdk.auraOnTimestampSet (auraConfig sdk slotDuration) currentSlot moment = some u ↔
      moment / (2 * (slotDuration / 2)) = currentSlot := by
  have hL := auraConfig_slotDuration hsdk hfits
  rw [hsdk.auraOnTimestampSet_eq _ _ _ (by omega), hL]
  simp

/-- Whatever the sums do, an accepted timestamp lies in the current slot and is
stored. -/
theorem setTimestamp_slot {now currentSlot moment : ℕ} {st' : ChainState}
    (h : setTimestamp sdk slotDuration now currentSlot moment = some st') :
    moment / (2 * (slotDuration / 2)) = currentSlot ∧ st' = ⟨moment, currentSlot⟩ := by
  rw [setTimestamp_eq_bind, Option.bind_eq_some_iff] at h
  rcases h with ⟨now', hset, h⟩
  obtain ⟨u, hhook, h⟩ := Option.bind_eq_some_iff.mp h
  have hmoment : now' = moment := hsdk.timestampSet_moment _ _ _ _ hset
  exact ⟨(auraOnTimestampSet_eq_some hsdk hD hfits).mp hhook, hmoment ▸ (Option.some.inj h).symm⟩

theorem setTimestamp_eq_some {now currentSlot moment : ℕ} {st' : ChainState}
    (hperiod : fits (now + slotDuration / 2)) :
    setTimestamp sdk slotDuration now currentSlot moment = some st' ↔
      (now = 0 ∨ now + slotDuration / 2 ≤ moment) ∧
        moment / (2 * (slotDuration / 2)) = currentSlot ∧ st' = ⟨moment, currentSlot⟩ := by
  constructor
  · intro h
    refine ⟨?_, setTimestamp_slot hsdk hD hfits h⟩
    rw [setTimestamp_eq_bind, hsdk.timestampSet_eq _ _ _ hperiod] at h
    by_contra hnot
    rw [timestampConfig_minimumPeriod, if_neg hnot] at h
    cases h
  · rintro ⟨hmin, hslot, rfl⟩
    rw [setTimestamp_eq_bind, hsdk.timestampSet_eq _ _ _ hperiod,
      timestampConfig_minimumPeriod, if_pos hmin, Option.bind_some,
      (auraOnTimestampSet_eq_some hsdk hD hfits (u := ())).mpr hslot]
    rfl

omit hD hfits in
/-- Aura's `on_initialize` on a sealed block: the slot must grow. -/
theorem importBlock_eq_some_iff {st st' : ChainState} {b : SealedBlock} :
    importBlock sdk slotDuration st b = some st' ↔
      st.currentSlot < b.slot ∧
        setTimestamp sdk slotDuration st.now b.slot b.timestamp = some st' := by
  show (sdk.auraOnInitialize (auraConfig sdk slotDuration) [.auraPreRuntime b.slot]
    st.currentSlot).bind (fun slot => setTimestamp sdk slotDuration st.now slot b.timestamp) =
      some st' ↔ _
  rw [hsdk.auraOnInitialize_eq, hsdk.currentSlot_auraPreRuntime]
  by_cases hslot : st.currentSlot < b.slot
  · simp [hslot]
  · simp [hslot]

omit hD hfits in
theorem executeBlock_of_slot {st : ChainState} {block : Block} {slot : ℕ}
    (hslot : sdk.currentSlotFromDigests block.digest = some slot) :
    executeBlock sdk slotDuration st block =
      importBlock sdk slotDuration st ⟨slot, block.timestamp⟩ := by
  show (sdk.auraOnInitialize (auraConfig sdk slotDuration) block.digest st.currentSlot).bind _ =
    (sdk.auraOnInitialize (auraConfig sdk slotDuration) [.auraPreRuntime slot]
      st.currentSlot).bind _
  rw [hsdk.auraOnInitialize_eq, hsdk.auraOnInitialize_eq, hslot, hsdk.currentSlot_auraPreRuntime]
  rfl

omit hD hfits in
theorem executeBlock_no_digest (st : ChainState) (timestamp : ℕ) :
    executeBlock sdk slotDuration st ⟨[], timestamp⟩ =
      setTimestamp sdk slotDuration st.now st.currentSlot timestamp := by
  show (sdk.auraOnInitialize (auraConfig sdk slotDuration) [] st.currentSlot).bind _ = _
  rw [hsdk.auraOnInitialize_eq, hsdk.currentSlotFromDigests_eq]
  rfl

omit hD hfits in
/-- A block is built if it can be executed with its pushed timestamp. -/
theorem buildBlock_eq {st : ChainState} {digest : List DigestItem} {data : InherentData}
    {d : ℕ} (hdata : data .timstap0 = some d) (hperiod : fits (st.now + slotDuration / 2)) :
    buildBlock sdk slotDuration st digest data =
      (executeBlock sdk slotDuration st ⟨digest, max d (st.now + slotDuration / 2)⟩).map
        fun st' => (⟨digest, max d (st.now + slotDuration / 2)⟩, st') := by
  rw [buildBlock, hsdk.timestampCreateInherent_eq _ _ _ _ hdata hperiod, Option.map_eq_bind]
  rfl

/-! ## The invariant, and chains as spaced sequences -/

/-- An accepted block leaves an aligned state, whatever state it was built on. -/
theorem importBlock_aligned {st st' : ChainState} {b : SealedBlock}
    (h : importBlock sdk slotDuration st b = some st') : st'.Aligned slotDuration := by
  obtain ⟨-, hset⟩ := (importBlock_eq_some_iff hsdk).mp h
  obtain ⟨hslot, rfl⟩ := setTimestamp_slot hsdk hD hfits hset
  exact hslot

/-- **Time and slot agree** on every state an accepted chain ends in, the
genesis state included. -/
theorem AcceptedChain.aligned (chain : AcceptedChain sdk slotDuration) :
    chain.head.Aligned slotDuration := by
  apply run_invariant (ChainState.Aligned slotDuration) _ (genesis_aligned slotDuration)
    chain.accepted
  intro st b st' _ hstep
  exact importBlock_aligned hsdk hD hfits hstep

theorem importBlock_raises (st : ChainState) (b : SealedBlock) (st' : ChainState)
    (h : importBlock sdk slotDuration st b = some st') :
    st.currentSlot < b.slot ∧ st'.currentSlot = b.slot := by
  obtain ⟨hslot, hset⟩ := (importBlock_eq_some_iff hsdk).mp h
  obtain ⟨-, rfl⟩ := setTimestamp_slot hsdk hD hfits hset
  exact ⟨hslot, rfl⟩

theorem run_importBlock_slots {st st' : ChainState} {blocks : List SealedBlock}
    (h : run (importBlock sdk slotDuration) st blocks = some st') :
    st.currentSlot + blocks.length ≤ st'.currentSlot := by
  apply run_gain ChainState.currentSlot _ h
  intro st b st' hstep
  obtain ⟨hgrow, hslot⟩ := importBlock_raises hsdk hD hfits st b st' hstep
  rwa [hslot]

theorem run_importBlock_slot_mem {st st' : ChainState} {blocks : List SealedBlock}
    (h : run (importBlock sdk slotDuration) st blocks = some st') {b : SealedBlock}
    (hb : b ∈ blocks) : st.currentSlot < b.slot ∧ b.slot ≤ st'.currentSlot :=
  (run_between (importBlock_raises hsdk hD hfits) h).2 b hb

theorem run_importBlock_slots_pairwise {st st' : ChainState} {blocks : List SealedBlock}
    (h : run (importBlock sdk slotDuration) st blocks = some st') :
    (blocks.map SealedBlock.slot).Pairwise (· < ·) := by
  have hgrow := run_growing (importBlock_raises hsdk hD hfits) h
  exact (List.pairwise_cons.mp (List.isChain_iff_pairwise.mp hgrow)).2

theorem run_importBlock_slots_nodup {st st' : ChainState} {blocks : List SealedBlock}
    (h : run (importBlock sdk slotDuration) st blocks = some st') :
    (blocks.map SealedBlock.slot).Nodup :=
  (run_importBlock_slots_pairwise hsdk hD hfits h).imp Nat.ne_of_lt

theorem exists_chain_of_first (hperiod : fits (slotDuration / 2)) {time : ℕ}
    (htime : 0 < time / (2 * (slotDuration / 2))) :
    ∃ chain : AcceptedChain sdk slotDuration,
      chain.head = ⟨time, time / (2 * (slotDuration / 2))⟩ := by
  have hgenesis : fits (genesis.now + slotDuration / 2) := by
    rwa [show genesis.now = 0 from rfl, Nat.zero_add]
  have himport : importBlock sdk slotDuration genesis ⟨time / (2 * (slotDuration / 2)), time⟩ =
      some ⟨time, time / (2 * (slotDuration / 2))⟩ := by
    rw [importBlock_eq_some_iff hsdk, setTimestamp_eq_some hsdk hD hfits hgenesis]
    exact ⟨htime, Or.inl rfl, rfl, rfl⟩
  exact ⟨⟨[⟨time / (2 * (slotDuration / 2)), time⟩], _,
    run_cons_eq_some.mpr ⟨_, himport, rfl⟩⟩, rfl⟩

end Spec

section Unbounded

variable (hsdk : sdk.Laws Unbounded) (hD : 2 ≤ slotDuration)
include hsdk hD

/-- What one accepted block does, seen from a state where time and slot agree. -/
theorem importBlock_step {st st' : ChainState} {b : SealedBlock}
    (hst : st.Aligned slotDuration) :
    importBlock sdk slotDuration st b = some st' ↔
      b.state.Aligned slotDuration ∧
        Follows (slotDuration / 2) (2 * (slotDuration / 2)) st.now b.timestamp ∧
          st' = b.state := by
  rw [importBlock_eq_some_iff hsdk, setTimestamp_eq_some hsdk hD trivial trivial, Follows,
    hst.slot_eq]
  constructor
  · rintro ⟨hgrow, hmin, hslot, rfl⟩
    refine ⟨hslot, ⟨?_, hmin⟩, rfl⟩
    rwa [hslot]
  · rintro ⟨hlabel, ⟨hgrow, hmin⟩, rfl⟩
    have hslot : b.timestamp / (2 * (slotDuration / 2)) = b.slot := hlabel
    rw [hslot] at hgrow
    exact ⟨hgrow, hmin, hslot, rfl⟩

/-- **Refinement**: the accepted words of blocks are exactly the spaced
sequences of timestamps, each block labelled with the slot of its timestamp. -/
theorem run_importBlock_iff {blocks : List SealedBlock} {st : ChainState} :
    run (importBlock sdk slotDuration) genesis blocks = some st ↔
      (∀ b ∈ blocks, b.state.Aligned slotDuration) ∧
        Spaced (slotDuration / 2) (2 * (slotDuration / 2))
          (blocks.map SealedBlock.timestamp) ∧
        st = (blocks.map SealedBlock.state).getLastD genesis := by
  rw [Framework.run_eq_some_iff_isChain
    (ChainState.Aligned slotDuration) SealedBlock.state
    (fun s s' => Follows (slotDuration / 2) (2 * (slotDuration / 2)) s.now s'.now)
    (fun st b st' hst => importBlock_step hsdk hD hst) (fun _ hb => hb)
    (genesis_aligned slotDuration)]
  -- the chain of states is the chain of the times they store
  have hview : List.IsChain
      (fun s s' => Follows (slotDuration / 2) (2 * (slotDuration / 2)) s.now s'.now)
      (genesis :: blocks.map SealedBlock.state) ↔
      Spaced (slotDuration / 2) (2 * (slotDuration / 2))
        (blocks.map SealedBlock.timestamp) := by
    rw [Spaced, ← List.isChain_map ChainState.now, List.map_cons, List.map_map]
    rfl
  rw [hview]

theorem AcceptedChain.spaced (chain : AcceptedChain sdk slotDuration) :
    Spaced (slotDuration / 2) (2 * (slotDuration / 2))
      (chain.blocks.map SealedBlock.timestamp) :=
  ((run_importBlock_iff hsdk hD).mp chain.accepted).2.1

theorem exists_chain_of_spaced {times : List ℕ}
    (h : Spaced (slotDuration / 2) (2 * (slotDuration / 2)) times) :
    ∃ chain : AcceptedChain sdk slotDuration,
      chain.blocks.map SealedBlock.timestamp = times := by
  let blocks := times.map fun t => (⟨t / (2 * (slotDuration / 2)), t⟩ : SealedBlock)
  have htimes : blocks.map SealedBlock.timestamp = times := by simp [blocks, Function.comp_def]
  refine ⟨⟨blocks, _, (run_importBlock_iff hsdk hD).mpr ⟨?_, htimes.symm ▸ h, rfl⟩⟩, htimes⟩
  intro b hb
  obtain ⟨t, -, rfl⟩ := List.mem_map.mp hb
  rfl

end Unbounded

end SolochainTemplate.Runtime

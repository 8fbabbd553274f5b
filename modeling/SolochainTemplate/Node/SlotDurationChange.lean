import SolochainTemplate.Node.Rounds

/-!
# Changing the slot duration

`runtime/src/lib.rs`, `block_times`: `SLOT_DURATION` is the value to change, but
not after the chain has started, which "will brick block production". Here the
chain was made by a runtime with `oldDuration`, and the runtime now is one with
`newDuration`. Its first block runs the pallets' upgrade hooks: Aura's may set
`CurrentSlot`, and what it sets is left open.

A node that keeps running authors with the duration it captured at start-up
(`new_full`), a restarted one with the new runtime's. The first builds no block
any more, in whichever direction the duration changed, once the grids have
drifted apart, as they have on clocks that count from 1970. The second is stopped
by a longer duration until the clock has caught up with the chain's slot number,
and not at all by a shorter one.
-/

namespace SolochainTemplate.Node

open SolochainTemplate.Sdk
open SolochainTemplate.Runtime
open Framework (run run_cons toOption_ok)
open Framework.SlotGrid (push_half_slot_iff slot_ne_of_drift)

variable {sdk : ConsensusSdk} {fits : ℕ → Prop} {slotDuration : ℕ}

/-! ## Authoring on any state -/

section AnyState

variable (hsdk : sdk.Laws fits) (hD : 2 ≤ slotDuration)
  (hfits : fits (2 * (slotDuration / 2)))
include hsdk hD hfits

theorem authorBlock_isSome_iff {authorSlotDuration : ℕ} (hpos : 0 < authorSlotDuration)
    (st : ChainState) (clock : ℕ) (hperiod : fits (st.now + slotDuration / 2)) :
    (authorBlock sdk slotDuration st authorSlotDuration clock).isSome ↔
      st.currentSlot < clock / authorSlotDuration ∧
        max clock (st.now + slotDuration / 2) / (2 * (slotDuration / 2)) =
          clock / authorSlotDuration := by
  rw [authorBlock_eq_map hsdk hpos st clock hperiod, Option.isSome_map, Option.isSome_iff_exists]
  constructor
  · rintro ⟨st', himport⟩
    obtain ⟨hgrow, hset⟩ := (importBlock_eq_some_iff hsdk).mp himport
    exact ⟨hgrow, (setTimestamp_slot hsdk hD hfits hset).1⟩
  · rintro ⟨hgrow, hslot⟩
    refine ⟨⟨max clock (st.now + slotDuration / 2), clock / authorSlotDuration⟩, ?_⟩
    rw [importBlock_eq_some_iff hsdk, setTimestamp_eq_some hsdk hD hfits hperiod]
    exact ⟨hgrow, Or.inr (le_max_right _ _), hslot, rfl⟩

/-- With the runtime's own duration: the slot grows, and the clock is in a later
slot than the stored time, or in the same and that in its first half. -/
theorem authorBlock_restarted_isSome_iff (st : ChainState) (clock : ℕ)
    (hperiod : fits (st.now + slotDuration / 2)) :
    (authorBlock sdk slotDuration st (auraApiSlotDuration sdk slotDuration) clock).isSome ↔
      st.currentSlot < clock / (2 * (slotDuration / 2)) ∧
        (st.now / (2 * (slotDuration / 2)) < clock / (2 * (slotDuration / 2)) ∨
          clock / (2 * (slotDuration / 2)) = st.now / (2 * (slotDuration / 2)) ∧
            st.now % (2 * (slotDuration / 2)) < slotDuration / 2) := by
  have hL : auraApiSlotDuration sdk slotDuration = 2 * (slotDuration / 2) :=
    auraConfig_slotDuration hsdk hfits
  have hp : 0 < slotDuration / 2 := Nat.div_pos hD (by decide)
  rw [hL, authorBlock_isSome_iff hsdk hD hfits (Nat.mul_pos (by decide) hp) st clock hperiod,
    push_half_slot_iff hp]

end AnyState

/-! ## Realigning a head

A head whose slot number is not ahead of the runtime's grid behaves, for every
block in a later slot of the grid, as the aligned head with the same time. -/

/-- The head with the slot number that the runtime's grid gives its time. -/
def realign (slotDuration : ℕ) (st : ChainState) : ChainState :=
  ⟨st.now, st.now / (2 * (slotDuration / 2))⟩

theorem realign_aligned (slotDuration : ℕ) (st : ChainState) :
    (realign slotDuration st).Aligned slotDuration := rfl

section Realign

variable (hsdk : sdk.Laws U64) {st : ChainState}
  (hst : st.currentSlot ≤ st.now / (2 * (slotDuration / 2)))
include hsdk hst

theorem importBlock_realign {b : SealedBlock}
    (hb : st.now / (2 * (slotDuration / 2)) < b.slot) :
    importBlock sdk slotDuration st b =
      importBlock sdk slotDuration (realign slotDuration st) b := by
  apply Option.ext
  intro st'
  rw [importBlock_eq_some_iff hsdk, importBlock_eq_some_iff hsdk]
  constructor
  · rintro ⟨-, hset⟩
    exact ⟨hb, hset⟩
  · rintro ⟨-, hset⟩
    exact ⟨lt_of_le_of_lt hst hb, hset⟩

theorem importVerified_realign {Hash ApiError : Type} (client : FullClient Hash ApiError)
    (parentHash : Hash) (readings : Readings) {b : SealedBlock}
    (hb : st.now / (2 * (slotDuration / 2)) < b.slot) :
    importVerified sdk slotDuration client parentHash st readings b.toBlock =
      importVerified sdk slotDuration client parentHash (realign slotDuration st) readings
        b.toBlock := by
  have hexecute : executeBlock sdk slotDuration st b.toBlock =
      executeBlock sdk slotDuration (realign slotDuration st) b.toBlock :=
    importBlock_realign hsdk hst hb
  unfold importVerified
  rw [hexecute]
  rfl

theorem playRound_realign {Node Hash ApiError : Type} (hD : 2 ≤ slotDuration)
    (hfits : U64 (2 * (slotDuration / 2))) {client : Node → FullClient Hash ApiError}
    (hclient : ∀ i hash,
      (client i).slotDurationAt hash = .ok (auraApiSlotDuration sdk slotDuration))
    (hperiod : U64 (st.now + slotDuration / 2)) {r : Round Node Hash}
    (hr : st.now / (2 * (slotDuration / 2)) < r.clock / (2 * (slotDuration / 2))) :
    playRound sdk slotDuration client st r =
      playRound sdk slotDuration client (realign slotDuration st) r := by
  let b : SealedBlock :=
    ⟨r.clock / (2 * (slotDuration / 2)), max r.clock (st.now + slotDuration / 2)⟩
  have hbuilt := authorBlock_eq hsdk hD hfits st r.clock hperiod
  have hbuilt' := authorBlock_eq hsdk hD hfits (realign slotDuration st) r.clock hperiod
  have himport : importBlock sdk slotDuration st b =
      importBlock sdk slotDuration (realign slotDuration st) b :=
    importBlock_realign hsdk hst hr
  have hverify : importVerified sdk slotDuration (client r.importer) r.parentHash st r.readings
      b.toBlock = importVerified sdk slotDuration (client r.importer) r.parentHash
        (realign slotDuration st) r.readings b.toBlock :=
    importVerified_realign hsdk hst (client r.importer) r.parentHash r.readings hr
  have hstart : startSlotDuration (client r.author) = _ := hclient r.author _
  rw [himport] at hbuilt
  simp only [playRound, hstart, toOption_ok, Option.bind_eq_bind, Option.bind_some]
  rw [hbuilt, hbuilt']
  show Option.bind (Option.map _ (importBlock _ _ _ b)) _ =
    Option.bind (Option.map _ (importBlock _ _ _ b)) _
  cases importBlock sdk slotDuration (realign slotDuration st) b with
  | none => rfl
  | some st₁ => exact congrArg Except.toOption hverify

end Realign

/-! ## After the change -/

/-- The head as the first block of the new runtime finds it, after Aura's upgrade
hook. -/
def upgrade (sdk : ConsensusSdk) (newDuration : ℕ) (st : ChainState) : ChainState :=
  ⟨st.now, sdk.auraOnRuntimeUpgrade (auraConfig sdk newDuration) st.currentSlot st.now⟩

/-- **A node that kept running builds no block any more**, on whatever head, once
the two grids have drifted apart. Of the head only its time matters, which is at
most the drift ahead of the node's clock if the node imported it. -/
theorem stale_author_bricked (sdk : ConsensusSdk) (hsdk : sdk.Laws U64)
    (oldDuration newDuration : ℕ) (hold : 2 ≤ oldDuration) (hnew : 2 ≤ newDuration)
    (hold64 : U64 oldDuration) (hnew64 : U64 newDuration) (start : ℕ)
    (hdrifted :
      2 * (newDuration / 2) ≤ start / (2 * (oldDuration / 2)) *
        (2 * (oldDuration / 2) - 2 * (newDuration / 2)) ∨
      2 * (oldDuration / 2) + (sdk.maxTimestampDriftMillis + newDuration / 2) ≤
        start / (2 * (oldDuration / 2)) * (2 * (newDuration / 2) - 2 * (oldDuration / 2)))
    (st : ChainState) (clock : ℕ) (hclock : start ≤ clock)
    (hnow : st.now ≤ clock + sdk.maxTimestampDriftMillis)
    (hperiod : U64 (st.now + newDuration / 2)) :
    authorBlock sdk newDuration st (auraApiSlotDuration sdk oldDuration) clock = none := by
  have hfits : U64 (2 * (oldDuration / 2)) := lt_of_le_of_lt (Nat.mul_div_le _ 2) hold64
  have hfits' : U64 (2 * (newDuration / 2)) := lt_of_le_of_lt (Nat.mul_div_le _ 2) hnew64
  have hL : 0 < 2 * (oldDuration / 2) := by omega
  have hL' : 0 < 2 * (newDuration / 2) := by omega
  have hapi : auraApiSlotDuration sdk oldDuration = 2 * (oldDuration / 2) :=
    auraConfig_slotDuration hsdk hfits
  rw [hapi, ← Option.not_isSome_iff_eq_none,
    authorBlock_isSome_iff hsdk hnew hfits' hL _ _ hperiod]
  rintro ⟨-, hslot⟩
  have hlater : start / (2 * (oldDuration / 2)) ≤ clock / (2 * (oldDuration / 2)) :=
    Nat.div_le_div_right hclock
  have hpushed : max clock (st.now + newDuration / 2) ≤
      clock + (sdk.maxTimestampDriftMillis + newDuration / 2) := max_le (by omega) (by omega)
  refine slot_ne_of_drift hL hL' (le_max_left _ _) hpushed ?_ hslot
  rcases hdrifted with hshorter | hlonger
  · exact Or.inl (le_trans hshorter (Nat.mul_le_mul_right _ hlater))
  · exact Or.inr (le_trans hlonger (Nat.mul_le_mul_right _ hlater))

/-- On a head that a restarted node made of a block in slot 4501 of the new grid. -/
theorem stale_author_bricked_after_restart :
    authorBlock ConsensusSdk.documented 4000 ⟨18004000, 4501⟩
      (auraApiSlotDuration ConsensusSdk.documented 6000) 27012000 = none :=
  stale_author_bricked ConsensusSdk.documented ConsensusSdk.documented_laws_u64 6000 4000
    (by decide) (by decide) (by decide) (by decide) 12000
    (by decide) ⟨18004000, 4501⟩ 27012000 (by decide) (by decide) (by decide)

/-- **A longer duration stops a restarted node** until the slot after the one that
the upgrade leaves starts on the longer grid. With the slot number kept that is
slot `currentSlot + 1`; with the slot of the stored time it is the next slot. -/
theorem lengthened_author_isSome_iff (sdk : ConsensusSdk) (hsdk : sdk.Laws U64)
    (oldDuration newDuration : ℕ) (hold : 2 ≤ oldDuration) (hnew64 : U64 newDuration)
    (hlonger : oldDuration / 2 ≤ newDuration / 2) (chain : AcceptedChain sdk oldDuration)
    (hperiod : U64 (chain.head.now + newDuration / 2))
    (hhook : (upgrade sdk newDuration chain.head).currentSlot = chain.head.currentSlot ∨
      (upgrade sdk newDuration chain.head).currentSlot =
        chain.head.now / (2 * (newDuration / 2))) (clock : ℕ) :
    (authorBlock sdk newDuration (upgrade sdk newDuration chain.head)
        (auraApiSlotDuration sdk newDuration) clock).isSome ↔
      ((upgrade sdk newDuration chain.head).currentSlot + 1) * (2 * (newDuration / 2)) ≤
        clock := by
  have hfits' : U64 (2 * (newDuration / 2)) := lt_of_le_of_lt (Nat.mul_div_le _ 2) hnew64
  have hfits : U64 (2 * (oldDuration / 2)) :=
    lt_of_le_of_lt (Nat.mul_le_mul_left 2 hlonger) hfits'
  have hp : 0 < oldDuration / 2 := Nat.div_pos hold (by decide)
  have hp' : 0 < newDuration / 2 := lt_of_lt_of_le hp hlonger
  have hnew : 2 ≤ newDuration := (Nat.div_pos_iff.mp hp').2
  have hL' : 0 < 2 * (newDuration / 2) := Nat.mul_pos (by decide) hp'
  -- the stored time is in no later slot of the longer grid than the one left
  have hslot : chain.head.now / (2 * (newDuration / 2)) ≤
      (upgrade sdk newDuration chain.head).currentSlot := by
    rcases hhook with hkept | hreset
    · rw [hkept, ← (chain.aligned hsdk hold hfits).slot_eq]
      exact Nat.div_le_div_left (Nat.mul_le_mul_left 2 hlonger) (Nat.mul_pos (by decide) hp)
    · exact hreset.ge
  rw [authorBlock_restarted_isSome_iff hsdk hnew hfits' (upgrade sdk newDuration chain.head) clock
    hperiod, ← Nat.le_div_iff_mul_le hL']
  constructor
  · rintro ⟨hgrow, -⟩
    exact hgrow
  · intro hgrow
    exact ⟨hgrow, Or.inl (lt_of_le_of_lt hslot hgrow)⟩

/-- An SDK whose Aura has no upgrade hook. -/
def keepsSlot : ConsensusSdk :=
  { ConsensusSdk.documented with auraOnRuntimeUpgrade := fun _ currentSlot _ => currentSlot }

theorem keepsSlot_laws : keepsSlot.Laws U64 :=
  { ConsensusSdk.documented_laws_u64 with }

/-- Doubling the duration of a chain that is five hours old. Without a hook five
hours pass before the next block, with one that resets the slot just a slot. -/
theorem lengthened_author_isSome_iff_doubled :
    (¬ (authorBlock keepsSlot 12000 (upgrade keepsSlot 12000 ⟨18000000, 3000⟩)
        (auraApiSlotDuration keepsSlot 12000) 36011999).isSome ∧
      (authorBlock keepsSlot 12000 (upgrade keepsSlot 12000 ⟨18000000, 3000⟩)
        (auraApiSlotDuration keepsSlot 12000) 36012000).isSome) ∧
    ¬ (authorBlock ConsensusSdk.documented 12000
        (upgrade ConsensusSdk.documented 12000 ⟨18000000, 3000⟩)
        (auraApiSlotDuration ConsensusSdk.documented 12000) 18011999).isSome ∧
      (authorBlock ConsensusSdk.documented 12000
        (upgrade ConsensusSdk.documented 12000 ⟨18000000, 3000⟩)
        (auraApiSlotDuration ConsensusSdk.documented 12000) 18012000).isSome := by
  have hkept := lengthened_author_isSome_iff keepsSlot keepsSlot_laws 6000 12000 (by decide)
    (by decide) (by decide) ⟨[⟨3000, 18000000⟩], ⟨18000000, 3000⟩, rfl⟩
    (by decide) (Or.inl rfl)
  have hreset := lengthened_author_isSome_iff ConsensusSdk.documented
    ConsensusSdk.documented_laws_u64 6000 12000 (by decide) (by decide) (by decide)
    ⟨[⟨3000, 18000000⟩], ⟨18000000, 3000⟩, rfl⟩ (by decide) (Or.inr rfl)
  refine ⟨⟨?_, ?_⟩, ?_, ?_⟩
  · rw [hkept]
    decide
  · rw [hkept]
    decide
  · rw [hreset]
    decide
  · rw [hreset]
    decide

/-- **A shorter duration does not stop restarted nodes**: from the old head on,
every round in a later slot of the shorter grid succeeds. -/
theorem shortened_run {Node Hash ApiError : Type} (sdk : ConsensusSdk) (hsdk : sdk.Laws U64)
    (oldDuration newDuration : ℕ) (hnew : 2 ≤ newDuration) (hold64 : U64 oldDuration)
    (hshorter : newDuration / 2 ≤ oldDuration / 2)
    (hdrift : 3 * (newDuration / 2) ≤ sdk.maxTimestampDriftMillis)
    (client : Node → FullClient Hash ApiError)
    (hclient : ∀ i hash,
      (client i).slotDurationAt hash = .ok (auraApiSlotDuration sdk newDuration))
    (chain : AcceptedChain sdk oldDuration)
    (hhook : (upgrade sdk newDuration chain.head).currentSlot = chain.head.currentSlot ∨
      (upgrade sdk newDuration chain.head).currentSlot =
        chain.head.now / (2 * (newDuration / 2)))
    (rounds : List (Round Node Hash)) (hslots : GrowingSlots newDuration chain.head.now rounds)
    (hrounds : ∀ r ∈ rounds, r.Synchronous sdk newDuration) :
    ∃ st, run (playRound sdk newDuration client) (upgrade sdk newDuration chain.head) rounds =
        some st ∧
      ∀ r, rounds.getLast? = some r → r.HeadOf newDuration st := by
  have hfits : U64 (2 * (oldDuration / 2)) := lt_of_le_of_lt (Nat.mul_div_le _ 2) hold64
  have hfits' : U64 (2 * (newDuration / 2)) :=
    lt_of_le_of_lt (Nat.mul_le_mul_left 2 hshorter) hfits
  have hnew64 : U64 newDuration := by
    rw [hsdk.maxTimestampDriftMillis_eq] at hdrift
    unfold U64
    omega
  have hp' : 0 < newDuration / 2 := Nat.div_pos hnew (by decide)
  have hold : 2 ≤ oldDuration := (Nat.div_pos_iff.mp (lt_of_lt_of_le hp' hshorter)).2
  cases rounds with
  | nil =>
      refine ⟨upgrade sdk newDuration chain.head, rfl, ?_⟩
      intro r hr
      cases hr
  | cons r rounds =>
      -- the first round meets the old head as if it were aligned
      have hst : (upgrade sdk newDuration chain.head).currentSlot ≤
          chain.head.now / (2 * (newDuration / 2)) := by
        rcases hhook with hkept | hreset
        · rw [hkept, ← (chain.aligned hsdk hold hfits).slot_eq]
          exact Nat.div_le_div_left (Nat.mul_le_mul_left 2 hshorter) (Nat.mul_pos (by decide) hp')
        · exact hreset.le
      have hgrow := (List.isChain_cons_cons.mp hslots).1
      have hperiod : U64 ((realign newDuration chain.head).now + newDuration / 2) :=
        Aligned.period_fits hnew (realign_aligned newDuration chain.head)
          (hrounds r List.mem_cons_self).clock_fits hgrow
      obtain ⟨st, hrun, hhead⟩ := run_playRound hsdk hnew hnew64 hdrift hclient
        (realign_aligned newDuration chain.head) hslots hrounds
      refine ⟨st, ?_, hhead⟩
      rw [run_cons, playRound_realign hsdk hst hnew hfits' hclient hperiod hgrow]
      exact hrun

/-- The next block of the chain above, made by one restarted node and imported by
another that is a new slot behind. -/
theorem shortened_run_one_round :
    ∃ st, playRound ConsensusSdk.documented 4000
        (fun _ : Bool => (FullClient.ofChain 0 [] 4000 : FullClient ℕ Unit))
        (upgrade ConsensusSdk.documented 4000 ⟨18000000, 3000⟩)
        ⟨false, true, 18004000, 0, ⟨18000000, 18000000⟩⟩ = some st ∧ st.currentSlot = 4501 := by
  obtain ⟨st, hrun, hhead⟩ := shortened_run ConsensusSdk.documented
    ConsensusSdk.documented_laws_u64 6000 4000 (by decide) (by decide) (by decide)
    (by decide) (fun _ : Bool => (FullClient.ofChain 0 [] 4000 : FullClient ℕ Unit))
    (fun _ _ => rfl) ⟨[⟨3000, 18000000⟩], ⟨18000000, 3000⟩, rfl⟩ (Or.inr rfl)
    [⟨false, true, 18004000, 0, ⟨18000000, 18000000⟩⟩] (by decide) (by
      intro r hr
      rcases List.mem_singleton.mp hr with rfl
      constructor <;> decide)
  obtain ⟨st₁, hstep, hnil⟩ := Framework.run_cons_eq_some.mp hrun
  obtain rfl : st₁ = st := Option.some.inj hnil
  exact ⟨st₁, hstep, (hhead _ rfl).slot_eq⟩

end SolochainTemplate.Node

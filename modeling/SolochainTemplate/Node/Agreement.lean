import SolochainTemplate.Node.Service

/-!
# Authored blocks are accepted

The two closures and the two pallets never disagree: what an author builds on
the head of any accepted chain from one clock reading passes its own runtime,
and passes every importer whose clock is at most one slot behind.

Both rest on `Framework.SlotGrid.push_slot`: the author may have to push the
timestamp a minimum period past the parent's, and half a slot past a time in an
earlier slot is still before the end of the author's slot.
-/

namespace SolochainTemplate.Node

open SolochainTemplate.Sdk
open SolochainTemplate.Runtime
open Framework (toOption_ok)
open Framework.SlotGrid (push_slot lt_of_slot_lt)

variable {sdk : ConsensusSdk} {fits : ℕ → Prop} {slotDuration : ℕ}

section Author

variable (hsdk : sdk.Laws fits) (hD : 2 ≤ slotDuration)
  (hfits : fits (2 * (slotDuration / 2)))
include hsdk hD hfits

omit hD hfits in
theorem authorBlock_eq_map {authorSlotDuration : ℕ} (hpos : 0 < authorSlotDuration)
    (st : ChainState) (clock : ℕ) (hperiod : fits (st.now + slotDuration / 2)) :
    authorBlock sdk slotDuration st authorSlotDuration clock =
      (importBlock sdk slotDuration st
        ⟨clock / authorSlotDuration, max clock (st.now + slotDuration / 2)⟩).map
        fun st' => (⟨[.auraPreRuntime (clock / authorSlotDuration)],
          max clock (st.now + slotDuration / 2)⟩, st') := by
  have hslot : sdk.slotFromTimestamp clock authorSlotDuration = clock / authorSlotDuration :=
    hsdk.slotFromTimestamp_eq _ _ hpos
  obtain ⟨data, hdata, htime, -⟩ := createInherentData_eq hsdk ⟨clock / authorSlotDuration, clock⟩
  simp only [authorBlock, authorInherentDataProviders, hslot, hdata, toOption_ok,
    Option.bind_eq_bind, Option.bind_some]
  exact buildBlock_eq hsdk htime hperiod

theorem authorBlock_eq (st : ChainState) (clock : ℕ)
    (hperiod : fits (st.now + slotDuration / 2)) :
    authorBlock sdk slotDuration st (auraApiSlotDuration sdk slotDuration) clock =
      (importBlock sdk slotDuration st
        ⟨clock / (2 * (slotDuration / 2)), max clock (st.now + slotDuration / 2)⟩).map
        fun st' => (⟨[.auraPreRuntime (clock / (2 * (slotDuration / 2)))],
          max clock (st.now + slotDuration / 2)⟩, st') := by
  have hL : auraApiSlotDuration sdk slotDuration = 2 * (slotDuration / 2) :=
    auraConfig_slotDuration hsdk hfits
  rw [hL]
  exact authorBlock_eq_map hsdk (by omega) st clock hperiod

/-- **An authored block passes its own runtime**: no assertion fails. -/
theorem importBlock_authored {st : ChainState} {clock : ℕ}
    (hst : st.Aligned slotDuration)
    (hslot : st.currentSlot < clock / (2 * (slotDuration / 2)))
    (hperiod : fits (st.now + slotDuration / 2)) :
    importBlock sdk slotDuration st
        ⟨clock / (2 * (slotDuration / 2)), max clock (st.now + slotDuration / 2)⟩ =
      some ⟨max clock (st.now + slotDuration / 2), clock / (2 * (slotDuration / 2))⟩ := by
  have hpush : max clock (st.now + slotDuration / 2) / (2 * (slotDuration / 2)) =
      clock / (2 * (slotDuration / 2)) :=
    push_slot (by omega) (by omega) (hst.slot_eq ▸ hslot)
  refine (importBlock_eq_some_iff hsdk).mpr ⟨hslot, ?_⟩
  exact (setTimestamp_eq_some hsdk hD hfits hperiod).mpr
    ⟨Or.inr (le_max_right _ _), hpush, rfl⟩

theorem authorBlock_authored {st : ChainState} {clock : ℕ}
    (hst : st.Aligned slotDuration)
    (hslot : st.currentSlot < clock / (2 * (slotDuration / 2)))
    (hperiod : fits (st.now + slotDuration / 2)) :
    authorBlock sdk slotDuration st (auraApiSlotDuration sdk slotDuration) clock =
      some (⟨[.auraPreRuntime (clock / (2 * (slotDuration / 2)))],
          max clock (st.now + slotDuration / 2)⟩,
        ⟨max clock (st.now + slotDuration / 2), clock / (2 * (slotDuration / 2))⟩) := by
  rw [authorBlock_eq hsdk hD hfits st clock hperiod,
    importBlock_authored hsdk hD hfits hst hslot hperiod]
  rfl

end Author

theorem Aligned.now_lt {st : ChainState} {clock : ℕ} (hD : 2 ≤ slotDuration)
    (hst : st.Aligned slotDuration)
    (hslot : st.currentSlot < clock / (2 * (slotDuration / 2))) : st.now < clock := by
  rw [← hst.slot_eq] at hslot
  have hbefore := lt_of_slot_lt (by omega) hslot
  exact lt_of_lt_of_le hbefore (Nat.div_mul_le_self _ _)

theorem Aligned.period_fits {st : ChainState} {clock : ℕ} (hD : 2 ≤ slotDuration)
    (hst : st.Aligned slotDuration) (hclock : U64 (clock + slotDuration / 2))
    (hslot : st.currentSlot < clock / (2 * (slotDuration / 2))) :
    U64 (st.now + slotDuration / 2) := by
  have hnow := Aligned.now_lt hD hst hslot
  exact lt_of_le_of_lt (Nat.add_le_add_right hnow.le _) hclock

/-! ## No honest author's block panics -/

/-- **The Aura and Timestamp wiring never makes an author panic.** On the head
of any accepted chain, a clock reading in a later slot yields a block of that
reading's slot that passes every assertion, and no sum leaves the word. -/
theorem author_never_panics (sdk : ConsensusSdk) (hsdk : sdk.Laws U64) (slotDuration : ℕ)
    (hD : 2 ≤ slotDuration) (hD64 : U64 slotDuration) (chain : AcceptedChain sdk slotDuration)
    (clock : ℕ) (hclock : U64 (clock + slotDuration / 2))
    (hslot : chain.head.currentSlot < clock / (2 * (slotDuration / 2))) :
    authorBlock sdk slotDuration chain.head (auraApiSlotDuration sdk slotDuration) clock =
        some (⟨[.auraPreRuntime (clock / (2 * (slotDuration / 2)))],
            max clock (chain.head.now + slotDuration / 2)⟩,
          ⟨max clock (chain.head.now + slotDuration / 2), clock / (2 * (slotDuration / 2))⟩) ∧
      importBlock sdk slotDuration chain.head
          ⟨clock / (2 * (slotDuration / 2)), max clock (chain.head.now + slotDuration / 2)⟩ =
        some ⟨max clock (chain.head.now + slotDuration / 2), clock / (2 * (slotDuration / 2))⟩ ∧
      max clock (chain.head.now + slotDuration / 2) / (2 * (slotDuration / 2)) =
        clock / (2 * (slotDuration / 2)) ∧
      U64 (chain.head.now + slotDuration / 2) := by
  have hfits : U64 (2 * (slotDuration / 2)) := lt_of_le_of_lt (Nat.mul_div_le _ 2) hD64
  have hst := chain.aligned hsdk hD hfits
  have hperiod := Aligned.period_fits hD hst hclock hslot
  refine ⟨?_, ?_, ?_, hperiod⟩
  · exact authorBlock_authored hsdk hD hfits hst hslot hperiod
  · exact importBlock_authored hsdk hD hfits hst hslot hperiod
  · exact push_slot (by omega) (by omega) (hst.slot_eq ▸ hslot)

/-- The parent sits in the last millisecond of slot 1 and the author reads the
first of slot 2: the timestamp is pushed almost to the middle of slot 2. -/
theorem author_never_panics_pushed :
    authorBlock ConsensusSdk.documented 6000 ⟨11999, 1⟩
        (auraApiSlotDuration ConsensusSdk.documented 6000) 12000 =
      some (⟨[.auraPreRuntime 2], 14999⟩, ⟨14999, 2⟩) := by
  have hauthor := (author_never_panics ConsensusSdk.documented ConsensusSdk.documented_laws_u64
    6000 (by decide) (by decide) ⟨[⟨1, 11999⟩], ⟨11999, 1⟩, rfl⟩ 12000
    (by decide) (by decide)).1
  exact hauthor.trans (by decide)

/-! ## Author and importer agree on time -/

section Importer

variable {Hash ApiError : Type} {client : FullClient Hash ApiError} {parentHash : Hash}
  (hsdk : sdk.Laws fits) (hD : 2 ≤ slotDuration) (hfits : fits (2 * (slotDuration / 2)))
  (hclient : client.slotDurationAt parentHash = .ok (auraApiSlotDuration sdk slotDuration))
include hsdk hD hfits hclient

theorem checkHeader_authored {clock reading : ℕ} (timestamp : ℕ)
    (hreading : clock ≤ reading + 2 * (slotDuration / 2))
    (hnext : fits (reading / (2 * (slotDuration / 2)) + 1)) :
    checkHeader sdk client parentHash reading
      ⟨[.auraPreRuntime (clock / (2 * (slotDuration / 2)))], timestamp⟩ = .ok () := by
  have hL : auraApiSlotDuration sdk slotDuration = 2 * (slotDuration / 2) :=
    auraConfig_slotDuration hsdk hfits
  have hpos : 0 < 2 * (slotDuration / 2) := by omega
  rw [hL] at hclient
  rw [checkHeader_eq hsdk hclient hpos (hsdk.findPreDigest_auraPreRuntime _) hnext, if_neg]
  -- one slot behind in time is at most one slot behind in number
  rw [Nat.not_lt, ← Nat.add_div_right _ hpos]
  exact Nat.div_le_div_right hreading

theorem checkInherents_authored {clock reading : ℕ} {parent : ChainState}
    (digest : List DigestItem) (hnow : parent.now < clock)
    (hreading : clock ≤ reading + 2 * (slotDuration / 2))
    (hdrift : 3 * (slotDuration / 2) ≤ sdk.maxTimestampDriftMillis)
    (hperiod : fits (parent.now + slotDuration / 2))
    (hlimit : fits (reading + sdk.maxTimestampDriftMillis)) :
    checkInherents sdk slotDuration client parentHash parent reading
      ⟨digest, max clock (parent.now + slotDuration / 2)⟩ = .ok () := by
  have hpos : 0 < auraApiSlotDuration sdk slotDuration := by
    rw [auraApiSlotDuration, auraConfig_slotDuration hsdk hfits]
    omega
  rw [checkInherents_eq hsdk hclient hpos hperiod hlimit, if_neg, if_neg]
  · exact Nat.not_lt.mpr (le_max_right _ _)
  · -- pushed or not, the timestamp is at most a slot and a half ahead
    rw [Nat.not_lt]
    exact max_le (by omega) (by omega)

/-- **What an author builds, an importer one slot behind accepts**, whatever
its two clock readings are otherwise. -/
theorem importVerified_authored {st : ChainState} {clock : ℕ} {readings : Readings}
    (hst : st.Aligned slotDuration)
    (hslot : st.currentSlot < clock / (2 * (slotDuration / 2)))
    (hperiod : fits (st.now + slotDuration / 2))
    (hdrift : 3 * (slotDuration / 2) ≤ sdk.maxTimestampDriftMillis)
    (hheader : clock ≤ readings.header + 2 * (slotDuration / 2))
    (hnext : fits (readings.header / (2 * (slotDuration / 2)) + 1))
    (hinherents : clock ≤ readings.inherents + 2 * (slotDuration / 2))
    (hlimit : fits (readings.inherents + sdk.maxTimestampDriftMillis)) :
    importVerified sdk slotDuration client parentHash st readings
        ⟨[.auraPreRuntime (clock / (2 * (slotDuration / 2)))],
          max clock (st.now + slotDuration / 2)⟩ =
      .ok ⟨max clock (st.now + slotDuration / 2), clock / (2 * (slotDuration / 2))⟩ := by
  have hnow := Aligned.now_lt hD hst hslot
  apply importVerified_ok
  · exact checkHeader_authored hsdk hD hfits hclient _ hheader hnext
  · exact checkInherents_authored hsdk hD hfits hclient _ hnow hinherents hdrift hperiod hlimit
  · exact importBlock_authored hsdk hD hfits hst hslot hperiod

end Importer

/-- **Every importer at most one slot behind accepts the block.** With the slot
duration the runtime is configured with and no upgrade that changes it. -/
theorem importer_accepts {Hash ApiError : Type} (sdk : ConsensusSdk) (hsdk : sdk.Laws U64)
    (authorClient importClient : FullClient Hash ApiError)
    (hauthorClient : ∀ hash, authorClient.slotDurationAt hash =
      .ok (auraApiSlotDuration sdk Runtime.slotDuration))
    (himportClient : ∀ hash, importClient.slotDurationAt hash =
      .ok (auraApiSlotDuration sdk Runtime.slotDuration))
    (chain : AcceptedChain sdk Runtime.slotDuration) (parentHash : Hash) (clock : ℕ)
    (hclock : clock < 2 ^ 64 - 30000) (hslot : chain.head.currentSlot < clock / 6000)
    (readings : Readings)
    (hheader : clock - 6000 ≤ readings.header ∧ readings.header < 2 ^ 64 - 30000)
    (hinherents : clock - 6000 ≤ readings.inherents ∧ readings.inherents < 2 ^ 64 - 30000) :
    ∃ (authorSlotDuration : ℕ) (block : Block) (st : ChainState),
      startSlotDuration authorClient = .ok authorSlotDuration ∧
      authorBlock sdk Runtime.slotDuration chain.head authorSlotDuration clock =
        some (block, st) ∧
      block = ⟨[.auraPreRuntime (clock / 6000)], max clock (chain.head.now + 3000)⟩ ∧
      checkHeader sdk importClient parentHash readings.header block = .ok () ∧
      checkInherents sdk Runtime.slotDuration importClient parentHash chain.head
        readings.inherents block = .ok () ∧
      importVerified sdk Runtime.slotDuration importClient parentHash chain.head readings
        block = .ok st := by
  have hD : 2 ≤ Runtime.slotDuration := by decide
  have hfits : U64 (2 * (Runtime.slotDuration / 2)) := by decide
  have hst := chain.aligned hsdk hD hfits
  have hnow : chain.head.now < clock := Aligned.now_lt hD hst hslot
  have hclockPeriod : U64 (clock + Runtime.slotDuration / 2) :=
    lt_of_lt_of_le (Nat.add_lt_add_right hclock 3000) (by decide)
  have hperiod := Aligned.period_fits hD hst hclockPeriod hslot
  have hnext : U64 (readings.header / 6000 + 1) := by
    have hle := Nat.div_le_self readings.header 6000
    unfold U64
    omega
  have hdrift : 3 * (Runtime.slotDuration / 2) ≤ sdk.maxTimestampDriftMillis := by
    rw [hsdk.maxTimestampDriftMillis_eq]
    decide
  have hlimit : U64 (readings.inherents + sdk.maxTimestampDriftMillis) := by
    rw [hsdk.maxTimestampDriftMillis_eq]
    exact lt_of_lt_of_le (Nat.add_lt_add_right hinherents.2 30000) (by decide)
  have hheaderSlot := Nat.sub_le_iff_le_add.mp hheader.1
  have hinherentsSlot := Nat.sub_le_iff_le_add.mp hinherents.1
  have hauthor := authorBlock_authored hsdk hD hfits hst hslot hperiod
  refine ⟨_, _, _, hauthorClient _, hauthor, rfl, ?_, ?_, ?_⟩
  · exact checkHeader_authored hsdk hD hfits (himportClient parentHash) _ hheaderSlot hnext
  · exact checkInherents_authored hsdk hD hfits (himportClient parentHash) _ hnow
      hinherentsSlot hdrift hperiod hlimit
  · exact importVerified_authored hsdk hD hfits (himportClient parentHash) hst hslot hperiod
      hdrift hheaderSlot hnext hinherentsSlot hlimit

/-- The importer is a whole slot behind, and accepts the pushed timestamp. -/
theorem importer_accepts_one_slot_behind :
    ∃ (block : Block) (st : ChainState),
      authorBlock ConsensusSdk.documented Runtime.slotDuration ⟨11999, 1⟩ 6000 12000 =
        some (block, st) ∧
      importVerified ConsensusSdk.documented Runtime.slotDuration
        (FullClient.ofChain 0 [1] 6000 : FullClient ℕ Unit) 1 ⟨11999, 1⟩ ⟨6000, 6000⟩ block =
        .ok st := by
  obtain ⟨authorSlotDuration, block, st, hstart, hauthor, -, -, -, himport⟩ :=
    importer_accepts ConsensusSdk.documented ConsensusSdk.documented_laws_u64
      (FullClient.ofChain 0 [1] 6000 : FullClient ℕ Unit) (FullClient.ofChain 0 [1] 6000)
      (fun _ => rfl) (fun _ => rfl) ⟨[⟨1, 11999⟩], ⟨11999, 1⟩, rfl⟩ 1 12000 (by decide)
      (by decide) ⟨6000, 6000⟩ (by decide) (by decide)
  obtain rfl : 6000 = authorSlotDuration := Except.ok.inj hstart
  exact ⟨block, st, hauthor, himport⟩

end SolochainTemplate.Node

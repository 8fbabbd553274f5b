import SolochainTemplate.Node.Agreement

/-!
# Runs of a network

A round is one block on its way through the network: a node whose slot it is
reads its clock and builds on the head, and another node, reading its own clock,
verifies the block and makes it the new head. Every round has nodes of its own.
Whose slot it is, and the seal, are `Node.Network`'s; here the nodes of a round
are given. What holds of one round (`Node.Agreement`) is carried through whole
runs: no round ever fails, and the time on the chain never runs away from the
authors' clocks.
-/

namespace SolochainTemplate.Node

open SolochainTemplate.Sdk
open SolochainTemplate.Runtime
open Framework (run run_cons_eq_some toOption_ok)
open Framework.SlotGrid (push_slot)

/-- Who takes a round, and what they read. -/
structure Round (Node Hash : Type) where
  author : Node
  importer : Node
  clock : ℕ
  parentHash : Hash
  readings : Readings
deriving DecidableEq, Repr

variable {Node Hash ApiError : Type}

/-- The readings fit and the importer is at most one slot behind the author. -/
structure Round.Synchronous (sdk : ConsensusSdk) (slotDuration : ℕ) (r : Round Node Hash) :
    Prop where
  clock_fits : U64 (r.clock + slotDuration / 2)
  header_le : r.clock ≤ r.readings.header + 2 * (slotDuration / 2)
  header_fits : U64 (r.readings.header + 1)
  inherents_le : r.clock ≤ r.readings.inherents + 2 * (slotDuration / 2)
  inherents_fits : U64 (r.readings.inherents + sdk.maxTimestampDriftMillis)

/-- One round on the head `st`; `none` if the author's block panics or the
importer turns it down. -/
def playRound (sdk : ConsensusSdk) (slotDuration : ℕ) (client : Node → FullClient Hash ApiError)
    (st : ChainState) (r : Round Node Hash) : Option ChainState := do
  let authorSlotDuration ← (startSlotDuration (client r.author)).toOption
  let (block, _) ← authorBlock sdk slotDuration st authorSlotDuration r.clock
  (importVerified sdk slotDuration (client r.importer) r.parentHash st r.readings block).toOption

/-- The head is the block of the round: in the slot of the author's clock, and
less than half a slot ahead of it. -/
structure Round.HeadOf (slotDuration : ℕ) (r : Round Node Hash) (st : ChainState) : Prop where
  slot_eq : st.currentSlot = r.clock / (2 * (slotDuration / 2))
  le_now : r.clock ≤ st.now
  now_lt : st.now < r.clock + slotDuration / 2

/-- The slots of the clock readings grow, from the time of the head on. -/
def GrowingSlots (slotDuration now : ℕ) (rounds : List (Round Node Hash)) : Prop :=
  List.IsChain (fun a b => a / (2 * (slotDuration / 2)) < b / (2 * (slotDuration / 2)))
    (now :: rounds.map Round.clock)

instance (slotDuration now : ℕ) (rounds : List (Round Node Hash)) :
    Decidable (GrowingSlots slotDuration now rounds) :=
  inferInstanceAs (Decidable (List.IsChain _ _))

theorem GrowingSlots.of_slot_eq {slotDuration now now' : ℕ} {rounds : List (Round Node Hash)}
    (h : GrowingSlots slotDuration now rounds)
    (hslot : now' / (2 * (slotDuration / 2)) = now / (2 * (slotDuration / 2))) :
    GrowingSlots slotDuration now' rounds := by
  cases rounds with
  | nil => exact List.isChain_singleton _
  | cons r rounds =>
      rw [GrowingSlots, List.map_cons, List.isChain_cons_cons] at h ⊢
      exact ⟨hslot ▸ h.1, h.2⟩

section Network

variable {sdk : ConsensusSdk} {slotDuration : ℕ} {client : Node → FullClient Hash ApiError}
  (hsdk : sdk.Laws U64) (hD : 2 ≤ slotDuration) (hD64 : U64 slotDuration)
  (hdrift : 3 * (slotDuration / 2) ≤ sdk.maxTimestampDriftMillis)
  (hclient : ∀ i hash,
    (client i).slotDurationAt hash = .ok (auraApiSlotDuration sdk slotDuration))
include hsdk hD hD64 hdrift hclient

theorem playRound_succeeds {st : ChainState} {r : Round Node Hash}
    (hst : st.Aligned slotDuration) (hr : r.Synchronous sdk slotDuration)
    (hslot : st.currentSlot < r.clock / (2 * (slotDuration / 2))) :
    ∃ st', playRound sdk slotDuration client st r = some st' ∧
      st'.Aligned slotDuration ∧ r.HeadOf slotDuration st' := by
  have hfits : U64 (2 * (slotDuration / 2)) := lt_of_le_of_lt (Nat.mul_div_le _ 2) hD64
  have hnow := Aligned.now_lt hD hst hslot
  have hperiod := Aligned.period_fits hD hst hr.clock_fits hslot
  have hnext : U64 (r.readings.header / (2 * (slotDuration / 2)) + 1) :=
    lt_of_le_of_lt (Nat.add_le_add_right (Nat.div_le_self _ _) 1) hr.header_fits
  have hstart : startSlotDuration (client r.author) = _ := hclient r.author _
  have hbuilt := authorBlock_authored hsdk hD hfits hst hslot hperiod
  have himported := importVerified_authored hsdk hD hfits (hclient r.importer r.parentHash) hst
    hslot hperiod hdrift hr.header_le hnext hr.inherents_le hr.inherents_fits
  have hplay : playRound sdk slotDuration client st r =
      some ⟨max r.clock (st.now + slotDuration / 2), r.clock / (2 * (slotDuration / 2))⟩ := by
    simp only [playRound, hstart, hbuilt, himported, toOption_ok, Option.bind_eq_bind,
      Option.bind_some]
  refine ⟨_, hplay, ?_, ?_⟩
  · exact push_slot (by omega) (by omega) (hst.slot_eq ▸ hslot)
  · exact ⟨rfl, le_max_left _ _, max_lt (by omega) (by omega)⟩

/-- **Whole runs**, by induction on the rounds: from an aligned head every round
succeeds, and the last one's block is the head. -/
theorem run_playRound {st : ChainState} {rounds : List (Round Node Hash)}
    (hst : st.Aligned slotDuration) (hslots : GrowingSlots slotDuration st.now rounds)
    (hrounds : ∀ r ∈ rounds, r.Synchronous sdk slotDuration) :
    ∃ st', run (playRound sdk slotDuration client) st rounds = some st' ∧
      ∀ r, rounds.getLast? = some r → r.HeadOf slotDuration st' := by
  induction rounds generalizing st with
  | nil =>
      refine ⟨st, rfl, ?_⟩
      intro r hr
      cases hr
  | cons r rounds ih =>
      obtain ⟨hgrow, hrest⟩ := List.isChain_cons_cons.mp hslots
      rw [hst.slot_eq] at hgrow
      obtain ⟨st₁, hstep, hst₁, hhead⟩ := playRound_succeeds hsdk hD hD64 hdrift hclient hst
        (hrounds r List.mem_cons_self) hgrow
      -- the pushed timestamp is in the slot of the clock, so the slots still grow
      have hslots₁ : GrowingSlots slotDuration st₁.now rounds :=
        GrowingSlots.of_slot_eq hrest (hst₁.slot_eq.trans hhead.slot_eq)
      have hrounds₁ : ∀ r' ∈ rounds, r'.Synchronous sdk slotDuration := by
        intro r' hr'
        exact hrounds r' (List.mem_cons_of_mem _ hr')
      obtain ⟨st', hrun, hlast⟩ := ih hst₁ hslots₁ hrounds₁
      refine ⟨st', run_cons_eq_some.mpr ⟨st₁, hstep, hrun⟩, ?_⟩
      intro r' hr'
      cases rounds with
      | nil =>
          obtain rfl : r = r' := Option.some.inj hr'
          obtain rfl : st₁ = st' := Option.some.inj hrun
          exact hhead
      | cons r₁ rounds =>
          rw [List.getLast?_cons_cons] at hr'
          exact hlast r' hr'

end Network

/-- **The network makes progress and keeps time.** From genesis, whichever nodes
author and import in each round: if each author's clock has left the slot of the
block before and each importer is at most one slot behind, every block is built
and imported, and the head is less than half a slot ahead of the clock that made
it. -/
theorem network_run (sdk : ConsensusSdk) (hsdk : sdk.Laws U64) (slotDuration : ℕ)
    (hD : 2 ≤ slotDuration) (hD64 : U64 slotDuration)
    (hdrift : 3 * (slotDuration / 2) ≤ sdk.maxTimestampDriftMillis)
    (client : Node → FullClient Hash ApiError)
    (hclient : ∀ i hash,
      (client i).slotDurationAt hash = .ok (auraApiSlotDuration sdk slotDuration))
    (rounds : List (Round Node Hash)) (hslots : GrowingSlots slotDuration 0 rounds)
    (hrounds : ∀ r ∈ rounds, r.Synchronous sdk slotDuration) :
    ∃ st, run (playRound sdk slotDuration client) genesis rounds = some st ∧
      ∀ r, rounds.getLast? = some r → r.HeadOf slotDuration st :=
  run_playRound hsdk hD hD64 hdrift hclient (genesis_aligned slotDuration) hslots hrounds

/-- Two nodes take turns. The second author reads the start of slot 2, the first
importer a slot less than the author. -/
theorem network_run_two_rounds :
    ∃ st, run (playRound ConsensusSdk.documented 6000
        (fun _ : Bool => (FullClient.ofChain 0 [] 6000 : FullClient ℕ Unit))) genesis
        [⟨false, true, 11999, 0, ⟨5999, 5999⟩⟩, ⟨true, false, 12000, 1, ⟨12000, 12000⟩⟩] =
          some st ∧
      st.now < 15000 := by
  obtain ⟨st, hrun, hhead⟩ := network_run ConsensusSdk.documented
    ConsensusSdk.documented_laws_u64 6000 (by decide) (by decide) (by decide)
    (fun _ : Bool => (FullClient.ofChain 0 [] 6000 : FullClient ℕ Unit)) (fun _ _ => rfl)
    [⟨false, true, 11999, 0, ⟨5999, 5999⟩⟩, ⟨true, false, 12000, 1, ⟨12000, 12000⟩⟩]
    (by decide) (by
      intro r hr
      rcases List.mem_cons.mp hr with rfl | hr
      · constructor <;> decide
      · rcases List.mem_singleton.mp hr with rfl
        constructor <;> decide)
  exact ⟨st, hrun, (hhead _ rfl).now_lt⟩

end SolochainTemplate.Node

import SolochainTemplate.Framework.Gossip
import SolochainTemplate.Framework.RoundRobin
import SolochainTemplate.Node.Agreement

/-!
# A network of nodes

`new_full` and `new_partial` at every node. An authority whose turn it is authors
on a chain it knows, with the duration it read at start-up; every node verifies
any block it is sent, its seal included; each uses its own clock. Finality, which
GRANDPA decides, is only seen as what it does to a node: the node keeps to the
finalized chain and what continues it.

`Framework.Gossip` lets the events happen in any order and lets the blocks be
anyone's, so what holds here holds of every interleaving and against every
sender.
-/

namespace SolochainTemplate.Node

open SolochainTemplate.Sdk
open SolochainTemplate.Runtime
open Framework (run run_decode_eq_some toOption_ok)
open Framework.Gossip
open Framework.RoundRobin (turn)
open Framework.SlotGrid (push_slot)

/-- A clock reading in milliseconds, far enough from the end of the word for
every sum that is formed with it. -/
abbrev Clock : Type := { millis : ℕ // U64 (millis + 60000) }

/-- What an author's slot worker finds: the clock, and whether the sync oracle
holds it back. -/
structure Wakeup where
  clock : Clock
  held : Bool

/-- A block and the authority whose key its seal verifies under. -/
structure AuraBlock (AuthorityId : Type) where
  block : Block
  signer : AuthorityId
deriving DecidableEq, Repr

/-- The nodes, with a client each, and the runtime they share. -/
structure Network (Node AuthorityId Hash ApiError : Type) where
  sdk : ConsensusSdk
  laws : sdk.Laws U64
  slotDuration : ℕ
  two_le : 2 ≤ slotDuration
  drift_le : 3 * (slotDuration / 2) ≤ sdk.maxTimestampDriftMillis
  client : Node → FullClient Hash ApiError
  client_eq : ∀ i hash,
    (client i).slotDurationAt hash = .ok (auraApiSlotDuration sdk slotDuration)
  hashOf : List (AuraBlock AuthorityId) → Hash
  -- `AuraApi::authorities`: no pallet of the runtime changes them
  authorities : List AuthorityId
  -- `slot_author` of `sc_consensus_aura`
  slotAuthor : ℕ → List AuthorityId → Option AuthorityId
  slotAuthor_eq : ∀ slot authorities, slotAuthor slot authorities = turn authorities slot
  -- `role.is_authority()`
  isAuthority : Node → Bool
  -- `claim_slot` with the node's keystore
  claimSlot : Node → ℕ → Option AuthorityId
  claimSlot_author : ∀ i slot signer, claimSlot i slot = some signer →
    slotAuthor slot authorities = some signer

variable {Node AuthorityId Hash ApiError : Type}

namespace Network

/-- The Aura slot. -/
def slot (N : Network Node AuthorityId Hash ApiError) : ℕ := 2 * (N.slotDuration / 2)

/-- At most one slot behind the author, at both readings. -/
def Near (N : Network Node AuthorityId Hash ApiError) (author : Wakeup)
    (importer : Clock × Clock) : Prop :=
  author.clock.1 ≤ importer.1 + N.slot ∧ author.clock.1 ≤ importer.2 + N.slot

/-- The node is an authority that nothing holds back, and has the key of the
author of its clock's slot. -/
def Claims (N : Network Node AuthorityId Hash ApiError) (i : Node) (w : Wakeup)
    (signer : AuthorityId) : Prop :=
  N.isAuthority i = true ∧ w.held = false ∧ N.claimSlot i (w.clock / N.slot) = some signer

/-- The invariant of a state: slot and time agree, and the time leaves room for
the minimum period. -/
structure Sound (N : Network Node AuthorityId Hash ApiError) (st : ChainState) : Prop where
  aligned : st.Aligned N.slotDuration
  period_fits : U64 (st.now + N.slotDuration / 2)

/-- What an author builds on a state, sealed. -/
def authoredBlock (N : Network Node AuthorityId Hash ApiError) (st : ChainState) (clock : Clock)
    (signer : AuthorityId) : AuraBlock AuthorityId :=
  ⟨⟨[.auraPreRuntime (clock / N.slot)], max clock (st.now + N.slotDuration / 2)⟩, signer⟩

def authoredState (N : Network Node AuthorityId Hash ApiError) (st : ChainState)
    (clock : Clock) : ChainState :=
  ⟨max clock (st.now + N.slotDuration / 2), clock / N.slot⟩

section Protocol

variable [DecidableEq AuthorityId] (N : Network Node AuthorityId Hash ApiError)

/-- The seal must verify under the key of the author of the header's slot. -/
def checkSeal (b : AuraBlock AuthorityId) : Option SealedBlock := do
  let slot ← (N.sdk.findPreDigest b.block.digest).toOption
  if N.slotAuthor slot N.authorities = some b.signer then some ⟨slot, b.block.timestamp⟩
  else none

/-- What the nodes run. -/
def protocol : Protocol Node Wakeup (Clock × Clock) ChainState (AuraBlock AuthorityId) where
  genesis := genesis
  exec st b := (N.checkSeal b).bind (importBlock N.sdk N.slotDuration st)
  author i w _ st :=
    if N.isAuthority i && !w.held then do
      let authorSlotDuration ← (startSlotDuration (N.client i)).toOption
      let providers := authorInherentDataProviders N.sdk authorSlotDuration w.clock
      let signer ← N.claimSlot i providers.slot
      let (block, st') ← authorBlock N.sdk N.slotDuration st authorSlotDuration w.clock
      return (⟨block, signer⟩, st')
    else none
  accept i clock chain st b := do
    let _ ← N.checkSeal b
    (importVerified N.sdk N.slotDuration (N.client i) (N.hashOf chain) st
      ⟨clock.1, clock.2⟩ b.block).toOption

end Protocol

/-! ## Sums that fit -/

section Runtime

variable (N : Network Node AuthorityId Hash ApiError)

theorem slot_pos : 0 < N.slot :=
  Nat.mul_pos Nat.zero_lt_two (Nat.div_pos N.two_le Nat.zero_lt_two)

theorem slot_le : N.slot ≤ 30000 := by
  have hdrift := N.drift_le
  rw [N.laws.maxTimestampDriftMillis_eq] at hdrift
  exact le_trans (Nat.mul_le_mul_right _ (by decide)) hdrift

theorem slot_fits : U64 N.slot :=
  lt_of_le_of_lt N.slot_le (by decide)

theorem half_le : N.slotDuration / 2 ≤ 30000 :=
  le_trans (Nat.le_mul_of_pos_left _ Nat.zero_lt_two) N.slot_le

theorem period_fits_of_le {now : ℕ} (clock : Clock) (h : now ≤ clock + 30000) :
    U64 (now + N.slotDuration / 2) := by
  have hhalf := N.half_le
  have hsum : now + N.slotDuration / 2 ≤ clock + 60000 := by omega
  exact lt_of_le_of_lt hsum clock.2

theorem next_fits (clock : Clock) : U64 (clock / N.slot + 1) := by
  have hle := Nat.div_le_self clock.1 N.slot
  exact lt_of_le_of_lt (Nat.add_le_add hle (by decide)) clock.2

theorem drift_fits (clock : Clock) : U64 (clock + N.sdk.maxTimestampDriftMillis) := by
  rw [N.laws.maxTimestampDriftMillis_eq]
  exact lt_of_le_of_lt (Nat.add_le_add_left (by decide) _) clock.2

theorem api_eq : auraApiSlotDuration N.sdk N.slotDuration = N.slot :=
  auraConfig_slotDuration N.laws N.slot_fits

theorem client_slot (i : Node) (hash : Hash) : (N.client i).slotDurationAt hash = .ok N.slot := by
  rw [N.client_eq, N.api_eq]

theorem genesis_sound : N.Sound genesis :=
  ⟨genesis_aligned _, N.period_fits_of_le ⟨0, by decide⟩ (Nat.zero_le _)⟩

/-! ## The runtime at a node -/

theorem importBlock_head {st st' : ChainState} {sealed : SealedBlock}
    (h : importBlock N.sdk N.slotDuration st sealed = some st') : st' = sealed.state := by
  obtain ⟨-, hset⟩ := (importBlock_eq_some_iff N.laws).mp h
  exact (setTimestamp_slot N.laws N.two_le N.slot_fits hset).2

/-- In a slot after the parent's the block is built, and in no other. -/
theorem authorBlock_eq_some {st : ChainState} (hst : N.Sound st) {clock : Clock}
    {result : Block × ChainState} :
    authorBlock N.sdk N.slotDuration st N.slot clock = some result ↔
      st.currentSlot < clock / N.slot ∧
        result = (⟨[.auraPreRuntime (clock / N.slot)], max clock (st.now + N.slotDuration / 2)⟩,
          N.authoredState st clock) := by
  have hbuilt : authorBlock N.sdk N.slotDuration st
      (auraApiSlotDuration N.sdk N.slotDuration) clock = _ :=
    authorBlock_eq N.laws N.two_le N.slot_fits st clock hst.period_fits
  rw [N.api_eq] at hbuilt
  rw [hbuilt, Option.map_eq_some_iff]
  constructor
  · rintro ⟨st₁, himport, rfl⟩
    obtain ⟨hslot, hset⟩ := (importBlock_eq_some_iff N.laws).mp himport
    obtain ⟨-, rfl⟩ := setTimestamp_slot N.laws N.two_le N.slot_fits hset
    exact ⟨hslot, rfl⟩
  · rintro ⟨hslot, rfl⟩
    exact ⟨_, importBlock_authored N.laws N.two_le N.slot_fits hst.aligned hslot
      hst.period_fits, rfl⟩

theorem authored_import {st : ChainState} (hst : N.Sound st) {clock : Clock}
    (hlater : st.currentSlot < clock / N.slot) :
    importBlock N.sdk N.slotDuration st
        ⟨clock / N.slot, max clock (st.now + N.slotDuration / 2)⟩ =
      some (N.authoredState st clock) :=
  importBlock_authored N.laws N.two_le N.slot_fits hst.aligned hlater hst.period_fits

end Runtime

/-! ## One event -/

section Steps

variable [DecidableEq AuthorityId] (N : Network Node AuthorityId Hash ApiError)

theorem checkSeal_eq_some {b : AuraBlock AuthorityId} {sealed : SealedBlock} :
    N.checkSeal b = some sealed ↔
      N.sdk.findPreDigest b.block.digest = .ok sealed.slot ∧
        N.slotAuthor sealed.slot N.authorities = some b.signer ∧
        sealed.timestamp = b.block.timestamp := by
  unfold checkSeal
  cases N.sdk.findPreDigest b.block.digest with
  | error error => simp [Except.toOption]
  | ok slot =>
      simp only [toOption_ok, Option.bind_eq_bind, Option.bind_some]
      constructor
      · intro h
        split_ifs at h with hauthor
        obtain rfl := Option.some.inj h
        exact ⟨rfl, hauthor, rfl⟩
      · rintro ⟨hslot, hauthor, htime⟩
        obtain rfl : slot = sealed.slot := Except.ok.inj hslot
        rw [if_pos hauthor, ← htime]

/-- What a node accepts, it checked: the seal, and the rest against its clock. -/
theorem accept_eq_some {i : Node} {clock : Clock × Clock} {chain : List (AuraBlock AuthorityId)}
    {st st' : ChainState} {b : AuraBlock AuthorityId} (hst : N.Sound st) :
    N.protocol.accept i clock chain st b = some st' ↔
      ∃ sealed, N.checkSeal b = some sealed ∧ sealed.slot ≤ clock.1 / N.slot + 1 ∧
        sealed.timestamp ≤ clock.2 + N.sdk.maxTimestampDriftMillis ∧
        st.now + N.slotDuration / 2 ≤ sealed.timestamp ∧
        importBlock N.sdk N.slotDuration st sealed = some st' := by
  have hspec : ∀ st', importVerified N.sdk N.slotDuration (N.client i) (N.hashOf chain) st
      ⟨clock.1, clock.2⟩ b.block = .ok st' ↔ _ := fun st' =>
    importVerified_ok_iff N.laws (N.client_slot i _) N.slot_pos hst.period_fits
      (N.next_fits clock.1) (N.drift_fits clock.2)
  have haccept : N.protocol.accept i clock chain st b = some st' ↔
      ∃ sealed, N.checkSeal b = some sealed ∧ importVerified N.sdk N.slotDuration (N.client i)
        (N.hashOf chain) st ⟨clock.1, clock.2⟩ b.block = .ok st' := by
    show (N.checkSeal b).bind (fun _ => Except.toOption _) = some st' ↔ _
    rw [Option.bind_eq_some_iff]
    cases importVerified N.sdk N.slotDuration (N.client i) (N.hashOf chain) st
      ⟨clock.1, clock.2⟩ b.block with
    | error error => simp [Except.toOption]
    | ok st₁ => simp [Except.toOption]
  rw [haccept]
  refine exists_congr fun sealed => and_congr_right fun hsealed => ?_
  obtain ⟨hdigest, -, htime⟩ := N.checkSeal_eq_some.mp hsealed
  have hexecute : executeBlock N.sdk N.slotDuration st b.block = _ :=
    executeBlock_of_slot N.laws (N.laws.currentSlot_of_findPreDigest hdigest)
  rw [hspec, htime]
  constructor
  · rintro ⟨slot, hslot, hahead, hfar, hearly, hrun⟩
    obtain rfl : sealed.slot = slot := Except.ok.inj (hdigest.symm.trans hslot)
    rw [hexecute, ← htime] at hrun
    exact ⟨hahead, hfar, hearly, hrun⟩
  · rintro ⟨hahead, hfar, hearly, hrun⟩
    rw [show sealed = ⟨sealed.slot, b.block.timestamp⟩ from htime ▸ rfl, ← hexecute] at hrun
    exact ⟨sealed.slot, hdigest, hahead, hfar, hearly, hrun⟩

/-- **When a node authors, and what**: whose turn it is, in a slot after the
parent's. -/
theorem author_eq_some {i : Node} {w : Wakeup} {chain : List (AuraBlock AuthorityId)}
    {st st' : ChainState} {b : AuraBlock AuthorityId} (hst : N.Sound st) :
    N.protocol.author i w chain st = some (b, st') ↔
      ∃ signer, N.Claims i w signer ∧ st.currentSlot < w.clock / N.slot ∧
        b = N.authoredBlock st w.clock signer ∧ st' = N.authoredState st w.clock := by
  have hstart : startSlotDuration (N.client i) = .ok N.slot := N.client_slot i _
  have hslot : (authorInherentDataProviders N.sdk N.slot w.clock).slot = w.clock / N.slot :=
    N.laws.slotFromTimestamp_eq _ _ N.slot_pos
  have hauthor : N.protocol.author i w chain st =
      if N.isAuthority i && !w.held then
        (N.claimSlot i (w.clock / N.slot)).bind fun signer =>
          (authorBlock N.sdk N.slotDuration st N.slot w.clock).bind fun result =>
            some (⟨result.1, signer⟩, result.2)
      else none := by
    rw [← hslot]
    simp only [protocol, hstart, toOption_ok, Option.bind_eq_bind, Option.bind_some]
    rfl
  rw [hauthor]
  constructor
  · intro h
    split_ifs at h with hturn
    rw [Bool.and_eq_true, Bool.not_eq_true'] at hturn
    obtain ⟨signer, hsigner, h⟩ := Option.bind_eq_some_iff.mp h
    obtain ⟨result, hresult, hpair⟩ := Option.bind_eq_some_iff.mp h
    obtain ⟨hlater, rfl⟩ := (N.authorBlock_eq_some hst).mp hresult
    cases hpair
    exact ⟨signer, ⟨hturn.1, hturn.2, hsigner⟩, hlater, rfl, rfl⟩
  · rintro ⟨signer, ⟨hauthority, hheld, hsigner⟩, hlater, rfl, rfl⟩
    have hresult := (N.authorBlock_eq_some hst).mpr ⟨hlater, rfl⟩
    rw [hauthority, hheld, hsigner, hresult]
    rfl

theorem checkSeal_authored {i : Node} {w : Wakeup} {signer : AuthorityId} {st : ChainState}
    (hclaim : N.Claims i w signer) :
    N.checkSeal (N.authoredBlock st w.clock signer) =
      some ⟨w.clock / N.slot, max w.clock (st.now + N.slotDuration / 2)⟩ := by
  rcases hclaim with ⟨-, -, hsigner⟩
  exact N.checkSeal_eq_some.mpr
    ⟨N.laws.findPreDigest_auraPreRuntime _, N.claimSlot_author _ _ _ hsigner, rfl⟩

/-- **The template's nodes keep the laws of `Framework.Gossip`**: verifying is
monotone in the clock, and an authored block verifies on every near clock. -/
theorem protocol_laws : N.protocol.Laws N.Near N.Sound where
  genesis_inv := N.genesis_sound
  accept_exec := by
    intro i clock chain st b st' hst haccept
    obtain ⟨sealed, hsealed, -, -, -, himport⟩ := (N.accept_eq_some hst).mp haccept
    exact Option.bind_eq_some_iff.mpr ⟨sealed, hsealed, himport⟩
  accept_inv := by
    intro i clock chain st b st' hst haccept
    obtain ⟨sealed, -, -, hfar, -, himport⟩ := (N.accept_eq_some hst).mp haccept
    rw [N.laws.maxTimestampDriftMillis_eq] at hfar
    have haligned := importBlock_aligned N.laws N.two_le N.slot_fits himport
    obtain rfl := N.importBlock_head himport
    exact ⟨haligned, N.period_fits_of_le clock.2 hfar⟩
  accept_mono := by
    intro i j clock clock' chain st b st' hst hle haccept
    obtain ⟨sealed, hsealed, hahead, hfar, hearly, himport⟩ := (N.accept_eq_some hst).mp haccept
    have hheader : clock.1.1 ≤ clock'.1.1 := hle.1
    have hinherents : clock.2.1 ≤ clock'.2.1 := hle.2
    refine (N.accept_eq_some hst).mpr ⟨sealed, hsealed, ?_, ?_, hearly, himport⟩
    · exact le_trans hahead (Nat.add_le_add_right (Nat.div_le_div_right hheader) 1)
    · exact le_trans hfar (Nat.add_le_add_right hinherents _)
  author_exec := by
    intro i w chain st b st' hst hauthor
    obtain ⟨signer, hclaim, hlater, rfl, rfl⟩ := (N.author_eq_some hst).mp hauthor
    exact Option.bind_eq_some_iff.mpr
      ⟨_, N.checkSeal_authored hclaim, N.authored_import hst hlater⟩
  author_inv := by
    intro i w chain st b st' hst hauthor
    obtain ⟨signer, -, hlater, rfl, rfl⟩ := (N.author_eq_some hst).mp hauthor
    have hnow := Aligned.now_lt N.two_le hst.aligned hlater
    have hhalf := N.half_le
    refine ⟨?_, N.period_fits_of_le w.clock (max_le (by omega) (by omega))⟩
    exact importBlock_aligned N.laws N.two_le N.slot_fits (N.authored_import hst hlater)
  author_accept := by
    intro i j w clock chain st b st' hst hnear hauthor
    obtain ⟨signer, hclaim, hlater, rfl, rfl⟩ := (N.author_eq_some hst).mp hauthor
    have hnow := Aligned.now_lt N.two_le hst.aligned hlater
    have hdrift := N.drift_le
    rcases hnear with ⟨hheader, hinherents⟩
    refine (N.accept_eq_some hst).mpr ⟨_, N.checkSeal_authored hclaim, ?_, ?_,
      le_max_right _ _, N.authored_import hst hlater⟩
    · show w.clock / N.slot ≤ clock.1 / N.slot + 1
      rw [← Nat.add_div_right _ N.slot_pos]
      exact Nat.div_le_div_right hheader
    · unfold slot at hinherents
      exact max_le (by omega) (by omega)

/-! ## Chains -/

theorem replay_eq_some {chain : List (AuraBlock AuthorityId)} {st : ChainState} :
    N.protocol.replay chain = some st ↔
      ∃ accepted : AcceptedChain N.sdk N.slotDuration,
        chain.map N.checkSeal = accepted.blocks.map some ∧ accepted.head = st := by
  constructor
  · intro h
    obtain ⟨blocks, hblocks, hrun⟩ := run_decode_eq_some.mp h
    exact ⟨⟨blocks, st, hrun⟩, hblocks, rfl⟩
  · rintro ⟨⟨blocks, head, hrun⟩, hblocks, rfl⟩
    exact run_decode_eq_some.mpr ⟨blocks, hblocks, hrun⟩

theorem exists_slots {chain : List (AuraBlock AuthorityId)} {st : ChainState}
    (h : N.protocol.replay chain = some st) :
    ∃ slots : List ℕ, chain.map (fun b => N.sdk.findPreDigest b.block.digest) = slots.map .ok ∧
      slots.Pairwise (· < ·) ∧ ∀ slot ∈ slots, 0 < slot ∧ slot ≤ st.currentSlot := by
  obtain ⟨accepted, hblocks, rfl⟩ := N.replay_eq_some.mp h
  refine ⟨accepted.blocks.map SealedBlock.slot, ?_, ?_, ?_⟩
  · apply List.ext_getElem?
    intro k
    have hk := congrArg (fun l => l[k]?) hblocks
    simp only [List.getElem?_map] at hk ⊢
    rcases hchain : chain[k]? with - | b
    · rw [hchain] at hk
      rw [Option.map_eq_none_iff.mp hk.symm]
      rfl
    · rw [hchain] at hk
      obtain ⟨sealed, hsealed, hb⟩ := Option.map_eq_some_iff.mp hk.symm
      obtain ⟨hdigest, -, -⟩ := N.checkSeal_eq_some.mp hb.symm
      rw [hsealed, Option.map_some, Option.map_some, Option.map_some, hdigest]
  · exact run_importBlock_slots_pairwise N.laws N.two_le N.slot_fits accepted.accepted
  · intro slot hslot
    obtain ⟨b, hb, rfl⟩ := List.mem_map.mp hslot
    exact run_importBlock_slot_mem N.laws N.two_le N.slot_fits accepted.accepted hb

theorem length_le_currentSlot {chain : List (AuraBlock AuthorityId)} {st : ChainState}
    (h : N.protocol.replay chain = some st) : chain.length ≤ st.currentSlot := by
  obtain ⟨accepted, hblocks, rfl⟩ := N.replay_eq_some.mp h
  have hlength : chain.length = accepted.blocks.length := by
    rw [← List.length_map N.checkSeal, hblocks, List.length_map]
  have hslots := run_importBlock_slots N.laws N.two_le N.slot_fits accepted.accepted
  rwa [show genesis.currentSlot = 0 from rfl, Nat.zero_add, ← hlength] at hslots

end Steps

/-! ## A first block

Five authorities take turns; the two nodes have the keys of all but authority 3.
Node `false` authors the first block as slot 1 starts; node `true`, a whole slot
behind, receives it. -/

/-- The template's runtime, with clients that follow the chain of one genesis
block. -/
def template : Network Bool ℕ ℕ Unit where
  sdk := .documented
  laws := ConsensusSdk.documented_laws_u64
  slotDuration := Runtime.slotDuration
  two_le := by decide
  drift_le := by decide
  client _ := FullClient.ofChain 0 [] 6000
  client_eq _ _ := rfl
  hashOf := List.length
  authorities := [0, 1, 2, 3, 4]
  slotAuthor slot authorities := turn authorities slot
  slotAuthor_eq _ _ := rfl
  isAuthority _ := true
  claimSlot _ slot := (turn [0, 1, 2, 3, 4] slot).filter (· != 3)
  claimSlot_author _ _ _ h := Option.eq_some_of_filter_eq_some h

def genesisClock : Clock := ⟨0, by decide⟩

def firstClock : Clock := ⟨6000, by decide⟩

def firstBlock : AuraBlock ℕ := ⟨⟨[.auraPreRuntime 1], 6000⟩, 1⟩

def firstEvents : List (Event Bool Wakeup (Clock × Clock) (AuraBlock ℕ)) :=
  [.author false [] ⟨firstClock, false⟩, .receive true [] (genesisClock, genesisClock) firstBlock]

/-! ## Safety -/

section Safety

variable [DecidableEq Node] [DecidableEq AuthorityId]
  (N : Network Node AuthorityId Hash ApiError)
  (events : List (Event Node Wakeup (Clock × Clock) (AuraBlock AuthorityId)))

/-- **Safety.** Whatever is sent and in whatever order events happen, a chain that
a node knows consists of blocks that their slots' authors sealed and that its
runtime accepts from genesis on; the node knew it block by block; until it
settles off the chain it knows it; and the state is that of every node that knows
it, in this run or another. -/
theorem known_chain_sound (i : Node) (chain : List (AuraBlock AuthorityId)) (st : ChainState)
    (h : N.protocol.network events i chain = some st) :
    (∃ accepted : AcceptedChain N.sdk N.slotDuration,
      chain.map N.checkSeal = accepted.blocks.map some ∧ accepted.head = st) ∧
    (∀ before after, chain = before ++ after →
      ∃ earlier later st', events = earlier ++ later ∧
        N.protocol.network earlier i before = some st') ∧
    (∀ later, (∀ f, .settle i f ∈ later → f <+: chain) →
      N.protocol.network (events ++ later) i chain = some st) ∧
    ∀ events' j st', N.protocol.network events' j chain = some st' → st' = st := by
  refine ⟨?_, ?_, ?_, ?_⟩
  · exact N.replay_eq_some.mp (network_ok N.protocol_laws events i chain st h).1
  · rintro before after rfl
    exact known_before h
  · intro later hsettle
    exact network_keeps N.protocol_laws h hsettle
  · intro events' j st' h'
    exact state_unique N.protocol_laws h' h

theorem known_chain_sound_first :
    template.protocol.network (firstEvents ++ [.settle true [firstBlock]]) true [firstBlock] =
      some ⟨6000, 1⟩ := by
  apply (known_chain_sound template firstEvents true [firstBlock] ⟨6000, 1⟩ rfl).2.2.1
  intro f hf
  cases List.mem_singleton.mp hf
  exact List.prefix_rfl

/-- The node would still accept the last block of a known chain at a clock that
covers its readings, so the head is within the tolerances of that clock. -/
theorem head_le_clock {i : Node} {clock : Clock}
    (hclock : Covers N.Near i (clock, clock) events) {chain : List (AuraBlock AuthorityId)}
    {st : ChainState} (h : N.protocol.network events i chain = some st) :
    st.currentSlot ≤ clock / N.slot + 1 ∧ st.now ≤ clock + N.sdk.maxTimestampDriftMillis := by
  have hreplay := (network_ok N.protocol_laws events i chain st h).1
  cases chain using List.reverseRecOn with
  | nil =>
      obtain rfl : genesis = st := Option.some.inj hreplay
      exact ⟨Nat.zero_le _, Nat.zero_le _⟩
  | append_singleton chain b =>
      obtain ⟨e, he, hnode, hbrings⟩ := exists_brings h
      obtain ⟨parent, st', -, hsound, hst', haccept⟩ := brings_spec N.protocol_laws hbrings
      obtain rfl : st' = st := Option.some.inj (hst'.symm.trans hreplay)
      obtain ⟨sealed, -, hahead, hfar, -, himport⟩ :=
        (N.accept_eq_some hsound).mp (haccept i (clock, clock) (hclock e he hnode))
      rw [N.importBlock_head himport]
      exact ⟨hahead, hfar⟩

/-- **Nobody runs ahead of a node's clock.** If `clock` covers every reading of
a node, the blocks of a chain it knows are in different slots, one after the
other up to the head's; the head's slot is at most the next one, and its time no
more than the drift ahead. -/
theorem known_chain_bounded (i : Node) (clock : Clock)
    (hclock : Covers N.Near i (clock, clock) events) (chain : List (AuraBlock AuthorityId))
    (st : ChainState) (h : N.protocol.network events i chain = some st) :
    (∃ slots : List ℕ, chain.map (fun b => N.sdk.findPreDigest b.block.digest) = slots.map .ok ∧
      slots.Pairwise (· < ·) ∧ ∀ slot ∈ slots, 0 < slot ∧ slot ≤ st.currentSlot) ∧
    chain.length ≤ st.currentSlot ∧ st.currentSlot ≤ clock / N.slot + 1 ∧
      st.now ≤ clock + N.sdk.maxTimestampDriftMillis := by
  have hreplay := (network_ok N.protocol_laws events i chain st h).1
  exact ⟨N.exists_slots hreplay, N.length_le_currentSlot hreplay,
    N.head_le_clock events hclock h⟩

theorem first_covers : Covers template.Near true (genesisClock, genesisClock) firstEvents := by
  intro e he
  rcases List.mem_cons.mp he with rfl | he
  · intro h
    cases h
  · rcases List.mem_singleton.mp he with rfl
    intro _
    exact le_rfl

theorem known_chain_bounded_first :
    (⟨6000, 1⟩ : ChainState).currentSlot ≤ genesisClock / template.slot + 1 :=
  (known_chain_bounded template firstEvents true genesisClock first_covers [firstBlock]
    ⟨6000, 1⟩ rfl).2.2.1

end Safety

end Network

end SolochainTemplate.Node

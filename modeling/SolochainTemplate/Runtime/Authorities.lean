import SolochainTemplate.Framework.RoundRobin
import SolochainTemplate.Runtime.Blocks

/-!
# Who authors the chain

Aura gives every slot to one authority, in turn. The runtime has no pallet that
rotates them, so `AuraApi::authorities` is the list of the genesis configuration,
and `AllowMultipleBlocksPerSlot` is off, so an authority has one block for a turn
at most. What follows is a share: however an authority uses its turns, and
whatever the others do, it cannot get more of the chain than its part of the
list.
-/

namespace SolochainTemplate.Runtime

open SolochainTemplate.Sdk
open Framework (run run_snoc_eq_some)
open Framework.RoundRobin (turn TurnOf maxTurns card_window length_le_turns)

variable {AuthorityId : Type}

/-- The slot is one of the `w` slots after `s`, and its author has `p`.
`slotAuthor` is Aura's `slot_author`, which the seal of a block is checked
against. -/
def inWindow (slotAuthor : ℕ → List AuthorityId → Option AuthorityId)
    (authorities : List AuthorityId) (p : AuthorityId → Bool) (s w slot : ℕ) : Bool :=
  decide (s < slot ∧ slot ≤ s + w) && (slotAuthor slot authorities).any p

/-- The blocks of the window. -/
def blocksBy (slotAuthor : ℕ → List AuthorityId → Option AuthorityId)
    (authorities : List AuthorityId) (p : AuthorityId → Bool) (s w : ℕ)
    (blocks : List SealedBlock) : List SealedBlock :=
  blocks.filter fun b => inWindow slotAuthor authorities p s w b.slot

section Share

variable {slotAuthor : ℕ → List AuthorityId → Option AuthorityId}
  (hauthor : ∀ slot authorities, slotAuthor slot authorities = turn authorities slot)
include hauthor

theorem inWindow_iff {authorities : List AuthorityId} {p : AuthorityId → Bool} {s w slot : ℕ} :
    inWindow slotAuthor authorities p s w slot = true ↔
      (s < slot ∧ slot ≤ s + w) ∧ TurnOf authorities p slot := by
  unfold inWindow
  rw [Bool.and_eq_true, decide_eq_true_eq, hauthor]
  exact Iff.rfl

section Bound

variable {sdk : ConsensusSdk} {slotDuration : ℕ} {fits : ℕ → Prop} (hsdk : sdk.Laws fits)
  (hD : 2 ≤ slotDuration) (hfits : fits (2 * (slotDuration / 2)))
include hsdk hD hfits

/-- Blocks of one run are in different slots, so there are no more of them than
turns. -/
theorem run_length_blocksBy_le {st st' : ChainState} {blocks : List SealedBlock}
    (h : run (importBlock sdk slotDuration) st blocks = some st')
    (authorities : List AuthorityId) (p : AuthorityId → Bool) (s w : ℕ) :
    (blocksBy slotAuthor authorities p s w blocks).length ≤ maxTurns authorities p w := by
  have hnodup : ((blocksBy slotAuthor authorities p s w blocks).map SealedBlock.slot).Nodup :=
    (run_importBlock_slots_nodup hsdk hD hfits h).sublist (List.filter_sublist.map _)
  have hmem : ∀ x ∈ (blocksBy slotAuthor authorities p s w blocks).map SealedBlock.slot,
      (s < x ∧ x ≤ s + w) ∧ TurnOf authorities p x := by
    intro x hx
    obtain ⟨b, hb, rfl⟩ := List.mem_map.mp hx
    exact (inWindow_iff hauthor).mp (List.mem_filter.mp hb).2
  rw [← List.length_map SealedBlock.slot]
  exact length_le_turns authorities p hnodup (fun x hx => (hmem x hx).1)
    (fun x hx => (hmem x hx).2)

omit hauthor in
theorem run_importBlock_full {n : ℕ}
    (hperiod : ∀ slot < n, fits (slot * (2 * (slotDuration / 2)) + slotDuration / 2)) :
    run (importBlock sdk slotDuration) genesis
        ((List.range' 1 n).map fun slot => ⟨slot, slot * (2 * (slotDuration / 2))⟩) =
      some ⟨n * (2 * (slotDuration / 2)), n⟩ := by
  have hL : 0 < 2 * (slotDuration / 2) := Nat.mul_pos (by decide) (Nat.div_pos hD (by decide))
  induction n with
  | zero =>
      rw [Nat.zero_mul]
      rfl
  | succ n ih =>
      have hrun := ih fun slot hslot => hperiod slot (Nat.lt_succ_of_lt hslot)
      rw [List.range'_1_concat, List.map_append, List.map_singleton, run_snoc_eq_some hrun,
        Nat.add_comm 1 n]
      refine (importBlock_eq_some_iff hsdk).mpr ⟨Nat.lt_succ_self n, ?_⟩
      refine (setTimestamp_eq_some hsdk hD hfits (hperiod n (Nat.lt_succ_self n))).mpr
        ⟨Or.inr ?_, Nat.mul_div_cancel _ hL, rfl⟩
      calc n * (2 * (slotDuration / 2)) + slotDuration / 2
          ≤ n * (2 * (slotDuration / 2)) + 2 * (slotDuration / 2) :=
            Nat.add_le_add_left (Nat.le_mul_of_pos_left _ Nat.zero_lt_two) _
        _ = (n + 1) * (2 * (slotDuration / 2)) := (Nat.succ_mul _ _).symm

theorem run_length_blocksBy_full (authorities : List AuthorityId) (p : AuthorityId → Bool)
    (s k : ℕ) {st st' : ChainState} {blocks : List SealedBlock}
    (h : run (importBlock sdk slotDuration) st blocks = some st')
    (hfull : blocks.map SealedBlock.slot = List.range' 1 (s + k * authorities.length)) :
    (blocksBy slotAuthor authorities p s (k * authorities.length) blocks).length =
      k * authorities.countP p := by
  have hnodup : ((blocksBy slotAuthor authorities p s (k * authorities.length)
      blocks).map SealedBlock.slot).Nodup :=
    (run_importBlock_slots_nodup hsdk hD hfits h).sublist (List.filter_sublist.map _)
  rw [← List.length_map SealedBlock.slot, ← List.toFinset_card_of_nodup hnodup,
    ← card_window authorities p (s + 1)]
  congr 1
  ext slot
  rw [List.mem_toFinset, Finset.mem_filter, Finset.mem_Ico]
  constructor
  · intro hslot
    obtain ⟨b, hb, rfl⟩ := List.mem_map.mp hslot
    obtain ⟨⟨hlo, hhi⟩, hturn⟩ := (inWindow_iff hauthor).mp (List.mem_filter.mp hb).2
    exact ⟨⟨hlo, by omega⟩, hturn⟩
  · rintro ⟨⟨hlo, hhi⟩, hturn⟩
    have hmem : slot ∈ blocks.map SealedBlock.slot := by
      rw [hfull, List.mem_range'_1]
      omega
    obtain ⟨b, hb, rfl⟩ := List.mem_map.mp hmem
    apply List.mem_map_of_mem
    exact List.mem_filter.mpr ⟨hb, (inWindow_iff hauthor).mpr ⟨⟨hlo, by omega⟩, hturn⟩⟩

end Bound

end Share

/-- **The share of a set of authorities.** On every accepted chain, in a window of
`w` slots, the authorities with `p` have at most as many blocks as they are listed,
for every round through the list it takes to cover `w` slots; and in a window of
whole rounds some accepted chain has that many, if the times up to its end fit the
word. -/
theorem authored_share (sdk : ConsensusSdk) (fits : ℕ → Prop) (hsdk : sdk.Laws fits)
    (slotDuration : ℕ) (hD : 2 ≤ slotDuration) (hfits : fits (2 * (slotDuration / 2)))
    (slotAuthor : ℕ → List AuthorityId → Option AuthorityId)
    (hauthor : ∀ slot authorities, slotAuthor slot authorities = turn authorities slot)
    (authorities : List AuthorityId) (p : AuthorityId → Bool) (s : ℕ) :
    (∀ (chain : AcceptedChain sdk slotDuration) (w : ℕ),
      (blocksBy slotAuthor authorities p s w chain.blocks).length ≤
        maxTurns authorities p w) ∧
    ∀ k : ℕ,
      (∀ slot < s + k * authorities.length,
        fits (slot * (2 * (slotDuration / 2)) + slotDuration / 2)) →
      ∃ chain : AcceptedChain sdk slotDuration,
        (blocksBy slotAuthor authorities p s (k * authorities.length) chain.blocks).length =
          k * authorities.countP p := by
  constructor
  · intro chain w
    exact run_length_blocksBy_le hauthor hsdk hD hfits chain.accepted authorities p s w
  · intro k hperiod
    have hrun := run_importBlock_full hsdk hD hfits hperiod
    refine ⟨⟨_, _, hrun⟩, ?_⟩
    apply run_length_blocksBy_full hauthor hsdk hD hfits authorities p s k hrun
    rw [List.map_map]
    exact List.map_id _

/-- Three authorities; the second has two of the six slots after slot 2 of some
chain. -/
theorem authored_share_three :
    ∃ chain : AcceptedChain ConsensusSdk.documented 6000,
      (blocksBy (fun slot authorities => authorities[slot % authorities.length]?)
        [10, 11, 12] (fun a => a == 11) 2 6 chain.blocks).length = 2 :=
  (authored_share ConsensusSdk.documented U64 ConsensusSdk.documented_laws_u64 6000 (by decide)
    (by decide) (fun slot authorities => authorities[slot % authorities.length]?)
    (fun _ _ => rfl) [10, 11, 12] (fun a => a == 11) 2).2 2 (by
      intro slot hslot
      have hle := Nat.mul_le_mul_right 6000 hslot.le
      exact lt_of_le_of_lt (Nat.add_le_add_right hle 3000) (by decide))

end SolochainTemplate.Runtime

import SolochainTemplate.Node.NetworkProgress
import SolochainTemplate.Runtime.Authorities

/-!
# Forks of a minority

`new_partial` selects the longest chain a node knows
(`sc_consensus::LongestChain`), and a node authors on it. What an adversary that
holds the keys of some authorities can do to that choice is bounded by their
turns: blocks of theirs on any one chain are few, whatever they withhold, reorder
or send twice, while every round of the others makes the longest chain one block
longer at every node.
-/

namespace SolochainTemplate.Node

open SolochainTemplate.Sdk
open SolochainTemplate.Runtime
open Framework (run_decode_eq_some run_append_eq_some)
open Framework.Gossip
open Framework.RoundRobin (maxTurns)

variable {Node AuthorityId Hash ApiError : Type}

namespace Network

section Turns

variable [DecidableEq AuthorityId] (N : Network Node AuthorityId Hash ApiError)

/-- The slot of the last block; 0 for the genesis block. -/
def headSlot (chain : List (AuraBlock AuthorityId)) : ℕ :=
  match N.protocol.replay chain with
  | some st => st.currentSlot
  | none => 0

/-- The turns that authorities with `p` can have after the head of a chain, up to
the slot after the clock's. -/
def turnsSince (p : AuthorityId → Bool) (clock : Clock) (chain : List (AuraBlock AuthorityId)) :
    ℕ :=
  maxTurns N.authorities p (clock / N.slot + 1 - N.headSlot chain)

theorem countP_signer {blocks : List (AuraBlock AuthorityId)} {sealed : List SealedBlock}
    (h : blocks.map N.checkSeal = sealed.map some) (p : AuthorityId → Bool) :
    blocks.countP (fun b => p b.signer) =
      sealed.countP fun b => (N.slotAuthor b.slot N.authorities).any p := by
  have hmap := congrArg (List.countP (Option.any fun b : SealedBlock =>
    (N.slotAuthor b.slot N.authorities).any p)) h
  rw [List.countP_map, List.countP_map] at hmap
  refine Eq.trans (List.countP_congr ?_) hmap
  intro b hb
  obtain ⟨s, -, hs⟩ := List.mem_map.mp (h ▸ List.mem_map_of_mem hb)
  obtain ⟨-, hauthor, -⟩ := N.checkSeal_eq_some.mp hs.symm
  rw [Function.comp_apply, ← hs, Option.any_some, hauthor, Option.any_some]

variable [DecidableEq Node] {events : List (Event Node Wakeup (Clock × Clock)
  (AuraBlock AuthorityId))}

/-- **On one chain a set of authorities has no more blocks than turns**, from any
block of it on. -/
theorem countP_signer_le {i : Node} {clock : Clock}
    (hclock : Covers N.Near i (clock, clock) events) (p : AuthorityId → Bool)
    {before after : List (AuraBlock AuthorityId)} {st : ChainState}
    (h : N.protocol.network events i (before ++ after) = some st) :
    after.countP (fun b => p b.signer) ≤ N.turnsSince p clock before := by
  obtain ⟨hhead, -⟩ := N.head_le_clock events hclock h
  obtain ⟨u, hu, hrun⟩ := run_append_eq_some.mp
    (network_ok N.protocol_laws events i (before ++ after) st h).1
  obtain ⟨sealed, hsealed, himport⟩ := run_decode_eq_some.mp hrun
  have hslot : N.headSlot before = u.currentSlot := by
    unfold headSlot
    rw [show N.protocol.replay before = some u from hu]
  rw [N.countP_signer hsealed, turnsSince, hslot]
  calc sealed.countP (fun b => (N.slotAuthor b.slot N.authorities).any p)
      ≤ sealed.countP fun b => inWindow N.slotAuthor N.authorities p u.currentSlot
          (clock / N.slot + 1 - u.currentSlot) b.slot := by
        apply List.countP_mono_left
        intro b hb hq
        obtain ⟨hlo, hhi⟩ := run_importBlock_slot_mem N.laws N.two_le N.slot_fits himport hb
        unfold inWindow
        rw [Bool.and_eq_true, decide_eq_true_eq]
        exact ⟨⟨hlo, by omega⟩, hq⟩
    _ = (blocksBy N.slotAuthor N.authorities p u.currentSlot
          (clock / N.slot + 1 - u.currentSlot) sealed).length := List.countP_eq_length_filter
    _ ≤ maxTurns N.authorities p (clock / N.slot + 1 - u.currentSlot) :=
        run_length_blocksBy_le N.slotAuthor_eq N.laws N.two_le N.slot_fits himport _ p _ _

end Turns

section Forks

variable [DecidableEq Node] [DecidableEq AuthorityId]
  (N : Network Node AuthorityId Hash ApiError) (p : AuthorityId → Bool)
  (first events : List (Event Node Wakeup (Clock × Clock) (AuraBlock AuthorityId)))

/-- **A minority cannot win a fork.** Every node knew a chain of `m` blocks, and
rounds followed. A chain of `m` blocks or fewer, continued by blocks of authorities
with `p` only, is no node's longest chain, if these can have had fewer turns since
then than there were rounds. -/
theorem minority_fork_loses (m : ℕ) (hfirst : Height N.protocol first m)
    (tips : List (List (AuraBlock AuthorityId)))
    (hrounds : Rounds N.protocol N.Near first tips events) (i : Node) (clock : Clock)
    (hclock : Covers N.Near i (clock, clock) events)
    (before after : List (AuraBlock AuthorityId)) (hbefore : before.length ≤ m)
    (hafter : ∀ b ∈ after, p b.signer = true)
    (hturns : N.turnsSince p clock before < tips.length) :
    ¬ Longest (N.protocol.network events i) (before ++ after) := by
  intro hlongest
  have hgrowth := rounds_growth N.protocol_laws hfirst hrounds
  have hle := hgrowth.le_longest hlongest
  obtain ⟨⟨st, hst⟩, -⟩ := hlongest
  have hfew : after.length ≤ N.turnsSince p clock before := by
    rw [← List.countP_eq_length.mpr hafter]
    exact N.countP_signer_le hclock p hst
  rw [List.length_append] at hle
  omega

/-- Node `true` is sent the third block on the first one too: it knows the fork, and
does not select it. -/
theorem minority_fork_loses_slot_three :
    template.protocol.network (threeRounds ++
        [.receive true [firstBlock] (thirdClock, thirdClock) thirdBlock]) true
        [firstBlock, thirdBlock] = some ⟨18000, 3⟩ ∧
      ¬ Longest (template.protocol.network (threeRounds ++
        [.receive true [firstBlock] (thirdClock, thirdClock) thirdBlock]) true)
        [firstBlock, thirdBlock] := by
  refine ⟨rfl, ?_⟩
  have hrounds : Rounds template.protocol template.Near firstEvents
      [[firstBlock, secondBlock, fourthBlock], [firstBlock, secondBlock]] (threeRounds ++
        [.receive true [firstBlock] (thirdClock, thirdClock) thirdBlock]) :=
    .other _ _ (threeRounds_of .start) (by simp)
  apply minority_fork_loses template (fun a => a == 3) firstEvents _ 1 firstEvents_height _
    hrounds true fourthClock _ [firstBlock] [thirdBlock] le_rfl (by decide) (by decide)
  intro e he
  rcases List.mem_append.mp he with he | he
  · exact threeRounds_covers true e he
  · rcases List.mem_singleton.mp he with rfl
    intro _
    exact ⟨by decide, by decide⟩

/-- **The others keep their part of every longest chain**: above height `m` it has a
block of an authority without `p` for every round, less the turns of those with. -/
theorem longest_chain_quality (m : ℕ) (hfirst : Height N.protocol first m)
    (tips : List (List (AuraBlock AuthorityId)))
    (hrounds : Rounds N.protocol N.Near first tips events) (i : Node) (clock : Clock)
    (hclock : Covers N.Near i (clock, clock) events) (chain : List (AuraBlock AuthorityId))
    (hlongest : Longest (N.protocol.network events i) chain) :
    tips.length ≤ (chain.drop m).countP (fun b => !p b.signer) +
      N.turnsSince p clock (chain.take m) := by
  have hgrowth := rounds_growth N.protocol_laws hfirst hrounds
  have hle := hgrowth.le_longest hlongest
  obtain ⟨⟨st, hst⟩, -⟩ := hlongest
  rw [← List.take_append_drop m chain] at hst
  have hfew := N.countP_signer_le hclock p hst
  have hsplit := List.length_eq_countP_add_countP (fun b => p b.signer) (l := chain.drop m)
  simp only [Bool.not_eq_true, Bool.decide_eq_false] at hsplit
  rw [List.length_drop] at hsplit
  omega

theorem third_longest :
    Longest (template.protocol.network threeRounds true)
      [firstBlock, secondBlock, thirdBlock] := by
  have hthird : template.protocol.network threeRounds true
      [firstBlock, secondBlock, thirdBlock] = some ⟨18000, 3⟩ := rfl
  exact longest_of_parents hthird (by decide)

/-- After the first block there were two rounds, and authority 3 has had one turn. -/
theorem longest_chain_quality_two_rounds :
    2 ≤ [secondBlock, thirdBlock].countP (fun b => !(b.signer == 3)) + 1 :=
  longest_chain_quality template (fun a => a == 3) firstEvents threeRounds 1 firstEvents_height _
    (threeRounds_of .start) true fourthClock (threeRounds_covers true) _ third_longest

/-- **Longest chains agree but for their ends.** Suppose that above height `m` the
blocks of two longest chains are rounds' or of authorities with `p`. If there were
more rounds than these can have had turns, counted once for either chain, then
the chains have a common prefix that is longer than `m` by what the rounds exceed
that. -/
theorem longest_chains_agree (m : ℕ) (hfirst : Height N.protocol first m)
    (tips : List (List (AuraBlock AuthorityId)))
    (hrounds : Rounds N.protocol N.Near first tips events) (i j : Node)
    (clock clock' : Clock) (hi : Covers N.Near i (clock, clock) events)
    (hj : Covers N.Near j (clock', clock') events) (chain chain' : List (AuraBlock AuthorityId))
    (hchain : Longest (N.protocol.network events i) chain)
    (hchain' : Longest (N.protocol.network events j) chain')
    (hblocks : ∀ l b, l ++ [b] <+: chain ∨ l ++ [b] <+: chain' → m ≤ l.length →
      l ++ [b] ∈ tips ∨ p b.signer = true)
    (hturns : N.turnsSince p clock (chain.take m) + N.turnsSince p clock' (chain'.take m) <
      tips.length) :
    ∃ common, common <+: chain ∧ common <+: chain' ∧
      m + tips.length ≤ common.length +
        (N.turnsSince p clock (chain.take m) + N.turnsSince p clock' (chain'.take m)) := by
  obtain ⟨⟨st, hst⟩, -⟩ := id hchain
  obtain ⟨⟨st', hst'⟩, -⟩ := id hchain'
  rw [← List.take_append_drop m chain] at hst
  rw [← List.take_append_drop m chain'] at hst'
  have hfew := N.countP_signer_le hi p hst
  have hfew' := N.countP_signer_le hj p hst'
  obtain ⟨common, hcommon, hcommon', hlength⟩ :=
    longest_agree N.protocol_laws hfirst hrounds hchain hchain' hblocks (by omega)
  exact ⟨common, hcommon, hcommon', by omega⟩

theorem fourth_longest :
    Longest (template.protocol.network threeRounds false)
      [firstBlock, secondBlock, fourthBlock] := by
  have hfourth : template.protocol.network threeRounds false
      [firstBlock, secondBlock, fourthBlock] = some ⟨24000, 4⟩ := rfl
  exact longest_of_parents hfourth (by decide)

/-- Three rounds and a turn of authority 3 for each chain: the nodes' longest chains
differ, and have the first block in common at least. -/
theorem longest_chains_agree_three_rounds :
    ∃ common, common <+: [firstBlock, secondBlock, fourthBlock] ∧
      common <+: [firstBlock, secondBlock, thirdBlock] ∧ 1 ≤ common.length := by
  -- what the two chains consist of
  have hinits : ∀ l ∈ [firstBlock, secondBlock, fourthBlock].inits ++
      [firstBlock, secondBlock, thirdBlock].inits, l = [] ∨
        l ∈ [[firstBlock, secondBlock, fourthBlock], [firstBlock, secondBlock], [firstBlock]] ∨
          l.getLast?.any (fun b => b.signer == 3) = true := by decide
  obtain ⟨common, hcommon, hcommon', hlength⟩ := longest_chains_agree template
    (fun a => a == 3) [] threeRounds 0 (height_init _) _ (threeRounds_of firstRound) false true
    fourthClock fourthClock (threeRounds_covers false) (threeRounds_covers true) _ _
    fourth_longest third_longest (by
      intro l b hprefix _
      rw [← List.mem_inits, ← List.mem_inits, ← List.mem_append] at hprefix
      rcases hinits _ hprefix with hnil | htip | hsigner
      · exact absurd hnil (by simp)
      · exact Or.inl htip
      · exact Or.inr (by simpa using hsigner)) (by decide)
  have hturns : 3 ≤ common.length + (1 + 1) := hlength
  exact ⟨common, hcommon, hcommon', by omega⟩

end Forks

end Network

end SolochainTemplate.Node

import SolochainTemplate.Framework.Growth
import SolochainTemplate.Node.Network

/-!
# Progress of the network

What `Node.Network` leaves open: that an author whose turn it is can go on, that
what one node knows reaches the others, and that chains grow. Every statement is
about a run with anything else in it, blocks of an adversary included; what
nodes settle on is restricted where they would otherwise give up the chain in
question.
-/

namespace SolochainTemplate.Node

open SolochainTemplate.Sdk
open SolochainTemplate.Runtime
open Framework.Gossip

variable {Node AuthorityId Hash ApiError : Type}

namespace Network

section Progress

variable [DecidableEq Node] [DecidableEq AuthorityId]
  (N : Network Node AuthorityId Hash ApiError)
  (events : List (Event Node Wakeup (Clock × Clock) (AuraBlock AuthorityId)))

/-! ## Authoring -/

theorem author_outcome {i : Node} {w : Wakeup} {signer : AuthorityId}
    (hclaim : N.Claims i w signer) {chain : List (AuraBlock AuthorityId)} {st : ChainState}
    (h : N.protocol.network events i chain = some st)
    (hslot : st.currentSlot < w.clock / N.slot) :
    N.protocol.outcome (N.protocol.network events i) (.author i chain w) =
      some (N.authoredBlock st w.clock signer, N.authoredState st w.clock) := by
  have hsound := (network_ok N.protocol_laws events i chain st h).2
  rw [Protocol.outcome, h, Option.bind_some]
  exact (N.author_eq_some hsound).mpr ⟨signer, hclaim, hslot, rfl, rfl⟩

theorem network_author {i : Node} {w : Wakeup} {signer : AuthorityId}
    (hclaim : N.Claims i w signer) {chain : List (AuraBlock AuthorityId)} {st : ChainState}
    (h : N.protocol.network events i chain = some st)
    (hslot : st.currentSlot < w.clock / N.slot) :
    N.protocol.network (events ++ [.author i chain w]) i
        (chain ++ [N.authoredBlock st w.clock signer]) =
      some (N.authoredState st w.clock) := by
  have hself := N.protocol.network_snoc_self events (.author i chain w)
  rw [Event.node, advance_of_some (N.author_outcome events hclaim h hslot)] at hself
  rw [hself]
  exact Function.update_self ..

/-- **Nobody can block an author for long.** Two slots after the last reading of a
node, when it is its turn, its authoring succeeds on every chain it knows,
whatever it was sent. -/
theorem author_recovers (i : Node) (last : Clock) (w : Wakeup) (signer : AuthorityId)
    (hlast : Covers N.Near i (last, last) events) (hclaim : N.Claims i w signer)
    (hclock : (last / N.slot + 2) * N.slot ≤ w.clock) (chain : List (AuraBlock AuthorityId))
    (st : ChainState) (h : N.protocol.network events i chain = some st) :
    N.protocol.network (events ++ [.author i chain w]) i
        (chain ++ [N.authoredBlock st w.clock signer]) =
      some (N.authoredState st w.clock) := by
  apply N.network_author events hclaim h
  obtain ⟨hslot, -⟩ := N.head_le_clock events hlast h
  calc st.currentSlot ≤ last / N.slot + 1 := hslot
    _ < last / N.slot + 2 := Nat.lt_succ_self _
    _ ≤ w.clock / N.slot := (Nat.le_div_iff_mul_le N.slot_pos).mpr hclock

def secondClock : Clock := ⟨12000, by decide⟩

def secondBlock : AuraBlock ℕ := ⟨⟨[.auraPreRuntime 2], 12000⟩, 2⟩

theorem author_recovers_second :
    template.protocol.network (firstEvents ++ [.author true [firstBlock] ⟨secondClock, false⟩])
      true [firstBlock, secondBlock] = some ⟨12000, 2⟩ :=
  author_recovers template firstEvents true genesisClock ⟨secondClock, false⟩ 2 first_covers
    ⟨rfl, rfl, rfl⟩ (by decide) [firstBlock] ⟨6000, 1⟩ rfl

/-- **What a node authors reaches every node.** Who authors in its turn on a known
chain, in a slot after the head's, gets a block there; and whatever happens next,
a node that knows the parent and whose clock is at most one slot behind accepts
the block when it arrives, with the state the author gave it. -/
theorem authored_block_spreads (i : Node) (w : Wakeup) (signer : AuthorityId)
    (hclaim : N.Claims i w signer) (chain : List (AuraBlock AuthorityId)) (st : ChainState)
    (h : N.protocol.network events i chain = some st)
    (hslot : st.currentSlot < w.clock / N.slot) :
    N.protocol.network (events ++ [.author i chain w]) i
        (chain ++ [N.authoredBlock st w.clock signer]) = some (N.authoredState st w.clock) ∧
      ∀ later j readings parent,
        N.protocol.network (events ++ .author i chain w :: later) j chain = some parent →
        N.Near w readings →
        N.protocol.network (events ++ .author i chain w :: later ++
            [.receive j chain readings (N.authoredBlock st w.clock signer)]) j
          (chain ++ [N.authoredBlock st w.clock signer]) = some (N.authoredState st w.clock) := by
  refine ⟨N.network_author events hclaim h hslot, ?_⟩
  intro later j readings parent hparent hnear
  exact authored_received N.protocol_laws (N.author_outcome events hclaim h hslot) hparent hnear

/-- Node `false` is a whole slot behind the author. -/
theorem authored_block_spreads_second :
    template.protocol.network (firstEvents ++ [.author true [firstBlock] ⟨secondClock, false⟩,
        .receive false [firstBlock] (firstClock, firstClock) secondBlock]) false
      [firstBlock, secondBlock] = some ⟨12000, 2⟩ :=
  (authored_block_spreads template firstEvents true ⟨secondClock, false⟩ 2 ⟨rfl, rfl, rfl⟩
    [firstBlock] ⟨6000, 1⟩ rfl (by decide)).2 [] false (firstClock, firstClock) ⟨6000, 1⟩ rfl
    ⟨by decide, by decide⟩

/-! ## What one knows the others learn -/

/-- **What one node knows every other can learn**: if from a chain it knows on the
blocks of a chain known anywhere reach a node, each on a clock that is not behind
the reading with which some node got it, the node knows the chain, with its state,
unless it settled off it. -/
theorem known_chain_spreads (i j : Node) (chain : List (AuraBlock AuthorityId)) (st : ChainState)
    (h : N.protocol.network events i chain = some st)
    (later : List (Event Node Wakeup (Clock × Clock) (AuraBlock AuthorityId)))
    (hreached : Reached N.protocol N.Near j chain (events ++ later))
    (hsettle : ∀ f, .settle j f ∈ events ++ later → f <+: chain) :
    N.protocol.network (events ++ later) j chain = some st := by
  obtain ⟨st', hst'⟩ := hreached.exists_known N.protocol_laws hsettle
  rw [hst', state_unique N.protocol_laws hst' h]

def thirdClock : Clock := ⟨18000, by decide⟩

def fourthClock : Clock := ⟨24000, by decide⟩

/-- Authority 3, of whom no node has the key, builds on the second block. -/
def thirdBlock : AuraBlock ℕ := ⟨⟨[.auraPreRuntime 3], 18000⟩, 3⟩

/-- The block of the fourth slot. -/
def fourthBlock : AuraBlock ℕ := ⟨⟨[.auraPreRuntime 4], 24000⟩, 4⟩

/-- Node `true` authors the second block and gets the third one; node `false` hears
of neither and authors a fork. -/
def splitEvents : List (Event Bool Wakeup (Clock × Clock) (AuraBlock ℕ)) :=
  firstEvents ++ [.author true [firstBlock] ⟨secondClock, false⟩,
    .receive true [firstBlock, secondBlock] (thirdClock, thirdClock) thirdBlock,
    .author false [firstBlock] ⟨fourthClock, false⟩]

/-- Node `false` hears of the second block while its clock is a slot behind, settles
on the first and hears of the third later; node `true` hears of the fork. -/
def mergeEvents : List (Event Bool Wakeup (Clock × Clock) (AuraBlock ℕ)) :=
  [.receive false [firstBlock] (firstClock, firstClock) secondBlock,
    .settle false [firstBlock],
    .receive false [firstBlock, secondBlock] (thirdClock, thirdClock) thirdBlock,
    .receive true [firstBlock] (fourthClock, fourthClock) fourthBlock]

theorem second_timely : Timely template.protocol template.Near splitEvents [firstBlock]
    secondBlock (firstClock, firstClock) :=
  ⟨.author true [firstBlock] ⟨secondClock, false⟩,
    ⟨firstEvents, [.receive true [firstBlock, secondBlock] (thirdClock, thirdClock) thirdBlock,
      .author false [firstBlock] ⟨fourthClock, false⟩], ⟨12000, 2⟩, rfl, rfl, rfl⟩,
    ⟨by decide, by decide⟩⟩

theorem third_timely : Timely template.protocol template.Near splitEvents
    [firstBlock, secondBlock] thirdBlock (thirdClock, thirdClock) :=
  ⟨.receive true [firstBlock, secondBlock] (thirdClock, thirdClock) thirdBlock,
    ⟨firstEvents ++ [.author true [firstBlock] ⟨secondClock, false⟩],
      [.author false [firstBlock] ⟨fourthClock, false⟩], ⟨18000, 3⟩, rfl, rfl, rfl⟩, le_rfl⟩

theorem fork_timely : Timely template.protocol template.Near splitEvents [firstBlock] fourthBlock
    (fourthClock, fourthClock) :=
  ⟨.author false [firstBlock] ⟨fourthClock, false⟩,
    ⟨firstEvents ++ [.author true [firstBlock] ⟨secondClock, false⟩,
      .receive true [firstBlock, secondBlock] (thirdClock, thirdClock) thirdBlock], [],
      ⟨24000, 4⟩, rfl, rfl, rfl⟩, ⟨by decide, by decide⟩⟩

theorem second_reached : Reached template.protocol template.Near false [firstBlock, secondBlock]
    (splitEvents ++ mergeEvents) := by
  have hfirst : Reached template.protocol template.Near false [firstBlock] splitEvents :=
    .known (s := ⟨6000, 1⟩) rfl
  exact (hfirst.block second_timely).append _

theorem third_reached : Reached template.protocol template.Near false
    [firstBlock, secondBlock, thirdBlock] (splitEvents ++ mergeEvents) := by
  have hfirst : Reached template.protocol template.Near false [firstBlock] splitEvents :=
    .known (s := ⟨6000, 1⟩) rfl
  have hsecond := (hfirst.block second_timely).later (.settle false [firstBlock])
  exact (hsecond.block ((third_timely.append _).append _)).append _

theorem settle_merge {j : Bool} {f chain : List (AuraBlock ℕ)}
    (hf : .settle j f ∈ splitEvents ++ mergeEvents) (hchain : [firstBlock] <+: chain) :
    f <+: chain := by
  simp only [splitEvents, mergeEvents, firstEvents, List.cons_append, List.nil_append,
    List.mem_cons, reduceCtorEq, Event.settle.injEq, List.not_mem_nil, or_false,
    false_or] at hf
  rwa [hf.2]

/-- The last block is one of an authority that neither node plays, and reached node
`true` first. -/
theorem known_chain_spreads_third :
    template.protocol.network (splitEvents ++ mergeEvents) false
      [firstBlock, secondBlock, thirdBlock] = some ⟨18000, 3⟩ :=
  known_chain_spreads template splitEvents true false [firstBlock, secondBlock, thirdBlock]
    ⟨18000, 3⟩ rfl mergeEvents third_reached fun _ hf =>
      settle_merge hf (List.prefix_append [firstBlock] [secondBlock, thirdBlock])

/-- **Nodes that exchange their blocks agree** on the chains that neither has
settled off, and on the state of each, whatever they were sent before and by
whom. -/
theorem nodes_converge (i j : Node)
    (later : List (Event Node Wakeup (Clock × Clock) (AuraBlock AuthorityId)))
    (hexchange : Exchange N.protocol N.Near i j events later)
    (chain : List (AuraBlock AuthorityId))
    (hi : ∀ f, .settle i f ∈ events ++ later → f <+: chain)
    (hj : ∀ f, .settle j f ∈ events ++ later → f <+: chain) :
    N.protocol.network (events ++ later) i chain =
      N.protocol.network (events ++ later) j chain :=
  exchange_agree N.protocol_laws hexchange hi hj

theorem eq_or_of_update {t : Tree ChainState (AuraBlock ℕ)} {d chain : List (AuraBlock ℕ)}
    {u : Option ChainState} {st : ChainState} (h : Function.update t d u chain = some st) :
    chain = d ∨ t chain = some st := by
  by_cases hchain : chain = d
  · exact Or.inl hchain
  · rw [Function.update_of_ne hchain] at h
    exact Or.inr h

theorem split_true {chain : List (AuraBlock ℕ)} {st : ChainState}
    (h : template.protocol.network splitEvents true chain = some st) :
    chain = [firstBlock, secondBlock, thirdBlock] ∨ chain = [firstBlock, secondBlock] ∨
      chain = [firstBlock] ∨ chain = [] := by
  have hnet : template.protocol.network splitEvents true =
      Function.update (Function.update (Function.update (template.protocol.init true)
        [firstBlock] (some ⟨6000, 1⟩)) [firstBlock, secondBlock] (some ⟨12000, 2⟩))
        [firstBlock, secondBlock, thirdBlock] (some ⟨18000, 3⟩) := rfl
  rw [hnet] at h
  rcases eq_or_of_update h with hthird | h
  · exact Or.inl hthird
  rcases eq_or_of_update h with hsecond | h
  · exact Or.inr (Or.inl hsecond)
  rcases eq_or_of_update h with hfirst | h
  · exact Or.inr (Or.inr (Or.inl hfirst))
  · exact Or.inr (Or.inr (Or.inr (init_eq_some (i := true) h).1))

theorem split_false {chain : List (AuraBlock ℕ)} {st : ChainState}
    (h : template.protocol.network splitEvents false chain = some st) :
    chain = [firstBlock, fourthBlock] ∨ chain = [firstBlock] ∨ chain = [] := by
  have hnet : template.protocol.network splitEvents false =
      Function.update (Function.update (template.protocol.init false)
        [firstBlock] (some ⟨6000, 1⟩)) [firstBlock, fourthBlock] (some ⟨24000, 4⟩) := rfl
  rw [hnet] at h
  rcases eq_or_of_update h with hfork | h
  · exact Or.inl hfork
  rcases eq_or_of_update h with hfirst | h
  · exact Or.inr (Or.inl hfirst)
  · exact Or.inr (Or.inr (init_eq_some (i := false) h).1)

theorem split_exchange : Exchange template.protocol template.Near true false splitEvents
    mergeEvents where
  handed chain st h := by
    rcases split_true h with rfl | rfl | rfl | rfl
    · exact third_reached
    · exact second_reached
    · exact Reached.append (.known (s := ⟨6000, 1⟩) rfl) _
    · exact Reached.append (.known (s := genesis) rfl) _
  handed_back chain st h := by
    have hfirst : Reached template.protocol template.Near true [firstBlock]
        (splitEvents ++ mergeEvents.take 3) := Reached.append (.known (s := ⟨6000, 1⟩) rfl) _
    rcases split_false h with rfl | rfl | rfl
    · exact hfirst.block (fork_timely.append _)
    · exact hfirst.later _
    · exact Reached.append (.known (s := genesis) rfl) _
  only e he _ := by
    simp only [mergeEvents, List.mem_cons, List.not_mem_nil, or_false] at he
    rcases he with rfl | rfl | rfl | rfl
    · exact Or.inr ⟨_, secondBlock, rfl, ⟨12000, 2⟩, Or.inl rfl⟩
    · exact Or.inl ⟨[firstBlock], rfl⟩
    · exact Or.inr ⟨_, thirdBlock, rfl, ⟨18000, 3⟩, Or.inl rfl⟩
    · exact Or.inr ⟨_, fourthBlock, rfl, ⟨24000, 4⟩, Or.inr rfl⟩

/-- Both know the fork that node `false` authored. -/
theorem nodes_converge_fork :
    template.protocol.network (splitEvents ++ mergeEvents) true [firstBlock, fourthBlock] =
      template.protocol.network (splitEvents ++ mergeEvents) false [firstBlock, fourthBlock] :=
  nodes_converge template splitEvents true false mergeEvents split_exchange
    [firstBlock, fourthBlock]
    (fun _ hf => settle_merge hf (List.prefix_append [firstBlock] [fourthBlock]))
    (fun _ hf => settle_merge hf (List.prefix_append [firstBlock] [fourthBlock]))

/-! ## Growth -/

/-- **Chains grow, and no faster than the clock.** Where every node knew a chain of
`m` blocks, after the rounds it knows one of a block more for each; and it knows
none of more blocks than there are slots up to the one after its clock's. -/
theorem chain_growth (first : List (Event Node Wakeup (Clock × Clock) (AuraBlock AuthorityId)))
    (m : ℕ) (hfirst : Height N.protocol first m) (tips : List (List (AuraBlock AuthorityId)))
    (hrounds : Rounds N.protocol N.Near first tips events) (j : Node) (clock : Clock)
    (hclock : Covers N.Near j (clock, clock) events) :
    (∃ chain st, N.protocol.network events j chain = some st ∧
      m + tips.length ≤ chain.length) ∧
    ∀ chain st, N.protocol.network events j chain = some st →
      chain.length ≤ clock / N.slot + 1 := by
  refine ⟨rounds_growth N.protocol_laws hfirst hrounds j, ?_⟩
  intro chain st h
  have hreplay := (network_ok N.protocol_laws events j chain st h).1
  obtain ⟨hslot, -⟩ := N.head_le_clock events hclock h
  exact le_trans (N.length_le_currentSlot hreplay) hslot

/-! ## Three rounds

The nodes author in slots 1, 2 and 4, each block on the one before. Authority 3
sends a block on the second one to node `true` only. -/

def twoRounds : List (Event Bool Wakeup (Clock × Clock) (AuraBlock ℕ)) :=
  firstEvents ++ [.author true [firstBlock] ⟨secondClock, false⟩] ++
    [.receive false [firstBlock] (firstClock, firstClock) secondBlock]

def withheldEvents : List (Event Bool Wakeup (Clock × Clock) (AuraBlock ℕ)) :=
  twoRounds ++ [.receive true [firstBlock, secondBlock] (thirdClock, thirdClock) thirdBlock]

def threeRounds : List (Event Bool Wakeup (Clock × Clock) (AuraBlock ℕ)) :=
  withheldEvents ++ [.author false [firstBlock, secondBlock] ⟨fourthClock, false⟩] ++
    [.receive true [firstBlock, secondBlock] (fourthClock, fourthClock) fourthBlock]

variable {first before : List (Event Bool Wakeup (Clock × Clock) (AuraBlock ℕ))}
  {tips : List (List (AuraBlock ℕ))}

/-- A round of two nodes: the other knows the parent and is handed the block. -/
theorem round_of_two {i : Bool} {chain : List (AuraBlock ℕ)} {w : Wakeup} {b : AuraBlock ℕ}
    {st parent : ChainState} {readings : Clock × Clock}
    (h : Rounds template.protocol template.Near first tips before)
    (hlongest : Longest (template.protocol.network before i) chain)
    (hauthored : template.protocol.outcome (template.protocol.network before i)
      (.author i chain w) = some (b, st))
    (hparent : template.protocol.network before (!i) chain = some parent)
    (hnear : template.Near w readings)
    (hsettle : ∀ j f, .settle j f ∈ before → f <+: chain ++ [b]) :
    Rounds template.protocol template.Near first ((chain ++ [b]) :: tips)
      (before ++ [.author i chain w] ++ [.receive (!i) chain readings b]) := by
  refine .round before i chain w b st [.receive (!i) chain readings b] h hlongest hauthored ?_ ?_
  · intro j
    by_cases hj : j = i
    · subst hj
      have hself := template.protocol.network_snoc_self before (.author j chain w)
      rw [Event.node, advance_of_some hauthored] at hself
      refine Reached.later _ (Reached.known (s := st) ?_)
      rw [hself]
      exact Function.update_self ..
    · obtain rfl : j = !i := Bool.eq_not.mpr hj
      refine Reached.block (Reached.known (s := parent) ?_) ?_
      · rw [Protocol.network_snoc_of_ne _ _ hj, hparent]
      · exact ⟨_, ⟨before, [], st, rfl, rfl, hauthored⟩, hnear⟩
  · intro j f hf
    apply hsettle j f
    simpa using hf

theorem firstRound : Rounds template.protocol template.Near [] [[firstBlock]] firstEvents := by
  have hgenesis : template.protocol.network [] false [] = some genesis := rfl
  exact round_of_two .start (longest_of_parents hgenesis (by simp)) rfl rfl
    ⟨by decide, by decide⟩ (by simp)

theorem twoRounds_of (h : Rounds template.protocol template.Near first tips firstEvents) :
    Rounds template.protocol template.Near first ([firstBlock, secondBlock] :: tips)
      twoRounds := by
  have hfirst : template.protocol.network firstEvents true [firstBlock] = some ⟨6000, 1⟩ := rfl
  exact round_of_two h (longest_of_parents hfirst (by decide)) rfl rfl
    ⟨by decide, by decide⟩ (by simp [firstEvents])

theorem threeRounds_of (h : Rounds template.protocol template.Near first tips firstEvents) :
    Rounds template.protocol template.Near first
      ([firstBlock, secondBlock, fourthBlock] :: [firstBlock, secondBlock] :: tips)
      threeRounds := by
  have hwithheld : Rounds template.protocol template.Near first
      ([firstBlock, secondBlock] :: tips) withheldEvents :=
    .other _ _ (twoRounds_of h) (by simp)
  have hsecond : template.protocol.network withheldEvents false [firstBlock, secondBlock] =
      some ⟨12000, 2⟩ := rfl
  exact round_of_two hwithheld (longest_of_parents hsecond (by decide)) rfl rfl
    ⟨by decide, by decide⟩ (by simp [withheldEvents, twoRounds, firstEvents])

theorem threeRounds_covers (j : Bool) :
    Covers template.Near j (fourthClock, fourthClock) threeRounds := by
  intro e he
  simp only [threeRounds, withheldEvents, twoRounds, firstEvents, List.cons_append,
    List.nil_append, List.mem_cons, List.not_mem_nil, or_false] at he
  rcases he with rfl | rfl | rfl | rfl | rfl | rfl | rfl <;> intro _ <;>
    exact ⟨by decide, by decide⟩

theorem firstEvents_height : Height template.protocol firstEvents 1 := by
  intro j
  refine ⟨[firstBlock], ⟨6000, 1⟩, ?_, le_rfl⟩
  cases j with
  | false => rfl
  | true => rfl

/-- Two rounds after the first block node `true` knows a chain of three blocks. -/
theorem chain_growth_two_rounds :
    ∃ chain st, template.protocol.network threeRounds true chain = some st ∧
      3 ≤ chain.length :=
  (chain_growth template threeRounds firstEvents 1 firstEvents_height _ (threeRounds_of .start)
    true fourthClock (threeRounds_covers true)).1

end Progress

end Network

end SolochainTemplate.Node

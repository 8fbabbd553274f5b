import SolochainTemplate.Runtime.Blocks

/-!
# The block of a benchmark

`node/src/benchmarking.rs`, `inherent_benchmark_data`, and the `benchmark`
subcommands of `node/src/command.rs`. Two of them build a block from a zero
timestamp and no digest items. No slot is mentioned anywhere, but Aura still
checks the pushed timestamp against the slot of the parent
(`buildBlock_benchmark_isSome_iff`).
-/

namespace SolochainTemplate.Node

open SolochainTemplate.Sdk
open SolochainTemplate.Runtime
open Framework.SlotGrid (add_half_slot_iff)

/-! ## The inputs -/

/-- `inherent_benchmark_data`. -/
def inherentBenchmarkData (sdk : ConsensusSdk) : Except String InherentData :=
  (sdk.provideInherentData .timstap0 0 .new).mapError fun e =>
    "creating inherent data: " ++ sdk.inherentsErrorDebug e

/-- `BenchmarkCmd`. -/
inductive BenchmarkCmd where
  | pallet
  | block
  | storage
  | overhead
  | extrinsic
  | machine
deriving DecidableEq, Repr

/-- `run`, the benchmark subcommands: the inherent data and the digest items
they hand to the block builder, if they hand it any. -/
def benchmarkInputs (sdk : ConsensusSdk) :
    BenchmarkCmd → Except String (Option (InherentData × List DigestItem))
  | .overhead => do return some (← inherentBenchmarkData sdk, [])
  | .extrinsic => do return some (← inherentBenchmarkData sdk, [])
  | .pallet | .block | .storage | .machine => return none

variable {sdk : ConsensusSdk} {fits : ℕ → Prop} {slotDuration : ℕ}

theorem inherentBenchmarkData_eq (hsdk : sdk.Laws fits) :
    ∃ data, inherentBenchmarkData sdk = .ok data ∧ data .timstap0 = some 0 := by
  refine ⟨Function.update InherentData.new .timstap0 (some 0), ?_, by simp⟩
  rw [inherentBenchmarkData, hsdk.provideInherentData_eq _ _ _ rfl]
  rfl

theorem benchmarkInputs_eq_some (hsdk : sdk.Laws fits) {cmd : BenchmarkCmd}
    (hcmd : cmd = .overhead ∨ cmd = .extrinsic) :
    ∃ data, benchmarkInputs sdk cmd = .ok (some (data, [])) ∧ data .timstap0 = some 0 := by
  obtain ⟨data, hdata, hzero⟩ := inherentBenchmarkData_eq hsdk
  refine ⟨data, ?_, hzero⟩
  rcases hcmd with rfl | rfl
  · rw [benchmarkInputs, hdata]; rfl
  · rw [benchmarkInputs, hdata]; rfl

/-! ## Building the block -/

section Build

variable (hsdk : sdk.Laws fits) (hD : 2 ≤ slotDuration)
  (hfits : fits (2 * (slotDuration / 2)))
include hsdk hD hfits

/-- **A benchmark block is valid exactly in the first half of a slot.** The
timestamp is pushed to a minimum period past the parent's, and the slot is still
the parent's. -/
theorem buildBlock_benchmark_isSome_iff {data : InherentData}
    (hdata : data .timstap0 = some 0) {st : ChainState}
    (hst : st.Aligned slotDuration)
    (hperiod : fits (st.now + slotDuration / 2)) :
    (buildBlock sdk slotDuration st [] data).isSome ↔
      st.now % (2 * (slotDuration / 2)) < slotDuration / 2 := by
  have hpush : max 0 (st.now + slotDuration / 2) = st.now + slotDuration / 2 :=
    Nat.zero_max _
  rw [buildBlock_eq hsdk hdata hperiod, executeBlock_no_digest hsdk,
    hpush, Option.isSome_map, Option.isSome_iff_exists, ← add_half_slot_iff (by omega), hst.slot_eq]
  constructor
  · rintro ⟨st', hset⟩
    exact (setTimestamp_slot hsdk hD hfits hset).1
  · intro hslot
    exact ⟨_, (setTimestamp_eq_some hsdk hD hfits hperiod).mpr
      ⟨Or.inr (Nat.le_refl _), hslot, rfl⟩⟩

end Build

/-- **The benchmark block's inherent**, for every slot duration and for both
subcommands: on the head of an accepted chain it is valid if and only if the
head's timestamp lies in the first half of its slot. It is valid on the genesis
block, and on some chain it is not. `fits` is the word that holds the sums; with
`Unbounded`, timestamps being natural numbers, it asks for nothing. -/
theorem benchmark_inherent_valid_iff (sdk : ConsensusSdk) (fits : ℕ → Prop)
    (hsdk : sdk.Laws fits) (slotDuration : ℕ) (hD : 2 ≤ slotDuration)
    (hroom : ∀ n ≤ 4 * (slotDuration / 2), fits n) (cmd : BenchmarkCmd)
    (hcmd : cmd = .overhead ∨ cmd = .extrinsic) :
    ∃ (data : InherentData) (digestItems : List DigestItem),
      benchmarkInputs sdk cmd = .ok (some (data, digestItems)) ∧
      (∀ chain : AcceptedChain sdk slotDuration, fits (chain.head.now + slotDuration / 2) →
        ((buildBlock sdk slotDuration chain.head digestItems data).isSome ↔
          chain.head.now % (2 * (slotDuration / 2)) < slotDuration / 2)) ∧
      (buildBlock sdk slotDuration genesis digestItems data).isSome ∧
      ∃ chain : AcceptedChain sdk slotDuration,
        buildBlock sdk slotDuration chain.head digestItems data = none := by
  have hp : 0 < slotDuration / 2 := Nat.div_pos hD (by decide)
  have hfits : fits (2 * (slotDuration / 2)) := hroom _ (by omega)
  have hperiod : fits (slotDuration / 2) := hroom _ (by omega)
  obtain ⟨data, hinputs, hdata⟩ := benchmarkInputs_eq_some hsdk hcmd
  have hiff : ∀ chain : AcceptedChain sdk slotDuration,
      fits (chain.head.now + slotDuration / 2) →
        ((buildBlock sdk slotDuration chain.head [] data).isSome ↔
          chain.head.now % (2 * (slotDuration / 2)) < slotDuration / 2) := by
    intro chain hnow
    have hst := chain.aligned hsdk hD hfits
    exact buildBlock_benchmark_isSome_iff hsdk hD hfits hdata hst hnow
  refine ⟨data, [], hinputs, hiff, ?_, ?_⟩
  · apply (hiff ⟨[], genesis, rfl⟩ (hroom _ _)).mpr
    · rw [show genesis.now = 0 from rfl, Nat.zero_mod]
      exact hp
    · show 0 + slotDuration / 2 ≤ 4 * (slotDuration / 2)
      omega
  · -- one block in the middle of slot 1 is enough to leave the first half
    have hmiddle : (slotDuration / 2 + 2 * (slotDuration / 2)) / (2 * (slotDuration / 2)) = 1 := by
      rw [Nat.add_div_right _ (by omega), Nat.div_eq_of_lt (by omega)]
    obtain ⟨chain, hhead⟩ := exists_chain_of_first hsdk hD hfits hperiod (hmiddle ▸ Nat.one_pos)
    refine ⟨chain, ?_⟩
    rw [← Option.not_isSome_iff_eq_none, hiff chain (hroom _ _), hhead, Nat.add_mod_right,
      Nat.mod_eq_of_lt (by omega)]
    · exact Nat.lt_irrefl _
    · rw [hhead]
      show slotDuration / 2 + 2 * (slotDuration / 2) + slotDuration / 2 ≤ _
      omega

/-- `benchmark overhead` on a chain of one block: in the middle of its slot the
benchmark fails. -/
theorem benchmark_inherent_valid_iff_middle :
    ∃ (data : InherentData) (digestItems : List DigestItem),
      benchmarkInputs ConsensusSdk.documented .overhead = .ok (some (data, digestItems)) ∧
      (buildBlock ConsensusSdk.documented 6000 ⟨8999, 1⟩ digestItems data).isSome ∧
      ¬ (buildBlock ConsensusSdk.documented 6000 ⟨9000, 1⟩ digestItems data).isSome := by
  obtain ⟨data, digestItems, hinputs, hiff, -, -⟩ := benchmark_inherent_valid_iff
    ConsensusSdk.documented U64 ConsensusSdk.documented_laws_u64 6000 (by decide)
    (fun n hn => lt_of_le_of_lt hn (by decide)) .overhead (Or.inl rfl)
  refine ⟨data, digestItems, hinputs, ?_, ?_⟩
  · exact (hiff ⟨[⟨1, 8999⟩], ⟨8999, 1⟩, rfl⟩ (by decide)).mpr (by decide)
  · exact (hiff ⟨[⟨1, 9000⟩], ⟨9000, 1⟩, rfl⟩ (by decide)).not.mpr (by decide)

end SolochainTemplate.Node

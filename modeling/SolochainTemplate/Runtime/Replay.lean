import SolochainTemplate.Runtime.Transactions

/-!
# Where a signed payload verifies

A transaction carries its extensions; the signature also covers the implicit
data, which a runtime recomputes from its own state (`TxExtension`). Whoever
holds a signed transaction can send it to any fork, any later block and any chain
with the same format, so what keeps it from being executed there is exactly what
the implicit data fixes: the versions, the genesis block and the birth block of
the era.
-/

namespace SolochainTemplate.Runtime

open SolochainTemplate.Sdk
open Framework

variable {Hash MetadataHash : Type}

/-! ## Chains of hashes

A chain is the list of its hashes, the genesis block's first. A hash that is free
of collisions fixes the block, and with it the parent's hash: `parent` is that
function, and a chain is linked if it follows it. A hash then fixes the whole
chain below it. -/

/-- The hash before position `i`; the first block has no parent. -/
def predecessor (chain : List Hash) : ℕ → Option Hash
  | 0 => none
  | i + 1 => chain[i]?

def Linked (parent : Hash → Option Hash) (chain : List Hash) : Prop :=
  ∀ i hash, chain[i]? = some hash → parent hash = predecessor chain i

variable {parent : Hash → Option Hash} {chain chain' : List Hash}

/-- **A hash fixes its chain.** Two linked chains with a common hash have it at
the same position and agree up to it. -/
theorem Linked.agree (h : Linked parent chain) (h' : Linked parent chain') {i j : ℕ}
    {hash : Hash} (hi : chain[i]? = some hash) (hj : chain'[j]? = some hash) :
    i = j ∧ chain.take (i + 1) = chain'.take (i + 1) := by
  induction i generalizing j hash with
  | zero =>
      cases j with
      | zero =>
          refine ⟨rfl, ?_⟩
          rw [List.take_add_one, List.take_add_one, hi, hj, List.take_zero, List.take_zero]
      | succ j =>
          -- the hash would be both the first block's and a later one's
          have hnone : predecessor chain' (j + 1) = none := (h' _ _ hj).symm.trans (h _ _ hi)
          obtain ⟨hlt, -⟩ := List.getElem?_eq_some_iff.mp hj
          have hsome : chain'[j]? = some chain'[j] := List.getElem?_eq_getElem _
          exact absurd (hsome.symm.trans hnone) (by simp)
  | succ i ih =>
      obtain ⟨hlt, -⟩ := List.getElem?_eq_some_iff.mp hi
      have hparent : chain[i]? = some chain[i] := List.getElem?_eq_getElem _
      have hsame : predecessor chain' j = some chain[i] :=
        (h' _ _ hj).symm.trans ((h _ _ hi).trans hparent)
      cases j with
      | zero => cases hsame
      | succ j =>
          obtain ⟨hij, htake⟩ := ih hparent hsame
          subst hij
          refine ⟨rfl, ?_⟩
          rw [List.take_add_one, htake, List.take_add_one (i := i + 1), hi, hj]

/-! ## Extensions and places -/

/-- The era of an extension. -/
def extensionEra (x : TxExtension) : Era := x.2.2.2.2.2.1.era

/-- Does the signature cover the hash of the metadata? -/
def extensionMetadata (x : TxExtension) : Bool := x.2.2.2.2.2.2.2.2.2.1.enabled

/-- The block whose hash the era's check recomputes. -/
def birthBlock (sdk : TransactionSdk Hash MetadataHash) (x : TxExtension)
    (st : SystemState Hash) : ℕ :=
  sdk.birth (extensionEra x) st.blockNumber

/-- A place where a transaction can be verified: the block after `chain`, which
has a genesis block and hashes that follow `parent`. -/
structure Place (parent : Hash → Option Hash) where
  chain : List Hash
  state : SystemState Hash
  genesisHash : Hash
  genesis_eq : chain[0]? = some genesisHash
  linked : Linked parent chain
  at_chain : state.At blockHashCount chain

theorem Place.stored {parent : Hash → Option Hash} (place : Place parent) {birth period : ℕ}
    (hkept : period ≤ blockHashCount) (hborn : birth < place.state.blockNumber)
    (hbefore : place.state.blockNumber < birth + period) :
    (place.state.blockHash birth).isSome := by
  rw [place.at_chain.blockNumber_eq] at hborn hbefore
  have hhash : place.chain[birth]? = some place.chain[birth] := List.getElem?_eq_getElem hborn
  have hrecent : place.chain.length ≤ birth + blockHashCount :=
    le_trans hbefore.le (Nat.add_le_add_left hkept _)
  exact Option.isSome_of_eq_some (place.at_chain.recent _ _ hrecent hhash)

section Era

variable {sdk : TransactionSdk Hash MetadataHash} (hsdk : sdk.Laws)
include hsdk

theorem checkEra_ok_iff {st : SystemState Hash} {era : Era} {h : Hash} :
    sdk.checkEra ⟨era⟩ st = .ok h ↔ st.blockHash (sdk.birth era st.blockNumber) = some h := by
  rw [hsdk.checkEra_eq]
  cases st.blockHash (sdk.birth era st.blockNumber) with
  | none => simp
  | some h' => simp

theorem checkEra_ok {count : ℕ} {st : SystemState Hash} {chain : List Hash}
    (hst : st.At count chain) {era : Era} {h : Hash} (hcheck : sdk.checkEra ⟨era⟩ st = .ok h) :
    chain[sdk.birth era st.blockNumber]? = some h :=
  hst.sound _ _ ((checkEra_ok_iff hsdk).mp hcheck)

theorem birth_eq_of_mem {period phase m n : ℕ} (hperiod : 0 < period)
    (hlo : sdk.birth (.mortal period phase) m ≤ n)
    (hhi : n < sdk.birth (.mortal period phase) m + period) :
    sdk.birth (.mortal period phase) n = sdk.birth (.mortal period phase) m := by
  have hstart : ∀ k, sdk.birth (.mortal period phase) k = PhaseGrid.start period phase k :=
    fun k => hsdk.birth_eq period phase k
  rw [hstart] at hlo hhi ⊢
  rw [hstart]
  exact PhaseGrid.start_congr hperiod hlo hhi

theorem lt_birth_add {period : ℕ} (hperiod : 0 < period) (phase n : ℕ) :
    n < sdk.birth (.mortal period phase) n + period := by
  rw [hsdk.birth_eq]
  exact PhaseGrid.lt_start_add hperiod n

/-- With the metadata hash off a payload's implicit data is the versions and the
hashes of two blocks of the chain. -/
theorem txImplicit_ok_iff {count : ℕ} {st : SystemState Hash} {chain : List Hash}
    (hst : st.At count chain) {genesisHash : Hash} (hgenesis : chain[0]? = some genesisHash)
    {x : TxExtension} (hmetadata : extensionMetadata x = false)
    {implicit : TxImplicit Hash MetadataHash} :
    txImplicit sdk x st = .ok implicit ↔
      ∃ birthHash, sdk.checkEra ⟨extensionEra x⟩ st = .ok birthHash ∧
        implicit = ((), (), st.runtimeVersion.specVersion, st.runtimeVersion.transactionVersion,
          genesisHash, birthHash, (), (), (), none, ()) := by
  obtain ⟨a, s, v, t, g, ⟨era⟩, n, w, p, ⟨enabled⟩, r⟩ := x
  rw [txImplicit_eq hsdk hmetadata (hst.genesis _ hgenesis)]
  show Except.map _ (sdk.checkEra ⟨era⟩ st) = _ ↔ ∃ _, sdk.checkEra ⟨era⟩ st = _ ∧ _
  cases sdk.checkEra ⟨era⟩ st with
  | error e => simp [Except.map]
  | ok h =>
      constructor
      · intro himplicit
        exact ⟨h, rfl, (Except.ok.inj himplicit).symm⟩
      · rintro ⟨h', hh', rfl⟩
        rw [Except.ok.inj hh']
        rfl

end Era

theorem runtimeVersion_eq {v w : RuntimeVersion} (hspec : v.specVersion = w.specVersion)
    (htx : v.transactionVersion = w.transactionVersion) : v = w := by
  rcases v with ⟨spec, tx⟩
  obtain rfl : spec = w.specVersion := hspec
  obtain rfl : tx = w.transactionVersion := htx
  rfl

/-- **A mortal transaction verifies on one fork, for one period.** Where it
verifies once, its birth block precedes; it verifies elsewhere exactly with the
same versions, on a chain that agrees up to the birth block, before the period
has ended, as long as the hash of the birth block is stored, which it is through
periods of no more blocks than hashes are kept. -/
theorem payload_verifies_iff (sdk : TransactionSdk Hash MetadataHash) (hsdk : sdk.Laws)
    (parent : Hash → Option Hash) (here there : Place parent) (x : TxExtension)
    (hmetadata : extensionMetadata x = false) (period phase : ℕ)
    (hera : extensionEra x = .mortal period phase) (hperiod : 0 < period)
    (implicit : TxImplicit Hash MetadataHash)
    (hhere : txImplicit sdk x here.state = .ok implicit) :
    birthBlock sdk x here.state < here.state.blockNumber ∧
      (txImplicit sdk x there.state = .ok implicit ↔
        there.state.runtimeVersion = here.state.runtimeVersion ∧
          there.chain.take (birthBlock sdk x here.state + 1) =
            here.chain.take (birthBlock sdk x here.state + 1) ∧
          birthBlock sdk x here.state < there.state.blockNumber ∧
          there.state.blockNumber < birthBlock sdk x here.state + period ∧
          (there.state.blockHash (birthBlock sdk x here.state)).isSome) ∧
      (period ≤ blockHashCount → birthBlock sdk x here.state < there.state.blockNumber →
        there.state.blockNumber < birthBlock sdk x here.state + period →
        (there.state.blockHash (birthBlock sdk x here.state)).isSome) := by
  obtain ⟨birthHash, hcheck, himplicit⟩ :=
    (txImplicit_ok_iff hsdk here.at_chain here.genesis_eq hmetadata).mp hhere
  have hbirth := checkEra_ok hsdk here.at_chain hcheck
  obtain ⟨hborn, -⟩ := List.getElem?_eq_some_iff.mp hbirth
  rw [← here.at_chain.blockNumber_eq] at hborn
  refine ⟨hborn, ?_, fun hkept hborn' hbefore => there.stored hkept hborn' hbefore⟩
  rw [txImplicit_ok_iff hsdk there.at_chain there.genesis_eq hmetadata]
  unfold birthBlock
  rw [hera] at hcheck hbirth hborn ⊢
  constructor
  · rintro ⟨birthHash', hcheck', himplicit'⟩
    rw [himplicit] at himplicit'
    simp only [Prod.mk.injEq] at himplicit'
    rcases himplicit' with ⟨-, -, hspec, htx, -, rfl, -⟩
    -- one hash at both births, so the forks agree up to it
    have hbirth' := checkEra_ok hsdk there.at_chain hcheck'
    obtain ⟨hposition, hagree⟩ := here.linked.agree there.linked hbirth hbirth'
    obtain ⟨hborn', -⟩ := List.getElem?_eq_some_iff.mp hbirth'
    have hbefore := lt_birth_add hsdk hperiod phase there.state.blockNumber
    have hstored := (checkEra_ok_iff hsdk).mp hcheck'
    rw [← there.at_chain.blockNumber_eq, ← hposition] at hborn'
    rw [← hposition] at hbefore hstored
    exact ⟨runtimeVersion_eq hspec.symm htx.symm, hagree.symm, hborn', hbefore,
      Option.isSome_of_eq_some hstored⟩
  · rintro ⟨hversion, hagree, hborn', hbefore, hstored⟩
    have hsame : ∀ i, i < sdk.birth (.mortal period phase) here.state.blockNumber + 1 →
        there.chain[i]? = here.chain[i]? := by
      intro i hi
      rw [← List.getElem?_take_of_lt hi, hagree, List.getElem?_take_of_lt hi]
    have hgenesis : there.genesisHash = here.genesisHash := by
      have hzero := hsame 0 (Nat.succ_pos _)
      rw [there.genesis_eq, here.genesis_eq] at hzero
      exact Option.some.inj hzero
    -- what is stored for the birth block is its hash
    obtain ⟨h, hh⟩ := Option.isSome_iff_exists.mp hstored
    have hbirthHash : h = birthHash := by
      have hat := there.at_chain.sound _ _ hh
      rw [hsame _ (Nat.lt_succ_self _), hbirth] at hat
      exact (Option.some.inj hat).symm
    refine ⟨birthHash, ?_, ?_⟩
    · rw [checkEra_ok_iff hsdk, birth_eq_of_mem hsdk hperiod hborn'.le hbefore, hh, hbirthHash]
    · rw [himplicit, hversion, hgenesis]

/-- The block after `0, 1, …, n`, every block's hash being its number. -/
def countingPlace (n : ℕ) : Place fun hash : ℕ => if hash = 0 then none else some (hash - 1) where
  chain := List.range (n + 1)
  state := ⟨n + 1, fun m => (List.range (n + 1))[m]?, version⟩
  genesisHash := 0
  genesis_eq := by simp
  linked := by
    intro i hash hhash
    obtain ⟨hlt, rfl⟩ := List.getElem?_eq_some_iff.mp hhash
    rw [List.getElem_range]
    cases i with
    | zero => rfl
    | succ i =>
        rw [List.length_range] at hlt
        show some i = (List.range (n + 1))[i]?
        rw [List.getElem?_range (Nat.lt_of_succ_lt hlt)]
  at_chain := ⟨List.length_range.symm, fun _ _ _ h => h, fun _ h => h, fun _ _ h => h⟩

/-- Signed after block 2 with a period of four blocks from there on, the payload
verifies after block 4. -/
theorem payload_verifies_iff_two_blocks_later :
    txImplicit (TransactionSdk.documented ℕ Unit)
        (⟨⟩, ⟨⟩, ⟨⟩, ⟨⟩, ⟨⟩, ⟨.mortal 4 2⟩, ⟨0⟩, ⟨⟩, ⟨0⟩, ⟨false⟩, ⟨⟩) (countingPlace 4).state =
      .ok ((), (), 100, 1, 0, 2, (), (), (), none, ()) :=
  (payload_verifies_iff (TransactionSdk.documented ℕ Unit)
    (TransactionSdk.documented_laws ℕ Unit) _ (countingPlace 2) (countingPlace 4)
    (⟨⟩, ⟨⟩, ⟨⟩, ⟨⟩, ⟨⟩, ⟨.mortal 4 2⟩, ⟨0⟩, ⟨⟩, ⟨0⟩, ⟨false⟩, ⟨⟩) rfl 4 2 rfl (by decide) _
    rfl).2.1.mpr ⟨rfl, by decide, by decide, by decide, rfl⟩

end SolochainTemplate.Runtime

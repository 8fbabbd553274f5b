import SolochainTemplate.Framework.Runs
import SolochainTemplate.Sdk.Genesis

/-!
# Genesis presets

`runtime/src/genesis_config_presets.rs` and the genesis API of
`runtime/src/apis.rs`. A preset is a JSON patch; the chain's first state comes
from merging it into the default configuration and letting the pallets build.
-/

namespace SolochainTemplate.Runtime

open SolochainTemplate.Sdk
open Framework (ok_bind mapError_ok)

/-- `MILLI_UNIT`. -/
def milliUnit : ℕ := 1000000000

/-- `EXISTENTIAL_DEPOSIT`. -/
def existentialDeposit : ℕ := milliUnit

/-- `MaxAuthorities` of `impl pallet_aura::Config`. -/
def auraMaxAuthorities : ℕ := 32

/-- `MaxAuthorities` of `impl pallet_grandpa::Config`. -/
def grandpaMaxAuthorities : ℕ := 32

variable {Keyring AccountId AuraId GrandpaId Value Bytes : Type}

/-- What the presets decide of the first state. -/
structure GenesisState (AccountId AuraId GrandpaId : Type) where
  balances : BalancesState AccountId
  auraAuthorities : List AuraId
  grandpaAuthorities : List (GrandpaId × ℕ)
  sudoKey : Option AccountId

inductive GenesisError where
  | presetNotAvailable (name : String)
  | invalidJson (error : String)
  | panicked
deriving DecidableEq, Repr

/-! ## The presets -/

section Presets

variable (sdk : GenesisSdk AccountId AuraId GrandpaId Value Bytes)
  (keys : Keyrings Keyring AccountId AuraId GrandpaId)

def testnetGenesis (initialAuthorities : List (AuraId × GrandpaId))
    (endowedAccounts : List AccountId) (root : AccountId) : Value :=
  sdk.buildStructJsonPatch
    { balances := endowedAccounts.map fun k => (k, 2 ^ 60)
      aura := initialAuthorities.map fun x => x.1
      grandpa := initialAuthorities.map fun x => (x.2, 1)
      sudoKey := some root }

def developmentConfigGenesis : Value :=
  testnetGenesis sdk [(keys.sr25519Public keys.alice, keys.ed25519Public keys.alice)]
    [keys.toAccountId keys.alice, keys.toAccountId keys.bob, keys.toAccountId keys.aliceStash,
      keys.toAccountId keys.bobStash]
    (keys.toAccountId keys.alice)

def localConfigGenesis [DecidableEq Keyring] : Value :=
  testnetGenesis sdk
    [(keys.sr25519Public keys.alice, keys.ed25519Public keys.alice),
      (keys.sr25519Public keys.bob, keys.ed25519Public keys.bob)]
    ((keys.iter.filter fun v => v != keys.one && v != keys.two).map keys.toAccountId)
    (keys.toAccountId keys.alice)

def getPreset [DecidableEq Keyring] (id : String) : Option Bytes :=
  if id = sdk.devRuntimePreset then some (sdk.jsonString (developmentConfigGenesis sdk keys))
  else if id = sdk.localTestnetRuntimePreset then
    some (sdk.jsonString (localConfigGenesis sdk keys))
  else none

def presetNames : List String := [sdk.devRuntimePreset, sdk.localTestnetRuntimePreset]

/-! ## The genesis API -/

/-- `GenesisBuilder::get_preset`: without a name, the default configuration. -/
def apiGetPreset [DecidableEq Keyring] : Option String → Option Bytes
  | none => some sdk.defaultConfig
  | some id => getPreset sdk keys id

/-- The pallets build, in the order of the runtime. -/
def buildGenesis (config : RuntimeGenesisConfig AccountId AuraId GrandpaId) :
    Option (GenesisState AccountId AuraId GrandpaId) := do
  let auraAuthorities ← sdk.auraBuild auraMaxAuthorities config.aura
  let grandpaAuthorities ← sdk.grandpaBuild grandpaMaxAuthorities config.grandpa
  let balances ← sdk.balancesBuild existentialDeposit config.balances
  return ⟨balances, auraAuthorities, grandpaAuthorities, config.sudoKey⟩

/-- `GenesisBuilder::build_state`. -/
def buildState (config : Bytes) : Except GenesisError (GenesisState AccountId AuraId GrandpaId) :=
  do
    let config ← (sdk.fromSlice config).mapError .invalidJson
    match buildGenesis sdk config with
    | none => throw .panicked
    | some st => return st

/-- What a node does with a named preset: it merges the runtime's patch into the
runtime's default and has the runtime build the result. -/
def buildPreset [DecidableEq Keyring] (name : String) :
    Except GenesisError (GenesisState AccountId AuraId GrandpaId) :=
  match apiGetPreset sdk keys (some name), apiGetPreset sdk keys none with
  | some patch, some default => buildState sdk (sdk.mergePatch default patch)
  | _, _ => throw (.presetNotAvailable name)

end Presets

/-! ## What a configuration builds -/

/-- What `testnetGenesis` asks for. -/
def testnetState [DecidableEq AccountId] (initialAuthorities : List (AuraId × GrandpaId))
    (endowedAccounts : List AccountId) (root : AccountId) :
    GenesisState AccountId AuraId GrandpaId where
  balances := ⟨fun who => if who ∈ endowedAccounts then 2 ^ 60 else 0,
    endowedAccounts.length * 2 ^ 60⟩
  auraAuthorities := initialAuthorities.map fun x => x.1
  grandpaAuthorities := initialAuthorities.map fun x => (x.2, 1)
  sudoKey := some root

theorem lookup_map_const [DecidableEq AccountId] (accounts : List AccountId) (balance : ℕ)
    (who : AccountId) :
    ((accounts.map fun k => (k, balance)).lookup who).getD 0 =
      if who ∈ accounts then balance else 0 := by
  induction accounts with
  | nil => rfl
  | cons k accounts ih =>
      rw [List.map_cons, List.lookup_cons]
      by_cases hk : who = k
      · simp [hk]
      · simp only [beq_eq_false_iff_ne.mpr hk, List.mem_cons, hk, false_or]
        exact ih

theorem sum_map_const (accounts : List AccountId) (balance : ℕ) :
    ((accounts.map fun k => (k, balance)).map Prod.snd).sum = accounts.length * balance := by
  rw [List.map_map, ← List.sum_replicate_nat, ← List.map_const']
  rfl

theorem balancesState_const [DecidableEq AccountId] (accounts : List AccountId) (balance : ℕ) :
    GenesisSdk.balancesState (accounts.map fun k => (k, balance)) =
      ⟨fun who => if who ∈ accounts then balance else 0, accounts.length * balance⟩ := by
  unfold GenesisSdk.balancesState
  rw [sum_map_const]
  congr 1
  ext who
  exact lookup_map_const accounts balance who

section Build

variable [DecidableEq AccountId] {sdk : GenesisSdk AccountId AuraId GrandpaId Value Bytes}
  (hsdk : sdk.Laws)
include hsdk

theorem buildGenesis_eq {config : RuntimeGenesisConfig AccountId AuraId GrandpaId}
    (hsum : (config.balances.map Prod.snd).sum < 2 ^ 128) :
    buildGenesis sdk config =
      if config.aura.length ≤ auraMaxAuthorities ∧
          config.grandpa.length ≤ grandpaMaxAuthorities ∧
          (∀ x ∈ config.balances, existentialDeposit ≤ x.2) ∧
          (config.balances.map Prod.fst).Nodup
      then some ⟨GenesisSdk.balancesState config.balances, config.aura, config.grandpa,
        config.sudoKey⟩
      else none := by
  unfold buildGenesis
  rw [hsdk.auraBuild_eq, hsdk.grandpaBuild_eq, hsdk.balancesBuild_eq _ _ hsum]
  by_cases haura : config.aura.length ≤ auraMaxAuthorities
  · by_cases hgrandpa : config.grandpa.length ≤ grandpaMaxAuthorities
    · by_cases hbalances : (∀ x ∈ config.balances, existentialDeposit ≤ x.2) ∧
        (config.balances.map Prod.fst).Nodup
      · rw [if_pos haura, if_pos hgrandpa, if_pos hbalances, if_pos ⟨haura, hgrandpa, hbalances⟩]
        rfl
      · simp only [haura, hgrandpa, true_and, hbalances, if_true, if_false]
        rfl
    · simp [haura, hgrandpa]
  · simp [haura]

theorem buildState_testnetGenesis (initialAuthorities : List (AuraId × GrandpaId))
    (endowedAccounts : List AccountId) (hlength : U64 endowedAccounts.length)
    (root : AccountId) :
    buildState sdk (sdk.mergePatch sdk.defaultConfig
        (sdk.jsonString (testnetGenesis sdk initialAuthorities endowedAccounts root))) =
      if endowedAccounts.Nodup ∧ initialAuthorities.length ≤ 32
      then .ok (testnetState initialAuthorities endowedAccounts root)
      else .error .panicked := by
  have hsum : ((endowedAccounts.map fun k => (k, 2 ^ 60)).map Prod.snd).sum < 2 ^ 128 := by
    rw [sum_map_const]
    unfold U64 at hlength
    omega
  have hdeposit : ∀ x ∈ endowedAccounts.map fun k => (k, 2 ^ 60), existentialDeposit ≤ x.2 := by
    intro x hx
    obtain ⟨k, -, rfl⟩ := List.mem_map.mp hx
    exact (by decide : existentialDeposit ≤ 2 ^ 60)
  have hkeys : (endowedAccounts.map fun k => (k, 2 ^ 60)).map Prod.fst = endowedAccounts := by
    rw [List.map_map]
    exact List.map_id _
  unfold buildState testnetGenesis
  rw [hsdk.fromSlice_patch, mapError_ok, ok_bind, buildGenesis_eq hsdk hsum]
  dsimp only
  rw [hkeys, balancesState_const, List.length_map, List.length_map]
  by_cases h : endowedAccounts.Nodup ∧ initialAuthorities.length ≤ 32
  · rw [if_pos ⟨h.2, h.2, hdeposit, h.1⟩, if_pos h]
    rfl
  · rw [if_neg fun h' => h ⟨h'.2.2.2, h'.1⟩, if_neg h]
    rfl

end Build

/-! ## The chain a preset starts -/

/-- A first state that a chain can run from: somebody authors, no author is listed
twice, there are as many voter entries, one vote each, the root can pay, and the
issuance is what the accounts hold, all of it above the existential deposit. -/
structure GenesisState.Healthy (st : GenesisState AccountId AuraId GrandpaId) : Prop where
  authors : 0 < st.auraAuthorities.length
  authors_nodup : st.auraAuthorities.Nodup
  voters : st.grandpaAuthorities.length = st.auraAuthorities.length
  votes : ∀ x ∈ st.grandpaAuthorities, x.2 = 1
  root : ∃ root, st.sudoKey = some root ∧ existentialDeposit ≤ st.balances.free root
  deposits : ∀ who, st.balances.free who = 0 ∨ existentialDeposit ≤ st.balances.free who
  issuance : ∃ accounts : List AccountId, accounts.Nodup ∧
    (∀ who, who ∈ accounts ↔ 0 < st.balances.free who) ∧
    st.balances.totalIssuance = (accounts.map st.balances.free).sum

theorem testnetState_healthy [DecidableEq AccountId]
    {initialAuthorities : List (AuraId × GrandpaId)} {endowedAccounts : List AccountId}
    {root : AccountId} (hpos : 0 < initialAuthorities.length)
    (hauthorities : (initialAuthorities.map Prod.fst).Nodup)
    (hendowed : endowedAccounts.Nodup) (hroot : root ∈ endowedAccounts) :
    (testnetState initialAuthorities endowedAccounts root).Healthy := by
  have hfree : ∀ who, (testnetState initialAuthorities endowedAccounts root).balances.free who =
      if who ∈ endowedAccounts then 2 ^ 60 else 0 := fun _ => rfl
  refine ⟨?_, hauthorities, ?_, ?_, ⟨root, rfl, ?_⟩, ?_, endowedAccounts, hendowed, ?_, ?_⟩
  · rwa [testnetState, List.length_map]
  · simp [testnetState]
  · intro x hx
    obtain ⟨y, -, rfl⟩ := List.mem_map.mp hx
    rfl
  · rw [hfree, if_pos hroot]
    decide
  · intro who
    rw [hfree]
    by_cases hwho : who ∈ endowedAccounts
    · rw [if_pos hwho]
      exact Or.inr (by decide)
    · exact Or.inl (if_neg hwho)
  · intro who
    rw [hfree]
    by_cases hwho : who ∈ endowedAccounts
    · simp [hwho]
    · simp [hwho]
  · have hsum : endowedAccounts.map
        (testnetState initialAuthorities endowedAccounts root).balances.free =
          endowedAccounts.map fun _ => 2 ^ 60 := by
      apply List.map_congr_left
      intro who hwho
      rw [hfree, if_pos hwho]
    rw [hsum, List.map_const', List.sum_replicate_nat]
    rfl

section Presets

variable [DecidableEq Keyring] [DecidableEq AccountId]
  {sdk : GenesisSdk AccountId AuraId GrandpaId Value Bytes} (hsdk : sdk.Laws)
  {keys : Keyrings Keyring AccountId AuraId GrandpaId} (hkeys : keys.Laws)
include hsdk hkeys

omit [DecidableEq Keyring] in
/-- A preset of test keys, if no key is there twice, the root is endowed and
there are no more authors than the pallets store. -/
theorem buildState_keys (authors endowed : List Keyring) (root : Keyring)
    (hpos : 0 < authors.length) (hmany : authors.length ≤ 32) (hauthors : authors.Nodup)
    (hlength : U64 endowed.length) (hendowed : endowed.Nodup) (hroot : root ∈ endowed) :
    ∃ st, buildState sdk (sdk.mergePatch sdk.defaultConfig
        (sdk.jsonString (testnetGenesis sdk
          (authors.map fun v => (keys.sr25519Public v, keys.ed25519Public v))
          (endowed.map keys.toAccountId) (keys.toAccountId root)))) = .ok st ∧
      st.Healthy ∧ ∀ v ∈ endowed, st.balances.free (keys.toAccountId v) = 2 ^ 60 := by
  have haccounts : (endowed.map keys.toAccountId).Nodup :=
    hendowed.map hkeys.toAccountId_injective
  have hbuild := buildState_testnetGenesis hsdk
    (authors.map fun v => (keys.sr25519Public v, keys.ed25519Public v))
    (endowed.map keys.toAccountId) (by rwa [List.length_map])
    (keys.toAccountId root)
  rw [List.length_map, if_pos ⟨haccounts, hmany⟩] at hbuild
  refine ⟨_, hbuild, testnetState_healthy ?_ ?_ haccounts (List.mem_map_of_mem hroot), ?_⟩
  · rwa [List.length_map]
  · rw [List.map_map]
    exact hauthors.map hkeys.sr25519Public_injective
  · intro v hv
    exact if_pos (List.mem_map_of_mem hv)

omit hsdk hkeys [DecidableEq AccountId] in
theorem getPreset_dev : getPreset sdk keys sdk.devRuntimePreset =
    some (sdk.jsonString (developmentConfigGenesis sdk keys)) :=
  if_pos rfl

omit hkeys in
theorem getPreset_local : getPreset sdk keys sdk.localTestnetRuntimePreset =
    some (sdk.jsonString (localConfigGenesis sdk keys)) := by
  have hne : sdk.localTestnetRuntimePreset ≠ sdk.devRuntimePreset := by
    rw [hsdk.localTestnetRuntimePreset_eq, hsdk.devRuntimePreset_eq]
    decide
  rw [getPreset, if_neg hne, if_pos rfl]

omit hsdk hkeys [DecidableEq AccountId] in
theorem buildPreset_of_getPreset {name : String} {patch : Bytes}
    (h : getPreset sdk keys name = some patch) :
    buildPreset sdk keys name = buildState sdk (sdk.mergePatch sdk.defaultConfig patch) := by
  have hpatch : apiGetPreset sdk keys (some name) = some patch := h
  unfold buildPreset
  rw [hpatch]
  rfl

/-- Whatever is listed as a preset builds a healthy state, in which Bob has an
account. -/
theorem buildPreset_healthy {name : String} (hname : name ∈ presetNames sdk) :
    ∃ st, buildPreset sdk keys name = .ok st ∧ st.Healthy ∧
      st.balances.free (keys.toAccountId keys.bob) = 2 ^ 60 := by
  have hnames := hkeys.names_nodup
  simp only [List.nodup_cons, List.mem_cons, List.not_mem_nil, or_false, not_or,
    not_false_eq_true, List.nodup_nil, and_true] at hnames
  obtain ⟨⟨hab, has, hat, hao, haw⟩, ⟨hbs, hbt, hbo, hbw⟩, ⟨hst, -, -⟩, -⟩ := hnames
  simp only [presetNames, List.mem_cons, List.not_mem_nil, or_false] at hname
  rcases hname with rfl | rfl
  · obtain ⟨st, hbuild, hhealthy, hfree⟩ := buildState_keys hsdk hkeys [keys.alice]
      [keys.alice, keys.bob, keys.aliceStash, keys.bobStash] keys.alice Nat.one_pos (by simp)
      (List.nodup_singleton _) (by simp [U64]) (by simp [hab, has, hat, hbs, hbt, hst])
      List.mem_cons_self
    exact ⟨st, (buildPreset_of_getPreset getPreset_dev).trans hbuild, hhealthy,
      hfree _ (by simp)⟩
  · obtain ⟨st, hbuild, hhealthy, hfree⟩ := buildState_keys hsdk hkeys [keys.alice, keys.bob]
      (keys.iter.filter fun v => v != keys.one && v != keys.two) keys.alice Nat.two_pos (by simp)
      (by simp [hab]) (lt_of_le_of_lt (List.length_filter_le _ _) hkeys.length_iter)
      (hkeys.iter_nodup.filter _) (by simp [hkeys.mem_iter, hao, haw])
    exact ⟨st, (buildPreset_of_getPreset (getPreset_local hsdk)).trans hbuild, hhealthy,
      hfree _ (by simp [hkeys.mem_iter, hbo, hbw])⟩

omit hsdk hkeys [DecidableEq AccountId] in
theorem buildPreset_of_not_mem {name : String} (hname : name ∉ presetNames sdk) :
    buildPreset sdk keys name = .error (.presetNotAvailable name) := by
  simp only [presetNames, List.mem_cons, List.not_mem_nil, or_false, not_or] at hname
  have hnone : apiGetPreset sdk keys (some name) = none := by
    show getPreset sdk keys name = none
    rw [getPreset, if_neg hname.1, if_neg hname.2]
  unfold buildPreset
  rw [hnone]
  rfl

end Presets

/-- **What `testnet_genesis` may be called with.** The pallets build the state
exactly if no account is endowed twice and there are at most 32 authorities; they
do not look at the rest, so the state is one that a chain can run from exactly if
there is an authority, none is listed twice and the root is endowed. -/
theorem testnet_genesis_builds_iff [DecidableEq AccountId]
    (sdk : GenesisSdk AccountId AuraId GrandpaId Value Bytes) (hsdk : sdk.Laws)
    (initialAuthorities : List (AuraId × GrandpaId)) (endowedAccounts : List AccountId)
    (hlength : U64 endowedAccounts.length) (root : AccountId) :
    ((∃ st, buildState sdk (sdk.mergePatch sdk.defaultConfig (sdk.jsonString
        (testnetGenesis sdk initialAuthorities endowedAccounts root))) = .ok st) ↔
      endowedAccounts.Nodup ∧ initialAuthorities.length ≤ 32) ∧
    ∀ st, buildState sdk (sdk.mergePatch sdk.defaultConfig (sdk.jsonString
        (testnetGenesis sdk initialAuthorities endowedAccounts root))) = .ok st →
      (st.Healthy ↔ 0 < initialAuthorities.length ∧
        (initialAuthorities.map Prod.fst).Nodup ∧ root ∈ endowedAccounts) := by
  rw [buildState_testnetGenesis hsdk initialAuthorities endowedAccounts hlength root]
  by_cases h : endowedAccounts.Nodup ∧ initialAuthorities.length ≤ 32
  · rw [if_pos h]
    refine ⟨⟨fun _ => h, fun _ => ⟨_, rfl⟩⟩, ?_⟩
    rintro _ ⟨⟩
    constructor
    · rintro ⟨hpos, hnodup, -, -, ⟨_, ⟨⟩, hdeposit⟩, -, -⟩
      refine ⟨by rwa [testnetState, List.length_map] at hpos, hnodup, ?_⟩
      by_contra hroot
      have hfree : (testnetState initialAuthorities endowedAccounts root).balances.free root = 0 :=
        if_neg hroot
      rw [hfree] at hdeposit
      exact absurd hdeposit (by decide)
    · rintro ⟨hpos, hnodup, hroot⟩
      exact testnetState_healthy hpos hnodup h.1 hroot
  · rw [if_neg h]
    refine ⟨⟨?_, fun h' => absurd h' h⟩, ?_⟩
    · rintro ⟨st, ⟨⟩⟩
    · rintro st ⟨⟩

/-- A root without an account. -/
theorem testnet_genesis_builds_iff_poor_root :
    ∃ st, buildState (GenesisSdk.documented ℕ ℕ ℕ)
        (testnetGenesis (GenesisSdk.documented ℕ ℕ ℕ) [(1, 1)] [7, 8] 9) = .ok st ∧
      ¬ st.Healthy := by
  have h := testnet_genesis_builds_iff (GenesisSdk.documented ℕ ℕ ℕ)
    (GenesisSdk.documented_laws ℕ ℕ ℕ) [(1, 1)] [7, 8] (by decide) 9
  obtain ⟨st, hst⟩ := h.1.mpr (by decide)
  refine ⟨st, hst, ?_⟩
  rw [h.2 st hst]
  decide

/-- **The listed presets are those that build**, and what they build a chain can
run from. -/
theorem preset_builds_iff [DecidableEq Keyring] [DecidableEq AccountId]
    (sdk : GenesisSdk AccountId AuraId GrandpaId Value Bytes) (hsdk : sdk.Laws)
    (keys : Keyrings Keyring AccountId AuraId GrandpaId) (hkeys : keys.Laws) (name : String) :
    (name ∈ presetNames sdk ↔ ∃ st, buildPreset sdk keys name = .ok st) ∧
      ∀ st, buildPreset sdk keys name = .ok st → st.Healthy := by
  by_cases hname : name ∈ presetNames sdk
  · obtain ⟨st, hbuild, hhealthy, -⟩ := buildPreset_healthy hsdk hkeys hname
    refine ⟨⟨fun _ => ⟨st, hbuild⟩, fun _ => hname⟩, ?_⟩
    intro st' hbuild'
    rw [hbuild] at hbuild'
    exact Except.ok.inj hbuild' ▸ hhealthy
  · rw [buildPreset_of_not_mem hname]
    refine ⟨⟨fun h => absurd h hname, ?_⟩, ?_⟩
    · rintro ⟨st, ⟨⟩⟩
    · rintro st ⟨⟩

theorem preset_builds_iff_development :
    ∃ st, buildPreset (GenesisSdk.documented (Fin 14) (Fin 14) (Fin 14)) Keyrings.numbered
      "development" = .ok st :=
  (preset_builds_iff (GenesisSdk.documented (Fin 14) (Fin 14) (Fin 14))
    (GenesisSdk.documented_laws (Fin 14) (Fin 14) (Fin 14)) Keyrings.numbered
    Keyrings.numbered_laws "development").1.mp (by decide)

end SolochainTemplate.Runtime

import Mathlib.Algebra.Ring.Nat
import Mathlib.Data.List.FinRange
import Mathlib.Data.List.Nodup
import SolochainTemplate.Sdk.Consensus

/-!
# Test keys and genesis building

`sp_keyring`, `sp_genesis_builder` and the genesis builds of the pallets that the
presets configure. They are the SDK's, so parameters here: `Keyrings` for the
keys, `GenesisSdk` for what turns a configuration into the first state. JSON is
whatever `serde_json` writes; only its round trip is used.
-/

namespace SolochainTemplate.Sdk

/-! ## Test keys -/

/-- `sp_keyring`, with the keys that the presets name. `Sr25519Keyring` and
`Ed25519Keyring` list the same names. -/
structure Keyrings (Keyring AccountId AuraId GrandpaId : Type) where
  alice : Keyring
  bob : Keyring
  aliceStash : Keyring
  bobStash : Keyring
  one : Keyring
  two : Keyring
  iter : List Keyring
  toAccountId : Keyring → AccountId
  sr25519Public : Keyring → AuraId
  ed25519Public : Keyring → GrandpaId

variable {Keyring AccountId AuraId GrandpaId Value Bytes : Type}

/-- `iter` lists every key once, in a vector of a 64-bit machine, and different
keys have different accounts and authorities. -/
structure Keyrings.Laws (keys : Keyrings Keyring AccountId AuraId GrandpaId) : Prop where
  iter_nodup : keys.iter.Nodup
  mem_iter : ∀ v, v ∈ keys.iter
  length_iter : U64 keys.iter.length
  names_nodup :
    [keys.alice, keys.bob, keys.aliceStash, keys.bobStash, keys.one, keys.two].Nodup
  toAccountId_injective : Function.Injective keys.toAccountId
  sr25519Public_injective : Function.Injective keys.sr25519Public

/-- Fourteen keys that are their own accounts and authorities, as a model of the
laws. -/
def Keyrings.numbered : Keyrings (Fin 14) (Fin 14) (Fin 14) (Fin 14) where
  alice := 0
  bob := 1
  aliceStash := 6
  bobStash := 7
  one := 12
  two := 13
  iter := List.finRange 14
  toAccountId := id
  sr25519Public := id
  ed25519Public := id

theorem Keyrings.numbered_laws : Keyrings.numbered.Laws where
  iter_nodup := List.nodup_finRange 14
  mem_iter := List.mem_finRange
  length_iter := by decide
  names_nodup := by decide
  toAccountId_injective := Function.injective_id
  sr25519Public_injective := Function.injective_id

/-! ## Genesis building -/

/-- The fields of `RuntimeGenesisConfig` that the presets set. -/
structure RuntimeGenesisConfig (AccountId AuraId GrandpaId : Type) where
  balances : List (AccountId × ℕ)
  aura : List AuraId
  grandpa : List (GrandpaId × ℕ)
  sudoKey : Option AccountId
deriving DecidableEq, Repr

/-- What `pallet_balances` stores. -/
structure BalancesState (AccountId : Type) where
  free : AccountId → ℕ
  totalIssuance : ℕ

/-- The SDK functions. A failed assertion of a pallet is `none`. -/
structure GenesisSdk (AccountId AuraId GrandpaId Value Bytes : Type) where
  /-- `sp_genesis_builder`: the names of the presets. -/
  devRuntimePreset : String
  localTestnetRuntimePreset : String
  /-- `build_struct_json_patch!`. -/
  buildStructJsonPatch : RuntimeGenesisConfig AccountId AuraId GrandpaId → Value
  /-- `serde_json::to_string`. -/
  jsonString : Value → Bytes
  /-- `RuntimeGenesisConfig::default` as JSON. -/
  defaultConfig : Bytes
  /-- `sc_chain_spec`: a patch merged into a configuration. -/
  mergePatch : (config patch : Bytes) → Bytes
  /-- `serde_json::from_slice`. -/
  fromSlice : Bytes → Except String (RuntimeGenesisConfig AccountId AuraId GrandpaId)
  /-- `pallet_balances`, `build`. -/
  balancesBuild :
    (existentialDeposit : ℕ) → List (AccountId × ℕ) → Option (BalancesState AccountId)
  /-- `pallet_aura`, `build`: the stored authorities. -/
  auraBuild : (maxAuthorities : ℕ) → List AuraId → Option (List AuraId)
  /-- `pallet_grandpa`, `build`: the stored authorities, with their weights. -/
  grandpaBuild : (maxAuthorities : ℕ) → List (GrandpaId × ℕ) → Option (List (GrandpaId × ℕ))

namespace GenesisSdk

variable [DecidableEq AccountId]

/-- The balances of a list without duplicates. -/
def balancesState (balances : List (AccountId × ℕ)) : BalancesState AccountId where
  free who := (balances.lookup who).getD 0
  totalIssuance := (balances.map Prod.snd).sum

/-- What the SDK documents. -/
structure Laws (sdk : GenesisSdk AccountId AuraId GrandpaId Value Bytes) : Prop where
  devRuntimePreset_eq : sdk.devRuntimePreset = "development"
  localTestnetRuntimePreset_eq : sdk.localTestnetRuntimePreset = "local_testnet"
  /-- A patch overrides the fields it sets. -/
  fromSlice_patch : ∀ config, sdk.fromSlice (sdk.mergePatch sdk.defaultConfig
    (sdk.jsonString (sdk.buildStructJsonPatch config))) = .ok config
  /-- No account below the existential deposit, and none twice. -/
  balancesBuild_eq : ∀ existentialDeposit balances, (balances.map Prod.snd).sum < 2 ^ 128 →
    sdk.balancesBuild existentialDeposit balances =
      if (∀ x ∈ balances, existentialDeposit ≤ x.2) ∧ (balances.map Prod.fst).Nodup
      then some (balancesState balances) else none
  auraBuild_eq : ∀ maxAuthorities authorities, sdk.auraBuild maxAuthorities authorities =
    if authorities.length ≤ maxAuthorities then some authorities else none
  grandpaBuild_eq : ∀ maxAuthorities authorities, sdk.grandpaBuild maxAuthorities authorities =
    if authorities.length ≤ maxAuthorities then some authorities else none

/-- An SDK that behaves as documented, with configurations for JSON. -/
def documented (AccountId AuraId GrandpaId : Type) [DecidableEq AccountId] :
    GenesisSdk AccountId AuraId GrandpaId (RuntimeGenesisConfig AccountId AuraId GrandpaId)
      (RuntimeGenesisConfig AccountId AuraId GrandpaId) where
  devRuntimePreset := "development"
  localTestnetRuntimePreset := "local_testnet"
  buildStructJsonPatch config := config
  jsonString config := config
  defaultConfig := ⟨[], [], [], none⟩
  mergePatch _ patch := patch
  fromSlice config := .ok config
  balancesBuild existentialDeposit balances :=
    if (∀ x ∈ balances, existentialDeposit ≤ x.2) ∧ (balances.map Prod.fst).Nodup
    then some (balancesState balances) else none
  auraBuild maxAuthorities authorities :=
    if authorities.length ≤ maxAuthorities then some authorities else none
  grandpaBuild maxAuthorities authorities :=
    if authorities.length ≤ maxAuthorities then some authorities else none

theorem documented_laws (AccountId AuraId GrandpaId : Type) [DecidableEq AccountId] :
    (documented AccountId AuraId GrandpaId).Laws :=
  ⟨rfl, rfl, fun _ => rfl, fun _ _ _ => rfl, fun _ _ => rfl, fun _ _ => rfl⟩

end GenesisSdk

end SolochainTemplate.Sdk

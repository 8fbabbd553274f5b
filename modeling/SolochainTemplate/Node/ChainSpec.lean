import SolochainTemplate.Runtime.Genesis

/-!
# Chain specifications

`node/src/chain_spec.rs` and `load_spec` of `node/src/command.rs`: which chain the
`--chain` argument names, and the first state that the runtime builds for it.
-/

namespace SolochainTemplate.Node

open SolochainTemplate.Sdk
open SolochainTemplate.Runtime

variable {Keyring AccountId AuraId GrandpaId Value Bytes Wasm File : Type}

/-- `sc_service::ChainType`, as far as it is used. -/
inductive ChainType where
  | development
  | localChain
deriving DecidableEq, Repr

/-- What `ChainSpec::builder` is given. -/
structure ChainSpec (Wasm : Type) where
  code : Wasm
  name : String
  id : String
  chainType : ChainType
  genesisConfigPresetName : String
deriving DecidableEq, Repr

section Specs

variable (sdk : GenesisSdk AccountId AuraId GrandpaId Value Bytes) (wasmBinary : Option Wasm)

/-- `WASM_BINARY.ok_or_else(..)?`: the runtime may have been built without. -/
def wasmOrError : Except String Wasm :=
  match wasmBinary with
  | none => throw "Development wasm not available"
  | some code => return code

def developmentChainSpec : Except String (ChainSpec Wasm) := do
  let code ← wasmOrError wasmBinary
  return { code, name := "Development", id := "dev", chainType := .development,
           genesisConfigPresetName := sdk.devRuntimePreset }

def localChainSpec : Except String (ChainSpec Wasm) := do
  let code ← wasmOrError wasmBinary
  return { code, name := "Local Testnet", id := "local_testnet", chainType := .localChain,
           genesisConfigPresetName := sdk.localTestnetRuntimePreset }

/-- `load_spec`; anything else is the path of a file, read by `fromJsonFile`. -/
def loadSpec (fromJsonFile : String → Except String File) (id : String) :
    Except String (ChainSpec Wasm ⊕ File) :=
  if id = "dev" then (developmentChainSpec sdk wasmBinary).map .inl
  else if id = "" ∨ id = "local" then (localChainSpec sdk wasmBinary).map .inl
  else (fromJsonFile id).map .inr

end Specs

/-- The first state of a built-in chain. -/
def ChainSpec.buildStorage [DecidableEq Keyring]
    (sdk : GenesisSdk AccountId AuraId GrandpaId Value Bytes)
    (keys : Keyrings Keyring AccountId AuraId GrandpaId) (spec : ChainSpec Wasm) :
    Except GenesisError (GenesisState AccountId AuraId GrandpaId) :=
  buildPreset sdk keys spec.genesisConfigPresetName

/-- The names of the built-in chains; the empty one is the default. -/
def builtInIds : List String := ["dev", "", "local"]

theorem loadSpec_built_in (sdk : GenesisSdk AccountId AuraId GrandpaId Value Bytes) (code : Wasm)
    (fromJsonFile : String → Except String File) {id : String} (hid : id ∈ builtInIds) :
    ∃ spec : ChainSpec Wasm, loadSpec sdk (some code) fromJsonFile id = .ok (.inl spec) ∧
      spec.code = code ∧ spec.genesisConfigPresetName ∈ presetNames sdk := by
  simp only [builtInIds, List.mem_cons, List.not_mem_nil, or_false] at hid
  rcases hid with rfl | rfl | rfl
  · exact ⟨_, rfl, rfl, List.mem_cons_self⟩
  · exact ⟨_, rfl, rfl, List.mem_cons_of_mem _ List.mem_cons_self⟩
  · exact ⟨_, rfl, rfl, List.mem_cons_of_mem _ List.mem_cons_self⟩

theorem loadSpec_of_not_mem (sdk : GenesisSdk AccountId AuraId GrandpaId Value Bytes)
    (wasmBinary : Option Wasm) (fromJsonFile : String → Except String File) {id : String}
    (hid : id ∉ builtInIds) :
    loadSpec sdk wasmBinary fromJsonFile id = (fromJsonFile id).map .inr := by
  simp only [builtInIds, List.mem_cons, List.not_mem_nil, or_false, not_or] at hid
  rw [loadSpec, if_neg hid.1, if_neg (not_or.mpr hid.2)]

/-- **The built-in chains start.** With the runtime's code `load_spec` succeeds on
every built-in name, whatever files there are, and on no other without a file; the
specification it gives has a preset that the runtime knows, and that builds a
state in which somebody authors, the root can pay and so can Bob, who signs the
benchmarks' transactions. -/
theorem load_spec_starts [DecidableEq Keyring] [DecidableEq AccountId]
    (sdk : GenesisSdk AccountId AuraId GrandpaId Value Bytes) (hsdk : sdk.Laws)
    (keys : Keyrings Keyring AccountId AuraId GrandpaId) (hkeys : keys.Laws) (code : Wasm)
    (fromJsonFile : String → Except String File) (id : String) :
    (id ∈ builtInIds ↔ ∃ spec : ChainSpec Wasm,
      loadSpec sdk (some code) fromJsonFile id = .ok (.inl spec)) ∧
    ∀ spec : ChainSpec Wasm, loadSpec sdk (some code) fromJsonFile id = .ok (.inl spec) →
      spec.code = code ∧ ∃ st, spec.buildStorage sdk keys = .ok st ∧ st.Healthy ∧
        st.balances.free (keys.toAccountId keys.bob) = 2 ^ 60 := by
  by_cases hid : id ∈ builtInIds
  · obtain ⟨spec, hload, hcode, hpreset⟩ := loadSpec_built_in sdk code fromJsonFile hid
    refine ⟨⟨fun _ => ⟨spec, hload⟩, fun _ => hid⟩, ?_⟩
    intro spec' hload'
    obtain rfl : spec = spec' := by
      rw [hload] at hload'
      exact Sum.inl.inj (Except.ok.inj hload')
    exact ⟨hcode, buildPreset_healthy hsdk hkeys hpreset⟩
  · have hfile : ∀ spec : ChainSpec Wasm,
        loadSpec sdk (some code) fromJsonFile id ≠ .ok (.inl spec) := by
      intro spec
      rw [loadSpec_of_not_mem _ _ _ hid]
      cases fromJsonFile id with
      | error error => rintro ⟨⟩
      | ok file => rintro ⟨⟩
    refine ⟨⟨fun h => absurd h hid, ?_⟩, ?_⟩
    · rintro ⟨spec, hload⟩
      exact absurd hload (hfile spec)
    · intro spec hload
      exact absurd hload (hfile spec)

theorem load_spec_starts_local :
    ∃ st, (⟨0, "Local Testnet", "local_testnet", .localChain, "local_testnet"⟩ :
        ChainSpec ℕ).buildStorage
          (GenesisSdk.documented (Fin 14) (Fin 14) (Fin 14)) Keyrings.numbered = .ok st ∧
      st.Healthy ∧ st.balances.free 1 = 2 ^ 60 :=
  ((load_spec_starts (GenesisSdk.documented (Fin 14) (Fin 14) (Fin 14))
    (GenesisSdk.documented_laws (Fin 14) (Fin 14) (Fin 14)) Keyrings.numbered
    Keyrings.numbered_laws 0 (fun _ => (.error "no file" : Except String Unit)) "local").2 _
      rfl).2

end SolochainTemplate.Node

import Mathlib.Tactic.SplitIfs
import SolochainTemplate.Runtime.Blocks

/-!
# Authoring and importing blocks

`node/src/service.rs`. Two closures create the inherent data providers, one for
the author (`new_full`, `start_aura`) and one for the importer (`new_partial`,
`import_queue`). Each reads its own clock; the author takes the slot duration
it read at start-up, the importer asks the runtime at the parent block.
-/

namespace SolochainTemplate.Node

open SolochainTemplate.Sdk
open SolochainTemplate.Runtime
open Framework (ok_bind mapError_ok)

/-! ## The closures -/

/-- The pair `(slot, timestamp)` a closure returns. -/
structure InherentDataProviders where
  slot : ℕ
  timestamp : ℕ
deriving DecidableEq, Repr

/-- The inherent data of the pair, first provider first. -/
def InherentDataProviders.createInherentData (sdk : ConsensusSdk)
    (providers : InherentDataProviders) : Except InherentsError InherentData := do
  let data ← sdk.provideInherentData .auraslot providers.slot .new
  sdk.provideInherentData .timstap0 providers.timestamp data

variable {Hash ApiError : Type} (sdk : ConsensusSdk)

/-- `new_partial`: `create_inherent_data_providers` of the import queue.
`clock` is what `from_system_time` reads. -/
def importInherentDataProviders (client : FullClient Hash ApiError) (parentHash : Hash)
    (clock : ℕ) : Except ApiError InherentDataProviders := do
  let slotDuration ← client.slotDurationAt parentHash
  let timestamp := clock
  let slot := sdk.slotFromTimestamp timestamp slotDuration
  return ⟨slot, timestamp⟩

/-- `new_full`: `create_inherent_data_providers` of `start_aura`, with the slot
duration the closure captured. -/
def authorInherentDataProviders (slotDuration clock : ℕ) : InherentDataProviders :=
  let timestamp := clock
  let slot := sdk.slotFromTimestamp timestamp slotDuration
  ⟨slot, timestamp⟩

/-! ## The author -/

/-- `new_full`: the slot duration at start-up. -/
def startSlotDuration (client : FullClient Hash ApiError) : Except ApiError ℕ :=
  client.slotDurationAt client.chainInfo.bestHash

/-- A block authored from one clock reading: the providers' slot goes into the
digest and their data into the inherents. -/
def authorBlock (slotDuration : ℕ) (st : ChainState) (authorSlotDuration clock : ℕ) :
    Option (Block × ChainState) := do
  let providers := authorInherentDataProviders sdk authorSlotDuration clock
  let data ← (providers.createInherentData sdk).toOption
  buildBlock sdk slotDuration st [.auraPreRuntime providers.slot] data

/-! ## The importer -/

/-- Why an importer turns a block down. -/
inductive ImportError (ApiError : Type) where
  | api (error : ApiError)
  | preDigest (error : PreDigestError)
  | deferred
  | inherents (error : InherentsError)
  | inherent (error : InherentError)
  | panicked
deriving DecidableEq, Repr

/-- The clock readings of an import: the closure runs once for the header and
once for the inherents. -/
structure Readings where
  header : ℕ
  inherents : ℕ
deriving DecidableEq, Repr

/-- The slot check on the header. -/
def checkHeader (client : FullClient Hash ApiError) (parentHash : Hash) (clock : ℕ)
    (block : Block) : Except (ImportError ApiError) Unit := do
  let now ← (importInherentDataProviders sdk client parentHash clock).mapError .api
  let slot ← (sdk.findPreDigest block.digest).mapError .preDigest
  if sdk.headerDeferred now.slot slot then throw .deferred else return ()

/-- The check of the timestamp inherent on the parent's state. -/
def checkInherents (slotDuration : ℕ) (client : FullClient Hash ApiError) (parentHash : Hash)
    (parent : ChainState) (clock : ℕ) (block : Block) :
    Except (ImportError ApiError) Unit := do
  let providers ← (importInherentDataProviders sdk client parentHash clock).mapError .api
  let data ← (providers.createInherentData sdk).mapError .inherents
  (sdk.timestampCheckInherent (timestampConfig slotDuration) parent.now block.timestamp
    data).mapError .inherent

/-- Verifying a block and executing it on its parent's state. -/
def importVerified (slotDuration : ℕ) (client : FullClient Hash ApiError) (parentHash : Hash)
    (parent : ChainState) (clock : Readings) (block : Block) :
    Except (ImportError ApiError) ChainState := do
  checkHeader sdk client parentHash clock.header block
  checkInherents sdk slotDuration client parentHash parent clock.inherents block
  match executeBlock sdk slotDuration parent block with
  | none => throw .panicked
  | some st => return st

variable {sdk} {fits : ℕ → Prop}

theorem importVerified_ok {slotDuration : ℕ} {client : FullClient Hash ApiError}
    {parentHash : Hash} {parent st : ChainState} {clock : Readings} {block : Block}
    (hheader : checkHeader sdk client parentHash clock.header block = .ok ())
    (hinherents : checkInherents sdk slotDuration client parentHash parent clock.inherents
      block = .ok ())
    (hexecute : executeBlock sdk slotDuration parent block = some st) :
    importVerified sdk slotDuration client parentHash parent clock block = .ok st := by
  rw [importVerified, hheader, ok_bind, hinherents, ok_bind, hexecute]
  rfl

/-! ## The providers' data -/

theorem createInherentData_eq (hsdk : sdk.Laws fits) (providers : InherentDataProviders) :
    ∃ data, providers.createInherentData sdk = .ok data ∧
      data .timstap0 = some providers.timestamp ∧ data .auraslot = some providers.slot := by
  let slotData := Function.update InherentData.new .auraslot (some providers.slot)
  have haura : sdk.provideInherentData .auraslot providers.slot .new = .ok slotData :=
    hsdk.provideInherentData_eq _ _ _ rfl
  have htime := hsdk.provideInherentData_eq .timstap0 providers.timestamp slotData
    (by simp [slotData, InherentData.new])
  refine ⟨Function.update slotData .timstap0 (some providers.timestamp), ?_, ?_, ?_⟩
  · rw [InherentDataProviders.createInherentData, haura, ok_bind]
    exact htime
  · simp
  · simp [slotData]

theorem importInherentDataProviders_eq (hsdk : sdk.Laws fits)
    {client : FullClient Hash ApiError} {parentHash : Hash} {slotDuration : ℕ}
    (hclient : client.slotDurationAt parentHash = .ok slotDuration) (hpos : 0 < slotDuration)
    (clock : ℕ) :
    importInherentDataProviders sdk client parentHash clock =
      .ok ⟨clock / slotDuration, clock⟩ := by
  rw [importInherentDataProviders, hclient, ok_bind, ← hsdk.slotFromTimestamp_eq _ _ hpos]
  rfl

section Import

variable (hsdk : sdk.Laws fits) {client : FullClient Hash ApiError} {parentHash : Hash}
  {apiSlotDuration : ℕ} (hclient : client.slotDurationAt parentHash = .ok apiSlotDuration)
  (hpos : 0 < apiSlotDuration)
include hsdk hclient hpos

theorem checkHeader_eq {clock slot : ℕ} {block : Block}
    (hdigest : sdk.findPreDigest block.digest = .ok slot)
    (hfits : fits (clock / apiSlotDuration + 1)) :
    checkHeader sdk client parentHash clock block =
      if clock / apiSlotDuration + 1 < slot then .error .deferred else .ok () := by
  rw [checkHeader, importInherentDataProviders_eq hsdk hclient hpos, mapError_ok, ok_bind, hdigest,
    mapError_ok, ok_bind]
  simp only [hsdk.headerDeferred_eq _ _ hfits]
  by_cases h : clock / apiSlotDuration + 1 < slot
  · rw [if_pos h, decide_eq_true h]
    rfl
  · rw [if_neg h, decide_eq_false h]
    rfl

/-- The timestamp passes unless it is too far ahead of the importer's clock or
too close to the parent's. -/
theorem checkInherents_eq {slotDuration clock : ℕ} {parent : ChainState} {block : Block}
    (hperiod : fits (parent.now + slotDuration / 2))
    (hdrift : fits (clock + sdk.maxTimestampDriftMillis)) :
    checkInherents sdk slotDuration client parentHash parent clock block =
      if clock + sdk.maxTimestampDriftMillis < block.timestamp then
        .error (.inherent .tooFarInFuture)
      else if block.timestamp < parent.now + slotDuration / 2 then .error (.inherent .tooEarly)
      else .ok () := by
  obtain ⟨data, hdata, htime, -⟩ := createInherentData_eq hsdk ⟨clock / apiSlotDuration, clock⟩
  rw [checkInherents, importInherentDataProviders_eq hsdk hclient hpos, mapError_ok, ok_bind, hdata,
    mapError_ok, ok_bind, hsdk.timestampCheckInherent_eq _ _ _ _ _ htime hperiod hdrift,
    timestampConfig_minimumPeriod]
  split_ifs <;> rfl

/-- **What an importer checks**: the header's slot against its clock, the
timestamp against its clock and the parent's time, and the block against its
runtime. -/
theorem importVerified_ok_iff {slotDuration : ℕ} {clock : Readings} {parent st : ChainState}
    {block : Block} (hperiod : fits (parent.now + slotDuration / 2))
    (hnext : fits (clock.header / apiSlotDuration + 1))
    (hdrift : fits (clock.inherents + sdk.maxTimestampDriftMillis)) :
    importVerified sdk slotDuration client parentHash parent clock block = .ok st ↔
      ∃ slot, sdk.findPreDigest block.digest = .ok slot ∧
        slot ≤ clock.header / apiSlotDuration + 1 ∧
        block.timestamp ≤ clock.inherents + sdk.maxTimestampDriftMillis ∧
        parent.now + slotDuration / 2 ≤ block.timestamp ∧
        executeBlock sdk slotDuration parent block = some st := by
  have hinherents : checkInherents sdk slotDuration client parentHash parent clock.inherents
      block = _ := checkInherents_eq hsdk hclient hpos hperiod hdrift
  constructor
  · intro h
    cases hdigest : sdk.findPreDigest block.digest with
    | error error =>
        rw [importVerified, checkHeader, importInherentDataProviders_eq hsdk hclient hpos,
          mapError_ok, ok_bind, hdigest] at h
        cases h
    | ok slot =>
        have hheader := checkHeader_eq hsdk hclient hpos hdigest hnext
        by_cases hslot : clock.header / apiSlotDuration + 1 < slot
        · rw [importVerified, hheader, if_pos hslot] at h
          cases h
        rw [if_neg hslot] at hheader
        by_cases hfar : clock.inherents + sdk.maxTimestampDriftMillis < block.timestamp
        · rw [importVerified, hheader, ok_bind, hinherents, if_pos hfar] at h
          cases h
        by_cases hearly : block.timestamp < parent.now + slotDuration / 2
        · rw [importVerified, hheader, ok_bind, hinherents, if_neg hfar, if_pos hearly] at h
          cases h
        rw [if_neg hfar, if_neg hearly] at hinherents
        rw [importVerified, hheader, ok_bind, hinherents, ok_bind] at h
        refine ⟨slot, rfl, Nat.not_lt.mp hslot, Nat.not_lt.mp hfar, Nat.not_lt.mp hearly, ?_⟩
        cases hexecute : executeBlock sdk slotDuration parent block with
        | none => rw [hexecute] at h; cases h
        | some st' => rw [hexecute] at h; exact congrArg some (Except.ok.inj h)
  · rintro ⟨slot, hdigest, hslot, hfar, hearly, hexecute⟩
    have hheader := checkHeader_eq hsdk hclient hpos hdigest hnext
    rw [if_neg (Nat.not_lt.mpr hslot)] at hheader
    rw [if_neg (Nat.not_lt.mpr hfar), if_neg (Nat.not_lt.mpr hearly)] at hinherents
    exact importVerified_ok hheader hinherents hexecute

end Import

end SolochainTemplate.Node

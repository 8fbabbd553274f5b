import Mathlib.Algebra.Group.Nat.Defs
import Mathlib.Data.List.Basic
import Mathlib.Logic.Function.Basic
import Mathlib.Order.Defs.LinearOrder

/-!
# Aura, Timestamp and the client as the runtime and the node use them

The repository configures `pallet_aura` and `pallet_timestamp` and calls their
providers; the pallets themselves are the SDK's. They are a parameter
`ConsensusSdk` here, and `ConsensusSdk.Laws` states the behaviour the SDK
documents. The full client is the SDK's too: the node asks it for the chain's best
block, for block hashes, and, through the runtime API, for the slot duration at a
block (`FullClient`).

Timestamps are milliseconds in a machine word. The laws promise a sum only
where it fits: `Laws U64` is the SDK on `u64`, `Laws Unbounded` reads timestamps
as natural numbers.
-/

namespace SolochainTemplate.Sdk

/-! ## Data -/

/-- The key an inherent's datum is stored under. -/
inductive InherentIdentifier where
  | auraslot
  | timstap0
deriving DecidableEq, Repr

/-- `sp_inherents::InherentData`. -/
abbrev InherentData : Type := InherentIdentifier → Option ℕ

/-- `InherentData::new`. -/
def InherentData.new : InherentData := fun _ => none

/-- A digest item of a header: Aura's pre-runtime item with the slot, or one
that Aura does not read. -/
inductive DigestItem where
  | auraPreRuntime (slot : ℕ)
  | other
deriving DecidableEq, Repr

def DigestItem.auraSlot : DigestItem → Option ℕ
  | .auraPreRuntime slot => some slot
  | .other => none

/-- `sc_consensus_aura`: why a header has no slot. -/
inductive PreDigestError where
  | noDigestFound
  | multipleHeaders
deriving DecidableEq, Repr

/-- The part of `pallet_aura::Config` that its assertions read. -/
structure AuraConfig where
  allowMultipleBlocksPerSlot : Bool
  slotDuration : ℕ
deriving DecidableEq, Repr

/-- What `pallet_timestamp` calls when the timestamp is set. -/
inductive OnTimestampSet where
  | nothing
  | aura
deriving DecidableEq, Repr

/-- The part of `pallet_timestamp::Config` that is read. -/
structure TimestampConfig where
  minimumPeriod : ℕ
  onTimestampSet : OnTimestampSet
deriving DecidableEq, Repr

/-- `sp_timestamp::InherentError`. -/
inductive InherentError where
  | tooEarly
  | tooFarInFuture
deriving DecidableEq, Repr

/-- `sp_inherents::Error`: a datum is already there. -/
inductive InherentsError where
  | inherentDataExists (identifier : InherentIdentifier)
deriving DecidableEq, Repr

/-! ## The parameter -/

/-- The SDK functions. A failed assertion of a pallet is `none`. -/
structure ConsensusSdk where
  /-- `pallet_aura::MinimumPeriodTimesTwo`, on the minimum period. -/
  minimumPeriodTimesTwo : ℕ → ℕ
  /-- `pallet_aura`, `current_slot_from_digests`. -/
  currentSlotFromDigests : List DigestItem → Option ℕ
  /-- `pallet_aura`, `on_initialize`: the new `CurrentSlot`. -/
  auraOnInitialize : AuraConfig → List DigestItem → (currentSlot : ℕ) → Option ℕ
  /-- `pallet_aura`, `on_runtime_upgrade`: the `CurrentSlot` it leaves. -/
  auraOnRuntimeUpgrade : AuraConfig → (currentSlot now : ℕ) → ℕ
  /-- `pallet_aura`, `on_timestamp_set`. -/
  auraOnTimestampSet : AuraConfig → (currentSlot moment : ℕ) → Option Unit
  /-- `pallet_timestamp`, `create_inherent`: the argument of the `set` call. -/
  timestampCreateInherent : TimestampConfig → (now : ℕ) → InherentData → Option ℕ
  /-- `pallet_timestamp`, `set` without its hook: the new `Now`. -/
  timestampSet : TimestampConfig → (now moment : ℕ) → Option ℕ
  /-- `pallet_timestamp`, `check_inherent`. -/
  timestampCheckInherent :
    TimestampConfig → (now moment : ℕ) → InherentData → Except InherentError Unit
  /-- `sp_consensus_aura`, `from_timestamp_and_slot_duration`. -/
  slotFromTimestamp : (timestamp slotDuration : ℕ) → ℕ
  /-- `provide_inherent_data` of the provider for one identifier. -/
  provideInherentData :
    InherentIdentifier → (value : ℕ) → InherentData → Except InherentsError InherentData
  /-- The `Debug` text of an error of the inherent data. -/
  inherentsErrorDebug : InherentsError → String
  /-- `sp_timestamp`: how far ahead of the importer's clock a timestamp may be. -/
  maxTimestampDriftMillis : ℕ
  /-- `sc_consensus_aura`, `find_pre_digest`: the slot of a header. -/
  findPreDigest : List DigestItem → Except PreDigestError ℕ
  /-- `sc_consensus_aura`: is a header of this slot deferred? -/
  headerDeferred : (slotNow slot : ℕ) → Bool

/-- The sums a `u64` holds. -/
def U64 (n : ℕ) : Prop := n < 2 ^ 64

instance : DecidablePred U64 := fun n => inferInstanceAs (Decidable (n < 2 ^ 64))

/-- Timestamps as natural numbers: every sum is held. -/
def Unbounded (_ : ℕ) : Prop := True

namespace ConsensusSdk

/-- What the SDK documents, on sums that fit. Of `auraOnRuntimeUpgrade` nothing is
assumed. -/
structure Laws (sdk : ConsensusSdk) (fits : ℕ → Prop) : Prop where
  minimumPeriodTimesTwo_eq : ∀ period, fits (2 * period) →
    sdk.minimumPeriodTimesTwo period = 2 * period
  currentSlotFromDigests_eq : ∀ digest,
    sdk.currentSlotFromDigests digest = digest.findSome? DigestItem.auraSlot
  /-- Without a pre-digest the slot stays; with one it must grow. -/
  auraOnInitialize_eq : ∀ cfg digest currentSlot,
    sdk.auraOnInitialize cfg digest currentSlot =
      match sdk.currentSlotFromDigests digest with
      | none => some currentSlot
      | some slot =>
        if (if cfg.allowMultipleBlocksPerSlot then currentSlot ≤ slot else currentSlot < slot)
        then some slot else none
  auraOnTimestampSet_eq : ∀ cfg currentSlot moment, 0 < cfg.slotDuration →
    sdk.auraOnTimestampSet cfg currentSlot moment =
      if moment / cfg.slotDuration = currentSlot then some () else none
  timestampCreateInherent_eq : ∀ cfg now data d, data .timstap0 = some d →
    fits (now + cfg.minimumPeriod) →
    sdk.timestampCreateInherent cfg now data = some (max d (now + cfg.minimumPeriod))
  /-- Whatever the sum, only the moment itself is ever stored. -/
  timestampSet_moment : ∀ cfg now moment now',
    sdk.timestampSet cfg now moment = some now' → now' = moment
  timestampSet_eq : ∀ cfg now moment, fits (now + cfg.minimumPeriod) →
    sdk.timestampSet cfg now moment =
      if now = 0 ∨ now + cfg.minimumPeriod ≤ moment then some moment else none
  timestampCheckInherent_eq : ∀ cfg now moment data d, data .timstap0 = some d →
    fits (now + cfg.minimumPeriod) → fits (d + sdk.maxTimestampDriftMillis) →
    sdk.timestampCheckInherent cfg now moment data =
      if d + sdk.maxTimestampDriftMillis < moment then .error .tooFarInFuture
      else if moment < now + cfg.minimumPeriod then .error .tooEarly
      else .ok ()
  slotFromTimestamp_eq : ∀ timestamp slotDuration, 0 < slotDuration →
    sdk.slotFromTimestamp timestamp slotDuration = timestamp / slotDuration
  provideInherentData_eq : ∀ identifier value data, data identifier = none →
    sdk.provideInherentData identifier value data =
      .ok (Function.update data identifier (some value))
  maxTimestampDriftMillis_eq : sdk.maxTimestampDriftMillis = 30000
  /-- A header has exactly one pre-digest. -/
  findPreDigest_eq : ∀ digest, sdk.findPreDigest digest =
    match digest.filterMap DigestItem.auraSlot with
    | [] => .error .noDigestFound
    | [slot] => .ok slot
    | _ :: _ :: _ => .error .multipleHeaders
  /-- One slot of drift is tolerated. -/
  headerDeferred_eq : ∀ slotNow slot, fits (slotNow + 1) →
    sdk.headerDeferred slotNow slot = decide (slotNow + 1 < slot)

/-- Laws promised for more sums hold for fewer. -/
theorem Laws.mono {sdk : ConsensusSdk} {fits fits' : ℕ → Prop} (h : sdk.Laws fits)
    (hfits : ∀ n, fits' n → fits n) : sdk.Laws fits' where
  minimumPeriodTimesTwo_eq period hp := h.minimumPeriodTimesTwo_eq period (hfits _ hp)
  currentSlotFromDigests_eq := h.currentSlotFromDigests_eq
  auraOnInitialize_eq := h.auraOnInitialize_eq
  auraOnTimestampSet_eq := h.auraOnTimestampSet_eq
  timestampCreateInherent_eq cfg now data d hd hp :=
    h.timestampCreateInherent_eq cfg now data d hd (hfits _ hp)
  timestampSet_moment := h.timestampSet_moment
  timestampSet_eq cfg now moment hp := h.timestampSet_eq cfg now moment (hfits _ hp)
  timestampCheckInherent_eq cfg now moment data d hd hp hdrift :=
    h.timestampCheckInherent_eq cfg now moment data d hd (hfits _ hp) (hfits _ hdrift)
  slotFromTimestamp_eq := h.slotFromTimestamp_eq
  provideInherentData_eq := h.provideInherentData_eq
  maxTimestampDriftMillis_eq := h.maxTimestampDriftMillis_eq
  findPreDigest_eq := h.findPreDigest_eq
  headerDeferred_eq slotNow slot hs := h.headerDeferred_eq slotNow slot (hfits _ hs)

theorem Laws.currentSlot_of_findPreDigest {sdk : ConsensusSdk} {fits : ℕ → Prop}
    (h : sdk.Laws fits) {digest : List DigestItem} {slot : ℕ}
    (hfind : sdk.findPreDigest digest = .ok slot) :
    sdk.currentSlotFromDigests digest = some slot := by
  rw [h.findPreDigest_eq] at hfind
  rw [h.currentSlotFromDigests_eq, ← List.head?_filterMap]
  split at hfind
  · cases hfind
  · rename_i slot' hslots
    obtain rfl : slot' = slot := Except.ok.inj hfind
    rw [hslots]
    rfl
  · cases hfind

theorem Laws.currentSlot_auraPreRuntime {sdk : ConsensusSdk} {fits : ℕ → Prop}
    (h : sdk.Laws fits) (slot : ℕ) :
    sdk.currentSlotFromDigests [.auraPreRuntime slot] = some slot :=
  h.currentSlotFromDigests_eq _

theorem Laws.findPreDigest_auraPreRuntime {sdk : ConsensusSdk} {fits : ℕ → Prop}
    (h : sdk.Laws fits) (slot : ℕ) : sdk.findPreDigest [.auraPreRuntime slot] = .ok slot :=
  h.findPreDigest_eq _

/-! ## A model of the laws -/

/-- An SDK that behaves as documented on every sum, so that the laws have a
model. -/
def documented : ConsensusSdk where
  minimumPeriodTimesTwo period := 2 * period
  currentSlotFromDigests digest := digest.findSome? DigestItem.auraSlot
  auraOnInitialize cfg digest currentSlot :=
    match digest.findSome? DigestItem.auraSlot with
    | none => some currentSlot
    | some slot =>
      if (if cfg.allowMultipleBlocksPerSlot then currentSlot ≤ slot else currentSlot < slot)
      then some slot else none
  -- the slot of the stored time on the new grid
  auraOnRuntimeUpgrade cfg _ now := now / cfg.slotDuration
  auraOnTimestampSet cfg currentSlot moment :=
    if moment / cfg.slotDuration = currentSlot then some () else none
  timestampCreateInherent cfg now data :=
    (data .timstap0).map fun d => max d (now + cfg.minimumPeriod)
  timestampSet cfg now moment :=
    if now = 0 ∨ now + cfg.minimumPeriod ≤ moment then some moment else none
  timestampCheckInherent cfg now moment data :=
    match data .timstap0 with
    | none => .ok ()
    | some d =>
      if d + 30000 < moment then .error .tooFarInFuture
      else if moment < now + cfg.minimumPeriod then .error .tooEarly
      else .ok ()
  slotFromTimestamp timestamp slotDuration := timestamp / slotDuration
  provideInherentData identifier value data :=
    if (data identifier).isSome then .error (.inherentDataExists identifier)
    else .ok (Function.update data identifier (some value))
  inherentsErrorDebug
    | .inherentDataExists .auraslot => "InherentDataExists([97, 117, 114, 97, 115, 108, 111, 116])"
    | .inherentDataExists .timstap0 => "InherentDataExists([116, 105, 109, 115, 116, 97, 112, 48])"
  maxTimestampDriftMillis := 30000
  findPreDigest digest :=
    match digest.filterMap DigestItem.auraSlot with
    | [] => .error .noDigestFound
    | [slot] => .ok slot
    | _ :: _ :: _ => .error .multipleHeaders
  headerDeferred slotNow slot := decide (slotNow + 1 < slot)

theorem documented_laws : documented.Laws Unbounded where
  minimumPeriodTimesTwo_eq _ _ := rfl
  currentSlotFromDigests_eq _ := rfl
  auraOnInitialize_eq _ _ _ := rfl
  auraOnTimestampSet_eq _ _ _ _ := rfl
  timestampCreateInherent_eq cfg now data d hd _ := by simp [documented, hd]
  timestampSet_moment cfg now moment now' h := by
    simp only [documented] at h
    split at h
    · exact (Option.some.inj h).symm
    · cases h
  timestampSet_eq _ _ _ _ := rfl
  timestampCheckInherent_eq cfg now moment data d hd _ _ := by
    simp only [documented, hd]
    rfl
  slotFromTimestamp_eq _ _ _ := rfl
  provideInherentData_eq identifier value data h := by simp [documented, h]
  maxTimestampDriftMillis_eq := rfl
  findPreDigest_eq _ := rfl
  headerDeferred_eq _ _ _ := rfl

theorem documented_laws_u64 : documented.Laws U64 :=
  documented_laws.mono fun _ _ => trivial

end ConsensusSdk

/-! ## The client

A chain is the list of its block hashes, the genesis block's first. -/

structure ChainInfo (Hash : Type) where
  bestHash : Hash
  bestNumber : ℕ
deriving DecidableEq, Repr

structure FullClient (Hash Error : Type) where
  chainInfo : ChainInfo Hash
  blockHash : ℕ → Except Error (Option Hash)
  -- the runtime API `AuraApi::slot_duration` at a block
  slotDurationAt : Hash → Except Error ℕ

variable {Hash Error : Type}

/-- The client's best chain is `chain`. -/
structure FullClient.Follows (client : FullClient Hash Error) (chain : List Hash) : Prop where
  genesis : ∀ h, chain[0]? = some h → client.blockHash 0 = .ok (some h)
  bestNumber_eq : client.chainInfo.bestNumber + 1 = chain.length
  bestHash_eq : chain[client.chainInfo.bestNumber]? = some client.chainInfo.bestHash

/-- A client that follows a nonempty chain and reports one slot duration at
every block. -/
def FullClient.ofChain (genesisHash : Hash) (rest : List Hash) (slotDuration : ℕ) :
    FullClient Hash Error where
  chainInfo := ⟨(genesisHash :: rest).getLast (by simp), rest.length⟩
  blockHash n := .ok (genesisHash :: rest)[n]?
  slotDurationAt _ := .ok slotDuration

theorem FullClient.ofChain_follows (genesisHash : Hash) (rest : List Hash)
    (slotDuration : ℕ) :
    (FullClient.ofChain genesisHash rest slotDuration : FullClient Hash Error).Follows
      (genesisHash :: rest) where
  genesis h hh := congrArg Except.ok hh
  bestNumber_eq := rfl
  bestHash_eq := by
    rw [FullClient.ofChain, List.getLast_eq_getElem]
    exact List.getElem?_eq_getElem _

end SolochainTemplate.Sdk

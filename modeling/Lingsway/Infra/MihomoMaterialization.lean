import Lingsway.Infra.MihomoLoader
import Lingsway.Workers.TransportSync

/-!
# Materializations of the transport caches

A cache file is trusted for the receipt that its hash was committed with, until
the deadline of the receipt. What is loaded from it becomes a part of the desired
state of the forwarder.
-/
namespace Lingsway.Transport

open Library Forwarder

structure VerifiedMaterialization where
  ownerRecordId : ℕ
  providerCode : String
  sourceRevision : ℤ
  cacheIdentity : String
  contentHash : Digest
  freshnessDeadline : DateTime
  content : Bytes
  deriving Repr, DecidableEq

def verificationError {α : Type} (code : String) : Except Exn α :=
  .error ⟨.other "MaterializationVerificationError", code⟩

def trusted (ok : Bool) (code : String) : Except Exn Unit := if ok then .ok () else verificationError code

theorem trusted_ok {ok : Bool} {code : String} {a : Unit} (h : trusted ok code = .ok a) : ok = true := by
  unfold trusted at h
  split_ifs at h with hok
  · exact hok
  · cases h

/-- What the materializations are read from: the hash and the YAML reader of the library, how the column of an
instant yields it, the receipts, the files and the revisions of the secrets of subscription URLs. -/
structure Source where
  sha256 : Bytes → Digest
  safeLoad : Bytes → Except Exn Json
  column : Timestamp → DateTime
  short : String → String
  cacheRoot : String
  receipts : ℕ → Option Receipt
  files : String → Option Bytes
  revisions : String → Option ℤ
  kinds : ℕ → String

section Materialization

variable (src : Source) (now : Timestamp)

/-- `verify_materialization`. -/
def verifyMaterialization (ownerRecordId : ℕ) (path providerCode : String) (sourceRevision : ℤ) :
    Except Exn VerifiedMaterialization :=
  match src.receipts ownerRecordId with
  | none => verificationError "MIHOMO_MATERIALIZATION_RECEIPT_MISSING"
  | some receipt => do
    trusted (receipt.providerCode = providerCode && receipt.sourceRevision = sourceRevision &&
      receipt.cacheIdentity = path) "MIHOMO_MATERIALIZATION_IDENTITY_MISMATCH"
    match src.files path with
    | none => verificationError "MIHOMO_MATERIALIZATION_CACHE_MISSING"
    | some content => do
      trusted (src.sha256 content = receipt.contentHash) "MIHOMO_MATERIALIZATION_HASH_MISMATCH"
      let deadline := src.column receipt.freshnessDeadline
      trusted (now < deadline.instant) "MIHOMO_MATERIALIZATION_EXPIRED"
      .ok ⟨receipt.ownerRecordId, receipt.providerCode, receipt.sourceRevision, receipt.cacheIdentity,
        receipt.contentHash, deadline, content⟩

/-- `load_transport_materialization`. -/
def loadTransportMaterialization (verified : VerifiedMaterialization) : Except Exn TransportMaterialization :=
  match src.safeLoad verified.content with
  | .error e => if isYamlError e then verificationError "MIHOMO_MATERIALIZATION_YAML_INVALID" else .error e
  | .ok (.obj document) =>
    if (proxiesOf (.obj document)).isSome then
      .ok {
        ownerRecordId := verified.ownerRecordId
        providerCode := verified.providerCode
        sourceRevision := verified.sourceRevision
        cacheIdentity := verified.cacheIdentity
        contentHash := verified.contentHash
        freshnessDeadline := verified.freshnessDeadline
        content := document
        implementation := "subscription" }
    else verificationError "MIHOMO_MATERIALIZATION_CONTENT_INVALID"
  | .ok _ => verificationError "MIHOMO_MATERIALIZATION_CONTENT_INVALID"

/-- The descriptor of a provider that the loader has read. -/
def loadedDescriptor (provider : Entity Routing.TransportProviderRecord) : TransportProviderDescriptor :=
  descriptorOf provider.id ⟨provider.row.code, src.kinds provider.id, provider.row.secretRef⟩

/-- One provider of the loop in `load_current`. -/
def materialize (provider : Entity Routing.TransportProviderRecord) :
    Except Exn (TransportMaterialization × TransportMaterializationReference) :=
  match src.receipts provider.id with
  | none => Routing.loaderError "MIHOMO_MATERIALIZATION_RECEIPT_MISSING"
  | some receipt => do
    Routing.insist (src.revisions provider.row.secretRef = some receipt.sourceRevision)
      "MIHOMO_MATERIALIZATION_SOURCE_REVISION_MISMATCH"
    let path := cachePath src.short src.cacheRoot (loadedDescriptor src provider)
    let verified ← verifyMaterialization src now provider.id path provider.row.code receipt.sourceRevision
    let material ← loadTransportMaterialization src verified
    .ok (material, ⟨provider.id, provider.row.code, receipt.sourceRevision, receipt.cacheIdentity, "subscription"⟩)

variable {src now}

/-- What a verified materialization has been compared with. -/
theorem verifyMaterialization_ok {ownerRecordId : ℕ} {path providerCode : String} {sourceRevision : ℤ}
    {verified : VerifiedMaterialization}
    (h : verifyMaterialization src now ownerRecordId path providerCode sourceRevision = .ok verified) :
    ∃ receipt content, src.receipts ownerRecordId = some receipt ∧ src.files path = some content ∧
      receipt.providerCode = providerCode ∧ receipt.sourceRevision = sourceRevision ∧ receipt.cacheIdentity = path ∧
      src.sha256 content = receipt.contentHash ∧ now < (src.column receipt.freshnessDeadline).instant ∧
      verified = ⟨receipt.ownerRecordId, receipt.providerCode, receipt.sourceRevision, receipt.cacheIdentity,
        receipt.contentHash, src.column receipt.freshnessDeadline, content⟩ := by
  unfold verifyMaterialization at h
  cases hreceipt : src.receipts ownerRecordId with
  | none =>
    rw [hreceipt] at h
    cases h
  | some receipt =>
    rw [hreceipt] at h
    obtain ⟨_, hidentity, h⟩ := Reading.bind_ok h
    have hidentity := trusted_ok hidentity
    simp only [Bool.and_eq_true, decide_eq_true_eq] at hidentity
    obtain ⟨⟨hcode, hrevision⟩, hpath⟩ := hidentity
    cases hfile : src.files path with
    | none =>
      rw [hfile] at h
      cases h
    | some content =>
      rw [hfile] at h
      obtain ⟨_, hhash, h⟩ := Reading.bind_ok h
      obtain ⟨_, hfresh, h⟩ := Reading.bind_ok h
      exact ⟨receipt, content, rfl, rfl, hcode, hrevision, hpath, of_decide_eq_true (trusted_ok hhash),
        of_decide_eq_true (trusted_ok hfresh), (Except.ok.inj h).symm⟩

/-- What is loaded is what the bytes are read as, and keeps the proof. -/
theorem loadTransportMaterialization_ok {verified : VerifiedMaterialization} {material : TransportMaterialization}
    (h : loadTransportMaterialization src verified = .ok material) :
    src.safeLoad verified.content = .ok (.obj material.content) ∧ (proxiesOf (.obj material.content)).isSome = true ∧
      material = ⟨verified.ownerRecordId, verified.providerCode, verified.sourceRevision, verified.cacheIdentity,
        verified.contentHash, verified.freshnessDeadline, material.content, "subscription"⟩ := by
  unfold loadTransportMaterialization at h
  cases hload : src.safeLoad verified.content with
  | error e =>
    rw [hload] at h
    dsimp only at h
    split_ifs at h
    cases h
  | ok document =>
    rw [hload] at h
    cases document with
    | obj document =>
      dsimp only at h
      split_ifs at h with hproxies
      · obtain rfl := Except.ok.inj h
        exact ⟨rfl, hproxies, rfl⟩
      · cases h
    | _ => cases h

/-- What a provider's materialization rests on. -/
theorem materialize_ok {provider : Entity Routing.TransportProviderRecord}
    {material : TransportMaterialization} {reference : TransportMaterializationReference}
    (h : materialize src now provider = .ok (material, reference)) :
    ∃ receipt content, src.receipts provider.id = some receipt ∧
      src.files (cachePath src.short src.cacheRoot (loadedDescriptor src provider)) = some content ∧
      src.revisions provider.row.secretRef = some receipt.sourceRevision ∧
      receipt.providerCode = provider.row.code ∧
      receipt.cacheIdentity = cachePath src.short src.cacheRoot (loadedDescriptor src provider) ∧
      src.sha256 content = receipt.contentHash ∧ now < (src.column receipt.freshnessDeadline).instant ∧
      src.safeLoad content = .ok (.obj material.content) ∧ (proxiesOf (.obj material.content)).isSome = true ∧
      material = ⟨receipt.ownerRecordId, receipt.providerCode, receipt.sourceRevision, receipt.cacheIdentity,
        receipt.contentHash, src.column receipt.freshnessDeadline, material.content, "subscription"⟩ := by
  unfold materialize at h
  cases hreceipt : src.receipts provider.id with
  | none =>
    rw [hreceipt] at h
    cases h
  | some receipt =>
    rw [hreceipt] at h
    obtain ⟨_, hrevision, h⟩ := Reading.bind_ok h
    obtain ⟨verified, hverified, h⟩ := Reading.bind_ok h
    obtain ⟨_, hloaded, h⟩ := Reading.bind_ok h
    obtain ⟨rfl, -⟩ := Prod.mk.inj (Except.ok.inj h)
    obtain ⟨receipt', content, hreceipt', hfile, hcode, -, hpath, hhash, hfresh, rfl⟩ :=
      verifyMaterialization_ok hverified
    obtain rfl : receipt = receipt' := Option.some.inj (hreceipt.symm.trans hreceipt')
    obtain ⟨hload, hproxies, hmaterial⟩ := loadTransportMaterialization_ok hloaded
    exact ⟨receipt, content, rfl, hfile, of_decide_eq_true (Routing.insist_ok hrevision), hcode, hpath, hhash, hfresh,
      hload, hproxies, hmaterial⟩

end Materialization

section Composition

variable {src : Source} {now : Timestamp}

end Composition

end Lingsway.Transport

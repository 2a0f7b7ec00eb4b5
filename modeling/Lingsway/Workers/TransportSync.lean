import Lingsway.Library.Program
import Lingsway.Providers.Forwarder.MihomoApply
import Lingsway.Providers.Transport.Subscription

/-!
# Synchronizing transport providers

One tick of the scheduler fetches the subscription of every enabled provider,
replaces its cache file, and commits its inventory, its alerts and the receipt of
the cached bytes. A provider that fails is rolled back and degraded.
-/
namespace Lingsway.Transport

open Library Program Forwarder

structure Response where
  content : Bytes
  text : String
  userinfo : Option String
  deriving Repr, DecidableEq

structure SecretSnapshot where
  value : String
  revision : ℤ
  deriving Repr, DecidableEq

/-- The columns of a provider's record that the worker reads. -/
structure ProviderRecord where
  code : String
  kind : String
  secretRef : String
  deriving Repr, DecidableEq

structure TransportProviderDescriptor where
  recordId : ℕ
  code : String
  kind : String
  secretRef : String
  implementation : String
  deriving Repr, DecidableEq

structure Receipt where
  ownerRecordId : ℕ
  providerCode : String
  sourceRevision : ℤ
  cacheIdentity : String
  contentHash : Digest
  freshnessDeadline : Timestamp
  deriving Repr, DecidableEq

structure CapacityAlert where
  providerId : ℕ
  threshold : ℤ
  level : String
  quotaBytes : ℤ
  usedBytes : ℤ
  deriving Repr, DecidableEq

/-- The calls of the worker. A record is named by its primary key. -/
inductive Call where
  | enabledRecords
  | readRecord (providerId : ℕ)
  | secretSnapshot (secretRef purpose : String)
  | get (url : String)
  | now
  | mkdir (path : String)
  | temporary (path : String)
  | chmod (path : String)
  | write (name : String) (content : Bytes)
  | replace (name path : String)
  | unlink (name : String)
  | selectEndpoint (providerId : ℕ) (externalId : String)
  | insertEndpoint (providerId : ℕ) (endpoint : TransportEndpointDTO)
  | updateEndpoint (record : ℕ) (endpoint : TransportEndpointDTO)
  | selectStale (providerId : ℕ) (seen : List String)
  | markRemoved (record : ℕ)
  | setCapacity (providerId : ℕ) (capacity : Option TransportCapacityDTO)
  | selectAlert (providerId : ℕ) (threshold quotaBytes : ℤ)
  | insertAlert (alert : CapacityAlert)
  | setHealth (providerId : ℕ) (status : String) (now : Timestamp)
  | selectReceipt (owner : ℕ)
  | putReceipt (receipt : Receipt)
  | commit
  | rollback
  | providerStatus (providerId : ℕ)
  | setStatus (providerId : ℕ) (status : String)
  | addAuditLog (providerId : ℕ)

@[reducible] def Call.Answer : Call → Type
  | enabledRecords => List ℕ
  | readRecord _ => ProviderRecord
  | secretSnapshot _ _ => SecretSnapshot
  | get _ => Response
  | now => Timestamp
  | temporary _ => String
  | selectEndpoint _ _ => Option ℕ
  | insertEndpoint _ _ => ℕ
  | selectStale _ _ => List ℕ
  | selectAlert _ _ _ => Bool
  | selectReceipt _ => Option Receipt
  | providerStatus _ => Option String
  | _ => Unit

abbrev calls : Signature := ⟨Call, Call.Answer⟩

abbrev Work := Program calls Exn

def perform (c : Call) : Work c.Answer := Program.perform (S := calls) c

def runtimeError {α : Type} (message : String) : Work α := .raise ⟨.runtimeError, message⟩

section Cache

def unlinkTemporary (name : String) : Work Unit :=
  (perform (.unlink name)).tryCatch fun e =>
    if e.cls = .other "FileNotFoundError" then .ret () else .raise e

/-- What is done with the temporary file. -/
def replaceBy (name path : String) (content : Bytes) : Work Unit := do
  perform (.chmod name)
  perform (.write name content)
  perform (.replace name path)
  perform (.chmod path)

/-- `write_provider_cache`. -/
def writeProviderCache (path : String) (content : Bytes) : Work Unit := do
  perform (.mkdir path)
  let name ← perform (.temporary path)
  (replaceBy name path content).tryFinally (unlinkTemporary name)

end Cache

/-- `SubscriptionTransportProvider`, without its client. -/
structure SubscriptionTransportProvider where
  providerCode : String
  url : String
  cachePath : Option String
  sourceRevision : Option ℤ
  endpoints : List TransportEndpointDTO
  capacity : Option TransportCapacityDTO
  lastContentHash : Option Digest
  lastCacheIdentity : Option String

section Provider

variable (x : Readers) (sha256 : Bytes → Digest)

def fetch (url : String) : Work Response :=
  (perform (.get url)).tryCatch fun e =>
    if e.cls = .other "HTTPError" then runtimeError "Subscription fetch failed" else .raise e

/-- The hash of what is written, and where. -/
def cacheResponse (path : String) (response : Response) : Work (Digest × String) := do
  ofExcept (validateMihomoProviderDocument x response.text)
  let localHash := sha256 response.content
  writeProviderCache path response.content
  .ret (localHash, path)

namespace SubscriptionTransportProvider

/-- `sync_nodes`. -/
def syncNodes (p : SubscriptionTransportProvider) : Work SubscriptionTransportProvider := do
  let response ← fetch p.url
  let measuredAt ← perform .now
  let capacity ← ofExcept (parseSubscriptionUserinfo x response.userinfo measuredAt)
  let endpoints ← ofExcept (parseSubscription x p.providerCode response.text)
  match p.cachePath with
  | none => .ret { p with endpoints := endpoints, capacity := capacity }
  | some path => do
    let proof ← cacheResponse x sha256 path response
    .ret { p with
      endpoints := endpoints
      capacity := capacity
      lastContentHash := some proof.1
      lastCacheIdentity := some proof.2 }

/-- `materialization_proof`. -/
def materializationProof (p : SubscriptionTransportProvider) : Option (String × Digest × ℤ) := do
  let contentHash ← p.lastContentHash
  let cacheIdentity ← p.lastCacheIdentity
  let sourceRevision ← p.sourceRevision
  some (cacheIdentity, contentHash, sourceRevision)

end SubscriptionTransportProvider

end Provider

section Resolver

def transportError {α : Type} (message : String) : Work α := .raise ⟨.other "TransportResolutionError", message⟩

/-- `SubscriptionTransportResolver._validate`. -/
def validateDescriptor (d : TransportProviderDescriptor) : Work Unit :=
  if d.recordId = 0 ∨ Text.strip d.code = "" ∨ Text.strip d.secretRef = "" then
    transportError "TRANSPORT_DESCRIPTOR_INVALID"
  else if d.kind ≠ "SUBSCRIPTION" then transportError "TRANSPORT_KIND_UNSUPPORTED"
  else if d.implementation ≠ "subscription" then transportError "TRANSPORT_IMPLEMENTATION_UNSUPPORTED"
  else .ret ()

def isSafe (c : Char) : Bool := c.isAlphanum || c = '.' || c = '_' || c = '-'

/-- `re.sub(r"[^A-Za-z0-9._-]+", "_", code)` -/
def underscored : List Char → List Char
  | [] => []
  | c :: cs =>
    if isSafe c then c :: underscored cs
    else match cs with
      | d :: _ => if isSafe d then '_' :: underscored cs else underscored cs
      | [] => ['_']

def safeCode (code : String) : String :=
  let stripped := Text.rstripBy (fun c => c = '.' || c = '_') (Text.lstripBy (fun c => c = '.' || c = '_')
    (underscored code.toList))
  if stripped = [] then "provider" else String.ofList stripped

/-- `_cache_path`, as a text. `short` is the start of a SHA-256. -/
def cachePath (short : String → String) (cacheRoot : String) (d : TransportProviderDescriptor) : String :=
  let identity := "|".intercalate [toString d.recordId, d.code, d.kind, d.implementation]
  String.join [cacheRoot, "/", toString d.recordId, "-", safeCode d.code, "-", short identity, ".yaml"]

/-- A provider, and what it has been resolved for. -/
structure Resolved where
  descriptor : TransportProviderDescriptor
  revision : ℤ
  provider : SubscriptionTransportProvider

/-- `SubscriptionTransportResolver`, while no shutdown has started. The records are the owners of the codes and
of the cache paths of their providers. -/
abbrev Resolver := List Resolved

variable (short : String → String) (cacheRoot : String)

def findRecord (resolver : Resolver) (recordId : ℕ) : Option Resolved :=
  resolver.find? fun r => r.descriptor.recordId = recordId

def codeOwner (resolver : Resolver) (code : String) : Option ℕ :=
  (resolver.find? fun r => r.descriptor.code = code).map fun r => r.descriptor.recordId

def pathOwner (resolver : Resolver) (path : String) : Option ℕ :=
  (resolver.find? fun r => r.provider.cachePath = some path).map fun r => r.descriptor.recordId

def purpose : String := "TRANSPORT_SUBSCRIPTION_URL"

/-- A provider that has not fetched anything. -/
def newProvider (d : TransportProviderDescriptor) (snapshot : SecretSnapshot) : SubscriptionTransportProvider where
  providerCode := d.code
  url := snapshot.value
  cachePath := some (cachePath short cacheRoot d)
  sourceRevision := some snapshot.revision
  endpoints := []
  capacity := none
  lastContentHash := none
  lastCacheIdentity := none

/-- A provider that has been resolved before. -/
def resolveAgain (existing : Resolved) (d : TransportProviderDescriptor) (loader : String → String → Work SecretSnapshot) :
    Work SubscriptionTransportProvider :=
  if existing.descriptor ≠ d then transportError "TRANSPORT_DESCRIPTOR_DRIFT"
  else do
    let snapshot ← loader d.secretRef purpose
    if snapshot.revision ≠ existing.revision then transportError "TRANSPORT_SECRET_REVISION_DRIFT"
    else .ret existing.provider

/-- `resolve`: the provider, and the resolver after it. -/
def resolve (resolver : Resolver) (d : TransportProviderDescriptor) (loader : String → String → Work SecretSnapshot) :
    Work (SubscriptionTransportProvider × Resolver) := do
  validateDescriptor d
  match findRecord resolver d.recordId with
  | some existing => do
    let provider ← resolveAgain existing d loader
    .ret (provider, resolver)
  | none =>
    if (codeOwner resolver d.code).any (· ≠ d.recordId) then transportError "TRANSPORT_CODE_COLLISION"
    else if (pathOwner resolver (cachePath short cacheRoot d)).any (· ≠ d.recordId) then
      transportError "TRANSPORT_CACHE_IDENTITY_COLLISION"
    else do
      let snapshot ← loader d.secretRef purpose
      let provider := newProvider short cacheRoot d snapshot
      .ret (provider, ⟨d, snapshot.revision, provider⟩ :: resolver)

end Resolver

section Inventory

/-- The record of an endpoint that the inventory had none of. Another session may have inserted it. -/
def addEndpoint (providerId : ℕ) (endpoint : TransportEndpointDTO) : Work ℕ := do
  match ← (perform (.insertEndpoint providerId endpoint)).attempt with
  | .ok record => .ret record
  | .error e =>
    if e.cls = .integrityError then do
      match ← perform (.selectEndpoint providerId endpoint.externalId) with
      | some record => .ret record
      | none => .raise e
    else .raise e

/-- One endpoint of the loop. -/
def refreshEndpoint (providerId : ℕ) (endpoint : TransportEndpointDTO) : Work Unit := do
  match ← perform (.selectEndpoint providerId endpoint.externalId) with
  | some record => perform (.updateEndpoint record endpoint)
  | none => do
    let record ← addEndpoint providerId endpoint
    perform (.updateEndpoint record endpoint)

def refreshEndpoints (providerId : ℕ) : List TransportEndpointDTO → Work Unit
  | [] => .ret ()
  | endpoint :: endpoints => do
    refreshEndpoint providerId endpoint
    refreshEndpoints providerId endpoints

def markStale : List ℕ → Work Unit
  | [] => .ret ()
  | record :: records => do
    perform (.markRemoved record)
    markStale records

def thresholds : List (ℤ × String) := [(60, "REMINDER"), (80, "PROCURE"), (95, "EMERGENCY")]

/-- The alert of one threshold, unless there is one. Another session may have inserted it. -/
def recordAlert (alert : CapacityAlert) : Work Unit := do
  let existing ← perform (.selectAlert alert.providerId alert.threshold alert.quotaBytes)
  if existing then .ret ()
  else do
    match ← (perform (.insertAlert alert)).attempt with
    | .ok _ => .ret ()
    | .error e =>
      if e.cls = .integrityError then do
        let recovered ← perform (.selectAlert alert.providerId alert.threshold alert.quotaBytes)
        if recovered then .ret () else .raise e
      else .raise e

def recordAlerts (providerId : ℕ) (quotaBytes usedBytes : ℤ) : List (ℤ × String) → Work Unit
  | [] => .ret ()
  | (threshold, level) :: rest => do
    if (usedBytes * 100).fdiv quotaBytes < threshold then recordAlerts providerId quotaBytes usedBytes rest
    else do
      recordAlert ⟨providerId, threshold, level, quotaBytes, usedBytes⟩
      recordAlerts providerId quotaBytes usedBytes rest

/-- `record_capacity_alerts`. -/
def recordCapacityAlerts (providerId : ℕ) (capacity : TransportCapacityDTO) : Work Unit :=
  if capacity.quotaBytes = 0 then .ret ()
  else recordAlerts providerId capacity.quotaBytes capacity.usedBytes thresholds

def refreshCapacity (providerId : ℕ) (capacity : Option TransportCapacityDTO) : Work Unit := do
  perform (.setCapacity providerId capacity)
  match capacity with
  | none => .ret ()
  | some capacity => recordCapacityAlerts providerId capacity

def deadline (capacity : Option TransportCapacityDTO) (now : Timestamp) : Timestamp :=
  (capacity.bind TransportCapacityDTO.expireAt).getD (now + minutes 60)

/-- The receipt of what has been cached. -/
def storeReceipt (recordId : ℕ) (code : String) (provider : SubscriptionTransportProvider) (now : Timestamp) : Work Unit :=
  match provider.materializationProof with
  | none => .ret ()
  | some (cacheIdentity, contentHash, sourceRevision) => do
    let _ ← perform (.selectReceipt recordId)
    perform (.putReceipt ⟨recordId, code, sourceRevision, cacheIdentity, contentHash,
      deadline provider.capacity now⟩)

variable (x : Readers) (sha256 : Bytes → Digest)

def healthOf (endpoints : List TransportEndpointDTO) : String := if endpoints = [] then "DEGRADED" else "HEALTHY"

/-- What `refresh_provider_inventory` does with a provider that has been synchronized. -/
def storeInventory (recordId : ℕ) (code : String) (provider : SubscriptionTransportProvider) (now : Timestamp) :
    Work Unit := do
  refreshEndpoints recordId provider.endpoints
  let stale ← perform (.selectStale recordId (provider.endpoints.map TransportEndpointDTO.externalId))
  markStale stale
  refreshCapacity recordId provider.capacity
  perform (.setHealth recordId (healthOf provider.endpoints) now)
  storeReceipt recordId code provider now
  perform .commit

/-- `refresh_provider_inventory`: how it ends, and the provider after it. A provider whose inventory could not be
stored keeps what it has fetched. -/
def refreshProviderInventory (recordId : ℕ) (code : String) (provider : SubscriptionTransportProvider) :
    Work (Except Exn Unit × SubscriptionTransportProvider) := do
  let now ← perform .now
  match ← (provider.syncNodes x sha256).attempt with
  | .error e => .ret (.error e, provider)
  | .ok synced => do
    let stored ← (storeInventory recordId code synced now).attempt
    .ret (stored, synced)

end Inventory

section Scheduler

variable (x : Readers) (sha256 : Bytes → Digest) (short : String → String) (cacheRoot : String)

/-- `secret_loader`: a secret that cannot be revealed is unavailable. -/
def secretLoader (secretRef purpose : String) : Work SecretSnapshot :=
  (perform (.secretSnapshot secretRef purpose)).tryCatch fun e =>
    if e.cls = .other "SecretStoreError" then runtimeError "TRANSPORT_SECRET_UNAVAILABLE" else .raise e

def descriptorOf (recordId : ℕ) (record : ProviderRecord) : TransportProviderDescriptor :=
  ⟨recordId, record.code, record.kind, record.secretRef, "subscription"⟩

/-- The resolver with the provider of a record as it is now. -/
def remember (resolver : Resolver) (recordId : ℕ) (provider : SubscriptionTransportProvider) : Resolver :=
  resolver.map fun r => if r.descriptor.recordId = recordId then { r with provider := provider } else r

/-- The `except Exception` of one record. -/
def degrade (recordId : ℕ) : Work Unit := do
  perform .rollback
  match ← perform (.providerStatus recordId) with
  | none => .raise ⟨.other "AttributeError", "'NoneType' object has no attribute 'status'"⟩
  | some status => do
    perform (.setStatus recordId "DEGRADED")
    if status ≠ "DEGRADED" then perform (.addAuditLog recordId) else .ret ()
    perform .commit

/-- The `try` of one record: how it ends, and the resolver after it. -/
def syncRecord (resolver : Resolver) (recordId : ℕ) (record : ProviderRecord) : Work (Except Exn Unit × Resolver) := do
  match ← (resolve short cacheRoot resolver (descriptorOf recordId record) secretLoader).attempt with
  | .error e => .ret (.error e, resolver)
  | .ok (provider, resolver) => do
    let refreshed ← refreshProviderInventory x sha256 recordId record.code provider
    .ret (refreshed.1, remember resolver recordId refreshed.2)

/-- The loop over the enabled records. The attributes of a record are read again after a rollback. -/
def syncRecords : List ℕ → Resolver → ℕ → Work (ℕ × Resolver)
  | [], resolver, completed => .ret (completed, resolver)
  | recordId :: recordIds, resolver, completed => do
    let record ← perform (.readRecord recordId)
    let result ← syncRecord x sha256 short cacheRoot resolver recordId record
    match result.1 with
    | .ok _ => syncRecords recordIds result.2 (completed + 1)
    | .error _ => do
      degrade recordId
      syncRecords recordIds result.2 completed

/-- `sync_transport_capacity_and_inventory`. -/
def syncTransportCapacityAndInventory (resolver : Resolver) : Work (ℕ × Resolver) := do
  let records ← perform .enabledRecords
  syncRecords x sha256 short cacheRoot records resolver 0

/-- The transport part of `n` batches of one scheduler process. -/
def batches : ℕ → Resolver → Work Unit
  | 0, _ => .ret ()
  | n + 1, resolver => do
    let result ← syncTransportCapacityAndInventory x sha256 short cacheRoot resolver
    batches n result.2

end Scheduler

end Lingsway.Transport

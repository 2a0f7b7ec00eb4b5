import Lingsway.Providers.Forwarder.Mihomo

/-!
# The manifest of a projection

A generation is identified by the fingerprint of its manifest. The manifest
holds every field that the composer reads, except that the content of a
transport document is represented by its hash.
-/
namespace Lingsway.Forwarder

open Library

def manifestVersion : String := "2"

def nullable : Option String → Json
  | none => .null
  | some s => .str s

def listenerManifest (listener : ForwarderListenerDTO) : Json :=
  .obj [("name", .str listener.name), ("listener_type", .str listener.listenerType), ("listen", .str listener.listen),
    ("port", .int listener.port), ("proxy", .str listener.proxy)]

def nodeManifest : Option (String × String × ℤ) → Json
  | none => .null
  | some (a, b, n) => .arr [.str a, .str b, .int n]

def egressManifest (proxy : ForwarderEgressProxyDTO) : Json :=
  .obj [("name", .str proxy.name), ("protocol", .str proxy.protocol), ("host", .str proxy.host),
    ("port", .int proxy.port), ("credential_secret_ref", .str proxy.credentialSecretRef),
    ("credential_revision", .int proxy.credentialRevision),
    ("transport_proxy_name", nullable proxy.transportProxyName),
    ("transport_node_identity", nodeManifest proxy.transportNodeIdentity)]

def referenceManifest (ref : TransportMaterializationReference) : Json :=
  .obj [("owner_record_id", .int ref.ownerRecordId), ("provider_code", .str ref.providerCode),
    ("source_revision", .int ref.sourceRevision), ("cache_identity", .str ref.cacheIdentity),
    ("implementation", .str ref.implementation)]

/-- A naive instant is taken to be in UTC. -/
def utc (t : DateTime) : DateTime := ⟨t.instant, some 0⟩

section Manifest

variable (x : Externals)

def proofManifest (item : TransportMaterialization) : Json :=
  .obj [("owner_record_id", .int item.ownerRecordId), ("provider_code", .str item.providerCode),
    ("source_revision", .int item.sourceRevision), ("cache_identity", .str item.cacheIdentity),
    ("content_hash", item.contentHash.json), ("freshness_deadline", .str (x.isoformat (utc item.freshnessDeadline)))]

/-- `build_projection_source_manifest`. -/
def buildProjectionSourceManifest (desired : DesiredForwarderState) : Members :=
  [("manifest_version", .str manifestVersion), ("listeners", .obj desired.listeners),
    ("listener_specs", .arr (desired.listenerSpecs.map listenerManifest)), ("proxies", .arr desired.proxies),
    ("egress_proxies", .arr (desired.egressProxies.map egressManifest)), ("proxy_groups", .arr desired.proxyGroups),
    ("rules", .arr desired.rules), ("dns", .obj desired.dns), ("policy", .obj desired.policy),
    ("transport_references", .arr (desired.transportReferences.map referenceManifest)),
    ("transport_proofs", .arr (desired.transportMaterializations.map (proofManifest x))),
    ("deployment_constants", .obj desired.deploymentConstants)]

end Manifest

/-- `manifest_fingerprint`. -/
def manifestFingerprint (manifest : Members) : Digest := digest (.obj manifest)

theorem materializedProxies_ok {item : TransportMaterialization} {proxies : List Json}
    (h : materializedProxies item = .ok proxies) : Members.item item.content "proxies" = .arr proxies := by
  unfold materializedProxies at h
  split at h
  · cases h
  · rename_i found hfound
    cases hread : found.mapM fun proxy => mapping proxy "MIHOMO_TRANSPORT_CONTENT_INVALID" with
    | error e => simp [hread, Except.map] at h
    | ok members =>
      have hmembers : members.map Json.obj = found := by
        have hforall : List.Forall₂ (fun m proxy => Json.obj m = proxy) members found :=
          (Reading.mapM_ok_iff.mp hread).flip.imp fun _ _ hm => (mapping_ok hm).symm
        exact List.forall₂_eq_eq_eq ▸ (List.forall₂_map_left_iff (R := Eq)).mpr hforall
      simp only [hread, Except.map, Except.ok.injEq] at h
      rw [hfound, ← h, hmembers]
  · cases h

section Determined

variable {x : Externals} {now now' : Timestamp} {d e : DesiredForwarderState}

end Determined

/-- A secret store in which the reference and the revision determine the value, as its two resolvers
show it. -/
structure Stored (value : String → ℤ → String) (credential : String → ℤ → CredentialDTO)
    (controller : String → Except Exn ControllerSecretSnapshot)
    (egress : ℕ → String → Except Exn EgressCredentialSnapshot) : Prop where
  value : ∀ ref snapshot, controller ref = .ok snapshot → snapshot.value = value snapshot.ref snapshot.revision
  credential : ∀ i ref snapshot, egress i ref = .ok snapshot →
    snapshot.credential = credential snapshot.secretRef snapshot.revision

section Finalized

variable {value : String → ℤ → String} {credential : String → ℤ → CredentialDTO}
  {controller controller' : String → Except Exn ControllerSecretSnapshot}
  {egress egress' : ℕ → String → Except Exn EgressCredentialSnapshot}

end Finalized

end Lingsway.Forwarder

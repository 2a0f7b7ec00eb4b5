import Lingsway.Infra.MihomoLoader

/-!
# One credential on both sides

The gateway and the forwarder choose the credential of an endpoint by the same
rule, the override of its binding or else its own reference. The forwarder
strips the reference of the endpoint, and the gateway does not.
-/
namespace Lingsway.Routing

open Library

/-- The unique columns that the choice of a credential rests on. -/
structure Constraints (view : Database) (tables : ForwarderTables) : Prop where
  subscription : Table.UniqueKey view.egressBindings.get EgressBinding.active EgressBinding.subscriptionId
  egress : Table.UniqueKey view.egressBindings.get EgressBinding.active EgressBinding.egressId
  code : ∀ i j, (view.endpoints.get i).isSome = true → (view.endpoints.get j).isSome = true →
    (tables.egressColumns i).code = (tables.egressColumns j).code → i = j

/-- The subscription of every projected route has an active binding. -/
def EveryRouteBound (view : Database) : Prop :=
  ∀ route ∈ projectedRoutes view, ∃ b ∈ view.egressBindings.entities,
    b.row.active = true ∧ b.row.subscriptionId = route.row.subscriptionId

/-- The gateway uses the reference for an endpoint. -/
def GatewaySelects (view : Database) (state : DesiredRoutingState) (endpointId : ℕ) (ref : String) : Prop :=
  ∃ route ∈ projectedRoutes view, route.row.egressId = endpointId ∧
    ∃ o ∈ state.outbounds, o.tag = route.row.outboundTag ∧ o.credentialSecretRef = ref

/-- The forwarder uses the reference for an endpoint. -/
def ForwarderSelects (view : Database) (tables : ForwarderTables) (desired : Forwarder.DesiredForwarderState)
    (endpointId : ℕ) (ref : String) : Prop :=
  ∃ endpoint ∈ projectedEndpoints view tables, endpoint.id = endpointId ∧
    ∃ p ∈ desired.egressProxies, p.name = codeOf tables endpoint ∧ p.credentialSecretRef = ref

def overridden (binding : EgressBinding) : Bool := binding.credentialSecretRef.any fun ref => ref ≠ ""

/-- Where the forwarder accepts a credential, it is the gateway's unless it had to be stripped. -/
theorem egressCredential_eq_iff {endpoint : EgressEndpoint} {binding : EgressBinding} {ref : String}
    (h : egressCredential endpoint (some binding) = .ok ref) :
    selectedCredential endpoint (some binding) = ref ↔
      overridden binding = true ∨ Text.strip endpoint.credentialSecretRef = endpoint.credentialSecretRef := by
  unfold egressCredential at h
  simp only [selectedCredential, overridden, Option.bind_some]
  cases hoverride : binding.credentialSecretRef with
  | none =>
    simp only [hoverride, Option.bind_some, Option.getD_none, if_true] at h
    split_ifs at h with hblank
    · cases h
    · cases h
      simp [eq_comm]
  | some override =>
    simp only [hoverride, Option.bind_some, Option.getD_some] at h
    by_cases hempty : override = ""
    · simp only [hempty, if_true] at h
      split_ifs at h with hblank
      · cases h
      · cases h
        simp [hempty, eq_comm]
    · simp only [hempty, if_false] at h
      split_ifs at h with hblank
      · cases h
      · cases h
        simp [hempty]

section Drift

variable {view : Database} {tables : ForwarderTables} {rows : List RouteRow} {state : DesiredRoutingState}

theorem mem_allBindings {b : Entity EgressBinding} :
    b ∈ allBindings view ↔ view.egressBindings.get b.id = some b.row ∧ b.row.active = true := by
  simp [allBindings, Table.mem_entities]

/-- The own binding of a route is the one binding of its endpoint. -/
theorem own_binding (hc : Constraints view tables) (hbound : EveryRouteBound view)
    (hrows : rows.Perm (joinedRows view)) (hx : fullDesiredRoutingSnapshot view rows = .ok state)
    {route : Entity GatewayRouteBinding} (hroute : route ∈ projectedRoutes view) :
    ∃ b, (allBindings view).find? (fun b => b.row.egressId = route.row.egressId) = some b ∧
      ownBindings view route.row = [b.row] := by
  obtain ⟨own, hmem, hactive, hsubscription⟩ := hbound route hroute
  have hegress : own.row.egressId = route.row.egressId := by
    by_contra hne
    obtain ⟨e, he⟩ := refused_of_mismatch hrows hroute hmem hactive hsubscription hne
    rw [hx] at he
    cases he
  have hown : own.row ∈ ownBindings view route.row := by
    rw [ownBindings, List.mem_filter]
    exact ⟨List.mem_map_of_mem hmem, by simp [hactive, hsubscription, hegress]⟩
  have hsingle : ownBindings view route.row = [own.row] := by
    have hlength := (exact_of_ok hrows hx).bindings route hroute
    cases hbindings : ownBindings view route.row with
    | nil => simp [hbindings] at hown
    | cons b rest =>
      have hrest : rest = [] := by simpa [hbindings] using hlength
      rw [hbindings, hrest] at hown
      rw [hrest, List.mem_singleton.mp hown]
  have hall : own ∈ allBindings view := mem_allBindings.mpr ⟨Table.mem_entities.mp hmem, hactive⟩
  cases hfind : (allBindings view).find? fun b => b.row.egressId = route.row.egressId with
  | none =>
    have hnone := List.find?_eq_none.mp hfind own hall
    simp [hegress] at hnone
  | some b =>
    obtain ⟨hget, hactive'⟩ := mem_allBindings.mp (List.mem_of_find?_eq_some hfind)
    have hegress' : b.row.egressId = route.row.egressId := by simpa using List.find?_some hfind
    have hid := hc.egress _ _ _ _ hget (Table.mem_entities.mp hmem) hactive' hactive (hegress'.trans hegress.symm)
    have hrow : b.row = own.row := by
      rw [hid, Table.mem_entities.mp hmem] at hget
      exact (Option.some.inj hget).symm
    exact ⟨b, rfl, by rw [hsingle, hrow]⟩

theorem gatewaySelects_iff (hrows : rows.Perm (joinedRows view))
    (hx : fullDesiredRoutingSnapshot view rows = .ok state) {endpointId : ℕ} {ref : String} :
    GatewaySelects view state endpointId ref ↔ ∃ route ∈ projectedRoutes view, route.row.egressId = endpointId ∧
      ∃ endpoint, view.endpoints.get endpointId = some endpoint ∧
        selectedCredential endpoint (ownBindings view route.row).head? = ref := by
  have hexact := exact_of_ok hrows hx
  have hprojected : ∀ route ∈ projectedRoutes view, ∃ o ∈ state.outbounds, routeOutbound view route = some o := by
    intro route hroute
    have hmem := hexact.outbounds.mem_iff.mpr (List.mem_map_of_mem (f := routeOutbound view) hroute)
    obtain ⟨o, ho, heq⟩ := List.mem_map.mp hmem
    exact ⟨o, ho, heq.symm⟩
  have hparts : ∀ {route o}, routeOutbound view route = some o → ∃ endpoint,
      view.endpoints.get route.row.egressId = some endpoint ∧ o.tag = route.row.outboundTag ∧
        o.credentialSecretRef = selectedCredential endpoint (ownBindings view route.row).head? := by
    intro route o ho
    obtain ⟨endpoint, hendpoint, rfl⟩ := Option.map_eq_some_iff.mp ho
    exact ⟨endpoint, hendpoint, rfl, rfl⟩
  constructor
  · rintro ⟨route, hroute, rfl, o, ho, htag, rfl⟩
    obtain ⟨o', ho', heq⟩ := hprojected route hroute
    obtain ⟨endpoint, hendpoint, htag', hcredential⟩ := hparts heq
    have hsame : o = o' := List.inj_on_of_nodup_map hexact.tags ho ho' (htag.trans htag'.symm)
    exact ⟨route, hroute, rfl, endpoint, hendpoint, by rw [hsame, hcredential]⟩
  · rintro ⟨route, hroute, rfl, endpoint, hendpoint, rfl⟩
    obtain ⟨o, ho, heq⟩ := hprojected route hroute
    obtain ⟨found, hfound, htag, hcredential⟩ := hparts heq
    rw [hendpoint] at hfound
    cases hfound
    exact ⟨route, hroute, rfl, o, ho, htag, hcredential⟩

section Forwarder

variable {materialize : Entity TransportProviderRecord →
    Except Exn (Forwarder.TransportMaterialization × Forwarder.TransportMaterializationReference)}
  {externalController : String} {desired : Forwarder.DesiredForwarderState}

theorem egressProxy_ok {assigned : List EgressTransportAssignment}
    {materials : List Forwarder.TransportMaterialization} {endpoint : Entity EgressEndpoint}
    {p : Forwarder.ForwarderEgressProxyDTO} (h : egressProxy view tables assigned materials endpoint = .ok p) :
    p.name = codeOf tables endpoint ∧ egressCredential endpoint.row
      (((allBindings view).find? fun b => b.row.egressId = endpoint.id).map Entity.row) = .ok p.credentialSecretRef := by
  obtain ⟨ref, href, h⟩ := Reading.bind_ok h
  obtain ⟨revision, -, h⟩ := Reading.bind_ok h
  obtain ⟨transport, -, h⟩ := Reading.bind_ok h
  cases h
  exact ⟨rfl, href⟩

theorem mem_projectedEndpoints {endpoint : Entity EgressEndpoint} (h : endpoint ∈ projectedEndpoints view tables) :
    view.endpoints.get endpoint.id = some endpoint.row := by
  rw [projectedEndpoints, List.mem_insertionSort, List.mem_filter] at h
  exact Table.mem_entities.mp h.1

theorem forwarderSelects_iff (hc : Constraints view tables)
    (hm : loadCurrent view tables materialize externalController = .ok desired) {endpointId : ℕ} {ref : String} :
    ForwarderSelects view tables desired endpointId ref ↔
      ∃ endpoint ∈ projectedEndpoints view tables, endpoint.id = endpointId ∧ egressCredential endpoint.row
        (((allBindings view).find? fun b => b.row.egressId = endpointId).map Entity.row) = .ok ref := by
  obtain ⟨assigned, -, hm⟩ := Reading.bind_ok hm
  obtain ⟨_, -, hm⟩ := Reading.bind_ok hm
  obtain ⟨materialized, -, hm⟩ := Reading.bind_ok hm
  obtain ⟨proxies, hproxies, hm⟩ := Reading.bind_ok hm
  obtain ⟨revision, -, hm⟩ := Reading.bind_ok hm
  cases hm
  constructor
  · rintro ⟨endpoint, hendpoint, rfl, p, hp, hname, rfl⟩
    rw [List.mem_insertionSort] at hp
    obtain ⟨other, hother, hproxy⟩ := Reading.exists_of_mem hproxies hp
    obtain ⟨hcode, hcredential⟩ := egressProxy_ok hproxy
    have hget := mem_projectedEndpoints hendpoint
    have hget' := mem_projectedEndpoints hother
    have hid : other.id = endpoint.id := by
      apply hc.code
      · simp [hget']
      · simp [hget]
      · exact hcode.symm.trans hname
    have hsame : other = endpoint := by
      rw [hid, hget] at hget'
      cases other
      cases endpoint
      simp_all
    rw [hsame] at hcredential
    exact ⟨endpoint, hendpoint, rfl, hcredential⟩
  · rintro ⟨endpoint, hendpoint, rfl, hcredential⟩
    obtain ⟨p, hp, hproxy⟩ := Reading.exists_of_element hproxies hendpoint
    obtain ⟨hname, hown⟩ := egressProxy_ok hproxy
    rw [hcredential] at hown
    exact ⟨endpoint, hendpoint, rfl, p, (List.mem_insertionSort _).mpr hp, hname, (Except.ok.inj hown).symm⟩

theorem exists_credential (hm : loadCurrent view tables materialize externalController = .ok desired)
    {endpoint : Entity EgressEndpoint} (hendpoint : endpoint ∈ projectedEndpoints view tables) :
    ∃ ref, egressCredential endpoint.row
      (((allBindings view).find? fun b => b.row.egressId = endpoint.id).map Entity.row) = .ok ref := by
  obtain ⟨assigned, -, hm⟩ := Reading.bind_ok hm
  obtain ⟨_, -, hm⟩ := Reading.bind_ok hm
  obtain ⟨materialized, -, hm⟩ := Reading.bind_ok hm
  obtain ⟨proxies, hproxies, -⟩ := Reading.bind_ok hm
  obtain ⟨p, _, hproxy⟩ := Reading.exists_of_element hproxies hendpoint
  exact ⟨p.credentialSecretRef, (egressProxy_ok hproxy).2⟩

/-- Both sides use one credential for every endpoint that they share, if and only if every such endpoint
either has a credential in the binding of the route or a reference without blanks around it. -/
theorem same_credential_iff (hc : Constraints view tables) (hbound : EveryRouteBound view)
    (hrows : rows.Perm (joinedRows view)) (hx : fullDesiredRoutingSnapshot view rows = .ok state)
    (hm : loadCurrent view tables materialize externalController = .ok desired) :
    (∀ endpointId ref ref', GatewaySelects view state endpointId ref →
      ForwarderSelects view tables desired endpointId ref' → ref = ref') ↔
    ∀ route ∈ projectedRoutes view, ∀ endpoint ∈ projectedEndpoints view tables, endpoint.id = route.row.egressId →
      (∃ b ∈ ownBindings view route.row, overridden b = true) ∨
        Text.strip endpoint.row.credentialSecretRef = endpoint.row.credentialSecretRef := by
  have hchoice : ∀ route ∈ projectedRoutes view, ∀ endpoint ∈ projectedEndpoints view tables,
      endpoint.id = route.row.egressId → ∀ ref', egressCredential endpoint.row
        (((allBindings view).find? fun b => b.row.egressId = route.row.egressId).map Entity.row) = .ok ref' →
      (selectedCredential endpoint.row (ownBindings view route.row).head? = ref' ↔
        (∃ b ∈ ownBindings view route.row, overridden b = true) ∨
          Text.strip endpoint.row.credentialSecretRef = endpoint.row.credentialSecretRef) := by
    intro route hroute endpoint _ _ ref' hcredential
    obtain ⟨b, hfind, hown⟩ := own_binding hc hbound hrows hx hroute
    rw [hfind] at hcredential
    rw [hown, List.head?_cons, egressCredential_eq_iff hcredential]
    simp
  constructor
  · intro h route hroute endpoint hendpoint hid
    obtain ⟨ref', hcredential⟩ := exists_credential hm hendpoint
    have hforwarder := (forwarderSelects_iff hc hm).mpr ⟨endpoint, hendpoint, rfl, hcredential⟩
    have hgateway := (gatewaySelects_iff hrows hx).mpr
      ⟨route, hroute, hid.symm, endpoint.row, mem_projectedEndpoints hendpoint, rfl⟩
    have hsame := h endpoint.id _ ref' hgateway hforwarder
    rw [hid] at hcredential
    exact (hchoice route hroute endpoint hendpoint hid ref' hcredential).mp hsame
  · intro h endpointId ref ref' hgateway hforwarder
    obtain ⟨route, hroute, rfl, row, hrow, rfl⟩ := (gatewaySelects_iff hrows hx).mp hgateway
    obtain ⟨endpoint, hendpoint, hid, hcredential⟩ := (forwarderSelects_iff hc hm).mp hforwarder
    have hsame : row = endpoint.row := by
      rw [← hid, mem_projectedEndpoints hendpoint] at hrow
      exact (Option.some.inj hrow).symm
    rw [hsame]
    exact (hchoice route hroute endpoint hendpoint hid ref' hcredential).mpr (h route hroute endpoint hendpoint hid)

end Forwarder

end Drift

def boundEndpoint (ref : String) : EgressEndpoint :=
  ⟨"198.51.100.7", 1080, "socks5", "PRODUCTION", ref, "ASSIGNED", 1, 1, 7001⟩

/-- One routed subscription, bound to an endpoint with this reference of its own. -/
def boundView (ref : String) (override : Option String) : Database :=
  { Database.empty with
    endpoints := Table.empty.insert 1 (boundEndpoint ref)
    egressBindings := Table.empty.insert 1 ⟨1, 1, override, none⟩
    routeBindings := Table.empty.insert 1 ⟨1, 1, "sub-1", "egress-1", true, none⟩
    secrets := fun _ => some ⟨.text "s", controllerSecretPurpose, 1⟩ }

def boundTables : ForwarderTables where
  egressColumns _ := ⟨"e1", 1⟩
  egressGroups := Table.empty.insert 1 ⟨"g1", "ACTIVE"⟩
  routeGroups := .empty
  routeBindings := .empty
  routeEgressBindings := .empty
  trafficRules := .empty
  providers := .empty
  transportEndpoints := .empty
  assignments := .empty

def boundController : String := "192.0.2.1:9090"

theorem get_one {ρ : Type} {row r : ρ} {i : ℕ} (h : (Table.empty.insert 1 row).get i = some r) : i = 1 ∧ r = row := by
  by_cases hi : i = 1
  · exact ⟨hi, by simpa [hi] using h.symm⟩
  · simp [hi] at h

theorem boundView_constraints (ref : String) (override : Option String) :
    Constraints (boundView ref override) boundTables := by
  refine ⟨fun i j r s hr hs _ _ _ => (get_one hr).1.trans (get_one hs).1.symm,
    fun i j r s hr hs _ _ _ => (get_one hr).1.trans (get_one hs).1.symm, fun i j hi hj _ => ?_⟩
  obtain ⟨r, hr⟩ := Option.isSome_iff_exists.mp hi
  obtain ⟨s, hs⟩ := Option.isSome_iff_exists.mp hj
  exact (get_one hr).1.trans (get_one hs).1.symm

theorem boundView_bound (ref : String) (override : Option String) : EveryRouteBound (boundView ref override) := by
  intro route hroute
  have hget := Table.mem_entities.mp (List.mem_filter.mp hroute).1
  have hrow := (get_one hget).2
  refine ⟨⟨1, 1, 1, override, none⟩, Table.mem_entities.mpr rfl, rfl, ?_⟩
  rw [hrow]

def boundLoad (ref : String) (override : Option String) : Except Exn Forwarder.DesiredForwarderState :=
  loadCurrent (boundView ref override) boundTables (fun _ => loaderError "MIHOMO_MATERIALIZATION_RECEIPT_MISSING")
    boundController

/-- The reference of the endpoint has a blank before it. -/
theorem credentials_drift : ¬∀ (view : Database) (tables : ForwarderTables) (rows : List RouteRow)
    (state : DesiredRoutingState) (materialize : Entity TransportProviderRecord →
      Except Exn (Forwarder.TransportMaterialization × Forwarder.TransportMaterializationReference))
    (externalController : String) (desired : Forwarder.DesiredForwarderState), Constraints view tables →
    EveryRouteBound view → rows.Perm (joinedRows view) → fullDesiredRoutingSnapshot view rows = .ok state →
    loadCurrent view tables materialize externalController = .ok desired →
    ∀ endpointId ref ref', GatewaySelects view state endpointId ref →
      ForwarderSelects view tables desired endpointId ref' → ref = ref' := by
  intro h
  have hok : (boundLoad " shared" none).isOk = true := by decide +kernel
  have hx : fullDesiredRoutingSnapshot (boundView " shared" none) (joinedRows (boundView " shared" none)) =
      .ok ⟨[("sub-1", "egress-1")], [⟨"egress-1", "198.51.100.7", 1080, "socks5", " shared"⟩]⟩ := by decide +kernel
  cases hload : boundLoad " shared" none with
  | error e => simp [hload, Except.isOk, Except.toBool] at hok
  | ok desired =>
    have hc := boundView_constraints " shared" none
    have hgateway := (gatewaySelects_iff (.refl _) hx).mpr
      ⟨⟨1, 1, 1, "sub-1", "egress-1", true, none⟩, by decide, rfl, _, rfl, rfl⟩
    have hprojected : ⟨1, boundEndpoint " shared"⟩ ∈ projectedEndpoints (boundView " shared" none) boundTables := by
      decide +kernel
    have hcredential : egressCredential (boundEndpoint " shared")
        (((allBindings (boundView " shared" none)).find? fun b => b.row.egressId = 1).map Entity.row) =
        .ok "shared" := by decide +kernel
    have hforwarder := (forwarderSelects_iff hc hload).mpr ⟨_, hprojected, rfl, hcredential⟩
    have hsame : " shared" = "shared" :=
      h _ _ _ _ _ _ _ hc (boundView_bound _ _) (.refl _) hx hload 1 _ _ hgateway hforwarder
    exact absurd hsame (by decide)

/-- A binding with a credential of its own is used on both sides. -/
theorem same_credential_override : ∃ desired, boundLoad " shared" (some "own") = .ok desired ∧
    ∀ endpointId ref ref',
      GatewaySelects (boundView " shared" (some "own")) ⟨[("sub-1", "egress-1")],
        [⟨"egress-1", "198.51.100.7", 1080, "socks5", "own"⟩]⟩ endpointId ref →
      ForwarderSelects (boundView " shared" (some "own")) boundTables desired endpointId ref' → ref = ref' := by
  have hok : (boundLoad " shared" (some "own")).isOk = true := by decide +kernel
  have hx : fullDesiredRoutingSnapshot (boundView " shared" (some "own"))
      (joinedRows (boundView " shared" (some "own"))) =
      .ok ⟨[("sub-1", "egress-1")], [⟨"egress-1", "198.51.100.7", 1080, "socks5", "own"⟩]⟩ := by decide +kernel
  cases hload : boundLoad " shared" (some "own") with
  | error e => simp [hload, Except.isOk, Except.toBool] at hok
  | ok desired =>
    refine ⟨desired, rfl, (same_credential_iff (boundView_constraints _ _) (boundView_bound _ _) (.refl _) hx hload).mpr ?_⟩
    intro route hroute endpoint _ _
    have hrow := (get_one (Table.mem_entities.mp (List.mem_filter.mp hroute).1)).2
    refine .inl ⟨⟨1, 1, some "own", none⟩, ?_, rfl⟩
    rw [hrow]
    decide

end Lingsway.Routing

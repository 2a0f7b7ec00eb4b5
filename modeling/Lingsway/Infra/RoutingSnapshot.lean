import Lingsway.Infra.ProvisioningState
import Lingsway.Library.Reading

/-!
# The routing snapshot, row by row

The snapshot is read by an outer join, in whatever order the database returns
its rows, and by a second query for the bindings of the routed subscriptions.
What it returns is exact, whether or not the bindings are unique.
-/
namespace Lingsway.Routing

open Library Infra

structure RouteRow where
  route : Entity GatewayRouteBinding
  endpoint : Option EgressEndpoint
  binding : Option EgressBinding
  deriving Repr, DecidableEq

/-- The active bindings of the route's subscription to the route's endpoint. -/
def ownBindings (view : Database) (route : GatewayRouteBinding) : List EgressBinding :=
  (view.egressBindings.entities.map Entity.row).filter fun b =>
    b.active && b.subscriptionId = route.subscriptionId && b.egressId = route.egressId

/-- A row without a partner is joined to none. -/
def outer (bindings : List EgressBinding) : List (Option EgressBinding) :=
  if bindings = [] then [none] else bindings.map some

def projectedRoutes (view : Database) : List (Entity GatewayRouteBinding) :=
  view.routeBindings.entities.filter fun e => e.row.active

def joinedRows (view : Database) : List RouteRow :=
  (projectedRoutes view).flatMap fun route =>
    (outer (ownBindings view route.row)).map fun binding => ⟨route, view.endpoints.get route.row.egressId, binding⟩

/-- The active bindings of the routed subscriptions. -/
def activeBindings (view : Database) (rows : List RouteRow) : List EgressBinding :=
  (view.egressBindings.entities.map Entity.row).filter fun b =>
    b.active && (rows.map fun row => row.route.row.subscriptionId).contains b.subscriptionId

def check (ok : Bool) (code : String) : Except Exn Unit := if ok then .ok () else routingError code

theorem check_ok {ok : Bool} {code : String} {a : Unit} (h : check ok code = .ok a) : ok = true := by
  cases hok : ok with
  | true => rfl
  | false =>
    rw [hok] at h
    cases h

/-- Every exception is of the one class. -/
def Refuses {α : Type} (x : Except Exn α) : Prop := ∀ e, x = .error e → e.cls = .desiredRoutingStateError

theorem Refuses.bind {α β : Type} {x : Except Exn α} {k : α → Except Exn β} (hx : Refuses x)
    (hk : ∀ a, Refuses (k a)) : Refuses (x >>= k) := by
  intro e h
  obtain hfirst | ⟨a, _, hnext⟩ := Reading.bind_error h
  · exact hx e hfirst
  · exact hk a e hnext

/-- The endpoint of a row, after the checks of the route itself. -/
def routeEndpoint (state : DesiredRoutingState) (row : RouteRow) : Except Exn EgressEndpoint := do
  check (Text.strip row.route.row.gatewayPrincipal ≠ "") "ROUTE_PRINCIPAL_INVALID"
  check (Text.strip row.route.row.outboundTag ≠ "") "ROUTE_TAG_INVALID"
  check (row.route.row.outboundTag ≠ "BLOCK") "ROUTE_TAG_RESERVED"
  check (!(state.userRoutes.map Prod.fst).contains row.route.row.gatewayPrincipal) "ROUTE_PRINCIPAL_DUPLICATE"
  match row.endpoint with
  | none => routingError "ROUTE_ENDPOINT_MISSING"
  | some endpoint => .ok endpoint

/-- The binding's own credential, or the endpoint's as the fallback. -/
def selectedCredential (endpoint : EgressEndpoint) (binding : Option EgressBinding) : String :=
  match binding.bind EgressBinding.credentialSecretRef with
  | some ref => if ref = "" then endpoint.credentialSecretRef else ref
  | none => endpoint.credentialSecretRef

def outboundOf (route : GatewayRouteBinding) (endpoint : EgressEndpoint) (binding : Option EgressBinding) :
    XrayOutboundDTO :=
  ⟨route.outboundTag, endpoint.host, endpoint.port, endpoint.protocol, selectedCredential endpoint binding⟩

/-- One row of the loop. -/
def addRow (bindings : List EgressBinding) (state : DesiredRoutingState) (row : RouteRow) :
    Except Exn DesiredRoutingState := do
  let route := row.route.row
  let endpoint ← routeEndpoint state row
  check (!(bindings.any fun b => b.subscriptionId = route.subscriptionId && b.egressId ≠ route.egressId))
    "ROUTE_BINDING_EGRESS_MISMATCH"
  check (row.binding.all fun b => b.egressId = route.egressId) "ROUTE_BINDING_EGRESS_MISMATCH"
  check (Text.strip endpoint.host ≠ "") "ENDPOINT_HOST_INVALID"
  check (1 ≤ endpoint.port && endpoint.port ≤ 65535) "ENDPOINT_PORT_INVALID"
  check (["socks", "socks5"].contains (Text.lowerWord endpoint.protocol)) "ENDPOINT_PROTOCOL_UNSUPPORTED"
  check (selectedCredential endpoint row.binding ≠ "") "CREDENTIAL_REF_INVALID"
  check (!(state.outbounds.map XrayOutboundDTO.tag).contains route.outboundTag) "ROUTE_TAG_DUPLICATE"
  .ok ⟨state.userRoutes ++ [(route.gatewayPrincipal, route.outboundTag)],
    state.outbounds ++ [outboundOf route endpoint row.binding]⟩

/-- `full_desired_routing_snapshot`, over the rows as they are returned. -/
def fullDesiredRoutingSnapshot (view : Database) (rows : List RouteRow) : Except Exn DesiredRoutingState := do
  let state ← rows.foldlM (addRow (activeBindings view rows)) ⟨[], []⟩
  .ok ⟨state.userRoutes, state.outbounds.insertionSort fun a b => a.tag ≤ b.tag⟩

/-- What a row that is added has passed. -/
structure Added (bindings : List EgressBinding) (state : DesiredRoutingState) (row : RouteRow)
    (endpoint : EgressEndpoint) : Prop where
  joined : row.endpoint = some endpoint
  newPrincipal : row.route.row.gatewayPrincipal ∉ state.userRoutes.map Prod.fst
  newTag : row.route.row.outboundTag ∉ state.outbounds.map XrayOutboundDTO.tag
  consistent : ∀ b ∈ bindings, b.subscriptionId = row.route.row.subscriptionId → b.egressId = row.route.row.egressId
  credential : selectedCredential endpoint row.binding ≠ ""

theorem routeEndpoint_ok {state : DesiredRoutingState} {row : RouteRow} {endpoint : EgressEndpoint}
    (h : routeEndpoint state row = .ok endpoint) :
    row.endpoint = some endpoint ∧ row.route.row.gatewayPrincipal ∉ state.userRoutes.map Prod.fst := by
  obtain ⟨_, -, h⟩ := Reading.bind_ok h
  obtain ⟨_, -, h⟩ := Reading.bind_ok h
  obtain ⟨_, -, h⟩ := Reading.bind_ok h
  obtain ⟨_, hnew, h⟩ := Reading.bind_ok h
  have hprincipal : row.route.row.gatewayPrincipal ∉ state.userRoutes.map Prod.fst := by
    simpa using check_ok hnew
  cases hendpoint : row.endpoint with
  | none =>
    rw [hendpoint] at h
    cases h
  | some found =>
    rw [hendpoint] at h
    cases h
    exact ⟨rfl, hprincipal⟩

theorem addRow_ok {bindings : List EgressBinding} {state next : DesiredRoutingState} {row : RouteRow}
    (h : addRow bindings state row = .ok next) : ∃ endpoint, Added bindings state row endpoint ∧
      next = ⟨state.userRoutes ++ [(row.route.row.gatewayPrincipal, row.route.row.outboundTag)],
        state.outbounds ++ [outboundOf row.route.row endpoint row.binding]⟩ := by
  obtain ⟨endpoint, hendpoint, h⟩ := Reading.bind_ok h
  obtain ⟨_, hconsistent, h⟩ := Reading.bind_ok h
  obtain ⟨_, -, h⟩ := Reading.bind_ok h
  obtain ⟨_, -, h⟩ := Reading.bind_ok h
  obtain ⟨_, -, h⟩ := Reading.bind_ok h
  obtain ⟨_, -, h⟩ := Reading.bind_ok h
  obtain ⟨_, hcredential, h⟩ := Reading.bind_ok h
  obtain ⟨_, htag, h⟩ := Reading.bind_ok h
  cases h
  obtain ⟨hjoined, hprincipal⟩ := routeEndpoint_ok hendpoint
  refine ⟨endpoint, ⟨hjoined, hprincipal, ?_, ?_, ?_⟩, rfl⟩
  · simpa using check_ok htag
  · simpa using check_ok hconsistent
  · simpa using check_ok hcredential

def pairOf (row : RouteRow) : String × String := (row.route.row.gatewayPrincipal, row.route.row.outboundTag)

/-- The outbound that a row stands for, if its endpoint exists. -/
def expected (row : RouteRow) : Option XrayOutboundDTO :=
  row.endpoint.map fun endpoint => outboundOf row.route.row endpoint row.binding

/-- What the rows have added to a state. -/
structure Collected (bindings : List EgressBinding) (rows : List RouteRow) (state final : DesiredRoutingState) :
    Prop where
  userRoutes : final.userRoutes = state.userRoutes ++ rows.map pairOf
  outbounds : final.outbounds.map some = state.outbounds.map some ++ rows.map expected
  principals : (state.userRoutes.map Prod.fst).Nodup → (final.userRoutes.map Prod.fst).Nodup
  tags : (state.outbounds.map XrayOutboundDTO.tag).Nodup → (final.outbounds.map XrayOutboundDTO.tag).Nodup
  consistent : ∀ row ∈ rows, ∀ b ∈ bindings, b.subscriptionId = row.route.row.subscriptionId →
    b.egressId = row.route.row.egressId

theorem addRows_ok {bindings : List EgressBinding} {rows : List RouteRow} {state final : DesiredRoutingState}
    (h : rows.foldlM (addRow bindings) state = .ok final) : Collected bindings rows state final := by
  induction rows generalizing state with
  | nil =>
    cases h
    exact ⟨by simp, by simp, id, id, by simp⟩
  | cons row rows ih =>
    rw [List.foldlM_cons] at h
    obtain ⟨next, hrow, hrest⟩ := Reading.bind_ok h
    obtain ⟨endpoint, hadded, rfl⟩ := addRow_ok hrow
    have hcollected := ih hrest
    refine ⟨?_, ?_, ?_, ?_, ?_⟩
    · simp [hcollected.userRoutes, pairOf]
    · simp [hcollected.outbounds, expected, hadded.joined]
    · intro hnodup
      apply hcollected.principals
      rw [List.map_append]
      exact hnodup.append (List.nodup_singleton _) (by simpa using hadded.newPrincipal)
    · intro hnodup
      apply hcollected.tags
      rw [List.map_append]
      exact hnodup.append (List.nodup_singleton _) (by simpa [outboundOf] using hadded.newTag)
    · intro r hr b hb hsubscription
      obtain rfl | hr := List.mem_cons.mp hr
      · exact hadded.consistent b hb hsubscription
      · exact hcollected.consistent r hr b hb hsubscription

/-- The row of a route with at most one binding of its own. -/
def rowOf (view : Database) (route : Entity GatewayRouteBinding) : RouteRow :=
  ⟨route, view.endpoints.get route.row.egressId, (ownBindings view route.row).head?⟩

/-- The outbound of a route: its endpoint, and the credential of its own binding if there is one. -/
def routeOutbound (view : Database) (route : Entity GatewayRouteBinding) : Option XrayOutboundDTO :=
  (view.endpoints.get route.row.egressId).map fun endpoint =>
    outboundOf route.row endpoint (ownBindings view route.row).head?

theorem outer_single {bindings : List EgressBinding} (h : (outer bindings).length ≤ 1) :
    outer bindings = [bindings.head?] ∧ bindings.length ≤ 1 := by
  cases bindings with
  | nil => exact ⟨rfl, by simp⟩
  | cons b rest =>
    have hrest : rest = [] := by simpa [outer] using h
    simp [outer, hrest]

/-- A route that the join repeats repeats its principal. -/
theorem joined_single {view : Database}
    (h : ((joinedRows view).map fun row => row.route.row.gatewayPrincipal).Nodup) :
    ∀ route ∈ projectedRoutes view, (outer (ownBindings view route.row)).length ≤ 1 := by
  intro route hroute
  rw [joinedRows, List.map_flatMap, List.nodup_flatMap] at h
  have hinner := h.1 route hroute
  rw [List.map_map] at hinner
  have hconstant : (outer (ownBindings view route.row)).map
      ((fun row => row.route.row.gatewayPrincipal) ∘ fun binding =>
        (⟨route, view.endpoints.get route.row.egressId, binding⟩ : RouteRow)) =
      List.replicate (outer (ownBindings view route.row)).length route.row.gatewayPrincipal := by
    rw [List.eq_replicate_iff]
    simp
  rw [hconstant] at hinner
  exact List.nodup_replicate.mp hinner

theorem joinedRows_eq {view : Database}
    (h : ((joinedRows view).map fun row => row.route.row.gatewayPrincipal).Nodup) :
    joinedRows view = (projectedRoutes view).map (rowOf view) := by
  rw [joinedRows, List.map_eq_flatMap]
  apply List.flatMap_congr
  intro route hroute
  rw [(outer_single (joined_single h route hroute)).1]
  rfl

/-- The routes and the outbounds of a state stand for the projected routes, one for one. -/
structure Exact (view : Database) (state : DesiredRoutingState) : Prop where
  userRoutes : state.userRoutes.Perm
    ((projectedRoutes view).map fun route => (route.row.gatewayPrincipal, route.row.outboundTag))
  outbounds : (state.outbounds.map some).Perm ((projectedRoutes view).map (routeOutbound view))
  principals : (state.userRoutes.map Prod.fst).Nodup
  tags : (state.outbounds.map XrayOutboundDTO.tag).Nodup
  bindings : ∀ route ∈ projectedRoutes view, (ownBindings view route.row).length ≤ 1

theorem exact_of_ok {view : Database} {rows : List RouteRow} (hrows : rows.Perm (joinedRows view))
    {state : DesiredRoutingState} (h : fullDesiredRoutingSnapshot view rows = .ok state) : Exact view state := by
  obtain ⟨final, hfold, h⟩ := Reading.bind_ok h
  cases h
  have hcollected := addRows_ok hfold
  have hroutes : final.userRoutes = rows.map pairOf := hcollected.userRoutes
  have houtbounds : final.outbounds.map some = rows.map expected := hcollected.outbounds
  have hsorted : (final.outbounds.insertionSort fun a b => a.tag ≤ b.tag).Perm final.outbounds :=
    List.perm_insertionSort _ _
  have hprincipals := hcollected.principals List.nodup_nil
  have hjoined : ((joinedRows view).map fun row => row.route.row.gatewayPrincipal).Nodup := by
    apply (hrows.map _).nodup
    rw [hroutes, List.map_map] at hprincipals
    exact hprincipals
  have heq := joinedRows_eq hjoined
  refine ⟨?_, ?_, hprincipals, ?_, fun route hroute => (outer_single (joined_single hjoined route hroute)).2⟩
  · rw [hroutes]
    refine (hrows.map pairOf).trans ?_
    rw [heq, List.map_map]
    exact .refl _
  · refine (hsorted.map some).trans ?_
    rw [houtbounds]
    refine (hrows.map expected).trans ?_
    rw [heq, List.map_map]
    exact .refl _
  · exact (hsorted.map XrayOutboundDTO.tag).symm.nodup (hcollected.tags List.nodup_nil)

/-- The join drops no route. -/
theorem exists_row {view : Database} {rows : List RouteRow} (hrows : rows.Perm (joinedRows view))
    {route : Entity GatewayRouteBinding} (hroute : route ∈ projectedRoutes view) :
    ∃ row ∈ rows, row.route = route := by
  obtain ⟨binding, hbinding⟩ : ∃ binding, binding ∈ outer (ownBindings view route.row) := by
    cases hown : ownBindings view route.row with
    | nil => exact ⟨none, by simp [outer]⟩
    | cons b rest => exact ⟨some b, by simp [outer]⟩
  refine ⟨⟨route, view.endpoints.get route.row.egressId, binding⟩, ?_, rfl⟩
  rw [hrows.mem_iff, joinedRows, List.mem_flatMap]
  exact ⟨route, hroute, List.mem_map_of_mem hbinding⟩

/-- An active binding of a routed subscription to another endpoint is refused. -/
theorem refused_of_mismatch {view : Database} {rows : List RouteRow} (hrows : rows.Perm (joinedRows view))
    {route : Entity GatewayRouteBinding} (hroute : route ∈ projectedRoutes view) {b : Entity EgressBinding}
    (hb : b ∈ view.egressBindings.entities) (hactive : b.row.active = true)
    (hsubscription : b.row.subscriptionId = route.row.subscriptionId) (hegress : b.row.egressId ≠ route.row.egressId) :
    ∃ e, fullDesiredRoutingSnapshot view rows = .error e := by
  cases h : fullDesiredRoutingSnapshot view rows with
  | error e => exact ⟨e, rfl⟩
  | ok state =>
    obtain ⟨final, hfold, -⟩ := Reading.bind_ok h
    obtain ⟨row, hrow, hrowRoute⟩ := exists_row hrows hroute
    have hbinding : b.row ∈ activeBindings view rows := by
      have hrouted : b.row.subscriptionId ∈ rows.map fun row => row.route.row.subscriptionId :=
        List.mem_map.mpr ⟨row, hrow, by rw [hrowRoute, hsubscription]⟩
      rw [activeBindings, List.mem_filter]
      exact ⟨List.mem_map_of_mem hb, by simp [hactive, hrouted]⟩
    have hsame := (addRows_ok hfold).consistent row hrow b.row hbinding (by rw [hrowRoute, hsubscription])
    rw [hrowRoute] at hsame
    exact absurd hsame hegress

end Lingsway.Routing

import Lingsway.System

/-!
# The history of an endpoint

Endpoints are allocated, routed, released and set back to available, in any
order and for any subscriptions, one transaction after the other. An operation
that violates a unique key, or raises, changes nothing.
-/
namespace Lingsway.Infra

open Library

/-- `release_endpoint`: the route table is left alone. -/
def releaseEndpoint (view : Database) (subscriptionId endpointId : ℕ) (now : Timestamp) : Effect Unit :=
  match view.endpoints.get endpointId with
  | none => .done [] ()
  | some _ =>
    let unbind := match activeBindingOn view subscriptionId endpointId with
      | some binding => [.updateEgressBinding binding.id fun b => { b with releasedAt := some now }]
      | none => []
    .done (unbind ++ [.updateEndpoint endpointId fun e => { e with currentCount := 0, status := "AVAILABLE" }]) ()

def routeRelease (view : Database) (subscriptionId : ℕ) (now : Timestamp) : List Write :=
  match unreleasedRoute view subscriptionId with
  | some route => [.updateRouteBinding route.id fun r => { r with enabled := false, releasedAt := some now }]
  | none => []

def quarantine (view : Database) (endpointId : ℕ) : List Write :=
  match view.endpoints.get endpointId with
  | some _ => [.updateEndpoint endpointId fun e => { e with currentCount := 0, status := "QUARANTINED" }]
  | none => []

/-- `enqueue_gateway_reconciliation`: an intent that exists is left as it is. -/
def releaseIntent (view : Database) (subscriptionId orderId : ℕ) (operation : OperationId) (availableAt : Timestamp) :
    List Write :=
  match view.jobs.find (fun j => j.dedupeKey = .gatewayReconcile .release operation) with
  | some _ => []
  | none => [.insertJob view.jobs.next (newGatewayJob .release subscriptionId (some orderId) none operation availableAt)]

/-- What `release_egress` changes before its commit. -/
def releaseWrites (view : Database) (subscriptionId orderId : ℕ) (binding : Entity EgressBinding) (now : Timestamp)
    (operationId : Option String) (availableAt : Timestamp) : List Write :=
  .updateEgressBinding binding.id (fun b => { b with releasedAt := some now }) ::
    (routeRelease view subscriptionId now ++ quarantine view binding.row.egressId ++
      releaseIntent view subscriptionId orderId (Workers.releaseOperation subscriptionId binding.id operationId)
        availableAt)

/-- The transaction of `release_egress`. -/
def releaseEgress (view : Database) (subscriptionId : ℕ) (now : Timestamp) (operationId : Option String)
    (availableAt : Timestamp) : Effect Unit :=
  match view.subscriptions.get subscriptionId with
  | none => .fail ⟨.valueError, "Subscription not found"⟩
  | some subscription =>
    match activeBinding view subscriptionId with
    | none => .done [] ()
    | some binding =>
      if (view.jobs.find Database.unresolved).isSome then
        .fail ⟨.gatewayReconciliationBlocked,
          "an older gateway reconciliation is unresolved; recovery or manual " ++
          "resolution is required before a new projection mutation"⟩
      else .done (releaseWrites view subscriptionId subscription.orderId binding now operationId availableAt) ()

/-- An operator sets a quarantined endpoint back. -/
def reinstate (view : Database) (endpointId : ℕ) : Effect Unit :=
  match view.endpoints.get endpointId with
  | none => .done [] ()
  | some endpoint =>
    if endpoint.status = "QUARANTINED" then
      .done [.updateEndpoint endpointId fun e => { e with status := "AVAILABLE" }] ()
    else .done [] ()

inductive Operation where
  | allocateEndpoint (subscriptionId customerId : ℕ)
  | saveCredentials (subscriptionId : ℕ) (endpoint : EgressEndpointDTO) (credential : CredentialDTO)
  | ensureGatewayRouteBinding (subscriptionId : ℕ) (gatewayPrincipal : String) (endpoint : EgressEndpointDTO)
  | releaseEndpoint (subscriptionId endpointId : ℕ) (now : Timestamp)
  | releaseEgress (subscriptionId : ℕ) (now : Timestamp) (operationId : Option String) (availableAt : Timestamp)
  | reinstate (endpointId : ℕ)

/-- One transaction: its changes, when it ends well and keeps the unique keys. -/
def transact {α : Type} (db : Database) (effect : Effect α) : Except Exn α × Database :=
  match effect.result with
  | .error e => (.error e, db)
  | .ok a =>
    if (Write.applyAll effect.changes db).keysUnique then (.ok a, Write.applyAll effect.changes db)
    else (.error World.integrityError, db)

def Operation.run (db : Database) : Operation → Database
  | allocateEndpoint subscriptionId customerId => (transact db (Infra.allocateEndpoint db subscriptionId customerId)).2
  | saveCredentials subscriptionId endpoint credential =>
    (transact db (Infra.saveCredentials db subscriptionId endpoint credential)).2
  | ensureGatewayRouteBinding subscriptionId gatewayPrincipal endpoint =>
    (transact db (Infra.ensureGatewayRouteBinding db true subscriptionId gatewayPrincipal endpoint)).2
  | releaseEndpoint subscriptionId endpointId now => (transact db (Infra.releaseEndpoint db subscriptionId endpointId now)).2
  | releaseEgress subscriptionId now operationId availableAt =>
    (transact db (Infra.releaseEgress db subscriptionId now operationId availableAt)).2
  | reinstate endpointId => (transact db (Infra.reinstate db endpointId)).2

/-- Rows as `ensure_gateway_route_binding` and `release_egress` leave them. -/
def WellRouted (db : Database) : Prop :=
  ∀ id row, db.routeBindings.get id = some row →
    row.outboundTag = outboundTag row.egressId ∧ (row.unreleased = true → row.enabled = true)

/-- The states of the operations, with any changes elsewhere in between. -/
inductive Traded : Database → Prop
  | start {db : Database} (hkeys : db.keysUnique = true) (hrouted : WellRouted db) : Traded db
  | operate {db : Database} (h : Traded db) (operation : Operation) : Traded (operation.run db)
  | elsewhere {db db' : Database} (h : Traded db) (hkeys : db'.keysUnique = true)
      (hendpoints : db'.endpoints = db.endpoints) (hbindings : db'.egressBindings = db.egressBindings)
      (hroutes : db'.routeBindings = db.routeBindings) : Traded db'

/-- The route of the endpoint is made, and is its only active one. -/
def Sold (db : Database) (subscriptionId : ℕ) (gatewayPrincipal : String) (endpoint : EgressEndpointDTO) : Prop :=
  ∃ db', transact db (ensureGatewayRouteBinding db true subscriptionId gatewayPrincipal endpoint) = (.ok (), db') ∧
    ∃! id, ∃ row, db'.routeBindings.get id = some row ∧ row.active = true ∧ row.egressId = endpoint.endpointId

/-- But for the unreleased row of the subscription, no row names the endpoint, not even a released
one, and no active row has the principal. -/
def NeverRouted (db : Database) (subscriptionId : ℕ) (gatewayPrincipal : String) (endpoint : EgressEndpointDTO) : Prop :=
  ∀ id row, db.routeBindings.get id = some row → (row.subscriptionId = subscriptionId ∧ row.unreleased = true) ∨
    (row.egressId ≠ endpoint.endpointId ∧ (row.active = true → row.gatewayPrincipal ≠ gatewayPrincipal))

theorem distinct_iff_nodup {α : Type} [DecidableEq α] (xs : List α) : Database.distinct xs = true ↔ xs.Nodup := by
  induction xs with
  | nil => simp [Database.distinct]
  | cons a rest ih => simp [Database.distinct, ih]

/-- The unique keys of the route table. -/
structure RouteKeys (get : ℕ → Option GatewayRouteBinding) : Prop where
  tag : Table.UniqueKey get (fun _ => true) GatewayRouteBinding.outboundTag
  subscription : Table.UniqueKey get GatewayRouteBinding.active GatewayRouteBinding.subscriptionId
  egress : Table.UniqueKey get GatewayRouteBinding.active GatewayRouteBinding.egressId
  principal : Table.UniqueKey get GatewayRouteBinding.active GatewayRouteBinding.gatewayPrincipal

theorem routeKeys_iff {t : Table GatewayRouteBinding} :
    RouteKeys t.get ↔ (t.entities.map fun e => e.row.outboundTag).Nodup ∧
      ((t.entities.filter fun e => e.row.active).map fun e => e.row.subscriptionId).Nodup ∧
      ((t.entities.filter fun e => e.row.active).map fun e => e.row.egressId).Nodup ∧
      ((t.entities.filter fun e => e.row.active).map fun e => e.row.gatewayPrincipal).Nodup := by
  rw [Table.nodup_key (f := GatewayRouteBinding.outboundTag),
    Table.nodup_keys (p := GatewayRouteBinding.active) (f := GatewayRouteBinding.subscriptionId),
    Table.nodup_keys (p := GatewayRouteBinding.active) (f := GatewayRouteBinding.egressId),
    Table.nodup_keys (p := GatewayRouteBinding.active) (f := GatewayRouteBinding.gatewayPrincipal)]
  constructor
  · intro h
    exact ⟨h.tag, h.subscription, h.egress, h.principal⟩
  · rintro ⟨htag, hsubscription, hegress, hprincipal⟩
    exact ⟨htag, hsubscription, hegress, hprincipal⟩

theorem routeKeys_of_keysUnique {db : Database} (h : db.keysUnique = true) : RouteKeys db.routeBindings.get := by
  simp only [Database.keysUnique, Bool.and_eq_true, distinct_iff_nodup] at h
  exact routeKeys_iff.mpr ⟨h.1.1.1.2, h.1.1.2, h.1.2, h.2⟩

/-- Changes of the route table are accepted when they keep its own keys. -/
theorem keysUnique_routes {db : Database} (h : db.keysUnique = true) (t : Table GatewayRouteBinding) :
    ({ db with routeBindings := t }).keysUnique = true ↔ RouteKeys t.get := by
  rw [routeKeys_iff]
  simp only [Database.keysUnique, Bool.and_eq_true, distinct_iff_nodup] at h ⊢
  obtain ⟨⟨⟨⟨hrest, -⟩, -⟩, -⟩, -⟩ := h
  simp only [hrest, true_and, and_assoc]

theorem outboundTag_injective {i j : ℕ} (h : outboundTag i = outboundTag j) : i = j := by
  have hdigits : toString i = toString j := by simpa [outboundTag] using h
  simpa using hdigits

/-- A new or rewritten active row keeps the keys when no other row stands in its way. -/
theorem routeKeys_replaced {get : ℕ → Option GatewayRouteBinding} {own : ℕ} {row : GatewayRouteBinding}
    (h : RouteKeys get) (hactive : row.active = true) :
    RouteKeys (Table.replaced get own row) ↔ ∀ id r, id ≠ own → get id = some r → r.outboundTag ≠ row.outboundTag ∧
      (r.active = true → r.subscriptionId ≠ row.subscriptionId ∧ r.egressId ≠ row.egressId ∧
        r.gatewayPrincipal ≠ row.gatewayPrincipal) := by
  have htag := @Table.uniqueKey_replaced _ _ _ _ _ own row h.tag rfl
  have hsubscription := @Table.uniqueKey_replaced _ _ _ _ _ own _ h.subscription hactive
  have hegress := @Table.uniqueKey_replaced _ _ _ _ _ own _ h.egress hactive
  have hprincipal := @Table.uniqueKey_replaced _ _ _ _ _ own _ h.principal hactive
  constructor
  · intro hkeys id r hid hr
    exact ⟨htag.mp hkeys.tag id r hid hr rfl, fun hract => ⟨hsubscription.mp hkeys.subscription id r hid hr hract,
      hegress.mp hkeys.egress id r hid hr hract, hprincipal.mp hkeys.principal id r hid hr hract⟩⟩
  · intro hclear
    refine ⟨htag.mpr ?_, hsubscription.mpr ?_, hegress.mpr ?_, hprincipal.mpr ?_⟩
    · intro id r hid hr _
      exact (hclear id r hid hr).1
    · intro id r hid hr hract
      exact ((hclear id r hid hr).2 hract).1
    · intro id r hid hr hract
      exact ((hclear id r hid hr).2 hract).2.1
    · intro id r hid hr hract
      exact ((hclear id r hid hr).2 hract).2.2

/-- What `ensure_gateway_route_binding` writes: one active row of the subscription, in the place of its
unreleased one or new. -/
structure Ensured (db : Database) (subscriptionId : ℕ) (gatewayPrincipal : String) (endpoint : EgressEndpointDTO)
    (own : ℕ) (row : GatewayRouteBinding) : Prop where
  get : (Write.applyAll (ensureGatewayRouteBinding db true subscriptionId gatewayPrincipal endpoint).changes
    db).routeBindings.get = Table.replaced db.routeBindings.get own row
  active : row.active = true
  tag : row.outboundTag = outboundTag endpoint.endpointId
  subscription : row.subscriptionId = subscriptionId
  egress : row.egressId = endpoint.endpointId
  principal : row.gatewayPrincipal = gatewayPrincipal
  replaces : ∀ r, db.routeBindings.get own = some r → r.subscriptionId = subscriptionId ∧ r.unreleased = true
  only : ∀ id r, id ≠ own → db.routeBindings.get id = some r → r.subscriptionId = subscriptionId →
    r.unreleased = false

theorem active_iff {row : GatewayRouteBinding} :
    row.active = true ↔ row.enabled = true ∧ row.unreleased = true := by
  simp [GatewayRouteBinding.active, GatewayRouteBinding.unreleased]

variable {db : Database} {subscriptionId : ℕ} {gatewayPrincipal : String} {endpoint : EgressEndpointDTO}

theorem exists_ensured (hkeys : RouteKeys db.routeBindings.get) (hrouted : WellRouted db) :
    ∃ own row, Ensured db subscriptionId gatewayPrincipal endpoint own row := by
  cases hfound : unreleasedRoute db subscriptionId with
  | none =>
    have hnone := Table.find_eq_none.mp hfound
    refine ⟨db.routeBindings.next, ⟨subscriptionId, endpoint.endpointId, gatewayPrincipal,
      outboundTag endpoint.endpointId, true, none⟩, ?_, rfl, rfl, rfl, rfl, rfl, ?_, ?_⟩
    · simp only [ensureGatewayRouteBinding, Bool.not_true, Bool.false_eq_true, if_false, hfound]
      rfl
    · intro r hr
      exact absurd (Table.lt_next_of_get hr) (lt_irrefl _)
    · intro id r _ hr hsubscription
      simpa [hsubscription] using hnone id r hr
  | some route =>
    obtain ⟨hget, hmatch⟩ := Table.find_some hfound
    simp only [Bool.and_eq_true, decide_eq_true_eq] at hmatch
    obtain ⟨hsubscription, hunreleased⟩ := hmatch
    refine ⟨route.id, { route.row with
      egressId := endpoint.endpointId
      gatewayPrincipal := gatewayPrincipal
      outboundTag := outboundTag endpoint.endpointId
      enabled := true }, ?_, ?_, rfl, hsubscription, rfl, rfl, ?_, ?_⟩
    · simp only [ensureGatewayRouteBinding, Bool.not_true, Bool.false_eq_true, if_false, hfound]
      funext id
      simp only [Effect.changes_done, Write.applyAll_cons, Write.applyAll_nil, Write.apply, Table.get_modify,
        Table.replaced]
      split_ifs with hid
      · rw [hid, hget]
        rfl
      · rfl
    · exact active_iff.mpr ⟨rfl, hunreleased⟩
    · intro r hr
      rw [hget] at hr
      cases hr
      exact ⟨hsubscription, hunreleased⟩
    · intro id r hid hr hsame
      by_contra hopen
      have hactive : r.active = true :=
        active_iff.mpr ⟨(hrouted id r hr).2 (by simpa using hopen), by simpa using hopen⟩
      have hown : route.row.active = true := active_iff.mpr ⟨(hrouted route.id _ hget).2 hunreleased, hunreleased⟩
      exact hid (hkeys.subscription id route.id r route.row hr hget hactive hown (hsame.trans hsubscription.symm))

theorem Ensured.keys_iff {own : ℕ} {row : GatewayRouteBinding} (hkeys : db.keysUnique = true) (hrouted : WellRouted db)
    (h : Ensured db subscriptionId gatewayPrincipal endpoint own row) :
    RouteKeys (Table.replaced db.routeBindings.get own row) ↔
      NeverRouted db subscriptionId gatewayPrincipal endpoint := by
  rw [routeKeys_replaced (routeKeys_of_keysUnique hkeys) h.active, h.tag, h.subscription, h.egress, h.principal]
  constructor
  · intro hclear id r hr
    by_cases hid : id = own
    · exact .inl (h.replaces r (hid ▸ hr))
    · obtain ⟨htag, hactive⟩ := hclear id r hid hr
      refine .inr ⟨?_, fun hract => (hactive hract).2.2⟩
      intro hegress
      rw [(hrouted id r hr).1, hegress] at htag
      exact htag rfl
  · intro hnever id r hid hr
    have hreleased := h.only id r hid hr
    obtain ⟨hsubscription, hunreleased⟩ | ⟨hegress, hprincipal⟩ := hnever id r hr
    · rw [hreleased hsubscription] at hunreleased
      cases hunreleased
    · refine ⟨?_, fun hract => ⟨?_, hegress, hprincipal hract⟩⟩
      · rw [(hrouted id r hr).1]
        exact fun htag => hegress (outboundTag_injective htag)
      · intro hsubscription
        have hunreleased := (active_iff.mp hract).2
        rw [hreleased hsubscription] at hunreleased
        cases hunreleased

/-- The changes of the route are accepted when the route table keeps its keys. -/
theorem Ensured.accepted_iff {own : ℕ} {row : GatewayRouteBinding} (hkeys : db.keysUnique = true)
    (h : Ensured db subscriptionId gatewayPrincipal endpoint own row) :
    (Write.applyAll (ensureGatewayRouteBinding db true subscriptionId gatewayPrincipal endpoint).changes
      db).keysUnique = true ↔ RouteKeys (Table.replaced db.routeBindings.get own row) := by
  rw [← h.get]
  cases hfound : unreleasedRoute db subscriptionId with
  | none =>
    simp only [ensureGatewayRouteBinding, Bool.not_true, Bool.false_eq_true, if_false, hfound]
    exact keysUnique_routes hkeys _
  | some route =>
    simp only [ensureGatewayRouteBinding, Bool.not_true, Bool.false_eq_true, if_false, hfound]
    exact keysUnique_routes hkeys _

theorem transact_ok {α : Type} {db db' : Database} {effect : Effect α} {a : α} (hresult : effect.result = .ok a) :
    transact db effect = (.ok a, db') ↔
      (Write.applyAll effect.changes db).keysUnique = true ∧ Write.applyAll effect.changes db = db' := by
  simp only [transact, hresult]
  split_ifs with hkeys
  · simp [hkeys]
  · simp [hkeys]

theorem result_ensure : (ensureGatewayRouteBinding db true subscriptionId gatewayPrincipal endpoint).result = .ok () := by
  cases hfound : unreleasedRoute db subscriptionId <;> simp [ensureGatewayRouteBinding, hfound]

theorem sold_iff (hkeys : db.keysUnique = true) (hrouted : WellRouted db) :
    Sold db subscriptionId gatewayPrincipal endpoint ↔ NeverRouted db subscriptionId gatewayPrincipal endpoint := by
  obtain ⟨own, row, h⟩ := @exists_ensured _ subscriptionId gatewayPrincipal endpoint
    (routeKeys_of_keysUnique hkeys) hrouted
  rw [← h.keys_iff hkeys hrouted, ← h.accepted_iff hkeys]
  constructor
  · rintro ⟨db', htransact, -⟩
    exact ((transact_ok result_ensure).mp htransact).1
  · intro haccepted
    have hown : Table.replaced db.routeBindings.get own row own = some row := if_pos rfl
    refine ⟨_, (transact_ok result_ensure).mpr ⟨haccepted, rfl⟩, own, ⟨row, ?_, h.active, h.egress⟩, ?_⟩
    · rw [h.get]
      exact hown
    · rintro id ⟨r, hr, hract, hegress⟩
      rw [h.get] at hr
      have hroutes := (h.accepted_iff hkeys).mp haccepted
      exact hroutes.egress id own r row hr hown hract h.active (hegress.trans h.egress.symm)

/-- A transaction keeps what its changes keep. -/
theorem transact_keeps {α : Type} {P : Database → Prop} {effect : Effect α} (h : P db)
    (hchanges : (Write.applyAll effect.changes db).keysUnique = true → P (Write.applyAll effect.changes db)) :
    P (transact db effect).2 := by
  unfold transact
  split
  · exact h
  · split_ifs with hkeys
    · exact hchanges hkeys
    · exact h

/-- The keys are unique and the routes well formed. -/
structure Tidy (db : Database) : Prop where
  keys : db.keysUnique = true
  routed : WellRouted db

theorem WellRouted.of_same {db' : Database} (h : WellRouted db) (hsame : db'.routeBindings = db.routeBindings) :
    WellRouted db' := by
  intro id row hrow
  rw [hsame] at hrow
  exact h id row hrow

theorem tidy_transact {α : Type} {effect : Effect α} (h : Tidy db)
    (hrouted : WellRouted (Write.applyAll effect.changes db)) : Tidy (transact db effect).2 :=
  transact_keeps h fun hkeys => ⟨hkeys, hrouted⟩

/-- A change of another table, or of the release of a route. -/
def Write.keepsRoutes : Write → Bool
  | .insertRouteBinding .. => false
  | .updateRouteBinding .. => false
  | _ => true

theorem routeBindings_applyAll {ws : List Write} (h : ∀ c ∈ ws, Write.keepsRoutes c = true) (db : Database) :
    (Write.applyAll ws db).routeBindings = db.routeBindings := by
  induction ws generalizing db with
  | nil => rfl
  | cons c rest ih =>
    rw [Write.applyAll_cons, ih (fun c hc => h c (List.mem_cons_of_mem _ hc))]
    have hc := h c List.mem_cons_self
    cases c <;> first | rfl | cases hc

theorem wellRouted_applyAll {ws : List Write}
    (h : ∀ c ∈ ws, ∀ db, WellRouted db → WellRouted (Write.apply db c)) (hdb : WellRouted db) :
    WellRouted (Write.applyAll ws db) := by
  induction ws generalizing db with
  | nil => exact hdb
  | cons c rest ih =>
    exact ih (fun c hc => h c (List.mem_cons_of_mem _ hc)) (h c List.mem_cons_self db hdb)

theorem wellRouted_of_keeps {c : Write} (hc : Write.keepsRoutes c = true) (db : Database) (hdb : WellRouted db) :
    WellRouted (Write.apply db c) := by
  have hsame : (Write.applyAll [c] db).routeBindings = db.routeBindings := by
    refine routeBindings_applyAll ?_ db
    simpa using hc
  exact hdb.of_same hsame

theorem wellRouted_release (id : ℕ) (now : Timestamp) (db : Database) (hdb : WellRouted db) :
    WellRouted (Write.apply db
      (.updateRouteBinding id fun r => { r with enabled := false, releasedAt := some now })) := by
  intro j row hrow
  simp only [Write.apply, Table.get_modify] at hrow
  split_ifs at hrow with hj
  · obtain ⟨old, hold, rfl⟩ := Option.map_eq_some_iff.mp hrow
    exact ⟨(hdb j old hold).1, fun hunreleased => by simp [GatewayRouteBinding.unreleased] at hunreleased⟩
  · exact hdb j row hrow

theorem allocate_keepsRoutes (customerId : ℕ) :
    ∀ c ∈ (allocateEndpoint db subscriptionId customerId).changes, Write.keepsRoutes c = true := by
  unfold allocateEndpoint
  split_ifs
  · simp [stateError]
  · cases db.endpoints.find EgressEndpoint.allocatable with
    | none => simp [stateError]
    | some found =>
      cases activeBinding db subscriptionId with
      | none => simp [Write.keepsRoutes]
      | some binding => simp [Write.keepsRoutes]

theorem saveCredentials_keepsRoutes (credential : CredentialDTO) :
    ∀ c ∈ (saveCredentials db subscriptionId endpoint credential).changes, Write.keepsRoutes c = true := by
  intro c hc
  simp only [saveCredentials, Effect.changes_done, List.mem_append, List.mem_singleton] at hc
  obtain hc | rfl := hc
  · unfold putSecret at hc
    split at hc
    · rw [List.mem_singleton.mp hc]
      rfl
    · split_ifs at hc
      · cases hc
      · rw [List.mem_singleton.mp hc]
        rfl
  · unfold bindCredential
    split <;> rfl

theorem releaseEndpoint_keepsRoutes (endpointId : ℕ) (now : Timestamp) :
    ∀ c ∈ (releaseEndpoint db subscriptionId endpointId now).changes, Write.keepsRoutes c = true := by
  unfold releaseEndpoint
  cases db.endpoints.get endpointId with
  | none => simp
  | some row =>
    cases activeBindingOn db subscriptionId endpointId with
    | none => simp [Write.keepsRoutes]
    | some binding => simp [Write.keepsRoutes]

theorem reinstate_keepsRoutes (endpointId : ℕ) :
    ∀ c ∈ (reinstate db endpointId).changes, Write.keepsRoutes c = true := by
  unfold reinstate
  cases db.endpoints.get endpointId with
  | none => simp
  | some row =>
    by_cases hquarantined : row.status = "QUARANTINED"
    · simp [hquarantined, Write.keepsRoutes]
    · simp [hquarantined]

theorem releaseEgress_wellRouted (now : Timestamp) (operationId : Option String) (availableAt : Timestamp)
    (hdb : WellRouted db) :
    WellRouted (Write.applyAll (releaseEgress db subscriptionId now operationId availableAt).changes db) := by
  refine wellRouted_applyAll ?_ hdb
  intro c hc
  unfold releaseEgress at hc
  split at hc
  · cases hc
  · split at hc
    · cases hc
    · split_ifs at hc
      · cases hc
      · simp only [Effect.changes_done, releaseWrites, List.mem_cons, List.mem_append] at hc
        obtain rfl | (hc | hc) | hc := hc
        · exact wellRouted_of_keeps rfl
        · unfold routeRelease at hc
          split at hc
          · rw [List.mem_singleton.mp hc]
            exact wellRouted_release _ now
          · cases hc
        · unfold quarantine at hc
          split at hc
          · rw [List.mem_singleton.mp hc]
            exact wellRouted_of_keeps rfl
          · cases hc
        · unfold releaseIntent at hc
          split at hc
          · cases hc
          · rw [List.mem_singleton.mp hc]
            exact wellRouted_of_keeps rfl

theorem ensure_wellRouted (h : Tidy db) :
    WellRouted (Write.applyAll (ensureGatewayRouteBinding db true subscriptionId gatewayPrincipal endpoint).changes db) := by
  obtain ⟨own, row, hensured⟩ := @exists_ensured _ subscriptionId gatewayPrincipal endpoint
    (routeKeys_of_keysUnique h.keys) h.routed
  intro id r hr
  rw [hensured.get, Table.replaced] at hr
  split_ifs at hr with hid
  · cases hr
    exact ⟨by rw [hensured.tag, hensured.egress], fun _ => (active_iff.mp hensured.active).1⟩
  · exact h.routed id r hr

theorem tidy_run (h : Tidy db) (operation : Operation) : Tidy (operation.run db) := by
  have hkeeps : ∀ {ws : List Write}, (∀ c ∈ ws, Write.keepsRoutes c = true) → WellRouted (Write.applyAll ws db) :=
    fun hws => h.routed.of_same (routeBindings_applyAll hws db)
  cases operation with
  | allocateEndpoint subscriptionId customerId => exact tidy_transact h (hkeeps (allocate_keepsRoutes customerId))
  | saveCredentials subscriptionId endpoint credential =>
    exact tidy_transact h (hkeeps (saveCredentials_keepsRoutes credential))
  | ensureGatewayRouteBinding subscriptionId gatewayPrincipal endpoint =>
    exact tidy_transact h (ensure_wellRouted h)
  | releaseEndpoint subscriptionId endpointId now =>
    exact tidy_transact h (hkeeps (releaseEndpoint_keepsRoutes endpointId now))
  | releaseEgress subscriptionId now operationId availableAt =>
    exact tidy_transact h (releaseEgress_wellRouted now operationId availableAt h.routed)
  | reinstate endpointId => exact tidy_transact h (hkeeps (reinstate_keepsRoutes endpointId))

theorem Traded.tidy (h : Traded db) : Tidy db := by
  induction h with
  | start hkeys hrouted => exact ⟨hkeys, hrouted⟩
  | operate _ operation ih => exact tidy_run ih operation
  | elsewhere _ hkeys _ _ hroutes ih => exact ⟨hkeys, ih.routed.of_same hroutes⟩

/-- In every state an allocated endpoint can be sold when it was never routed before, and only then. -/
theorem resale_iff {db' : Database} {customerId : ℕ} (h : Traded db)
    (hallocated : transact db (allocateEndpoint db subscriptionId customerId) = (.ok endpoint, db')) :
    Sold db' subscriptionId gatewayPrincipal endpoint ↔ NeverRouted db subscriptionId gatewayPrincipal endpoint := by
  have htraded : Traded db' := by
    have hstep := h.operate (.allocateEndpoint subscriptionId customerId)
    simp only [Operation.run, hallocated] at hstep
    exact hstep
  have hsame : db'.routeBindings = db.routeBindings := by
    have hresult : (transact db (allocateEndpoint db subscriptionId customerId)).2.routeBindings = db.routeBindings := by
      refine transact_keeps (P := fun d : Database => d.routeBindings = db.routeBindings) rfl fun _ => ?_
      exact routeBindings_applyAll (allocate_keepsRoutes customerId) db
    rw [hallocated] at hresult
    exact hresult
  rw [sold_iff htraded.tidy.keys htraded.tidy.routed, NeverRouted, NeverRouted, hsame]

def soldCustomer (customerId : ℕ) : Subscription where
  customerId := customerId
  planId := 0
  orderId := customerId
  status := .provisioning
  routeGroupCode := "GLOBAL"
  serviceExpireAt := 0
  currentPeriodId := none
  reconcileState := .pending
  accountingUserId := none
  tokenHash := none
  tokenCreatedAt := none
  tokenRevokedAt := none
  provisionError := none

/-- Two customers and one endpoint. -/
def shop : Database :=
  { Database.empty with
    subscriptions := (Table.empty.insert 0 (soldCustomer 0)).insert 1 (soldCustomer 1)
    endpoints := Table.empty.insert 0 ⟨"10.0.0.1", 1080, "socks5", "PRODUCTION", "egress/0", "AVAILABLE", 1, 0, 20000⟩ }

theorem traded_shop : Traded shop := by
  refine .start (by decide +kernel) ?_
  intro id row hrow
  cases hrow

def shopEndpoint : EgressEndpointDTO := ⟨0, "10.0.0.1", 1080, "socks5", none⟩

/-- The first customer's use of the endpoint, up to its return to the shop. -/
def firstSale : List Operation :=
  [.allocateEndpoint 0 0, .saveCredentials 0 shopEndpoint ⟨"user", "password"⟩,
    .ensureGatewayRouteBinding 0 "1.alice" shopEndpoint, .releaseEgress 0 0 none 0, .reinstate 0]

theorem traded_foldl (h : Traded db) (operations : List Operation) :
    Traded (operations.foldl (fun db operation => operation.run db) db) := by
  induction operations generalizing db with
  | nil => exact h
  | cons operation rest ih => exact ih (h.operate operation)

def returned : Database := firstSale.foldl (fun db operation => operation.run db) shop

theorem resale_iff_shop : Sold (transact shop (allocateEndpoint shop 1 1)).2 1 "1.bob" shopEndpoint ↔
    NeverRouted shop 1 "1.bob" shopEndpoint :=
  resale_iff traded_shop (Prod.ext (by decide +kernel) rfl)

/-- The released route keeps the tag: the endpoint is allocated to a new subscription with a principal of
its own, and its route cannot be made. -/
theorem resale_refused : ¬ ∀ (db db' : Database) (subscriptionId customerId : ℕ) (gatewayPrincipal : String)
    (endpoint : EgressEndpointDTO), Traded db →
    (∀ id row, db.routeBindings.get id = some row → row.subscriptionId ≠ subscriptionId ∧
      row.gatewayPrincipal ≠ gatewayPrincipal) →
    transact db (allocateEndpoint db subscriptionId customerId) = (.ok endpoint, db') →
    Sold db' subscriptionId gatewayPrincipal endpoint := by
  intro h
  have hnew : ∀ id row, returned.routeBindings.get id = some row →
      row.subscriptionId ≠ 1 ∧ row.gatewayPrincipal ≠ "1.bob" := by
    have hrows : returned.routeBindings.entities.all
        (fun e => e.row.subscriptionId ≠ 1 && e.row.gatewayPrincipal ≠ "1.bob") = true := by decide +kernel
    intro id row hrow
    simpa using List.all_eq_true.mp hrows ⟨id, row⟩ (Table.mem_entities.mpr hrow)
  have hsold := h returned (transact returned (allocateEndpoint returned 1 1)).2 1 1 "1.bob" shopEndpoint
    (traded_foldl traded_shop firstSale) hnew (Prod.ext (by decide +kernel) rfl)
  obtain ⟨db'', htransact, -⟩ := hsold
  have hrefused : (transact (transact returned (allocateEndpoint returned 1 1)).2 (ensureGatewayRouteBinding
      (transact returned (allocateEndpoint returned 1 1)).2 true 1 "1.bob" shopEndpoint)).1 =
        .error World.integrityError := by decide +kernel
  rw [htransact] at hrefused
  cases hrefused

end Lingsway.Infra

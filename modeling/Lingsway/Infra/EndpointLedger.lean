import Lingsway.Infra.EndpointHistory

/-!
# Endpoints among purchases

Every purchase, and every retry of one, is an attempt with a session of its own:
it allocates an endpoint, stores the credentials of that endpoint, and ends in a
commit or a rollback. A failure that goes to manual review commits what was
allocated. Releases and returns are transactions of their own. Row locks are left
out: they make sessions wait, and the unique keys decide at the commit.
-/
namespace Lingsway.Endpoints

open Library Infra

/-- The session of a purchase. `allocated` is its endpoint, with the identifier that the flush
handed out to a new binding. -/
structure Attempt where
  subscriptionId : ℕ
  allocated : Option (EgressEndpointDTO × ℕ)
  pending : List Write

/-- The committed rows and the attempts in flight. -/
structure Ledger where
  database : Database
  attempts : ℕ → Option Attempt

namespace Ledger

/-- What an attempt sees. -/
def view (m : Ledger) (a : Attempt) : Database := Write.applyAll a.pending m.database

def set (m : Ledger) (i : ℕ) (a : Option Attempt) : Ledger := { m with attempts := Function.update m.attempts i a }

/-- Flush changes into the session of an attempt. Identifiers are handed out once. -/
def flush (m : Ledger) (i : ℕ) (a : Attempt) (changes : List Write) : Ledger :=
  { database := changes.foldl Write.reserve m.database
    attempts := Function.update m.attempts i (some { a with pending := a.pending ++ changes }) }

theorem attempts_set_self (m : Ledger) (i : ℕ) (a : Option Attempt) : (m.set i a).attempts i = a := by
  simp [set]

theorem attempts_set_ne (m : Ledger) {i j : ℕ} (a : Option Attempt) (h : j ≠ i) :
    (m.set i a).attempts j = m.attempts j := by
  simp [set, h]

def transacted (m : Ledger) (effect : Effect Unit) : Ledger := { m with database := (transact m.database effect).2 }

end Ledger

/-- A change of neither an endpoint nor a binding. -/
def Write.elsewhere : Write → Bool
  | .updateEndpoint .. => false
  | .insertEgressBinding .. => false
  | .updateEgressBinding .. => false
  | _ => true

/-- A step. A careful one allocates only for subscriptions that its session sees unbound, and releases
only endpoints that the subscription is bound to. -/
inductive Ledger.Step (careful : Bool) (m : Ledger) : Ledger → Prop
  | start (i subscriptionId : ℕ) (hattempt : m.attempts i = none) :
      Ledger.Step careful m (m.set i (some ⟨subscriptionId, none, []⟩))
  | allocateEndpoint (i : ℕ) {a : Attempt} (customerId : ℕ) {endpoint : EgressEndpointDTO}
      (hattempt : m.attempts i = some a) (hfirst : a.allocated = none)
      (hresult : (Infra.allocateEndpoint (m.view a) a.subscriptionId customerId).result = .ok endpoint)
      (hcareful : careful = true → activeBinding (m.view a) a.subscriptionId = none) :
      Ledger.Step careful m (m.flush i { a with allocated := some (endpoint, (m.view a).egressBindings.next) }
        (Infra.allocateEndpoint (m.view a) a.subscriptionId customerId).changes)
  | saveCredentials (i : ℕ) {a : Attempt} {endpoint : EgressEndpointDTO} {bindingId : ℕ} (credential : CredentialDTO)
      (hattempt : m.attempts i = some a) (hallocated : a.allocated = some (endpoint, bindingId)) :
      Ledger.Step careful m
        (m.flush i a (Infra.saveCredentials (m.view a) a.subscriptionId endpoint credential).changes)
  | write (i : ℕ) {a : Attempt} (changes : List Write) (hattempt : m.attempts i = some a)
      (helsewhere : ∀ c ∈ changes, Write.elsewhere c = true) : Ledger.Step careful m (m.flush i a changes)
  | commit (i : ℕ) {a : Attempt} (hattempt : m.attempts i = some a) (hkeys : (m.view a).keysUnique = true) :
      Ledger.Step careful m { (m.set i none) with database := m.view a }
  | rollback (i : ℕ) : Ledger.Step careful m (m.set i none)
  | releaseEndpoint (subscriptionId endpointId : ℕ) (now : Timestamp)
      (hcareful : careful = true → (activeBindingOn m.database subscriptionId endpointId).isSome = true) :
      Ledger.Step careful m (m.transacted (Infra.releaseEndpoint m.database subscriptionId endpointId now))
  | releaseEgress (subscriptionId : ℕ) (now : Timestamp) (operationId : Option String) (availableAt : Timestamp) :
      Ledger.Step careful m
        (m.transacted (Infra.releaseEgress m.database subscriptionId now operationId availableAt))
  | reinstate (endpointId : ℕ) : Ledger.Step careful m (m.transacted (Infra.reinstate m.database endpointId))

/-- An active binding refers to the endpoint. -/
def Bound (db : Database) (bindingId endpointId : ℕ) : Prop :=
  ∃ row, db.egressBindings.get bindingId = some row ∧ row.active = true ∧ row.egressId = endpointId

/-- An endpoint is marked assigned, with its count, when exactly one active binding refers to it, and
marked free when none does; no subscription has two active bindings. -/
structure Balanced (db : Database) : Prop where
  endpoint : ∀ id row, db.endpoints.get id = some row →
    (row.status = "ASSIGNED" ∧ row.currentCount = 1 ∧ ∃! bindingId, Bound db bindingId id) ∨
    (row.status ≠ "ASSIGNED" ∧ row.currentCount = 0 ∧ ∀ bindingId, ¬ Bound db bindingId id)
  subscription : Table.UniqueKey db.egressBindings.get EgressBinding.active EgressBinding.subscriptionId

/-- The runs from balanced rows. -/
inductive Ledger.Reachable (careful : Bool) : Ledger → Prop
  | start {db : Database} (hbalanced : Balanced db) : Ledger.Reachable careful ⟨db, fun _ => none⟩
  | step {m m' : Ledger} (h : Ledger.Reachable careful m) (hstep : m.Step careful m') : Ledger.Reachable careful m'

/-- What a binding says of its endpoint. -/
def holding (b : EgressBinding) : ℕ × ℕ × Option Timestamp := (b.subscriptionId, b.egressId, b.releasedAt)

def holdingAt (db : Database) (bindingId : ℕ) : Option (ℕ × ℕ × Option Timestamp) :=
  (db.egressBindings.get bindingId).map holding

theorem holdingAt_eq_none {db : Database} {id : ℕ} : holdingAt db id = none ↔ db.egressBindings.get id = none := by
  simp [holdingAt]

theorem bound_iff {db : Database} {bindingId endpointId : ℕ} :
    Bound db bindingId endpointId ↔ ∃ subscriptionId, holdingAt db bindingId = some (subscriptionId, endpointId, none) := by
  simp only [Bound, holdingAt, holding, Option.map_eq_some_iff, EgressBinding.active, Option.isNone_iff_eq_none]
  constructor
  · rintro ⟨row, hrow, hactive, rfl⟩
    exact ⟨row.subscriptionId, row, hrow, by rw [hactive]⟩
  · rintro ⟨subscriptionId, row, hrow, hholding⟩
    simp only [Prod.mk.injEq] at hholding
    exact ⟨row, hrow, hholding.2.2, hholding.2.1⟩

/-- No subscription has two active bindings. -/
theorem subscription_unique_iff {db : Database} :
    Table.UniqueKey db.egressBindings.get EgressBinding.active EgressBinding.subscriptionId ↔
      ∀ i j subscriptionId e f, holdingAt db i = some (subscriptionId, e, none) →
        holdingAt db j = some (subscriptionId, f, none) → i = j := by
  simp only [holdingAt, Option.map_eq_some_iff, holding, Prod.mk.injEq]
  constructor
  · rintro h i j _ e f ⟨r, hr, rfl, -, hrelease⟩ ⟨s, hs, hkey, -, hrelease'⟩
    exact h i j r s hr hs (by simp [EgressBinding.active, hrelease]) (by simp [EgressBinding.active, hrelease']) hkey.symm
  · intro h i j r s hr hs hract hsact hkey
    refine h i j r.subscriptionId r.egressId s.egressId ⟨r, hr, rfl, rfl, ?_⟩ ⟨s, hs, hkey.symm, rfl, ?_⟩
    · simpa [EgressBinding.active] using hract
    · simpa [EgressBinding.active] using hsact

/-- Neither endpoints nor what bindings say of them differ. -/
structure SameHoldings (db db' : Database) : Prop where
  endpoints : ∀ id, db'.endpoints.get id = db.endpoints.get id
  bindings : ∀ id, holdingAt db' id = holdingAt db id
  next : db'.egressBindings.next = db.egressBindings.next

/-- The endpoint is assigned to the subscription, by a new binding. -/
structure Occupied (endpointId bindingId subscriptionId : ℕ) (db db' : Database) : Prop where
  endpoints : ∀ id, db'.endpoints.get id =
    if id = endpointId then (db.endpoints.get id).map assignEndpoint else db.endpoints.get id
  bindings : ∀ id, holdingAt db' id =
    if id = bindingId then some (subscriptionId, endpointId, none) else holdingAt db id
  next : db'.egressBindings.next = max db.egressBindings.next (bindingId + 1)

/-- The binding is released, and its endpoint is not assigned any more. -/
structure Vacated (endpointId bindingId : ℕ) (db db' : Database) : Prop where
  endpoints : ∀ id, id ≠ endpointId → db'.endpoints.get id = db.endpoints.get id
  vacated : ∀ row, db'.endpoints.get endpointId = some row →
    row.status ≠ "ASSIGNED" ∧ row.currentCount = 0 ∧ (db.endpoints.get endpointId).isSome = true
  bindings : ∀ id, id ≠ bindingId → holdingAt db' id = holdingAt db id
  released : ∀ endpointId, ¬ Bound db' bindingId endpointId
  next : db'.egressBindings.next = db.egressBindings.next

section Holdings

variable {db db' db'' : Database} {endpointId bindingId subscriptionId : ℕ}

theorem SameHoldings.refl (db : Database) : SameHoldings db db := ⟨fun _ => rfl, fun _ => rfl, rfl⟩

theorem SameHoldings.trans (h : SameHoldings db db') (h' : SameHoldings db' db'') : SameHoldings db db'' :=
  ⟨fun id => (h'.endpoints id).trans (h.endpoints id), fun id => (h'.bindings id).trans (h.bindings id),
    h'.next.trans h.next⟩

theorem Occupied.same (h : Occupied endpointId bindingId subscriptionId db db') (h' : SameHoldings db' db'') :
    Occupied endpointId bindingId subscriptionId db db'' :=
  ⟨fun id => (h'.endpoints id).trans (h.endpoints id), fun id => (h'.bindings id).trans (h.bindings id),
    h'.next.trans h.next⟩

theorem SameHoldings.occupied (h : SameHoldings db db') (h' : Occupied endpointId bindingId subscriptionId db' db'') :
    Occupied endpointId bindingId subscriptionId db db'' := by
  refine ⟨?_, ?_, ?_⟩
  · intro id
    rw [h'.endpoints, h.endpoints]
  · intro id
    rw [h'.bindings, h.bindings]
  · rw [h'.next, h.next]

theorem bound_congr {id : ℕ} (h : holdingAt db' id = holdingAt db id) :
    Bound db' id endpointId ↔ Bound db id endpointId := by rw [bound_iff, bound_iff, h]

theorem elsewhere_same {c : Write} (h : Write.elsewhere c = true) (db : Database) : SameHoldings db (Write.apply db c) := by
  cases c <;> first | exact ⟨fun _ => rfl, fun _ => rfl, rfl⟩ | cases h

theorem credential_same (id : ℕ) (ref : String) (db : Database) :
    SameHoldings db (Write.apply db (.updateEgressBinding id fun b => { b with credentialSecretRef := some ref })) := by
  refine ⟨fun _ => rfl, ?_, rfl⟩
  intro j
  simp only [holdingAt, Write.apply, Table.get_modify]
  split_ifs
  · cases db.egressBindings.get j <;> rfl
  · rfl

theorem same_applyAll {ws : List Write} (h : ∀ c ∈ ws, ∀ db, SameHoldings db (Write.apply db c)) (db : Database) :
    SameHoldings db (Write.applyAll ws db) := by
  induction ws generalizing db with
  | nil => exact .refl db
  | cons c rest ih =>
    exact (h c List.mem_cons_self db).trans (ih (fun c hc => h c (List.mem_cons_of_mem _ hc)) _)

theorem occupied_allocation (db : Database) : Occupied endpointId bindingId subscriptionId db
    (Write.applyAll [.updateEndpoint endpointId assignEndpoint,
      .insertEgressBinding bindingId ⟨subscriptionId, endpointId, none, none⟩] db) := by
  refine ⟨fun _ => rfl, ?_, rfl⟩
  intro id
  simp only [holdingAt, Write.applyAll_cons, Write.applyAll_nil, Write.apply, Table.get_insert]
  split_ifs <;> rfl

theorem Balanced.same (h : Balanced db) (hendpoints : ∀ id, db'.endpoints.get id = db.endpoints.get id)
    (hbindings : ∀ id, holdingAt db' id = holdingAt db id) : Balanced db' := by
  refine ⟨?_, ?_⟩
  · intro id row hrow
    rw [hendpoints] at hrow
    have hbound : ∀ bindingId, Bound db' bindingId id ↔ Bound db bindingId id :=
      fun bindingId => bound_congr (hbindings bindingId)
    simp only [hbound]
    exact h.endpoint id row hrow
  · rw [subscription_unique_iff]
    intro i j subscriptionId e f hi hj
    rw [hbindings] at hi hj
    exact subscription_unique_iff.mp h.subscription i j subscriptionId e f hi hj

/-- The new binding is the only one of its endpoint, and of its subscription, by the unique keys. -/
theorem Balanced.occupied (h : Balanced db) (hoccupied : Occupied endpointId bindingId subscriptionId db db')
    (hnew : db.egressBindings.get bindingId = none) (hkeys : db'.keysUnique = true) : Balanced db' := by
  simp only [Database.keysUnique, Bool.and_eq_true, distinct_iff_nodup] at hkeys
  have hsubscription := Table.nodup_keys.mp hkeys.1.1.1.1.1.2
  have hegress := Table.nodup_keys.mp hkeys.1.1.1.1.2
  have hbound : Bound db' bindingId endpointId := by
    rw [bound_iff]
    exact ⟨subscriptionId, by rw [hoccupied.bindings, if_pos rfl]⟩
  have hother : ∀ id, id ≠ bindingId → holdingAt db' id = holdingAt db id :=
    fun id hid => by rw [hoccupied.bindings, if_neg hid]
  refine ⟨?_, hsubscription⟩
  intro id row hrow
  rw [hoccupied.endpoints] at hrow
  split_ifs at hrow with hid
  · obtain ⟨old, -, rfl⟩ := Option.map_eq_some_iff.mp hrow
    refine .inl ⟨rfl, rfl, bindingId, hid ▸ hbound, ?_⟩
    rintro other ⟨r, hr, hract, hregress⟩
    obtain ⟨s, hs, hsact, hsegress⟩ := hbound
    exact hegress other bindingId r s hr hs hract hsact (hregress.trans (hid.trans hsegress.symm))
  · have hsame : ∀ other, Bound db' other id ↔ Bound db other id := by
      intro other
      by_cases hother' : other = bindingId
      · rw [hother', bound_iff, bound_iff, hoccupied.bindings, if_pos rfl, holdingAt_eq_none.mpr hnew]
        simp [Ne.symm hid]
      · exact bound_congr (hother other hother')
    simp only [hsame]
    exact h.endpoint id row hrow

theorem Balanced.vacated (h : Balanced db) (hbound : Bound db bindingId endpointId)
    (hvacated : Vacated endpointId bindingId db db') : Balanced db' := by
  have hgone : ∀ id, id = bindingId → ∀ e subscriptionId, holdingAt db' id ≠ some (subscriptionId, e, none) :=
    fun id hid e subscriptionId hholding =>
      hvacated.released e (bound_iff.mpr ⟨subscriptionId, hid ▸ hholding⟩)
  refine ⟨?_, ?_⟩
  · intro id row hrow
    by_cases hid : id = endpointId
    · subst hid
      obtain ⟨hstatus, hcount, hstored⟩ := hvacated.vacated row hrow
      obtain ⟨old, hold⟩ := Option.isSome_iff_exists.mp hstored
      refine .inr ⟨hstatus, hcount, ?_⟩
      intro other hother
      by_cases hne : other = bindingId
      · exact hvacated.released id (hne ▸ hother)
      · rw [bound_congr (hvacated.bindings other hne)] at hother
        obtain ⟨-, -, hunique⟩ | ⟨-, -, hnone⟩ := h.endpoint id old hold
        · exact hne (hunique.unique hother hbound)
        · exact hnone bindingId hbound
    · rw [hvacated.endpoints id hid] at hrow
      have hsame : ∀ other, Bound db' other id ↔ Bound db other id := by
        intro other
        by_cases hother : other = bindingId
        · subst hother
          refine iff_of_false (hvacated.released id) ?_
          rintro ⟨r, hr, -, hregress⟩
          obtain ⟨s, hs, -, hsegress⟩ := hbound
          rw [hr] at hs
          cases hs
          exact hid (hregress.symm.trans hsegress)
        · exact bound_congr (hvacated.bindings other hother)
      simp only [hsame]
      exact h.endpoint id row hrow
  · rw [subscription_unique_iff]
    intro i j subscriptionId e f hi hj
    have hine : i ≠ bindingId := fun hne => hgone i hne _ _ hi
    have hjne : j ≠ bindingId := fun hne => hgone j hne _ _ hj
    rw [hvacated.bindings i hine] at hi
    rw [hvacated.bindings j hjne] at hj
    exact subscription_unique_iff.mp h.subscription i j subscriptionId e f hi hj

end Holdings

section Effects

variable {db : Database} {subscriptionId : ℕ}

theorem find_activeBindingOn {endpointId bindingId : ℕ}
    (h : holdingAt db bindingId = some (subscriptionId, endpointId, none)) :
    ∃ binding, activeBindingOn db subscriptionId endpointId = some binding := by
  obtain ⟨row, hrow, hholding⟩ := Option.map_eq_some_iff.mp h
  simp only [holding, Prod.mk.injEq] at hholding
  exact Table.find_isSome hrow (by simp [EgressBinding.active, hholding])

theorem bound_of_activeBindingOn {endpointId : ℕ} {binding : Entity EgressBinding}
    (h : activeBindingOn db subscriptionId endpointId = some binding) : Bound db binding.id endpointId := by
  obtain ⟨hget, hmatch⟩ := Table.find_some h
  simp only [Bool.and_eq_true, decide_eq_true_eq] at hmatch
  exact ⟨binding.row, hget, hmatch.2, hmatch.1.2⟩

theorem bound_of_activeBinding {binding : Entity EgressBinding} (h : activeBinding db subscriptionId = some binding) :
    Bound db binding.id binding.row.egressId := by
  obtain ⟨hget, hmatch⟩ := Table.find_some h
  simp only [Bool.and_eq_true, decide_eq_true_eq] at hmatch
  exact ⟨binding.row, hget, hmatch.2, rfl⟩

/-- An allocation for a subscription without a binding adds one. -/
theorem allocate_changes {customerId : ℕ} {endpoint : EgressEndpointDTO}
    (hresult : (allocateEndpoint db subscriptionId customerId).result = .ok endpoint)
    (hunbound : activeBinding db subscriptionId = none) :
    (allocateEndpoint db subscriptionId customerId).changes =
      [.updateEndpoint endpoint.endpointId assignEndpoint,
        .insertEgressBinding db.egressBindings.next ⟨subscriptionId, endpoint.endpointId, none, none⟩] := by
  unfold allocateEndpoint at hresult ⊢
  split_ifs at hresult ⊢ with hmismatch
  · cases hresult
  · cases hfound : db.endpoints.find EgressEndpoint.allocatable with
    | none =>
      rw [hfound] at hresult
      cases hresult
    | some found =>
      simp only [hfound, hunbound, Effect.result_done, Except.ok.injEq] at hresult ⊢
      subst hresult
      rfl

/-- The credentials of a bound endpoint change nothing else. -/
theorem saveCredentials_same {endpoint : EgressEndpointDTO} (credential : CredentialDTO) {bindingId : ℕ}
    (h : holdingAt db bindingId = some (subscriptionId, endpoint.endpointId, none)) :
    ∀ c ∈ (saveCredentials db subscriptionId endpoint credential).changes, ∀ db',
      SameHoldings db' (Write.apply db' c) := by
  intro c hc
  simp only [saveCredentials, Effect.changes_done, List.mem_append, List.mem_singleton] at hc
  obtain hc | rfl := hc
  · unfold putSecret at hc
    split at hc
    · rw [List.mem_singleton.mp hc]
      exact elsewhere_same rfl
    · split_ifs at hc
      · cases hc
      · rw [List.mem_singleton.mp hc]
        exact elsewhere_same rfl
  · obtain ⟨binding, hbinding⟩ := find_activeBindingOn h
    rw [bindCredential, hbinding]
    exact credential_same binding.id _

theorem holdingAt_release (bindingId id : ℕ) (now : Timestamp) :
    holdingAt (Write.apply db (.updateEgressBinding bindingId fun b => { b with releasedAt := some now })) id =
      if id = bindingId then (holdingAt db id).map fun h => (h.1, h.2.1, some now) else holdingAt db id := by
  simp only [holdingAt, Write.apply, Table.get_modify]
  split_ifs
  · cases db.egressBindings.get id <;> rfl
  · rfl

/-- The release of a binding and of its endpoint, with changes elsewhere around them. -/
theorem vacated_of_writes {bindingId endpointId : ℕ} {now : Timestamp} {status : String} {before after : List Write}
    (hstatus : status ≠ "ASSIGNED") (hbefore : ∀ c ∈ before, Write.elsewhere c = true)
    (hafter : ∀ c ∈ after, Write.elsewhere c = true) :
    Vacated endpointId bindingId db (Write.applyAll (.updateEgressBinding bindingId
      (fun b => { b with releasedAt := some now }) :: (before ++ .updateEndpoint endpointId
        (fun e => { e with currentCount := 0, status := status }) :: after)) db) := by
  have hfirst := same_applyAll (fun c hc => elsewhere_same (hbefore c hc))
    (Write.apply db (.updateEgressBinding bindingId fun b => { b with releasedAt := some now }))
  simp only [Write.applyAll_cons, Write.applyAll_append]
  have hlast := same_applyAll (fun c hc => elsewhere_same (hafter c hc)) (Write.apply (Write.applyAll before
    (Write.apply db (.updateEgressBinding bindingId fun b => { b with releasedAt := some now })))
    (.updateEndpoint endpointId fun e => { e with currentCount := 0, status := status }))
  have hholding : ∀ id, holdingAt (Write.applyAll after (Write.apply (Write.applyAll before
      (Write.apply db (.updateEgressBinding bindingId fun b => { b with releasedAt := some now })))
      (.updateEndpoint endpointId fun e => { e with currentCount := 0, status := status }))) id =
        if id = bindingId then (holdingAt db id).map fun h => (h.1, h.2.1, some now) else holdingAt db id := by
    intro id
    rw [hlast.bindings, ← holdingAt_release, ← hfirst.bindings]
    rfl
  refine ⟨?_, ?_, ?_, ?_, ?_⟩
  · intro id hid
    rw [hlast.endpoints]
    simp only [Write.apply, Table.get_modify, if_neg hid]
    exact hfirst.endpoints id
  · intro row hrow
    rw [hlast.endpoints] at hrow
    simp only [Write.apply, Table.get_modify, if_true, Option.map_eq_some_iff] at hrow
    obtain ⟨old, hold, rfl⟩ := hrow
    have hstored := hfirst.endpoints endpointId
    simp only [Write.apply] at hstored
    rw [hold] at hstored
    exact ⟨hstatus, rfl, by rw [← hstored]; rfl⟩
  · intro id hid
    rw [hholding, if_neg hid]
  · intro e hbound
    obtain ⟨s, hs⟩ := bound_iff.mp hbound
    rw [hholding, if_pos rfl] at hs
    obtain ⟨old, -, hold⟩ := Option.map_eq_some_iff.mp hs
    simp at hold
  · rw [hlast.next]
    exact hfirst.next

/-- The release of a binding whose endpoint is missing. -/
theorem vacated_of_missing {bindingId endpointId : ℕ} {now : Timestamp} {after : List Write}
    (hmissing : db.endpoints.get endpointId = none) (hafter : ∀ c ∈ after, Write.elsewhere c = true) :
    Vacated endpointId bindingId db (Write.applyAll (.updateEgressBinding bindingId
      (fun b => { b with releasedAt := some now }) :: after) db) := by
  have hlast := same_applyAll (fun c hc => elsewhere_same (hafter c hc))
    (Write.apply db (.updateEgressBinding bindingId fun b => { b with releasedAt := some now }))
  rw [Write.applyAll_cons]
  refine ⟨fun id _ => hlast.endpoints id, ?_, ?_, ?_, hlast.next⟩
  · intro row hrow
    rw [hlast.endpoints] at hrow
    simp only [Write.apply, hmissing] at hrow
    cases hrow
  · intro id hid
    rw [hlast.bindings, holdingAt_release, if_neg hid]
  · intro e hbound
    obtain ⟨s, hs⟩ := bound_iff.mp hbound
    rw [hlast.bindings, holdingAt_release, if_pos rfl] at hs
    obtain ⟨old, -, hold⟩ := Option.map_eq_some_iff.mp hs
    simp at hold

theorem routeRelease_elsewhere (now : Timestamp) : ∀ c ∈ routeRelease db subscriptionId now, Write.elsewhere c = true := by
  intro c hc
  unfold routeRelease at hc
  split at hc
  · rw [List.mem_singleton.mp hc]
    rfl
  · cases hc

theorem releaseIntent_elsewhere (orderId : ℕ) (operation : OperationId) (availableAt : Timestamp) :
    ∀ c ∈ releaseIntent db subscriptionId orderId operation availableAt, Write.elsewhere c = true := by
  intro c hc
  unfold releaseIntent at hc
  split at hc
  · cases hc
  · rw [List.mem_singleton.mp hc]
    rfl

theorem vacated_releaseWrites {binding : Entity EgressBinding} (orderId : ℕ) (now : Timestamp)
    (operationId : Option String) (availableAt : Timestamp) :
    Vacated binding.row.egressId binding.id db (Write.applyAll
      (releaseWrites db subscriptionId orderId binding now operationId availableAt) db) := by
  have hroute := @routeRelease_elsewhere db subscriptionId now
  have hintent := @releaseIntent_elsewhere db subscriptionId orderId
    (Workers.releaseOperation subscriptionId binding.id operationId) availableAt
  unfold releaseWrites
  cases hendpoint : db.endpoints.get binding.row.egressId with
  | none =>
    refine vacated_of_missing hendpoint ?_
    simp only [quarantine, hendpoint, List.append_nil, List.mem_append]
    rintro c (hc | hc)
    · exact hroute c hc
    · exact hintent c hc
  | some row =>
    simp only [quarantine, hendpoint, List.append_assoc, List.cons_append, List.nil_append]
    exact vacated_of_writes (by decide) hroute hintent

/-- `release_egress` changes nothing, or vacates the endpoint of a binding. -/
theorem releaseEgress_cases (now : Timestamp) (operationId : Option String) (availableAt : Timestamp) :
    (releaseEgress db subscriptionId now operationId availableAt).changes = [] ∨
      ∃ endpointId bindingId, Bound db bindingId endpointId ∧ Vacated endpointId bindingId db
        (Write.applyAll (releaseEgress db subscriptionId now operationId availableAt).changes db) := by
  unfold releaseEgress
  cases db.subscriptions.get subscriptionId with
  | none => exact .inl rfl
  | some subscription =>
    cases hfound : activeBinding db subscriptionId with
    | none => exact .inl rfl
    | some binding =>
      by_cases hblocked : (db.jobs.find Database.unresolved).isSome = true
      · simp only [hblocked, if_true]
        exact .inl rfl
      · simp only [hblocked]
        exact .inr ⟨_, binding.id, bound_of_activeBinding hfound, vacated_releaseWrites _ now operationId availableAt⟩

theorem releaseEndpoint_cases {endpointId : ℕ} (now : Timestamp)
    (hbound : (activeBindingOn db subscriptionId endpointId).isSome = true) :
    (releaseEndpoint db subscriptionId endpointId now).changes = [] ∨
      ∃ bindingId, Bound db bindingId endpointId ∧ Vacated endpointId bindingId db
        (Write.applyAll (releaseEndpoint db subscriptionId endpointId now).changes db) := by
  obtain ⟨binding, hbinding⟩ := Option.isSome_iff_exists.mp hbound
  unfold releaseEndpoint
  cases db.endpoints.get endpointId with
  | none => exact .inl rfl
  | some row =>
    simp only [hbinding]
    have hnone : ∀ c ∈ ([] : List Write), Write.elsewhere c = true := by simp
    have hvacated := @vacated_of_writes db binding.id endpointId now "AVAILABLE" [] [] (by decide) hnone hnone
    exact .inr ⟨binding.id, bound_of_activeBindingOn hbinding, hvacated⟩

theorem Balanced.reinstated (h : Balanced db) (endpointId : ℕ) :
    Balanced (Write.applyAll (reinstate db endpointId).changes db) := by
  unfold reinstate
  cases hendpoint : db.endpoints.get endpointId with
  | none => exact h
  | some row =>
    by_cases hquarantined : row.status = "QUARANTINED"
    · simp only [hquarantined, if_true, Effect.changes_done]
      refine ⟨?_, h.subscription⟩
      intro id r hr
      simp only [Write.applyAll_cons, Write.applyAll_nil, Write.apply, Table.get_modify] at hr
      split_ifs at hr with hid
      · subst hid
        rw [hendpoint] at hr
        cases hr
        obtain ⟨hstatus, -, -⟩ | ⟨-, hcount, hfree⟩ := h.endpoint id row hendpoint
        · rw [hquarantined] at hstatus
          exact absurd hstatus (by decide)
        · have hstatus : "AVAILABLE" ≠ "ASSIGNED" := by decide
          exact .inr ⟨hstatus, hcount, hfree⟩
      · exact h.endpoint id r hr
    · simp only [hquarantined, if_false, Effect.changes_done]
      exact h

end Effects

/-- The pending changes of an attempt allocate its endpoint by a new binding, or nothing. -/
structure Attempt.Sound (a : Attempt) (db : Database) : Prop where
  unallocated : a.allocated = none → ∀ db, SameHoldings db (Write.applyAll a.pending db)
  allocated : ∀ endpoint bindingId, a.allocated = some (endpoint, bindingId) →
    bindingId < db.egressBindings.next ∧ db.egressBindings.get bindingId = none ∧
      ∀ db, Occupied endpoint.endpointId bindingId a.subscriptionId db (Write.applyAll a.pending db)

structure Invariant (m : Ledger) : Prop where
  balanced : Balanced m.database
  sound : ∀ i a, m.attempts i = some a → a.Sound m.database
  distinct : ∀ i j a b x y, i ≠ j → m.attempts i = some a → m.attempts j = some b → a.allocated = some x →
    b.allocated = some y → x.2 ≠ y.2

section Invariant

variable {m : Ledger}

theorem Attempt.Sound.advance {a : Attempt} {db db' : Database} (h : a.Sound db)
    (hnext : db.egressBindings.next ≤ db'.egressBindings.next)
    (hnone : ∀ x, a.allocated = some x → db.egressBindings.get x.2 = none → db'.egressBindings.get x.2 = none) :
    a.Sound db' := by
  refine ⟨h.unallocated, ?_⟩
  intro endpoint bindingId hallocated
  obtain ⟨hlt, hget, hoccupied⟩ := h.allocated endpoint bindingId hallocated
  exact ⟨hlt.trans_le hnext, hnone _ hallocated hget, hoccupied⟩

/-- The committed rows change, and no attempt does. -/
theorem Invariant.advance (h : Invariant m) {db : Database} (hbalanced : Balanced db)
    (hnext : m.database.egressBindings.next ≤ db.egressBindings.next)
    (hnone : ∀ id, m.database.egressBindings.get id = none → db.egressBindings.get id = none) :
    Invariant { m with database := db } := by
  refine ⟨hbalanced, ?_, h.distinct⟩
  intro i a ha
  exact (h.sound i a ha).advance hnext fun x _ hget => hnone x.2 hget

theorem Invariant.set_none (h : Invariant m) (i : ℕ) : Invariant (m.set i none) := by
  have hold : ∀ j b, (m.set i none).attempts j = some b → m.attempts j = some b := by
    intro j b hb
    by_cases hj : j = i
    · rw [hj, m.attempts_set_self] at hb
      cases hb
    · rwa [m.attempts_set_ne none hj] at hb
  refine ⟨h.balanced, fun j b hb => h.sound j b (hold j b hb), ?_⟩
  intro j k b c x y hne hb hc
  exact h.distinct j k b c x y hne (hold j b hb) (hold k c hc)

/-- An attempt is replaced by one that is sound and shares no binding. -/
theorem Invariant.set_some (h : Invariant m) {i : ℕ} {a : Attempt} (hsound : a.Sound m.database)
    (hdistinct : ∀ j b x y, j ≠ i → m.attempts j = some b → a.allocated = some x → b.allocated = some y →
      x.2 ≠ y.2) : Invariant (m.set i (some a)) := by
  have hcases : ∀ j b, (m.set i (some a)).attempts j = some b → j = i ∧ b = a ∨ j ≠ i ∧ m.attempts j = some b := by
    intro j b hb
    by_cases hj : j = i
    · rw [hj, m.attempts_set_self] at hb
      cases hb
      exact .inl ⟨hj, rfl⟩
    · rw [m.attempts_set_ne (some a) hj] at hb
      exact .inr ⟨hj, hb⟩
  refine ⟨h.balanced, ?_, ?_⟩
  · intro j b hb
    obtain ⟨-, rfl⟩ | ⟨-, hb⟩ := hcases j b hb
    · exact hsound
    · exact h.sound j b hb
  · intro j k b c x y hne hb hc hx hy
    obtain ⟨hj, hba⟩ | ⟨hj, hb'⟩ := hcases j b hb
    · obtain ⟨hk, -⟩ | ⟨hk, hc'⟩ := hcases k c hc
      · exact absurd (hj.trans hk.symm) hne
      · exact hdistinct k c x y hk hc' (hba ▸ hx) hy
    · obtain ⟨hk, hca⟩ | ⟨hk, hc'⟩ := hcases k c hc
      · exact (hdistinct j b y x hj hb' (hca ▸ hy) hx).symm
      · exact h.distinct j k b c x y hne hb' hc' hx hy

theorem Balanced.rows {db db' : Database} (h : Balanced db) (hrows : Database.SameRows db db') : Balanced db' :=
  h.same hrows.endpoints fun id => by rw [holdingAt, holdingAt, hrows.egressBindings]

theorem next_reserve (ws : List Write) (db : Database) :
    db.egressBindings.next ≤ (ws.foldl Write.reserve db).egressBindings.next := by
  induction ws generalizing db with
  | nil => exact le_refl _
  | cons c rest ih =>
    have hfirst : db.egressBindings.next ≤ (Write.reserve db c).egressBindings.next := by
      cases c <;> first | exact le_refl _ | exact Nat.le_succ _
    exact hfirst.trans (ih _)

/-- A flush by an attempt that stays sound. -/
theorem Invariant.flush (h : Invariant m) {i : ℕ} {a : Attempt} {changes : List Write}
    (hsound : ({ a with pending := a.pending ++ changes } : Attempt).Sound (changes.foldl Write.reserve m.database))
    (hdistinct : ∀ j b x y, j ≠ i → m.attempts j = some b → a.allocated = some x → b.allocated = some y →
      x.2 ≠ y.2) : Invariant (m.flush i a changes) := by
  have hrows := Database.SameRows.reserveAll m.database changes
  have hadvanced := h.advance (h.balanced.rows hrows) (next_reserve changes m.database)
    fun id hget => by rw [hrows.egressBindings, hget]
  exact hadvanced.set_some (i := i) hsound hdistinct

theorem Attempt.Sound.free {a : Attempt} {db : Database} (h : a.Sound db) {x : EgressEndpointDTO × ℕ}
    (hx : a.allocated = some x) : x.2 < db.egressBindings.next := (h.allocated x.1 x.2 hx).1

/-- Changes that leave endpoints and bindings alone keep an attempt sound. -/
theorem Attempt.Sound.append {a : Attempt} {db : Database} (h : a.Sound db) {changes : List Write}
    (hsame : ∀ c ∈ changes, ∀ db, SameHoldings db (Write.apply db c)) :
    ({ a with pending := a.pending ++ changes } : Attempt).Sound (changes.foldl Write.reserve db) := by
  have hrows := Database.SameRows.reserveAll db changes
  refine ⟨?_, ?_⟩
  · intro hnone db'
    rw [Write.applyAll_append]
    exact (h.unallocated hnone db').trans (same_applyAll hsame _)
  · intro endpoint bindingId hallocated
    obtain ⟨hlt, hget, hoccupied⟩ := h.allocated endpoint bindingId hallocated
    refine ⟨hlt.trans_le (next_reserve changes db), by rw [hrows.egressBindings, hget], ?_⟩
    intro db'
    rw [Write.applyAll_append]
    exact (hoccupied db').same (same_applyAll hsame _)

theorem Invariant.distinct_of (h : Invariant m) {i : ℕ} {a : Attempt} (ha : m.attempts i = some a) :
    ∀ j b x y, j ≠ i → m.attempts j = some b → a.allocated = some x → b.allocated = some y → x.2 ≠ y.2 :=
  fun j b x y hj hb hx hy => h.distinct i j a b x y hj.symm ha hb hx hy

/-- An allocation for a subscription that the session sees unbound. -/
theorem Invariant.allocate (h : Invariant m) {i : ℕ} {a : Attempt} {customerId : ℕ} {endpoint : EgressEndpointDTO}
    (ha : m.attempts i = some a) (hfirst : a.allocated = none)
    (hresult : (Infra.allocateEndpoint (m.view a) a.subscriptionId customerId).result = .ok endpoint)
    (hunbound : activeBinding (m.view a) a.subscriptionId = none) :
    Invariant (m.flush i { a with allocated := some (endpoint, (m.view a).egressBindings.next) }
      (Infra.allocateEndpoint (m.view a) a.subscriptionId customerId).changes) := by
  have hsame := (h.sound i a ha).unallocated hfirst
  have hnext : (m.view a).egressBindings.next = m.database.egressBindings.next := (hsame m.database).next
  rw [allocate_changes hresult hunbound, hnext]
  refine h.flush ?_ ?_
  · refine ⟨(fun hnone => by cases hnone), ?_⟩
    rintro _ _ ⟨⟩
    refine ⟨Nat.lt_succ_self _, m.database.egressBindings.unused _ (le_refl _), ?_⟩
    intro db
    rw [Write.applyAll_append]
    exact (hsame db).occupied (occupied_allocation _)
  · rintro j b _ y hj hb ⟨⟩ hy
    exact ((h.sound j b hb).free hy).ne'

theorem Invariant.save (h : Invariant m) {i : ℕ} {a : Attempt} {endpoint : EgressEndpointDTO} {bindingId : ℕ}
    (credential : CredentialDTO) (ha : m.attempts i = some a) (hallocated : a.allocated = some (endpoint, bindingId)) :
    Invariant (m.flush i a (Infra.saveCredentials (m.view a) a.subscriptionId endpoint credential).changes) := by
  obtain ⟨-, -, hoccupied⟩ := (h.sound i a ha).allocated endpoint bindingId hallocated
  have hholding : holdingAt (m.view a) bindingId = some (a.subscriptionId, endpoint.endpointId, none) := by
    rw [Ledger.view, (hoccupied m.database).bindings, if_pos rfl]
  exact h.flush ((h.sound i a ha).append (saveCredentials_same credential hholding)) (h.distinct_of ha)

theorem Invariant.commit (h : Invariant m) {i : ℕ} {a : Attempt} (ha : m.attempts i = some a)
    (hkeys : (m.view a).keysUnique = true) : Invariant { (m.set i none) with database := m.view a } := by
  have hsound := h.sound i a ha
  have hother : ∀ j b, (m.set i none).attempts j = some b → j ≠ i ∧ m.attempts j = some b := by
    intro j b hb
    have hj : j ≠ i := by
      rintro rfl
      rw [m.attempts_set_self] at hb
      cases hb
    rw [m.attempts_set_ne none hj] at hb
    exact ⟨hj, hb⟩
  have hview : Balanced (m.view a) ∧ m.database.egressBindings.next ≤ (m.view a).egressBindings.next ∧
      ∀ j b y, j ≠ i → m.attempts j = some b → b.allocated = some y → m.database.egressBindings.get y.2 = none →
        (m.view a).egressBindings.get y.2 = none := by
    cases hallocated : a.allocated with
    | none =>
      have hsame := hsound.unallocated hallocated m.database
      refine ⟨h.balanced.same hsame.endpoints hsame.bindings, hsame.next.ge, ?_⟩
      intro j b y _ _ _ hget
      exact holdingAt_eq_none.mp ((hsame.bindings y.2).trans (holdingAt_eq_none.mpr hget))
    | some x =>
      obtain ⟨-, hget, hoccupied⟩ := hsound.allocated x.1 x.2 hallocated
      have hoccupied := hoccupied m.database
      refine ⟨h.balanced.occupied hoccupied hget hkeys, hoccupied.next ▸ Nat.le_max_left _ _, ?_⟩
      intro j b y hj hb hy hfree
      have hne : y.2 ≠ x.2 := (h.distinct i j a b x y hj.symm ha hb hallocated hy).symm
      refine holdingAt_eq_none.mp ?_
      rw [Ledger.view, hoccupied.bindings, if_neg hne, holdingAt_eq_none.mpr hfree]
  obtain ⟨hbalanced, hnext, hnone⟩ := hview
  refine ⟨hbalanced, ?_, (h.set_none i).distinct⟩
  intro j b hb
  obtain ⟨hj, hb⟩ := hother j b hb
  exact (h.sound j b hb).advance hnext fun y hy hget => hnone j b y hj hb hy hget

/-- A transaction of its own that balances the rows and adds no binding. -/
theorem Invariant.transacted (h : Invariant m) {effect : Effect Unit}
    (hbalanced : Balanced (Write.applyAll effect.changes m.database))
    (hnext : (Write.applyAll effect.changes m.database).egressBindings.next = m.database.egressBindings.next)
    (hnone : ∀ id, holdingAt m.database id = none → holdingAt (Write.applyAll effect.changes m.database) id = none) :
    Invariant (m.transacted effect) := by
  refine transact_keeps (P := fun db => Invariant { m with database := db }) h fun _ => ?_
  refine h.advance hbalanced hnext.ge ?_
  intro id hget
  exact holdingAt_eq_none.mp (hnone id (holdingAt_eq_none.mpr hget))

theorem Invariant.vacated (h : Invariant m) {effect : Effect Unit} {endpointId bindingId : ℕ}
    (hbound : Bound m.database bindingId endpointId)
    (hvacated : Vacated endpointId bindingId m.database (Write.applyAll effect.changes m.database)) :
    Invariant (m.transacted effect) := by
  refine h.transacted (h.balanced.vacated hbound hvacated) hvacated.next ?_
  intro id hget
  have hne : id ≠ bindingId := by
    rintro rfl
    obtain ⟨s, hs⟩ := bound_iff.mp hbound
    rw [hget] at hs
    cases hs
  rw [hvacated.bindings id hne, hget]

theorem Invariant.unchanged (h : Invariant m) {effect : Effect Unit} (hchanges : effect.changes = []) :
    Invariant (m.transacted effect) := by
  refine h.transacted ?_ ?_ ?_ <;> rw [hchanges]
  · exact h.balanced
  · rfl
  · exact fun id hget => hget

theorem reinstate_same (db : Database) (endpointId : ℕ) :
    (Write.applyAll (Infra.reinstate db endpointId).changes db).egressBindings = db.egressBindings := by
  unfold Infra.reinstate
  cases db.endpoints.get endpointId with
  | none => rfl
  | some row =>
    by_cases hquarantined : row.status = "QUARANTINED"
    · simp only [hquarantined, if_true]
      rfl
    · simp only [hquarantined]
      rfl

theorem Invariant.step (h : Invariant m) {m' : Ledger} (hstep : m.Step true m') : Invariant m' := by
  cases hstep with
  | start i subscriptionId hattempt =>
    refine h.set_some ⟨fun _ db => .refl db, fun _ _ hallocated => by cases hallocated⟩ ?_
    intro j b x y _ _ hx
    cases hx
  | allocateEndpoint i customerId hattempt hfirst hresult hcareful =>
    exact h.allocate hattempt hfirst hresult (hcareful rfl)
  | saveCredentials i credential hattempt hallocated => exact h.save credential hattempt hallocated
  | write i changes hattempt helsewhere =>
    exact h.flush ((h.sound i _ hattempt).append fun c hc => elsewhere_same (helsewhere c hc)) (h.distinct_of hattempt)
  | commit i hattempt hkeys => exact h.commit hattempt hkeys
  | rollback i => exact h.set_none i
  | releaseEndpoint subscriptionId endpointId now hcareful =>
    obtain hchanges | ⟨bindingId, hbound, hvacated⟩ := releaseEndpoint_cases now (hcareful rfl)
    · exact h.unchanged hchanges
    · exact h.vacated hbound hvacated
  | releaseEgress subscriptionId now operationId availableAt =>
    obtain hchanges | ⟨endpointId, bindingId, hbound, hvacated⟩ := @releaseEgress_cases m.database
      subscriptionId now operationId availableAt
    · exact h.unchanged hchanges
    · exact h.vacated hbound hvacated
  | reinstate endpointId =>
    have hsame := reinstate_same m.database endpointId
    refine h.transacted (h.balanced.reinstated endpointId) (by rw [hsame]) ?_
    intro id hget
    rw [holdingAt, hsame]
    exact hget

end Invariant

/-- In every run of careful steps no endpoint is leaked and none is shared. -/
theorem endpoints_balanced {m : Ledger} (h : m.Reachable true) : Balanced m.database := by
  have hinvariant : Invariant m := by
    induction h with
    | start hbalanced =>
      refine ⟨hbalanced, ?_, ?_⟩
      · intro i a ha
        cases ha
      · intro i j a b x y _ ha
        cases ha
    | step _ hstep ih => exact ih.step hstep
  exact hinvariant.balanced

/-- Two customers and two endpoints. -/
def stock : Database :=
  { shop with
    endpoints := shop.endpoints.insert 1
      ⟨"10.0.0.2", 1080, "socks5", "PRODUCTION", "egress/1", "AVAILABLE", 1, 0, 20001⟩ }

theorem balanced_stock : Balanced stock := by
  have hfree : stock.endpoints.entities.all (fun e => e.row.status ≠ "ASSIGNED" && e.row.currentCount = 0) = true := by
    decide +kernel
  refine ⟨?_, ?_⟩
  · intro id row hrow
    have hmarks := List.all_eq_true.mp hfree ⟨id, row⟩ (Table.mem_entities.mpr hrow)
    simp only [Bool.and_eq_true, decide_eq_true_eq] at hmarks
    refine .inr ⟨hmarks.1, hmarks.2, ?_⟩
    rintro bindingId ⟨b, hb, -⟩
    cases hb
  · intro i j r s hr
    cases hr

theorem Ledger.Reachable.purchase {careful : Bool} {m : Ledger} (h : m.Reachable careful) (i subscriptionId customerId : ℕ)
    (endpoint : EgressEndpointDTO) (hattempt : m.attempts i = none)
    (hresult : (Infra.allocateEndpoint m.database subscriptionId customerId).result = .ok endpoint)
    (hcareful : careful = true → activeBinding m.database subscriptionId = none) :
    Ledger.Reachable careful ((m.set i (some ⟨subscriptionId, none, []⟩)).flush i
      ⟨subscriptionId, some (endpoint, m.database.egressBindings.next), []⟩
      (Infra.allocateEndpoint m.database subscriptionId customerId).changes) :=
  (h.step (.start i subscriptionId hattempt)).step
    (.allocateEndpoint i customerId (Ledger.attempts_set_self ..) rfl hresult hcareful)

def stockEndpoint (endpointId : ℕ) (host : String) : EgressEndpointDTO := ⟨endpointId, host, 1080, "socks5", none⟩

theorem reachable_stock (careful : Bool) : Ledger.Reachable careful ⟨stock, fun _ => none⟩ := .start balanced_stock

/-- One purchase, committed. -/
theorem endpoints_balanced_stock : ∃ m : Ledger, m.database.egressBindings.entities.length = 1 ∧ Balanced m.database := by
  have hallocated := (reachable_stock true).purchase 0 0 0 (stockEndpoint 0 "10.0.0.1") rfl (by decide +kernel)
    (fun _ => by decide +kernel)
  have hcommitted := hallocated.step (.commit 0 rfl (by decide +kernel))
  exact ⟨_, by decide +kernel, endpoints_balanced hcommitted⟩

/-- The tenant of a purchase is not created: what it allocated is committed for manual review. A retry
allocates the other endpoint, which no binding refers to, and goes the same way. -/
theorem reachable_leak : ∃ m : Ledger, m.Reachable false ∧
    (m.database.endpoints.get 1).map (fun row => (row.status, row.currentCount)) = some ("ASSIGNED", 1) ∧
    ∀ e ∈ m.database.egressBindings.entities, e.row.egressId ≠ 1 := by
  have hallocated := (reachable_stock false).purchase 0 0 0 (stockEndpoint 0 "10.0.0.1") rfl (by decide +kernel)
    (fun hcareful => by cases hcareful)
  have hreviewed := hallocated.step (.commit 0 rfl (by decide +kernel))
  have hretried := hreviewed.purchase 1 0 0 (stockEndpoint 1 "10.0.0.2") rfl (by decide +kernel)
    (fun hcareful => by cases hcareful)
  exact ⟨_, hretried.step (.commit 1 rfl (by decide +kernel)), by decide +kernel, by decide +kernel⟩

theorem endpoint_leaked : ¬ ∀ m : Ledger, m.Reachable false → Balanced m.database := by
  intro h
  obtain ⟨m, hreachable, hmarked, hother⟩ := reachable_leak
  obtain ⟨row, hrow, hmarks⟩ := Option.map_eq_some_iff.mp hmarked
  simp only [Prod.mk.injEq] at hmarks
  obtain ⟨-, -, bindingId, ⟨b, hb, -, hegress⟩, -⟩ | ⟨hstatus, -⟩ := (h m hreachable).endpoint 1 row hrow
  · exact hother ⟨bindingId, b⟩ (Table.mem_entities.mpr hb) hegress
  · exact hstatus hmarks.1

/-- The tenant is not created; everything else goes well. -/
def unconfirmedTenant : (c : Call) → World → c.Choice
  | .provider (.createTenant ..), _ => (.error ⟨.externalTenantCreationError none, "tenant"⟩, false)
  | c, _ => c.calm

def stockWorld : World where
  shared := {
    database := { stock with
      subscriptions := .empty
      plans := Table.empty.insert 0 ⟨1000, 30, "GLOBAL"⟩
      orders := Table.empty.insert 0 ⟨0, 0, none, .pending, .unpaid, none, none, none, none⟩ }
    runtime := ⟨[], []⟩
    locked := false }
  session := ⟨0, "example.org", false, []⟩

/-- One confirmation of the payment. -/
def confirmed (w : World) : World :=
  (worlds.run unconfirmedTenant (Services.confirmPaymentAndProvision true ⟨0, none, .purchase⟩
    ⟨0, 0, "alice", .ofInt 1, 1, none, "example.org"⟩ "reference" "manual") w).2

-- the saga does the same: confirmed twice, both endpoints are assigned and one is bound
example : (confirmed (confirmed stockWorld)).shared.database.endpoints.entities.map (fun e => e.row.status) =
      ["ASSIGNED", "ASSIGNED"] ∧
    (confirmed (confirmed stockWorld)).shared.database.egressBindings.entities.map (fun e => e.row.egressId) = [0] := by
  decide +kernel

end Lingsway.Endpoints

import Lingsway.Library.Machine
import Lingsway.Library.Reading
import Lingsway.Models

/-!
# Reconciling the gateway principals

Phase A reads the active routes and looks up a principal for each of them. Phase B
reads them again under the named lock and updates those that differ in one
transaction.
-/
namespace Lingsway.Ops.Principals

open Library Program

structure BindingSnapshot where
  id : ℕ
  subscriptionId : ℕ
  enabled : Bool
  releasedAt : Option Timestamp
  gatewayPrincipal : String
  accountingUserId : String
  deriving Repr, DecidableEq

inductive Mode where
  | confirmed
  | dryRun
  deriving Repr, DecidableEq

inductive ResultStatus where
  | success
  | aborted
  | committedWithWarning
  deriving Repr, DecidableEq

structure ReconciliationResult where
  mode : Mode
  snapshotRowCount : ℕ
  unchangedCount : ℕ
  wouldUpdateCount : ℕ
  updatedCount : ℕ
  status : ResultStatus
  reasonCode : String
  deriving Repr, DecidableEq

/-- A route with the accounting user of its subscription, if there is a subscription. -/
structure Joined where
  binding : Entity GatewayRouteBinding
  subscription : Option (Option String)
  deriving Repr, DecidableEq

/-- The local variables that the handlers read. -/
structure Locals where
  updated : ℕ
  commitCompleted : Bool
  deriving Repr, DecidableEq

/-- What the session, the lock's own connection and the lookup are called for. -/
inductive Step where
  | activeRows
  | update (id : ℕ) (old target : String)
  | commit
  | rollback
  | lookup (accountingUserId : String)
  | getBind
  | connect
  | executionOptions
  | databaseName
  | getLock (name : String)
  | releaseLock (name : String)
  | invalidate
  | close
  | countUpdate
  | setCommitCompleted
  | locals

/-- A lookup may return what is no string, and a lock function `NULL`. -/
def Step.Answer : Step → Type
  | activeRows => List Joined
  | update _ _ _ => ℕ
  | lookup _ => Option String
  | databaseName => Option String
  | getLock _ => Option ℕ
  | releaseLock _ => Option ℕ
  | locals => Locals
  | _ => Unit

abbrev steps : Signature := ⟨Step, Step.Answer⟩

abbrev Run (α : Type) : Type := Program steps Exn α

def activeRows : Run (List Joined) := perform (S := steps) .activeRows
def update (id : ℕ) (old target : String) : Run ℕ := perform (S := steps) (.update id old target)
def commit : Run Unit := perform (S := steps) .commit
def rollback : Run Unit := perform (S := steps) .rollback
def lookup (accountingUserId : String) : Run (Option String) := perform (S := steps) (.lookup accountingUserId)
def getBind : Run Unit := perform (S := steps) .getBind
def connect : Run Unit := perform (S := steps) .connect
def executionOptions : Run Unit := perform (S := steps) .executionOptions
def databaseName : Run (Option String) := perform (S := steps) .databaseName
def getLock (name : String) : Run (Option ℕ) := perform (S := steps) (.getLock name)
def releaseLock (name : String) : Run (Option ℕ) := perform (S := steps) (.releaseLock name)
def invalidate : Run Unit := perform (S := steps) .invalidate
def close : Run Unit := perform (S := steps) .close
def countUpdate : Run Unit := perform (S := steps) .countUpdate
def setCommitCompleted : Run Unit := perform (S := steps) .setCommitCompleted
def locals : Run Locals := perform (S := steps) .locals

def reconciliationError (reasonCode : String) : Exn := ⟨.other "ReconciliationError", reasonCode⟩

def lockError (message : String) : Exn := ⟨.gatewayRouteBindingLockError, message⟩

section Lock

/-- `gateway_route_binding_lock_name`, of the name in the engine's URL. -/
def gatewayRouteBindingLockName (database : Option String) : Except Exn String :=
  let name := "lingsway:" ++ database.getD "" ++ ":gateway-route-bindings-write"
  if database.getD "" = "" then
    .error (lockError ("cannot derive a gateway route binding lock name: the database " ++
      "engine URL has no database name"))
  else if 64 < name.length then
    .error (lockError ("gateway route binding lock name exceeds MySQL's 64-character GET_LOCK() limit: " ++ name))
  else .ok name

/-- `_get_lock`. -/
def getLockOrFail (name : String) : Run Unit := do
  let result ← getLock name
  if result ≠ some 1 then raise (lockError ("failed to acquire gateway route binding lock " ++ name)) else return ()

def deriveName : Run String :=
  (databaseName >>= fun database => ofExcept (gatewayRouteBindingLockName database)).tryCatch fun e =>
    if e.cls = .gatewayRouteBindingLockError then raise e
    else raise (lockError "failed to derive the gateway route binding lock name")

def acquire (name : String) : Run Unit :=
  (getLockOrFail name).tryCatch fun e =>
    if e.cls = .gatewayRouteBindingLockError then raise e
    else do
      invalidate
      raise (lockError "failed to acquire the gateway route binding lock (connection state could not be confirmed)")

/-- `_release_lock`. -/
def release (name : String) : Run Unit := do
  match ← (releaseLock name).attempt with
  | .error e => do
    invalidate
    raise e
  | .ok result => if result ≠ some 1 then invalidate else return ()

/-- The `with` block inside the connection's `try`. -/
def underLock (body : Run Unit) : Run Unit := do
  let name ← deriveName
  acquire name
  body.tryFinally (release name)

def resolveEngine : Run Unit :=
  getBind.tryCatch fun _ => raise (lockError "failed to resolve the gateway route binding lock's database engine")

def openConnection : Run Unit :=
  connect.tryCatch fun _ => raise (lockError "failed to open the dedicated gateway route binding lock connection")

def configure : Run Unit :=
  executionOptions.tryCatch fun _ => do
    close
    raise (lockError "failed to configure the dedicated gateway route binding lock connection")

/-- `with gateway_route_binding_write(session): body`. -/
def gatewayRouteBindingWrite (body : Run Unit) : Run Unit := do
  resolveEngine
  openConnection
  configure
  (underLock body).tryFinally close

end Lock

section Snapshot

/-- One row of `_active_snapshot`. -/
def snapshotOf (row : Joined) : Except Exn BindingSnapshot :=
  let binding := row.binding.row
  match row.subscription with
  | none => .error (reconciliationError "subscription_missing")
  | some accountingUserId =>
    match accountingUserId.filter fun id => Text.strip id ≠ "" with
    | none => .error (reconciliationError "accounting_user_id_missing")
    | some id =>
      if id ≠ Text.strip id then .error (reconciliationError "accounting_user_id_malformed")
      else if Text.strip binding.gatewayPrincipal = "" then
        .error (reconciliationError "gateway_principal_malformed")
      else .ok ⟨row.binding.id, binding.subscriptionId, binding.enabled, binding.releasedAt,
        binding.gatewayPrincipal, id⟩

/-- `_active_snapshot`. -/
def activeSnapshot : Run (List BindingSnapshot) := do
  let rows ← activeRows
  ofExcept (rows.mapM snapshotOf)

end Snapshot

section PhaseA

def checkIdentities (snapshots : List BindingSnapshot) : Except Exn Unit :=
  if (snapshots.map BindingSnapshot.accountingUserId).Nodup then .ok ()
  else .error (reconciliationError "duplicate_accounting_identity")

/-- What a lookup returned, as a principal. -/
def routingPrincipal (answer : Option String) : Except Exn String :=
  match answer.filter fun target => Text.strip target ≠ "" with
  | none => .error (reconciliationError "routing_principal_missing")
  | some target =>
    if target ≠ Text.strip target then .error (reconciliationError "routing_principal_malformed") else .ok target

/-- The loop of the lookups: the targets by row, and how many lookups failed. -/
def lookupTargets : List BindingSnapshot → Run (List (ℕ × String) × ℕ)
  | [] => return ([], 0)
  | row :: rows => do
    match ← (lookup row.accountingUserId).attempt with
    | .error _ => do
      let (targets, failures) ← lookupTargets rows
      return (targets, failures + 1)
    | .ok answer => do
      let target ← ofExcept (routingPrincipal answer)
      let (targets, failures) ← lookupTargets rows
      return ((row.id, target) :: targets, failures)

/-- `targets[id]`. -/
def targetOf (targets : List (ℕ × String)) (id : ℕ) : String := (targets.lookup id).getD ""

/-- `old_principal_owner.get(principal)`: of equal principals the last row. -/
def oldPrincipalOwner (snapshots : List BindingSnapshot) (principal : String) : Option ℕ :=
  (snapshots.reverse.find? fun row => row.gatewayPrincipal = principal).map BindingSnapshot.id

/-- The checks of phase A after the lookups. -/
def checkTargets (snapshots : List BindingSnapshot) (targets : List (ℕ × String)) (failures : ℕ) : Except Exn Unit :=
  if failures ≠ 0 then .error (reconciliationError "marzban_lookup_failed")
  else if ¬ (targets.map Prod.snd).Nodup then .error (reconciliationError "duplicate_target_principal")
  else if snapshots.any fun row => (oldPrincipalOwner snapshots (targetOf targets row.id)).any (· ≠ row.id) then
    .error (reconciliationError "target_principal_conflict")
  else .ok ()

/-- `_phase_a`. -/
def phaseA : Run (List BindingSnapshot × List (ℕ × String)) := do
  let snapshots ← activeSnapshot
  ofExcept (checkIdentities snapshots)
  rollback
  let (targets, failures) ← lookupTargets snapshots
  ofExcept (checkTargets snapshots targets failures)
  return (snapshots, targets)

end PhaseA

section PhaseB

/-- `_assert_same_snapshot`: the compare key is the whole snapshot. -/
def assertSameSnapshot (expected observed : List BindingSnapshot) : Except Exn Unit :=
  if expected = observed then .ok () else .error (reconciliationError "snapshot_changed")

/-- The loop of the conditional updates. -/
def updateRows (targets : List (ℕ × String)) : List BindingSnapshot → Run Unit
  | [] => return ()
  | row :: rows =>
    if targetOf targets row.id = row.gatewayPrincipal then updateRows targets rows
    else do
      let rowcount ← update row.id row.gatewayPrincipal (targetOf targets row.id)
      if rowcount ≠ 1 then raise (reconciliationError "conditional_update_rowcount")
      else do
        countUpdate
        updateRows targets rows

/-- The body of the `with` block. -/
def phaseB (snapshots : List BindingSnapshot) (targets : List (ℕ × String)) : Run Unit := do
  let lockedSnapshot ← activeSnapshot
  ofExcept (assertSameSnapshot snapshots lockedSnapshot)
  updateRows targets snapshots
  commit
  setCommitCompleted

end PhaseB

section Reconcile

def unchanged (snapshots : List BindingSnapshot) (targets : List (ℕ × String)) : ℕ :=
  snapshots.countP fun row => row.gatewayPrincipal = targetOf targets row.id

/-- A result with the counts of phase A. -/
def preflightResult (mode : Mode) (snapshots : List BindingSnapshot) (targets : List (ℕ × String)) (updated : ℕ)
    (status : ResultStatus) (reasonCode : String) : ReconciliationResult :=
  ⟨mode, snapshots.length, unchanged snapshots targets, snapshots.length - unchanged snapshots targets, updated,
    status, reasonCode⟩

/-- What the four handlers of phase B raise instead of their exception. -/
def failureOf (e : Exn) : Exn :=
  if e.cls = .integrityError then reconciliationError "unique_conflict"
  else if e.cls = .gatewayRouteBindingLockError then reconciliationError "lock_acquisition_failed"
  else if e.cls = .other "ReconciliationError" then e
  else reconciliationError "db_write_failed"

/-- The handlers of phase B. -/
def writeFailed (snapshots : List BindingSnapshot) (targets : List (ℕ × String)) (e : Exn) :
    Run ReconciliationResult := do
  let l ← locals
  if l.commitCompleted then
    return preflightResult .confirmed snapshots targets l.updated .committedWithWarning "lock_release_unverified"
  else do
    rollback
    raise (failureOf e)

def confirmedRun (snapshots : List BindingSnapshot) (targets : List (ℕ × String)) : Run ReconciliationResult := do
  match ← (gatewayRouteBindingWrite (phaseB snapshots targets)).attempt with
  | .error e => writeFailed snapshots targets e
  | .ok _ => do
    let l ← locals
    return preflightResult .confirmed snapshots targets l.updated .success "committed"

def abortReason (e : Exn) : String :=
  if e.cls = .other "ReconciliationError" then e.message else "unexpected_failure"

/-- The outer handlers. -/
def aborted (mode : Mode) (snapshotRows targets : ℕ) (e : Exn) : Run ReconciliationResult := do
  rollback
  return ⟨mode, snapshotRows, 0, targets, 0, .aborted, abortReason e⟩

def modeOf (confirm : Bool) : Mode := if confirm then .confirmed else .dryRun

def afterPhaseA (confirm : Bool) (snapshots : List BindingSnapshot) (targets : List (ℕ × String)) :
    Run ReconciliationResult :=
  if confirm then confirmedRun snapshots targets
  else return preflightResult .dryRun snapshots targets 0 .success "dry_run_no_write"

/-- `reconcile_gateway_principals`, for a gateway provider that is `xray_file` or not. -/
def reconcileGatewayPrincipals (xrayFile confirm : Bool) : Run ReconciliationResult :=
  if confirm && xrayFile then raise (reconciliationError "gateway_reconciliation_required")
  else do
    match ← phaseA.attempt with
    | .error e => aborted (modeOf confirm) 0 0 e
    | .ok (snapshots, targets) =>
      (afterPhaseA confirm snapshots targets).tryCatch (aborted (modeOf confirm) snapshots.length targets.length)

end Reconcile

section World

/-- The tables the run reads: the routes, and the accounting user of each subscription. -/
structure Store where
  bindings : Table GatewayRouteBinding
  accountingUserIds : ℕ → Option (Option String)

/-- The committed tables, the transaction of the session and the lock. What it has `seen` is
fixed by the first read of a transaction. The rest is a record of the run: the rows that its
commits have changed, what the last of them had seen and left, and whether one that changed a
row raised afterwards. -/
structure World where
  store : Store
  seen : Option Store
  pending : List (ℕ × String)
  locked : Bool
  locals : Locals
  changed : List ℕ
  landed : Option (Store × Store)
  lost : Bool

/-- What the others have committed before a call, and how the call ends. A call that raises
may have taken effect. -/
structure Fate where
  others : Store
  fault : Option Exn
  took : Bool
  number : Option ℕ
  text : Option String

def setPrincipal (target : String) (row : GatewayRouteBinding) : GatewayRouteBinding :=
  { row with gatewayPrincipal := target }

/-- The routes with the updates of a transaction. -/
def renamed (pending : List (ℕ × String)) (bindings : Table GatewayRouteBinding) : Table GatewayRouteBinding :=
  pending.foldl (fun table u => table.modify u.1 (setPrincipal u.2)) bindings

def activeBindings (bindings : Table GatewayRouteBinding) : List (Entity GatewayRouteBinding) :=
  bindings.entities.filter fun e => e.row.active

def joinedRows (store : Store) : List Joined :=
  (activeBindings store.bindings).map fun e => ⟨e, store.accountingUserIds e.row.subscriptionId⟩

/-- Another active route has the principal, as the unique key compares them. -/
def conflicts (collate : String → String) (bindings : Table GatewayRouteBinding) (id : ℕ) (target : String) : Bool :=
  (activeBindings bindings).any fun e => e.id ≠ id && collate e.row.gatewayPrincipal = collate target

/-- The rows of the one table that are not in the other. -/
def changedRows (before after : Table GatewayRouteBinding) : List ℕ :=
  (before.entities.filter fun e => after.get e.id ≠ some e.row).map Entity.id

namespace World

/-- The writers of routes hold the lock, and those of subscriptions need not. -/
def among (w : World) (others : Store) : World :=
  { w with store := if w.locked then ⟨w.store.bindings, others.accountingUserIds⟩ else others }

def committed (w : World) : World :=
  let after : Store := ⟨renamed w.pending w.store.bindings, w.store.accountingUserIds⟩
  { w with
    store := after
    seen := none
    pending := []
    changed := w.changed ++ changedRows w.store.bindings after.bindings
    landed := some (w.seen.getD w.store, after) }

/-- A commit that has changed a row and whose acknowledgement is lost. -/
def committedUnseen (w : World) : World := { w.committed with lost := w.lost || w.committed.changed != w.changed }

/-- The effect of an update on the transaction, when its row is matched. -/
def updateRow (collate : String → String) (w : World) (id : ℕ) (old target : String) : Except Exn ℕ × World :=
  match (renamed w.pending w.store.bindings).get id with
  | none => (.ok 0, w)
  | some row =>
    if ¬ (row.active = true ∧ collate row.gatewayPrincipal = collate old) then (.ok 0, w)
    else if conflicts collate (renamed w.pending w.store.bindings) id target then
      (.error ⟨.integrityError, "uq_gateway_route_bindings_active_gateway_principal"⟩, w)
    else (.ok 1, { w with pending := w.pending ++ [(id, target)] })

def act (collate : String → String) (find : String → Except Exn (Option String)) :
    (c : Step) → Fate → World → Except Exn c.Answer × World
  | .activeRows, fate, w =>
    let w := w.among fate.others
    let seen := w.seen.getD w.store
    match fate.fault with
    | some e => (.error e, w)
    | none => (.ok (joinedRows ⟨renamed w.pending seen.bindings, seen.accountingUserIds⟩), { w with seen := some seen })
  | .update id old target, fate, w =>
    let w := w.among fate.others
    match fate.fault with
    | some e => (.error e, if fate.took then (updateRow collate w id old target).2 else w)
    | none => updateRow collate w id old target
  | .commit, fate, w =>
    let w := w.among fate.others
    match fate.fault with
    | some e => (.error e, if fate.took then w.committedUnseen else w)
    | none => (.ok (), w.committed)
  | .rollback, fate, w =>
    (fate.fault.elim (.ok ()) .error, { w.among fate.others with seen := none, pending := [] })
  | .lookup accountingUserId, fate, w => (find accountingUserId, w.among fate.others)
  | .databaseName, fate, w => (fate.fault.elim (.ok fate.text) .error, w.among fate.others)
  | .getLock _, fate, w =>
    let w := w.among fate.others
    match fate.fault with
    | some e => (.error e, { w with locked := fate.took })
    | none => (.ok fate.number, { w with locked := fate.number = some 1 })
  | .releaseLock _, fate, w =>
    (fate.fault.elim (.ok fate.number) .error, { w.among fate.others with locked := false })
  | .invalidate, fate, w => (fate.fault.elim (.ok ()) .error, { w.among fate.others with locked := false })
  | .countUpdate, _, w => (.ok (), { w with locals := { w.locals with updated := w.locals.updated + 1 } })
  | .setCommitCompleted, _, w => (.ok (), { w with locals := { w.locals with commitCompleted := true } })
  | .locals, _, w => (.ok w.locals, w)
  | .getBind, fate, w => (fate.fault.elim (.ok ()) .error, w.among fate.others)
  | .connect, fate, w => (fate.fault.elim (.ok ()) .error, w.among fate.others)
  | .executionOptions, fate, w => (fate.fault.elim (.ok ()) .error, w.among fate.others)
  | .close, fate, w => (fate.fault.elim (.ok ()) .error, w.among fate.others)

end World

/-- A database whose unique key compares principals by `collate`, and the lookup function `find`. -/
def database (collate : String → String) (find : String → Except Exn (Option String)) : Machine steps Exn World :=
  ⟨fun _ => Fate, World.act collate find⟩

end World

end Lingsway.Ops.Principals

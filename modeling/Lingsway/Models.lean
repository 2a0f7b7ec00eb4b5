import Lingsway.Library.Table
import Lingsway.Providers.Base

/-!
# Database rows and pending writes

The rows the provisioning, gateway and release paths read or write, with the
columns those paths use. A session accumulates writes, and a commit applies
them to the committed database in order.
-/
namespace Lingsway

open Library

inductive JobStatus where
  | pending
  | running
  | succeeded
  | failed
  deriving Repr, DecidableEq

inductive ProvisionStep where
  | capacity
  | allocateEndpoint
  | createTenant
  | storeCredentials
  | applyForwarder
  | createAccountingUser
  | applyGateway
  | issueSubscription
  | notify
  deriving Repr, DecidableEq

inductive OperationKind where
  | purchase
  | release
  | principalUpdate
  deriving Repr, DecidableEq

/-- `"provision:{order}"` and `"GATEWAY_RECONCILE:{kind}:{operation}"`. The
operation of a purchase is its order, that of a release its subscription and
binding, unless the caller names one. -/
inductive OperationId where
  | order (orderId : ℕ)
  | binding (subscriptionId bindingId : ℕ)
  | named (text : String)
  deriving Repr, DecidableEq

inductive DedupeKey where
  | provision (orderId : ℕ)
  | gatewayReconcile (kind : OperationKind) (operation : OperationId)
  | other (text : String)
  deriving Repr, DecidableEq

/-- A JSON member read as a value of one type. -/
inductive Field (α : Type) where
  | missing
  | value (a : α)
  | malformed
  deriving Repr, DecidableEq

namespace Field

def toOption {α : Type} : Field α → Option α
  | value a => some a
  | _ => none

def ofOption {α : Type} : Option α → Field α
  | some a => value a
  | none => missing

@[simp] theorem toOption_ofOption {α : Type} (a : Option α) : (ofOption a).toOption = a := by
  cases a <;> rfl

end Field

structure GatewayPayload where
  operationKind : Field OperationKind
  subscriptionId : Field ℕ
  orderId : Field ℕ
  provisionRunId : Field ℕ
  deriving Repr, DecidableEq

structure ProvisionPayload where
  orderId : ℕ
  steps : List (ProvisionStep × String)
  externalIds : List (String × String)
  notificationError : Option String
  deriving Repr, DecidableEq

inductive JobPayload where
  | gateway (payload : GatewayPayload)
  | provision (payload : ProvisionPayload)
  | unreadable
  deriving Repr, DecidableEq

inductive JobType where
  | provision
  | gatewayReconcile
  | other (name : String)
  deriving Repr, DecidableEq

structure Job where
  jobType : JobType
  dedupeKey : DedupeKey
  payload : JobPayload
  status : JobStatus
  attempts : ℕ
  maxAttempts : ℕ
  availableAt : Timestamp
  lockedAt : Option Timestamp
  lastErrorCode : Option String
  deriving Repr, DecidableEq

inductive SubscriptionStatus where
  | provisioning
  | active
  | grace
  | provisionFailed
  | suspended
  | expired
  deriving Repr, DecidableEq

inductive ReconcileState where
  | synced
  | pending
  | pendingManual
  | failed
  deriving Repr, DecidableEq

/-- `sha256(x).hexdigest()`, identified by its preimage. -/
structure Sha256 where
  preimage : String
  deriving Repr, DecidableEq

structure Subscription where
  customerId : ℕ
  planId : ℕ
  orderId : ℕ
  status : SubscriptionStatus
  routeGroupCode : String
  serviceExpireAt : Timestamp
  currentPeriodId : Option ℕ
  reconcileState : ReconcileState
  accountingUserId : Option String
  tokenHash : Option Sha256
  tokenCreatedAt : Option Timestamp
  tokenRevokedAt : Option Timestamp
  provisionError : Option String
  deriving Repr, DecidableEq

inductive UsagePeriodStatus where
  | active
  | queued
  | closed
  deriving Repr, DecidableEq

structure UsagePeriod where
  subscriptionId : ℕ
  orderId : ℕ
  planId : ℕ
  periodStart : Timestamp
  periodEnd : Timestamp
  usedBytes : ℤ
  quotaBytes : ℤ
  status : UsagePeriodStatus
  deriving Repr, DecidableEq

structure Plan where
  trafficLimitBytes : ℤ
  durationDays : ℕ
  routeGroupCode : String
  deriving Repr, DecidableEq

inductive OrderStatus where
  | pending
  | paid
  | activated
  | cancelled
  | refunded
  deriving Repr, DecidableEq

inductive PaymentStatus where
  | unpaid
  | paid
  | refunded
  deriving Repr, DecidableEq

structure Order where
  customerId : ℕ
  planId : ℕ
  targetSubscriptionId : Option ℕ
  status : OrderStatus
  paymentStatus : PaymentStatus
  paymentProvider : Option String
  paymentReference : Option String
  paidAt : Option Timestamp
  activatedAt : Option Timestamp
  deriving Repr, DecidableEq

structure EgressEndpoint where
  host : String
  port : ℤ
  protocol : String
  purpose : String
  credentialSecretRef : String
  status : String
  capacity : ℕ
  currentCount : ℕ
  mihomoListenPort : ℕ
  deriving Repr, DecidableEq

structure EgressBinding where
  subscriptionId : ℕ
  egressId : ℕ
  credentialSecretRef : Option String
  releasedAt : Option Timestamp
  deriving Repr, DecidableEq

structure GatewayRouteBinding where
  subscriptionId : ℕ
  egressId : ℕ
  gatewayPrincipal : String
  outboundTag : String
  enabled : Bool
  releasedAt : Option Timestamp
  deriving Repr, DecidableEq

/-- A secret value in the clear; the cipher is taken to be faithful. -/
inductive Plaintext where
  | credential (value : CredentialDTO)
  | text (value : String)
  deriving Repr, DecidableEq

structure Secret where
  plaintext : Plaintext
  purpose : String
  revision : ℕ
  deriving Repr, DecidableEq

structure AuditLog where
  action : String
  entityType : String
  entityId : String
  result : String
  detail : String
  deriving Repr, DecidableEq

namespace EgressBinding

/-- `released_at IS NULL`: the rows that the two unique indexes cover. -/
def active (b : EgressBinding) : Bool := b.releasedAt.isNone

end EgressBinding

namespace GatewayRouteBinding

def unreleased (r : GatewayRouteBinding) : Bool := r.releasedAt.isNone

/-- `enabled AND released_at IS NULL`: the rows that are projected. -/
def active (r : GatewayRouteBinding) : Bool := r.enabled && r.releasedAt.isNone

end GatewayRouteBinding

/-- The committed content of the tables. Audit entries are kept newest first. -/
structure Database where
  jobs : Table Job
  subscriptions : Table Subscription
  usagePeriods : Table UsagePeriod
  plans : Table Plan
  orders : Table Order
  endpoints : Table EgressEndpoint
  egressBindings : Table EgressBinding
  routeBindings : Table GatewayRouteBinding
  secrets : String → Option Secret
  auditLogs : List AuditLog

def Database.empty : Database where
  jobs := .empty
  subscriptions := .empty
  usagePeriods := .empty
  plans := .empty
  orders := .empty
  endpoints := .empty
  egressBindings := .empty
  routeBindings := .empty
  secrets := fun _ => none
  auditLogs := []

/-- One pending change of a session. -/
inductive Write where
  | insertJob (id : ℕ) (row : Job)
  | updateJob (id : ℕ) (change : Job → Job)
  | insertSubscription (id : ℕ) (row : Subscription)
  | updateSubscription (id : ℕ) (change : Subscription → Subscription)
  | insertUsagePeriod (id : ℕ) (row : UsagePeriod)
  | updateUsagePeriod (id : ℕ) (change : UsagePeriod → UsagePeriod)
  | updateOrder (id : ℕ) (change : Order → Order)
  | updateEndpoint (id : ℕ) (change : EgressEndpoint → EgressEndpoint)
  | insertEgressBinding (id : ℕ) (row : EgressBinding)
  | updateEgressBinding (id : ℕ) (change : EgressBinding → EgressBinding)
  | insertRouteBinding (id : ℕ) (row : GatewayRouteBinding)
  | updateRouteBinding (id : ℕ) (change : GatewayRouteBinding → GatewayRouteBinding)
  | putSecret (ref : String) (row : Secret)
  | addAuditLog (entry : AuditLog)

namespace Write

def apply (db : Database) : Write → Database
  | insertJob id row => { db with jobs := db.jobs.insert id row }
  | updateJob id change => { db with jobs := db.jobs.modify id change }
  | insertSubscription id row => { db with subscriptions := db.subscriptions.insert id row }
  | updateSubscription id change => { db with subscriptions := db.subscriptions.modify id change }
  | insertUsagePeriod id row => { db with usagePeriods := db.usagePeriods.insert id row }
  | updateUsagePeriod id change => { db with usagePeriods := db.usagePeriods.modify id change }
  | updateOrder id change => { db with orders := db.orders.modify id change }
  | updateEndpoint id change => { db with endpoints := db.endpoints.modify id change }
  | insertEgressBinding id row => { db with egressBindings := db.egressBindings.insert id row }
  | updateEgressBinding id change => { db with egressBindings := db.egressBindings.modify id change }
  | insertRouteBinding id row => { db with routeBindings := db.routeBindings.insert id row }
  | updateRouteBinding id change => { db with routeBindings := db.routeBindings.modify id change }
  | putSecret ref row => { db with secrets := fun r => if r = ref then some row else db.secrets r }
  | addAuditLog entry => { db with auditLogs := entry :: db.auditLogs }

/-- Apply the writes of a session, oldest first. -/
def applyAll (ws : List Write) (db : Database) : Database := ws.foldl apply db

@[simp] theorem applyAll_nil (db : Database) : applyAll [] db = db := rfl

@[simp] theorem applyAll_cons (w : Write) (ws : List Write) (db : Database) :
    applyAll (w :: ws) db = applyAll ws (apply db w) := rfl

theorem applyAll_append (ws vs : List Write) (db : Database) :
    applyAll (ws ++ vs) db = applyAll vs (applyAll ws db) := List.foldl_append ..

end Write
end Lingsway

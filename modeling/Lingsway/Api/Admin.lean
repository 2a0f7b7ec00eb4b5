import Lingsway.Infra.ProvisioningState

/-!
# The SQLAlchemy adapters of the order workflow

The order state changes the request session. The provision runs are kept in the
jobs table by a session of their own that commits after every write.
-/
namespace Lingsway.Api

open Library

def orderNotFound : Exn := ⟨.valueError, "Order not found"⟩

def subscriptionNotFound : Exn := ⟨.valueError, "Subscription not found"⟩

def planNotAvailable : Exn := ⟨.valueError, "Order plan is not available"⟩

/-- The subscription created for the order by the preceding transaction. -/
def subscriptionOfOrder (view : Database) (orderId : ℕ) : Option (Entity Subscription) :=
  view.subscriptions.find (fun s => s.orderId = orderId)

/-- `_subscription(command)`. -/
def commandSubscription (view : Database) (command : BillingCommand) : Option ℕ :=
  match command.subscriptionId with
  | some subscriptionId => (view.subscriptions.get subscriptionId).map (fun _ => subscriptionId)
  | none => (subscriptionOfOrder view command.orderId).map (fun s => s.id)

def recordPayment (view : Database) (orderId : ℕ) (receipt : PaymentConfirmation) : Effect Unit :=
  match view.orders.get orderId with
  | none => .fail orderNotFound
  | some _ => .done [.updateOrder orderId fun o =>
      { o with
        paymentStatus := .paid
        paymentProvider := some receipt.providerCode
        paymentReference := some receipt.externalReference
        paidAt := some receipt.paidAt
        status := .paid }] ()

def rejectCapacity (view : Database) (orderId : ℕ) (reason : String) : Effect Unit :=
  match view.orders.get orderId with
  | none => .fail orderNotFound
  | some _ => .done [.addAuditLog ⟨"ORDER_CAPACITY_REJECTED", "ORDER", toString orderId, "FAILED",
      reason⟩] ()

def newSubscription (orderId : ℕ) (order : Order) (plan : Plan) (now : Timestamp) : Subscription where
  customerId := order.customerId
  planId := order.planId
  orderId := orderId
  status := .provisioning
  routeGroupCode := plan.routeGroupCode
  serviceExpireAt := now + days plan.durationDays
  currentPeriodId := none
  reconcileState := .pending
  accountingUserId := none
  tokenHash := none
  tokenCreatedAt := none
  tokenRevokedAt := none
  provisionError := none

def newPeriod (subscriptionId orderId : ℕ) (order : Order) (plan : Plan) (now : Timestamp)
    (status : UsagePeriodStatus) : UsagePeriod where
  subscriptionId := subscriptionId
  orderId := orderId
  planId := order.planId
  periodStart := now
  periodEnd := now + days plan.durationDays
  usedBytes := 0
  quotaBytes := plan.trafficLimitBytes
  status := status

/-- A subscription that already exists for the order is left as it is. -/
def preparePurchase (view : Database) (now : Timestamp) (command : BillingCommand) : Effect Unit :=
  match view.orders.get command.orderId with
  | none => .fail orderNotFound
  | some order =>
    match view.plans.get order.planId with
    | none => .fail planNotAvailable
    | some plan =>
      match subscriptionOfOrder view command.orderId with
      | some _ => .done [] ()
      | none =>
        let subscriptionId := view.subscriptions.next
        let periodId := view.usagePeriods.next
        .done [
          .insertSubscription subscriptionId (newSubscription command.orderId order plan now),
          .insertUsagePeriod periodId
            (newPeriod subscriptionId command.orderId order plan now .active),
          .updateSubscription subscriptionId (fun s => { s with currentPeriodId := some periodId }),
          .updateOrder command.orderId
            (fun o => { o with targetSubscriptionId := some subscriptionId })] ()

/-- `apply_renewal`: queue a period behind the current one. -/
def enqueueSubscription (view : Database) (now : Timestamp) (command : BillingCommand) : Effect Unit :=
  match commandSubscription view command with
  | none => .fail subscriptionNotFound
  | some subscriptionId =>
    match view.orders.get command.orderId with
    | none => .fail orderNotFound
    | some order =>
      match view.plans.get order.planId with
      | none => .fail planNotAvailable
      | some plan =>
        if ((view.subscriptions.get subscriptionId).bind (fun s => s.currentPeriodId)).isNone then
          .fail ⟨.valueError, "Subscription has no current usage period"⟩
        else .done [
          .insertUsagePeriod view.usagePeriods.next
            (newPeriod subscriptionId command.orderId order plan now .queued),
          .updateOrder command.orderId (fun o =>
            { o with status := .activated, activatedAt := some (order.activatedAt.getD now) })] ()

def activateSubscription (view : Database) (now : Timestamp) (command : BillingCommand) : Effect Unit :=
  match commandSubscription view command with
  | none => .fail subscriptionNotFound
  | some subscriptionId =>
    let activate : Write := .updateSubscription subscriptionId fun s =>
      { s with status := .active, reconcileState := .synced }
    match view.orders.get command.orderId with
    | none => ⟨[activate], .error orderNotFound⟩
    | some order => .done [activate, .updateOrder command.orderId fun o =>
        { o with status := .activated, activatedAt := some (order.activatedAt.getD now) }] ()

/-- The order is set back to PAID before the subscription is looked up. -/
def markProvision (view : Database) (command : BillingCommand) (change : Subscription → Subscription) :
    Effect Unit :=
  match view.orders.get command.orderId with
  | none => .fail orderNotFound
  | some _ =>
    let repaid : Write := .updateOrder command.orderId fun o =>
      { o with status := .paid, paymentStatus := .paid }
    match commandSubscription view command with
    | none => ⟨[repaid], .error subscriptionNotFound⟩
    | some subscriptionId => .done [repaid, .updateSubscription subscriptionId change] ()

def markProvisionPending (view : Database) (command : BillingCommand) (error : String) : Effect Unit :=
  markProvision view command (fun s => { s with provisionError := some error })

def markProvisionFailed (view : Database) (command : BillingCommand) (error : String) : Effect Unit :=
  markProvision view command
    (fun s => { s with status := .provisionFailed, provisionError := some error })

/-- A call of the order state in a session. -/
def orderEffect (view : Database) (now : Timestamp) : OrderCall → Effect Unit
  | .recordPayment orderId receipt => recordPayment view orderId receipt
  | .rejectCapacity orderId reason => rejectCapacity view orderId reason
  | .preparePurchase command => preparePurchase view now command
  | .applyRenewal command => enqueueSubscription view now command
  | .activateSubscription command => activateSubscription view now command
  | .markProvisionPending command error => markProvisionPending view command error
  | .markProvisionFailed command error => markProvisionFailed view command error

def runNotFound : Exn := ⟨.valueError, "Provision run not found"⟩

def newRun (orderId : ℕ) (now : Timestamp) : Job where
  jobType := .provision
  dedupeKey := .provision orderId
  payload := .provision ⟨orderId, [], [], none⟩
  status := .running
  attempts := 1
  maxAttempts := 5
  availableAt := now
  lockedAt := none
  lastErrorCode := none

/-- `start`: a run that exists for the order is reopened. -/
def startRun (db : Database) (now : Timestamp) (orderId : ℕ) : ℕ × Write :=
  match db.jobs.find (fun j => j.dedupeKey = .provision orderId) with
  | none => (db.jobs.next, .insertJob db.jobs.next (newRun orderId now))
  | some job => (job.id, .updateJob job.id fun j =>
      { j with status := .running, attempts := job.row.attempts + 1 })

/-- `payload["steps"][key] = value`. -/
def setStep (step : ProvisionStep) (status : String) :
    List (ProvisionStep × String) → List (ProvisionStep × String)
  | [] => [(step, status)]
  | (s, v) :: rest => if s = step then (s, status) :: rest else (s, v) :: setStep step status rest

/-- A change of the members of a run's payload; any other payload is left alone. -/
def changePayload (change : ProvisionPayload → ProvisionPayload) (job : Job) : Job :=
  match job.payload with
  | .provision payload => { job with payload := .provision (change payload) }
  | _ => job

def stepWrite (runId : ℕ) (step : ProvisionStep) (status : String) : Write :=
  .updateJob runId (changePayload fun p => { p with steps := setStep step status p.steps })

def externalIdWrite (runId : ℕ) (kind externalId : String) : Write :=
  .updateJob runId (changePayload fun p =>
    { p with externalIds := Infra.setItem kind externalId p.externalIds })

def notificationWrite (runId : ℕ) (error : String) : Write :=
  .updateJob runId (changePayload fun p => { p with notificationError := some error })

def jobStatus : ProvisionStatus → JobStatus
  | .running => .running
  | .pendingManual => .pending
  | .failed => .failed
  | .succeeded => .succeeded

def statusWrite (runId : ℕ) (status : ProvisionStatus) (error : Option String) : Write :=
  .updateJob runId fun j =>
    { j with status := jobStatus status, lastErrorCode := error.map (Text.take 80) }

end Lingsway.Api

import Lingsway.Domain.Quota
import Lingsway.Library.Concurrent
import Lingsway.Models

/-!
# Placing orders

A purchase and a renewal look for an order of their client request id before they
insert one. The requests of one customer run side by side, each in a session
whose plain reads see the tables as its transaction first saw them.
-/
namespace Lingsway.Api.Orders

open Library Program

inductive Request where
  | purchase (planId : ℤ) (clientRequestId : String)
  | renewal (subscriptionId : ℤ) (planId : Option ℤ) (clientRequestId : String)
  deriving Repr, DecidableEq

def Request.clientRequestId : Request → String
  | purchase _ clientRequestId => clientRequestId
  | renewal _ _ clientRequestId => clientRequestId

def Request.isRenewal : Request → Bool
  | purchase _ _ => false
  | renewal _ _ _ => true

/-- What a request asks for, and what an order is for. -/
structure Wish where
  orderType : String
  planId : ℤ
  targetSubscriptionId : Option ℤ
  deriving Repr, DecidableEq

structure OrderRow where
  orderNo : String
  customerId : ℕ
  planId : ℤ
  targetSubscriptionId : Option ℤ
  clientRequestId : String
  orderType : String
  amount : Decimal
  currency : String
  status : OrderStatus
  paymentStatus : PaymentStatus
  deriving Repr, DecidableEq

def OrderRow.wish (row : OrderRow) : Wish := ⟨row.orderType, row.planId, row.targetSubscriptionId⟩

structure PlanRow where
  id : ℤ
  planCode : String
  active : Bool
  trafficLimitBytes : ℕ
  price : Decimal
  currency : String
  deriving Repr, DecidableEq

structure SubscriptionRow where
  customerId : ℕ
  planId : ℤ
  deriving Repr, DecidableEq

inductive Call where
  | receive
  | authenticate
  | getSubscription (id : ℤ)
  | findOrder (clientRequestId : String)
  | getPlan (id : ℤ)
  | capacity
  | availableIpCount
  | publicNumber
  | insertOrder (row : OrderRow)
  | rollback
  | refresh (id : ℕ)

@[reducible] def Call.Answer : Call → Type
  | receive => Request
  | authenticate => Unit
  | getSubscription _ => Option SubscriptionRow
  | findOrder _ => Option (Entity OrderRow)
  | getPlan _ => Option PlanRow
  | capacity => CapacityDTO
  | availableIpCount => ℕ
  | publicNumber => String
  | insertOrder _ => ℕ
  | rollback => Unit
  | refresh _ => Entity OrderRow

abbrev calls : Signature := ⟨Call, Call.Answer⟩

abbrev Work := Program calls Exn

def perform (c : Call) : Work c.Answer := Program.perform (S := calls) c

def httpException (statusCode : ℕ) (detail : String) : Exn :=
  ⟨.other "HTTPException", toString statusCode ++ ": " ++ detail⟩

/-- `ensure_capacity`, whose own error is a conflict. -/
def guardCapacity (capacity : CapacityDTO) (plan : PlanRow) : Except Exn Unit :=
  match Domain.ensureCapacity capacity (Domain.planQuotaGb plan.trafficLimitBytes) with
  | .ok _ => .ok ()
  | .error e => .error (if e.cls = .capacityExceededError then httpException 409 e.message else e)

def availablePlan (plan : Option PlanRow) : Except Exn PlanRow :=
  match plan.filter PlanRow.active with
  | none => .error (httpException 400 "Plan is not available")
  | some plan => .ok plan

def newOrder (orderNo : String) (customerId : ℕ) (plan : PlanRow) (target : Option ℤ) (clientRequestId orderType : String) :
    OrderRow :=
  ⟨orderNo, customerId, plan.id, target, clientRequestId, orderType, plan.price, plan.currency, .pending, .unpaid⟩

/-- The checks of `place_order` between the look-up and the insert. -/
def checkPurchase (planId : ℤ) : Work PlanRow := do
  let found ← perform (.getPlan planId)
  let plan ← ofExcept (availablePlan found)
  let capacity ← perform .capacity
  ofExcept (guardCapacity capacity plan)
  let count ← perform .availableIpCount
  if count = 0 then raise (httpException 409 "No dedicated egress IP is currently available") else return plan

/-- `except IntegrityError` of `place_order`. -/
def recoverOrder (clientRequestId : String) (exc : Exn) : Work (Entity OrderRow) := do
  perform .rollback
  match ← perform (.findOrder clientRequestId) with
  | none => raise exc
  | some recovered => return recovered

def placeOrder (customerId : ℕ) (planId : ℤ) (clientRequestId : String) : Work (Entity OrderRow) := do
  match ← perform (.findOrder clientRequestId) with
  | some existing => return existing
  | none => do
    let plan ← checkPurchase planId
    let orderNo ← perform .publicNumber
    let order := newOrder orderNo customerId plan none clientRequestId "PURCHASE"
    match ← (perform (.insertOrder order)).attempt with
    | .ok id => perform (.refresh id)
    | .error exc => if exc.cls = .integrityError then recoverOrder clientRequestId exc else raise exc

def sellablePlanCodes : List String := ["PLAN_50GB", "PLAN_100GB", "PLAN_200GB", "PLAN_500GB"]

/-- `plan_id or subscription.plan_id`. -/
def chosenPlan (planId : Option ℤ) (subscription : SubscriptionRow) : ℤ :=
  match planId with
  | none => subscription.planId
  | some id => if id = 0 then subscription.planId else id

def sellablePlan (plan : Option PlanRow) : Except Exn PlanRow :=
  match plan with
  | none => .error (httpException 409 "Plan not found")
  | some plan =>
    if sellablePlanCodes.contains plan.planCode then .ok plan
    else .error (httpException 400 "Plan is not sellable")

/-- `_owned_subscription`. -/
def ownedSubscription (customerId : ℕ) (subscriptionId : ℤ) : Work SubscriptionRow := do
  let found ← perform (.getSubscription subscriptionId)
  match found.filter fun subscription => subscription.customerId = customerId with
  | none => raise (httpException 404 "Subscription not found")
  | some subscription => return subscription

/-- `_create_renewal_order`. -/
def createRenewalOrderFor (customerId : ℕ) (subscriptionId : ℤ) (subscription : SubscriptionRow) (planId : Option ℤ)
    (clientRequestId : String) : Work (Entity OrderRow) := do
  match ← perform (.findOrder clientRequestId) with
  | some existing => return existing
  | none => do
    let found ← perform (.getPlan (chosenPlan planId subscription))
    let plan ← ofExcept (sellablePlan found)
    let orderNo ← perform .publicNumber
    let id ← perform (.insertOrder (newOrder orderNo customerId plan (some subscriptionId) clientRequestId "RENEWAL"))
    perform (.refresh id)

def createRenewalOrder (customerId : ℕ) (subscriptionId : ℤ) (planId : Option ℤ) (clientRequestId : String) :
    Work (Entity OrderRow) := do
  let subscription ← ownedSubscription customerId subscriptionId
  createRenewalOrderFor customerId subscriptionId subscription planId clientRequestId

/-- One request, from its arrival on. The session's transaction begins with the authentication. -/
def handle (customerId : ℕ) : Work (Entity OrderRow) := do
  let request ← perform .receive
  perform .authenticate
  match request with
  | .purchase planId clientRequestId => placeOrder customerId planId clientRequestId
  | .renewal subscriptionId planId clientRequestId =>
    createRenewalOrder customerId subscriptionId planId clientRequestId

section Sessions

/-- The committed orders, with what the requests of each client request id have asked for. -/
structure Store where
  orders : Table OrderRow
  asked : List (String × Wish)

/-- A session: the request, the subscription it has read, and the orders its transaction sees. -/
structure Handling where
  request : Option Request
  subscription : Option SubscriptionRow
  seen : Option (Table OrderRow)

def Handling.begin : Handling := ⟨none, none, none⟩

/-- What the request asks for. A renewal that names no plan asks for that of its subscription. -/
def Handling.wish (l : Handling) : Option Wish :=
  match l.request with
  | none => none
  | some (.purchase planId _) => some ⟨"PURCHASE", planId, none⟩
  | some (.renewal subscriptionId planId _) =>
    l.subscription.map fun subscription => ⟨"RENEWAL", chosenPlan planId subscription, some subscriptionId⟩

/-- An exception that is no matter of the tables. -/
inductive Failure where
  | http (statusCode : ℕ) (detail : String)
  | operational (message : String)
  deriving Repr, DecidableEq

def Failure.exn : Failure → Exn
  | http statusCode detail => httpException statusCode detail
  | operational message => ⟨.other "OperationalError", message⟩

/-- How a commit ends. Its acknowledgement may be lost. -/
inductive CommitEnd where
  | done
  | lost (message : String)
  | failed (message : String)
  deriving Repr, DecidableEq

@[reducible] def Call.Choice : Call → Type
  | receive => Request
  | authenticate => Option Failure
  | getSubscription _ => Except Failure (Option SubscriptionRow)
  | findOrder _ => Option Failure
  | getPlan _ => Except Failure (Option PlanRow)
  | capacity => Except Failure CapacityDTO
  | availableIpCount => Except Failure ℕ
  | publicNumber => String
  | insertOrder _ => CommitEnd
  | rollback => Option Failure
  | refresh _ => Option Failure

abbrev State := Store × Handling

def uniqueViolation : Exn := ⟨.integrityError, "uq_order_idempotency"⟩

def orderNoViolation : Exn := ⟨.integrityError, "order_no"⟩

def isOf (customerId : ℕ) (clientRequestId : String) (row : OrderRow) : Bool :=
  row.customerId = customerId && row.clientRequestId = clientRequestId

def Store.ask (s : Store) (clientRequestId : String) (wish : Option Wish) : Store :=
  { s with asked := wish.toList.map (fun w => (clientRequestId, w)) ++ s.asked }

/-- What the transaction sees. -/
def viewOf (w : State) : Table OrderRow := w.2.seen.getD w.1.orders

def failed {α : Type} (failure : Failure) : Except Exn α := .error failure.exn

def endedBy {α : Type} : Except Failure α → Except Exn α
  | .ok a => .ok a
  | .error failure => .error failure.exn

def insertOrder (row : OrderRow) (commit : CommitEnd) (w : State) : Except Exn ℕ × State :=
  let s := w.1.ask row.clientRequestId w.2.wish
  let stored : Store := { s with orders := s.orders.insert s.orders.next row }
  let refused : Store := { s with orders := s.orders.reserve }
  if (s.orders.find (isOf row.customerId row.clientRequestId)).isSome then (.error uniqueViolation, (refused, w.2))
  else if (s.orders.find fun r => r.orderNo = row.orderNo).isSome then (.error orderNoViolation, (refused, w.2))
  else match commit with
    | .done => (.ok s.orders.next, (stored, { w.2 with seen := none }))
    | .lost message => (.error (Failure.operational message).exn, (stored, w.2))
    | .failed message => (.error (Failure.operational message).exn, (refused, w.2))

def findOrder (customerId : ℕ) (clientRequestId : String) (w : State) : Except Exn (Option (Entity OrderRow)) × State :=
  let l := { w.2 with seen := some (viewOf w) }
  match (viewOf w).find (isOf customerId clientRequestId) with
  | none => (.ok none, (w.1, l))
  | some existing => (.ok (some existing), (w.1.ask clientRequestId w.2.wish, l))

def refresh (id : ℕ) (w : State) : Except Exn (Entity OrderRow) × State :=
  match (viewOf w).get id with
  | none => (.error ⟨.other "InvalidRequestError", "Could not refresh instance"⟩, w)
  | some row => (.ok ⟨id, row⟩, (w.1, { w.2 with seen := some (viewOf w) }))

def act (customerId : ℕ) (_ : ℕ) : (c : Call) → c.Choice → State → Except Exn c.Answer × State
  | .receive, (request : Request), (s, l) => (.ok request, (s, { l with request := some request }))
  | .authenticate, (failure : Option Failure), w =>
    (failure.elim (.ok ()) failed, (w.1, { w.2 with seen := some (viewOf w) }))
  | .getSubscription _, (found : Except Failure (Option SubscriptionRow)), (s, l) =>
    (endedBy found, (s, { l with subscription := found.toOption.join }))
  | .findOrder clientRequestId, (failure : Option Failure), w =>
    failure.elim (findOrder customerId clientRequestId w) fun failure => (failed failure, w)
  | .getPlan id, (found : Except Failure (Option PlanRow)), w =>
    (endedBy (found.map fun plan => plan.map fun plan => { plan with id := id }), w)
  | .capacity, (found : Except Failure CapacityDTO), w => (endedBy found, w)
  | .availableIpCount, (found : Except Failure ℕ), w => (endedBy found, w)
  | .publicNumber, (number : String), w => (.ok number, w)
  | .insertOrder row, (commit : CommitEnd), w => insertOrder row commit w
  | .rollback, (failure : Option Failure), (s, l) => (failure.elim (.ok ()) failed, (s, { l with seen := none }))
  | .refresh id, (failure : Option Failure), w => failure.elim (refresh id w) fun failure => (failed failure, w)

def sessions (customerId : ℕ) : Agents calls Exn Store Handling where
  Choice := Call.Choice
  act := act customerId
  leave := fun _ s => s

/-- No request of this client request id that came so far has asked for anything else. -/
def Agrees (clientRequestId : String) (w : State) : Prop :=
  ∀ wish wish', w.2.wish = some wish → (clientRequestId, wish') ∈ w.1.asked → wish' = wish

def unrestricted : Conduct calls Exn Store Handling := ⟨fun _ _ _ _ _ => True, fun _ _ => True⟩

/-- The requests of a client request id agree, and no renewal inserts an order where another
one of its client request id has been committed since it looked. -/
def Repeated : (c : Call) → State → Except Exn c.Answer → Prop
  | .findOrder clientRequestId, w, x => (∃ existing, x = .ok (some existing)) → Agrees clientRequestId w
  | .insertOrder row, w, _ => Agrees row.clientRequestId w ∧ ∀ request, w.2.request = some request →
      request.isRenewal = true → w.1.orders.find (isOf row.customerId row.clientRequestId) = none
  | _, _, _ => True

def repeated : Conduct calls Exn Store Handling := ⟨fun _ c w x _ => Repeated c w x, fun _ _ => True⟩

/-- The unique key on customer and client request id. -/
def Unique (orders : Table OrderRow) : Prop :=
  Table.UniqueKey orders.get (fun _ => true) fun row => (row.customerId, row.clientRequestId)

/-- No request has been handled yet. The orders that exist were asked for. -/
def Start (customerId : ℕ) (s : Store) : Prop :=
  Unique s.orders ∧ s.asked =
    (s.orders.entities.filter fun e => e.row.customerId = customerId).map fun e => (e.row.clientRequestId, e.row.wish)

abbrev Requests := Configuration calls Exn (Entity OrderRow) Store Handling

abbrev ReachableBy (K : Conduct calls Exn Store Handling) (customerId : ℕ) (g : Requests) : Prop :=
  Agents.Reachable (sessions customerId) K (handle customerId) Handling.begin (Start customerId) g

end Sessions

end Lingsway.Api.Orders

import Lingsway.Ports

/-!
# Transitions of a paid order
-/
namespace Lingsway.Domain

open Library

/-- Apply the selected non-purchase transition after payment is durable. -/
def applyPaidBillingChange (command : BillingCommand) : Saga Unit :=
  if command.subscriptionId.isNone then
    .raise ⟨.valueError, "A billing change requires a target subscription"⟩
  else match command.orderType with
    | .renewal => Saga.orders (.applyRenewal command)
    | .upgrade => .raise ⟨.valueError, "UPGRADE billing changes are not supported"⟩
    | .addon => .raise ⟨.valueError, "ADDON billing changes are not supported"⟩
    | .purchase =>
      .raise ⟨.valueError, "Purchase orders are handled by the provisioning workflow"⟩

def activatePaidPurchase (command : BillingCommand) : Saga Unit :=
  if command.orderType ≠ .purchase then
    .raise ⟨.valueError, "Only purchase orders can be activated by provisioning"⟩
  else Saga.orders (.activateSubscription command)

def failPaidPurchase (command : BillingCommand) (error : String) : Saga Unit :=
  Saga.orders (.markProvisionFailed command error)

end Lingsway.Domain

import Tradex.Domain.Types

/-!
# Domain events

The events that the engine publishes and persists. An event that carries an
order carries it in its state after the transition that the event reports.
-/

namespace Tradex.Domain

inductive DomainEvent where
  | orderPlaced (order : Order)
  | orderRejected (order : Order) (reason : String)
  | orderCancelled (order : Order)
  | orderModified (order : Order)
  | brokerOrderAcknowledged (order : Order)
  | orderFilled (fill : Fill) (feeAmount : Option Decimal)
  | riskDecision (request : OrderRequest) (approved : Bool) (reason : String)
  | brokerOrderRequested (request : OrderRequest)
  | cancelRequested (orderId : String)
  | unknownSubmission (request : OrderRequest) (detail : String)
  | reconciliationResult (driftCount : ℕ)
  | cashAccountInitialized (amount : Decimal)
  | cashReconciled (previous amount : Decimal) (reason : String)
  | errorOccurred (error : TradingError)
deriving DecidableEq

def DomainEvent.carriedOrder : DomainEvent → Option Order
  | .orderPlaced order => some order
  | .orderRejected order _ => some order
  | .orderCancelled order => some order
  | .orderModified order => some order
  | .brokerOrderAcknowledged order => some order
  | _ => none

def DomainEvent.reportedFill : DomainEvent → Option Fill
  | .orderFilled fill _ => some fill
  | _ => none

end Tradex.Domain

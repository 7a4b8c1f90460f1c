import Tradex.Domain.Events
import Tradex.Execution.CashLedger
import Tradex.Execution.Fees
import Tradex.Execution.Idempotency
import Tradex.Execution.PositionAccountant

/-!
# Engine state and atomic actions

The state of an execution engine and its atomic actions. Whatever the engine does not decide itself
is read from the environment, one answer per call, without assumptions.
-/

namespace Tradex.Execution

open Tradex.Domain

abbrev Answers (Answer : Type) := ℕ → Answer

def Answers.rest {Answer : Type} (answers : Answers Answer) : Answers Answer :=
  fun index ↦ answers (index + 1)

inductive SubmitOutcome where
  | accepted (order : Order) (fill : Option Fill)
  | raised (error : TradingError) (latch : Option Bool) (venueHolds : Bool)

structure Environment where
  appends : Answers (Except TradingError Unit)
  submits : Answers (OrderRequest → SubmitOutcome)
  cancels : Answers (Except TradingError Unit)
  modifies : Answers (Except TradingError Unit)
  risks : Answers (Except TradingError Bool)
  feeds : Answers Bool
  uuids : Answers String

structure EngineConfig where
  hasGuard : Bool
  hasStore : Bool
  hasRisk : Bool
  hasFeed : Bool
  hasFeeCalculator : Bool
  requireRisk : Bool
  requireFeed : Bool
  requireDurableEvents : Bool
  positionProjectionOwned : Bool
  reachesVenue : Bool
  supportsCancel : Bool
  supportsModify : Bool
  supportsSuperCancel : Bool
  tripDepth : ℕ

structure World where
  cache : TradingCache
  ledger : Option CashLedger
  accrued : Accrual
  log : List DomainEvent
  dedup : FillDedup
  guard : MemoryIdempotencyGuard
  cidForOrder : Dict String CorrelationId
  killActive : Bool
  killReason : String
  orderIndex : Dict CorrelationId String
  overfills : List OverfillWarning
  booked : List Fill
  venueAccepted : List OrderRequest
  environment : Environment

inductive Op where
  | killActive
  | setKill (reason : String)
  | feedReady
  | checkAndReserve (correlationId : CorrelationId) (requestHash : Option String)
  | recordResult (correlationId : CorrelationId) (result : IdempotencyResult)
  | releaseOwn (correlationId : CorrelationId)
  | releaseSubmitKey (correlationId : CorrelationId)
  | riskCheck (request : OrderRequest)
  | storeAppend (event : DomainEvent)
  | venueSubmit (request : OrderRequest)
  | venueCancel (orderId : String)
  | venueCancelSuper (orderId : String)
  | venueModify (orderId : String) (request : OrderRequest)
  | uuid4
  | getOrder (orderId : String)
  | updateOrder (order : Order)
  | allOrders
  | stampCid (orderId : String) (correlationId : CorrelationId)
  | popCid (orderId : String)
  | computeFee (fill : Fill)
  | seenFill (fill : Fill)
  | recordFill (fill : Fill)
  | requireCash (fill : Fill) (fee : Decimal)
  | applyFillEffect (fill : Fill) (fee : Decimal)
  | warnOverfill (warning : OverfillWarning)
  | publish (event : DomainEvent)

@[reducible] def Op.Res : Op → Type
  | .killActive => Bool
  | .setKill _ => Unit
  | .feedReady => Bool
  | .checkAndReserve _ _ => Except TradingError Reservation
  | .recordResult _ _ => Unit
  | .releaseOwn _ => Unit
  | .releaseSubmitKey _ => Unit
  | .riskCheck _ => Except TradingError Bool
  | .storeAppend _ => Except TradingError Unit
  | .venueSubmit _ => SubmitOutcome
  | .venueCancel _ => Except TradingError Unit
  | .venueCancelSuper _ => Except TradingError Unit
  | .venueModify _ _ => Except TradingError Unit
  | .uuid4 => String
  | .getOrder _ => Option Order
  | .updateOrder _ => Unit
  | .allOrders => List Order
  | .stampCid _ _ => Unit
  | .popCid _ => Option CorrelationId
  | .computeFee _ => Except TradingError Decimal
  | .seenFill _ => Bool
  | .recordFill _ => Bool
  | .requireCash _ _ => Except TradingError Unit
  | .applyFillEffect _ _ => Except TradingError Unit
  | .warnOverfill _ => Unit
  | .publish _ => Unit

def SubmitOutcome.venueHolds : SubmitOutcome → Bool
  | .accepted _ _ => true
  | .raised _ _ held => held

def bookPosition (cache : TradingCache) (fill : Fill) (fee : Decimal) : TradingCache :=
  let filled := (PositionAccountant.onFill cache fill).2
  if 0 < fee then (PositionAccountant.onFee filled fill { amount := fee }).2 else filled

namespace World

variable (world : World) (fill : Fill)

def requireCash (fee : Decimal) : Except TradingError Unit :=
  match world.ledger with
  | none => .ok ()
  | some ledger => ledger.requireDebit (CashLedger.fillDebit fill fee) (CashLedger.fillLabel fill)

def book (fee : Decimal) : World :=
  { world with
    cache := bookPosition world.cache fill fee
    booked := world.booked ++ [fill] }

def applyFillEffect (fee : Decimal) : Except TradingError Unit × World :=
  match world.ledger with
  | none => (.ok (), world.book fill fee)
  | some ledger =>
    match ledger.requireDebit (CashLedger.fillDebit fill fee) (CashLedger.fillLabel fill) with
    | .error err => (.error err, world)
    | .ok _ =>
      let settled := ledger.settleFill fill fee (CashLedger.fillLabel fill)
      (settled.2, { world.book fill fee with ledger := some settled.1 })

def computeFee (cfg : EngineConfig) (world : World) (fill : Fill) :
    Except TradingError Decimal × World :=
  match Execution.computeFee cfg.hasFeeCalculator world.accrued fill with
  | .error err => (.error err, world)
  | .ok (fee, accrued) => (.ok fee, { world with accrued := accrued })

def storeAppend (ev : DomainEvent) : Except TradingError Unit × World :=
  let ans := world.environment.appends 0
  let env := { world.environment with appends := world.environment.appends.rest }
  match ans with
  | .ok _ => (ans, { world with log := world.log ++ [ev], environment := env })
  | .error _ => (ans, { world with environment := env })

def venueSubmit (req : OrderRequest) : SubmitOutcome × World :=
  let out := world.environment.submits 0 req
  (out, { world with
    venueAccepted :=
      if out.venueHolds then world.venueAccepted ++ [req] else world.venueAccepted
    environment := { world.environment with submits := world.environment.submits.rest } })

def publish : DomainEvent → World
  | .orderPlaced order =>
    match order.correlationId with
    | some cid => { world with orderIndex := world.orderIndex.set cid order.orderId }
    | none => world
  | .orderCancelled order =>
    match order.correlationId with
    | some cid => { world with orderIndex := world.orderIndex.erase cid }
    | none => world
  | _ => world

end World

def exec (cfg : EngineConfig) (op : Op) (world : World) : op.Res × World :=
  match op with
  | .killActive => (world.killActive, world)
  | .setKill why => ((), { world with killActive := true, killReason := why })
  | .feedReady =>
    (world.environment.feeds 0, { world with
      environment := { world.environment with feeds := world.environment.feeds.rest } })
  | .checkAndReserve cid requestHash =>
    let ans := world.guard.checkAndReserve cid requestHash
    (ans.1, { world with guard := ans.2 })
  | .recordResult cid res => ((), { world with guard := world.guard.recordResult cid res })
  | .releaseOwn cid => ((), { world with guard := world.guard.release cid })
  | .releaseSubmitKey cid => ((), { world with guard := world.guard.release cid })
  | .riskCheck _ =>
    (world.environment.risks 0, { world with
      environment := { world.environment with risks := world.environment.risks.rest } })
  | .storeAppend ev => world.storeAppend ev
  | .venueSubmit req => world.venueSubmit req
  | .venueCancel _ =>
    (world.environment.cancels 0, { world with
      environment := { world.environment with cancels := world.environment.cancels.rest } })
  | .venueCancelSuper _ =>
    (world.environment.cancels 0, { world with
      environment := { world.environment with cancels := world.environment.cancels.rest } })
  | .venueModify _ _ =>
    (world.environment.modifies 0, { world with
      environment := { world.environment with modifies := world.environment.modifies.rest } })
  | .uuid4 =>
    (world.environment.uuids 0, { world with
      environment := { world.environment with uuids := world.environment.uuids.rest } })
  | .getOrder oid => (world.cache.getOrder oid, world)
  | .updateOrder order => ((), { world with cache := world.cache.updateOrder order })
  | .allOrders => (world.cache.allOrders, world)
  | .stampCid oid cid => ((), { world with cidForOrder := world.cidForOrder.set oid cid })
  | .popCid oid =>
    (world.cidForOrder.get oid, { world with cidForOrder := world.cidForOrder.erase oid })
  | .computeFee fill => world.computeFee cfg fill
  | .seenFill fill =>
    let ans := world.dedup.seen fill
    (ans.1, { world with dedup := ans.2 })
  | .recordFill fill =>
    let ans := world.dedup.checkAndRecord fill
    (ans.1, { world with dedup := ans.2 })
  | .requireCash fill fee => (world.requireCash fill fee, world)
  | .applyFillEffect fill fee => world.applyFillEffect fill fee
  | .warnOverfill warning => ((), { world with overfills := world.overfills ++ [warning] })
  | .publish ev => ((), world.publish ev)

def World.constructed (env : Environment) : World where
  cache := TradingCache.empty
  ledger := none
  accrued := Dict.empty
  log := []
  dedup := FillDedup.default
  guard := MemoryIdempotencyGuard.empty
  cidForOrder := Dict.empty
  killActive := false
  killReason := ""
  orderIndex := Dict.empty
  overfills := []
  booked := []
  venueAccepted := []
  environment := env

def World.opened (env : Environment) (cash : Decimal) (allowNegative : Bool) : World :=
  { World.constructed env with
    ledger := some { cash := cash, allowNegative := allowNegative }
    log := [.cashAccountInitialized cash] }

def Environment.obliging (submit : OrderRequest → SubmitOutcome) : Environment where
  appends _ := .ok ()
  submits _ := submit
  cancels _ := .ok ()
  modifies _ := .ok ()
  risks _ := .ok true
  feeds _ := true
  uuids index := "order-" ++ toString index

def EngineConfig.standard : EngineConfig where
  hasGuard := true
  hasStore := true
  hasRisk := false
  hasFeed := false
  hasFeeCalculator := true
  requireRisk := false
  requireFeed := false
  requireDurableEvents := false
  positionProjectionOwned := false
  reachesVenue := true
  supportsCancel := true
  supportsModify := true
  supportsSuperCancel := false
  tripDepth := 1

abbrev EngineProgram := Program Op Op.Res TradingError

end Tradex.Execution

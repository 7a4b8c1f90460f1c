import Tradex.Execution.EngineState
import Tradex.Execution.RequestFingerprint

/-!
# The execution engine

The public operations of the engine as programs over its atomic actions, stage by stage in the order
in which the source runs them.
-/

namespace Tradex.Execution.Engine

open Tradex.Domain

def act (op : Op) : EngineProgram op.Res := Program.perform op

variable (cfg : EngineConfig)

def releaseReservation (resv : Option CorrelationId) : EngineProgram Unit :=
  match resv with
  | some cid => if cfg.hasGuard then act (.releaseOwn cid) else pure ()
  | none => pure ()

def recordResult (cfg : EngineConfig) (cid : Option CorrelationId)
    (res : IdempotencyResult) : EngineProgram Unit :=
  match cid with
  | some cid => if cfg.hasGuard then act (.recordResult cid res) else pure ()
  | none => pure ()

def reserveOwn (cid : Option CorrelationId) (hash : String) :
    EngineProgram (Option IdempotencyResult) :=
  match cid with
  | none => pure none
  | some cid =>
    if cfg.hasGuard then do
      let ans : Except TradingError Reservation ←
        act (.checkAndReserve cid (some hash))
      match ans with
      | .ok .fresh => pure none
      | .ok (.duplicate res) => pure (some res)
      | .error err => .raise err
    else pure none

def releasingOnFailure {Output : Type} (cfg : EngineConfig) (resv : Option CorrelationId)
    (body : EngineProgram Output) : EngineProgram Output :=
  Program.tryCatch (fun err ↦ do releaseReservation cfg resv; .raise err) body

variable (order : Order)

def isBracketOrder : Bool :=
  order.stopLossPrice.isSome && order.targetPrice.isSome

variable (oid : String)

def notFoundError : TradingError :=
  .orderRejected ("Order " ++ oid ++ " not found")

section

variable (cfg : EngineConfig) (append : DomainEvent → EngineProgram Bool)

def venueCancel (order : Order) (oid : String) : EngineProgram Unit :=
  if isBracketOrder order then
    if cfg.supportsSuperCancel then do
      let ans : Except TradingError Unit ← act (.venueCancelSuper oid)
      Program.ofExcept ans
    else
      .raise (.orderRejected ("Order " ++ oid ++ " is a bracket and the execution " ++
        "source does not support super-order cancellation"))
  else if cfg.supportsCancel then do
    let ans : Except TradingError Unit ← act (.venueCancel oid)
    Program.ofExcept ans
  else pure ()

def cancelAtVenue (oid : String) : EngineProgram Order := do
  let order : Option Order ← act (.getOrder oid)
  match order with
  | none => .raise (notFoundError oid)
  | some order =>
    let cancelled ← Program.ofExcept (order.transitionTo .cancelled none)
    let _ ← append (.cancelRequested oid)
    venueCancel cfg order oid
    pure cancelled

def releaseSubmitKey (oid : String) : EngineProgram Unit := do
  let submitKey : Option CorrelationId ← act (.popCid oid)
  match submitKey with
  | some cid => if cfg.hasGuard then act (.releaseSubmitKey cid) else pure ()
  | none => pure ()

def cancelWith (oid : String) (cid : Option CorrelationId) :
    EngineProgram IdempotencyResult := do
  let replay ← reserveOwn cfg cid (cancelFingerprint oid)
  match replay with
  | some res => pure res
  | none =>
    let cancelled ← releasingOnFailure cfg cid (cancelAtVenue cfg append oid)
    act (.updateOrder cancelled)
    act (.publish (.orderCancelled cancelled))
    let _ ← append (.orderCancelled cancelled)
    releaseSubmitKey cfg oid
    recordResult cfg cid (.order cancelled)
    pure (.order cancelled)

def cancelAll : List Order → EngineProgram (List String)
  | [] => pure []
  | order :: rest => do
    let failed ←
      if order.status.isTerminal then pure []
      else
        Program.tryCatch (fun _ ↦ pure [order.orderId]) do
          let _ ← cancelWith cfg append order.orderId none
          pure []
    let others ← cancelAll rest
    pure (failed ++ others)

def tripWith (why : String) : EngineProgram (List String) := do
  act (.setKill why)
  let orders : List Order ← act .allOrders
  cancelAll cfg append orders

end

def appendFailed (trip : String → EngineProgram (List String))
    (err : TradingError) : EngineProgram Bool := do
  if cfg.requireDurableEvents then
    let active : Bool ← act .killActive
    if active then pure ()
    else
      let _ ← trip ("EventStore.append failed: " ++ err.message)
    act (.publish (.errorOccurred err))
  pure false

def appendWith (trip : String → EngineProgram (List String))
    (ev : DomainEvent) : EngineProgram Bool :=
  if cfg.hasStore then do
    let ans : Except TradingError Unit ← act (.storeAppend ev)
    match ans with
    | .ok _ => pure true
    | .error err => appendFailed cfg trip err
  else pure true

def appendAt (cfg : EngineConfig) : ℕ → DomainEvent → EngineProgram Bool
  | 0 => appendWith cfg fun why ↦ do act (.setKill why); pure []
  | depth + 1 => appendWith cfg (tripWith cfg (appendAt cfg depth))

def append (ev : DomainEvent) : EngineProgram Bool :=
  appendAt cfg cfg.tripDepth ev

def cancel (cid : Option CorrelationId) : EngineProgram IdempotencyResult :=
  cancelWith cfg (append cfg) oid cid

def tripKillSwitch (why : String) : EngineProgram (List String) :=
  tripWith cfg (append cfg) why

variable (req : OrderRequest)

def modifiedOrder : Order :=
  { order with
    orderType := req.orderType
    quantity := req.quantity
    price := req.price
    triggerPrice := req.triggerPrice
    timeInForce := req.timeInForce
    stopLossPrice := req.stopLossPrice
    targetPrice := req.targetPrice
    trailingJump := req.trailingJump }

def modifyRefusal (req : OrderRequest) : Option TradingError :=
  if order.status.isTerminal then
    some (.orderRejected
      ("Order " ++ oid ++ " is " ++ order.status.value ++ " and cannot be modified"))
  else if req.quantity ≤ order.filledQuantity then
    some (.orderRejected
      ("Order " ++ oid ++ ": modified quantity " ++ req.quantity.str ++
        " must exceed already-filled quantity " ++ order.filledQuantity.str))
  else if isBracketOrder order && !req.isBracket then
    some (.orderRejected
      ("Order " ++ oid ++ " is a bracket: modification must carry " ++
        "price, stop_loss_price, and target_price"))
  else none

def modifyRisk (req : OrderRequest) : EngineProgram Unit :=
  if cfg.hasRisk then do
    let verdict : Except TradingError Bool ← act (.riskCheck req)
    match verdict with
    | .error err => .raise err
    | .ok true => pure ()
    | .ok false =>
      .raise (.orderRejected
        ("Order " ++ oid ++ ": modified request rejected by risk check"))
  else pure ()

def recordModified (modified : Order) : EngineProgram Order := do
  act (.updateOrder modified)
  act (.publish (.orderModified modified))
  let _ ← append cfg (.orderModified modified)
  pure modified

def modifyBody (req : OrderRequest) :
    EngineProgram Order := do
  let order : Option Order ← act (.getOrder oid)
  match order with
  | none => .raise (notFoundError oid)
  | some order =>
    match modifyRefusal order oid req with
    | some err => .raise err
    | none =>
      modifyRisk cfg oid req
      if cfg.supportsModify then
        let ans : Except TradingError Unit ← act (.venueModify oid req)
        Program.ofExcept ans
      recordModified cfg (modifiedOrder order req)

def modify (cfg : EngineConfig) (oid : String) (req : OrderRequest) :
    EngineProgram IdempotencyResult := do
  let replay ← reserveOwn cfg req.correlationId
    (requestFingerprint req "modify" (some oid))
  match replay with
  | some res => pure res
  | none =>
    let modified ← releasingOnFailure cfg req.correlationId (modifyBody cfg oid req)
    recordResult cfg req.correlationId (.order modified)
    pure (.order modified)

variable (fill : Fill)

def onOrderFilled : EngineProgram Order := do
  match overfillWarning order fill with
  | some warning => act (.warnOverfill warning)
  | none => pure ()
  let filled ← Program.ofExcept (filledOrder order fill)
  act (.updateOrder filled)
  pure filled

def applyFillEffect (cfg : EngineConfig) (fill : Fill) (fee : Decimal) : EngineProgram Unit :=
  if cfg.positionProjectionOwned then pure ()
  else do
    let ans : Except TradingError Unit ← act (.applyFillEffect fill fee)
    Program.ofExcept ans

def computeFee (cfg : EngineConfig) (fill : Fill) : EngineProgram Decimal :=
  if cfg.positionProjectionOwned then pure 0
  else do
    let ans : Except TradingError Decimal ← act (.computeFee fill)
    Program.ofExcept ans

def unknownFillOrder : Except TradingError Order :=
  if hqty : 0 < fill.quantity.toRat then
    .ok (createOrder
      { instrument := fill.instrument
        side := fill.side
        orderType := .market
        quantity := fill.quantity
        price := some fill.price
        quantity_pos := hqty
        bracket_valid := by simp }
      fill.orderId .filled fill.quantity)
  else .error (.value "OrderRequest quantity must be positive")

def requireCashForFill (fee : Decimal) : EngineProgram Unit :=
  if cfg.positionProjectionOwned then pure ()
  else do
    let ans : Except TradingError Unit ← act (.requireCash fill fee)
    match ans with
    | .ok _ => pure ()
    | .error err => do
      act (.publish (.errorOccurred err))
      .raise err

def advanceOrder (existing : Option Order) (fill : Fill) : EngineProgram Unit :=
  match existing with
  | some order => do
    let _ ← onOrderFilled order fill
    pure ()
  | none => do
    let order ← Program.ofExcept (unknownFillOrder fill)
    act (.updateOrder order)

def recordedOrComputedFee (charge : Option Decimal) : EngineProgram Decimal :=
  match charge with
  | some fee => pure fee
  | none => computeFee cfg fill

def applyFreshFill (existing : Option Order) (fill : Fill)
    (charge : Option Decimal) : EngineProgram Unit := do
  let fee ← recordedOrComputedFee cfg fill charge
  requireCashForFill cfg fill fee
  let durable ← append cfg (.orderFilled fill (some fee))
  if durable then
    let _ : Bool ← act (.recordFill fill)
    applyFillEffect cfg fill fee
    advanceOrder existing fill

def applyFill (charge : Option Decimal) :
    EngineProgram Unit := do
  let seen : Bool ← act (.seenFill fill)
  if seen then pure ()
  else
    let existing : Option Order ← act (.getOrder fill.orderId)
    if existing.map Order.status = some .rejected then pure ()
    else applyFreshFill cfg existing fill charge

def publishFilled (charge : Option Decimal) :
    EngineProgram Unit := do
  act (.publish (.orderFilled fill charge))
  Program.tryCatch (fun _ ↦ pure ()) (applyFill cfg fill charge)

def submittedReceipt : IdempotencyResult :=
  .receipt { orderId := order.orderId, status := order.status, message := "submitted" }

def applyFillToBook (fee : Decimal)
    (cid : Option CorrelationId) : EngineProgram Order := do
  let durable ← append cfg (.orderFilled fill (some fee))
  if durable then
    applyFillEffect cfg fill fee
    let filled ← onOrderFilled order fill
    let _ : Bool ← act (.recordFill fill)
    publishFilled cfg fill (some fee)
    recordResult cfg cid (submittedReceipt filled)
    pure filled
  else .raise (.runtime ("fill " ++ fill.orderId ++ " not durable"))

def makeOrder (status : OrderStatus) : EngineProgram Order := do
  let oid : String ← act .uuid4
  pure (createOrder req oid status 0)

def rejectedReceipt (why : String) : IdempotencyResult :=
  .receipt { orderId := order.orderId, status := .rejected, message := why }

def rejectIntake (why : String)
    (resv : Option CorrelationId) : EngineProgram IdempotencyResult := do
  releaseReservation cfg resv
  let order ← makeOrder req .rejected
  act (.updateOrder order)
  act (.publish (.orderRejected order why))
  let _ ← append cfg (.orderRejected order why)
  pure (rejectedReceipt order why)

inductive KeyCheck where
  | answered (result : IdempotencyResult)
  | proceed (reserved : Option CorrelationId)

def checkKey : EngineProgram KeyCheck :=
  match req.correlationId with
  | none => pure (.proceed none)
  | some cid =>
    if cfg.hasGuard then do
      let ans : Except TradingError Reservation ←
        act (.checkAndReserve cid (some (requestFingerprint req "submit" none)))
      match ans with
      | .ok .fresh => pure (.proceed (some cid))
      | .ok (.duplicate res) => pure (.answered res)
      | .error (.idempotencyInflight _) =>
        pure (.answered (.receipt
          { orderId := "pending", status := .pending, message := "idempotency_in_flight" }))
      | .error err => .raise err
    else pure (.proceed none)

def riskRejected (resv : Option CorrelationId) :
    EngineProgram IdempotencyResult := do
  let order ← makeOrder req .rejected
  act (.updateOrder order)
  releaseReservation cfg resv
  act (.publish (.orderRejected order "risk_check_failed"))
  let _ ← append cfg (.riskDecision req false "risk_check_failed")
  let _ ← append cfg (.orderRejected order "risk_check_failed")
  pure (rejectedReceipt order "risk_check_failed")

def riskGate (resv : Option CorrelationId) : EngineProgram (Option IdempotencyResult) :=
  if cfg.hasRisk then do
    let verdict : Except TradingError Bool ← act (.riskCheck req)
    match verdict with
    | .error err => do
      releaseReservation cfg resv
      .raise err
    | .ok false => do
      let receipt ← riskRejected cfg req resv
      pure (some receipt)
    | .ok true => do
      let durable ← append cfg (.riskDecision req true "")
      if durable then pure none
      else
        releaseReservation cfg resv
        .raise (.runtime "risk_decision_not_durable")
  else pure none

def boundaryCrossed (err : TradingError) (latch : Option Bool) : Bool :=
  (cfg.reachesVenue && latch ≠ some false) ||
    match err with
    | .orderSubmissionUnknown _ => true
    | _ => false

def submissionRaised
    (resv : Option CorrelationId) (err : TradingError) (latch : Option Bool) :
    EngineProgram IdempotencyResult :=
  if boundaryCrossed cfg err latch then do
    let _ ← append cfg (.unknownSubmission req err.message)
    let order ← makeOrder req .new
    let unknown ← Program.ofExcept (order.transitionTo .unknown none)
    act (.updateOrder unknown)
    let _ ← append cfg (.orderPlaced unknown)
    let _ ← tripKillSwitch cfg
      ("unknown_broker_outcome: the venue may have accepted an order this process cannot " ++
        "account for (" ++ err.message ++ ")")
    .raise (.orderSubmissionUnknown
      ("Order submission failed after crossing broker boundary: " ++ err.message))
  else rejectIntake cfg req err.message resv

def settleSynchronousFill (resv : Option CorrelationId) (order : Order) (fill : Fill) :
    EngineProgram IdempotencyResult := do
  let fee ← computeFee cfg fill
  let filled ← releasingOnFailure cfg resv
    (applyFillToBook cfg order fill fee req.correlationId)
  pure (submittedReceipt filled)

def acceptOrder (resv : Option CorrelationId)
    (order : Order) (fill : Option Fill) : EngineProgram IdempotencyResult := do
  act (.updateOrder order)
  act (.publish (.orderPlaced order))
  let placed ← append cfg (.orderPlaced order)
  if placed then
    let acknowledged ← append cfg (.brokerOrderAcknowledged order)
    if acknowledged then
      match resv with
      | some cid => act (.stampCid order.orderId cid)
      | none => pure ()
      match fill with
      | some fill => settleSynchronousFill cfg req resv order fill
      | none =>
        recordResult cfg resv (submittedReceipt order)
        pure (submittedReceipt order)
    else .raise (.runtime "order_ack_not_durable")
  else .raise (.runtime "order_placed_not_durable")

def callVenue (resv : Option CorrelationId) :
    EngineProgram IdempotencyResult := do
  let out : SubmitOutcome ← act (.venueSubmit req)
  match out with
  | .accepted order fill => acceptOrder cfg req resv order fill
  | .raised err latch _ => submissionRaised cfg req resv err latch

def dispatch (resv : Option CorrelationId) :
    EngineProgram IdempotencyResult := do
  let durable ← append cfg (.brokerOrderRequested req)
  if durable then callVenue cfg req resv
  else
    releaseReservation cfg resv
    .raise (.runtime "dispatch_intent_not_durable")

def afterReservation (resv : Option CorrelationId) : EngineProgram IdempotencyResult := do
  let rejected ← riskGate cfg req resv
  match rejected with
  | some receipt => pure receipt
  | none =>
    match requireFeeSchedule (some req.productType) with
    | .error err => rejectIntake cfg req err.message resv
    | .ok _ => dispatch cfg req resv

def intakeRefusal : EngineProgram (Option String) := do
  let active : Bool ← act .killActive
  if active then pure (some "kill_switch_active")
  else if cfg.requireFeed && !cfg.hasFeed then pure (some "FEED_UNBOUND")
  else
    let ready ← if cfg.hasFeed then (act .feedReady : EngineProgram Bool) else pure true
    if !ready then pure (some "feed_not_ready")
    else if cfg.requireRisk && !cfg.hasRisk then pure (some "RISK_UNBOUND")
    else pure none

def runPipelineBody :
    EngineProgram IdempotencyResult := do
  let refusal ← intakeRefusal cfg
  match refusal with
  | some why => rejectIntake cfg req why none
  | none =>
    let key ← checkKey cfg req
    match key with
    | .answered res => pure res
    | .proceed resv => afterReservation cfg req resv

def submit : EngineProgram IdempotencyResult :=
  Program.tryCatch
    (fun err ↦ do act (.publish (.errorOccurred err)); .raise err)
    (runPipelineBody cfg req)

inductive EngineCall where
  | submit (request : OrderRequest)
  | cancel (orderId : String) (correlationId : Option CorrelationId)
  | modify (orderId : String) (request : OrderRequest)
  | inbound (fill : Fill) (feeAmount : Option Decimal)

def EngineCall.program : EngineCall → EngineProgram Unit
  | .submit req => do
    let _ ← Engine.submit cfg req
    pure ()
  | .cancel oid cid => do
    let _ ← Engine.cancel cfg oid cid
    pure ()
  | .modify oid req => do
    let _ ← Engine.modify cfg oid req
    pure ()
  | .inbound fill charge => applyFill cfg fill charge

def EngineCall.run (cfg : EngineConfig) (call : EngineCall) (world : World) :
    Except TradingError Unit × World :=
  (call.program cfg).run (exec cfg) world

end Tradex.Execution.Engine

import Tradex.Domain.Market
import Tradex.Execution.EngineState
import Tradex.Foundation.DecimalContext

/-!
# The paper broker

The in-memory broker on which strategies are approved.
-/

namespace Tradex.Brokers.Paper

open Domain Execution

def quotient (a b : Decimal) : Decimal := Decimal.rounded (a.toRat / b.toRat)

structure PaperConfig where
  autoFill : Bool := false
  projectPositions : Bool := true
  orderBook : Bool := true
  enforceMargin : Bool := true
  enforceSession : Bool := true

structure SessionReading where
  now : String
  isOpen : Bool

abbrev Level := Price × Decimal

structure BookFill where
  order : Order
  depth : Option Depth
  taken : List Level
  applied : Order
deriving DecidableEq

structure PaperBroker where
  cash : Decimal
  quotes : Dict Instrument Quote := .empty
  depths : Dict Instrument Depth := .empty
  orders : Dict String Order := .empty
  positions : Dict Instrument Position := .empty
  clock : Answers (SessionReading × SessionReading)
  fills : List BookFill := []

variable (cfg : PaperConfig)

def marginBuffer : Decimal := ⟨5, -2⟩

variable (reading : SessionReading)

def requireMarketSession : Except TradingError Unit :=
  if cfg.enforceSession && !reading.isOpen then
    .error (.orderRejected ("market closed at " ++ reading.now ++ ": paper refuses to fill " ++
      "outside the NSE/BSE cash session (pass enforce_session=False to simulate 24x7)"))
  else .ok ()

def requireBuyingPower (cash notional : Decimal) (order : Order) : Except TradingError Unit :=
  if cfg.enforceMargin && cash < notional * (1 + marginBuffer) then
    match order.price with
    | none => .error (.other "'NoneType' object has no attribute 'value'")
    | some price =>
      .error (.orderRejected ("insufficient buying power: " ++ order.side.value ++ " " ++
        order.filledQuantity.str ++ " x " ++ price.value.str ++ " needs " ++
        (notional * (1 + marginBuffer)).str ++ " (incl. 5% margin), cash is " ++ cash.str ++
        " (order " ++ order.orderId ++ ")"))
  else .ok ()

def passGates (cash notional : Decimal) (order : Order) :
    Except TradingError Unit := do
  requireMarketSession cfg reading
  if order.side = .buy then requireBuyingPower cfg cash notional order

variable (order : Order)

def updatePosition (price : Price) (broker : PaperBroker) : Dict Instrument Position :=
  broker.positions.set order.instrument (Domain.applyFill (broker.positions.get order.instrument)
    { orderId := order.orderId
      instrument := order.instrument
      side := order.side
      quantity := order.filledQuantity
      price := price
      productType := some order.productType })

def cashAfter (side : OrderSide) (cash notional : Decimal) : Decimal :=
  match side with
  | .buy => cash - notional
  | .sell => cash + notional

def applyFill (order : Order) (broker : PaperBroker) : Except TradingError PaperBroker :=
  match order.price with
  | none => .error (.value "filled paper order requires a price")
  | some price => do
    passGates cfg reading broker.cash (price.value * order.filledQuantity) order
    return { broker with
      cash := cashAfter order.side broker.cash (price.value * order.filledQuantity)
      positions :=
        if cfg.projectPositions then updatePosition order price broker else broker.positions }

def bookFill (fill : BookFill) (stored : Order) (broker : PaperBroker) :
    Except TradingError PaperBroker := do
  let booked ← applyFill cfg reading fill.applied broker
  return { booked with
    orders := booked.orders.set fill.order.orderId stored
    fills := booked.fills ++ [fill] }

def canFill (broker : PaperBroker) : Bool :=
  match order.orderType with
  | .stop | .stopLimit =>
    match broker.quotes.get order.instrument, order.triggerPrice, order.side with
    | some quote, some trigger, .buy => trigger.value ≤ quote.ltp.value
    | some quote, some trigger, .sell => quote.ltp.value ≤ trigger.value
    | _, _, _ => false
  | _ => true

variable (depth : Depth)

def bookSide : List Level :=
  match order.side with
  | .buy => depth.asks
  | .sell => depth.bids

def topOfBook (broker : PaperBroker) : Option Level :=
  if cfg.orderBook then
    (broker.depths.get order.instrument).bind fun depth ↦ (bookSide order depth).head?
  else none

def fillPrice (broker : PaperBroker) : Except TradingError Price :=
  if order.orderType = .limit ∨ order.orderType = .stopLimit then
    match order.price with
    | none => .error (.orderRejected (order.orderType.value ++ " requires price"))
    | some price => .ok price
  else
    match broker.quotes.get order.instrument with
    | none => .error (.value "market or triggered stop order requires a tape quote")
    | some quote => .ok (((topOfBook cfg order broker).map Prod.fst).getD quote.ltp)

def fillOrder (order : Order) (broker : PaperBroker) :
    Except TradingError PaperBroker := do
  let moved ← order.transitionTo .filled none
  let price ← fillPrice cfg order broker
  let filled := { moved with price := some price, filledQuantity := order.quantity }
  bookFill cfg reading ⟨order, broker.depths.get order.instrument, [(price, order.quantity)], filled⟩
    filled broker

def withinLimit (price : Price) : Bool :=
  match order.side, order.price with
  | _, none => true
  | .buy, some limit => price.value ≤ limit.value
  | .sell, some limit => limit.value ≤ price.value

structure Walk where
  filled : Decimal := 0
  cost : Decimal := 0
  kept : List Level := []
  taken : List Level := []

def walk (order : Order) (rem : Decimal) : List Level → Walk
  | [] => {}
  | (price, qty) :: levels =>
    if rem ≤ 0 then {}
    else if withinLimit order price then
      let took := Decimal.minimum rem qty
      let rest := walk order (rem - took) levels
      { filled := took + rest.filled
        cost := price.value * took + rest.cost
        kept := if took < qty then (price, qty - took) :: rest.kept else rest.kept
        taken := (price, took) :: rest.taken }
    else
      let rest := walk order rem levels
      { rest with kept := (price, qty) :: rest.kept }

def remainingQuantity : Decimal :=
  if order.status = .partiallyFilled then order.quantity - order.filledQuantity else order.quantity

def bookWalk : Walk :=
  walk order (remainingQuantity order) (bookSide order depth)

def replaceSide (levels : List Level) : Depth :=
  match order.side with
  | .buy => { depth with asks := levels }
  | .sell => { depth with bids := levels }

variable (walked : Walk)

def marginalPrice : Decimal := quotient walked.cost walked.filled

def overallAverage : Decimal :=
  if order.status = .partiallyFilled ∧ 0 < order.filledQuantity + walked.filled then
    let prev := ((order.avgPriceTraded <|> order.price).map Price.value).getD 0
    quotient (prev * order.filledQuantity + walked.cost) (order.filledQuantity + walked.filled)
  else marginalPrice walked

def Price.of (val : Decimal) : Except TradingError Price :=
  if h : 0 ≤ val.toRat then .ok ⟨val, h⟩
  else .error (.value "Price must be non-negative")

def settlement : Except TradingError (Order × Order) :=
  if order.quantity ≤ walked.filled then do
    let moved ← order.transitionTo .filled none
    let average ← Price.of (overallAverage order walked)
    let filled := { moved with
      price := some (order.price.getD average)
      avgPriceTraded := some average
      filledQuantity := order.quantity }
    return (filled, filled)
  else do
    let marginal ← Price.of (marginalPrice walked)
    let average ← Price.of (overallAverage order walked)
    return (
      { order with
        price := some marginal
        avgPriceTraded := some average
        filledQuantity := walked.filled },
      { order with
        status := .partiallyFilled
        price := some (order.price.getD marginal)
        avgPriceTraded := some average
        filledQuantity :=
          if order.status = .partiallyFilled then order.filledQuantity + walked.filled
          else walked.filled })

def settle (order : Order) (depth : Depth) (broker : PaperBroker) :
    Except TradingError PaperBroker := do
  let (applied, stored) ← settlement order (bookWalk order depth)
  bookFill cfg reading ⟨order, some depth, (bookWalk order depth).taken, applied⟩ stored broker

def commit (broker : PaperBroker) :
    Except TradingError PaperBroker → Except TradingError Unit × PaperBroker
  | .error err => (.error err, broker)
  | .ok after => (.ok (), after)

def replaceBook (broker : PaperBroker) : PaperBroker :=
  { broker with
    depths := broker.depths.set order.instrument
      (replaceSide order depth (bookWalk order depth).kept) }

def tryFillAgainstBook (reads : SessionReading × SessionReading) (order : Order)
    (broker : PaperBroker) : Except TradingError Unit × PaperBroker :=
  if canFill order broker then
    match broker.depths.get order.instrument with
    | none => commit broker (fillOrder cfg reads.1 order broker)
    | some depth =>
      if remainingQuantity order ≤ 0 ∨ (bookWalk order depth).filled ≤ 0 then (.ok (), broker)
      else
        match passGates cfg reads.1 broker.cash (bookWalk order depth).cost order with
        | .error err => (.error err, broker)
        | .ok () =>
          commit (replaceBook order depth broker)
            (settle cfg reads.2 order depth (replaceBook order depth broker))
  else (.ok (), broker)

def fillAttempt (reads : SessionReading × SessionReading) (order : Order)
    (broker : PaperBroker) : Except TradingError Unit × PaperBroker :=
  if cfg.orderBook then tryFillAgainstBook cfg reads order broker
  else if canFill order broker then commit broker (fillOrder cfg reads.1 order broker)
  else (.ok (), broker)

def attemptFill (broker : PaperBroker) : Except TradingError Unit × PaperBroker :=
  match fillAttempt cfg (broker.clock 0) order { broker with clock := broker.clock.rest } with
  | (.error (.orderRejected _), after) => (.ok (), after)
  | out => out

def attemptEach : List Order → PaperBroker → Except TradingError Unit × PaperBroker
  | [], broker => (.ok (), broker)
  | order :: orders, broker =>
    match attemptFill cfg order broker with
    | (.ok (), after) => attemptEach orders after
    | failed => failed

variable (instr : Instrument)

def resting (broker : PaperBroker) : List Order :=
  broker.orders.values.filter fun order ↦ order.instrument = instr ∧ order.status = .ack

def attemptResting (broker : PaperBroker) : Except TradingError Unit × PaperBroker :=
  attemptEach cfg (resting instr broker) broker

def setQuote (ltp bid ask : Option Price) (now : ℤ)
    (broker : PaperBroker) : Except TradingError Unit × PaperBroker :=
  match ltp <|> bid.bind fun low ↦ ask.map (midPrice low) with
  | none => (.error (.value "set_quote requires ltp (or both bid and ask)"), broker)
  | some last =>
    attemptResting cfg instr { broker with
      quotes := broker.quotes.set instr ⟨instr, last, bid, ask, now⟩ }

def validateSide (side direction : String) (better : Price → Price → Bool) :
    List Level → Except TradingError Unit
  | (price, _) :: (next, qty) :: levels =>
    if better next price then
      .error (.value ("Depth " ++ side ++ " must be price-" ++ direction ++ " (got " ++
        next.value.str ++ " after " ++ price.value.str ++ ")"))
    else validateSide side direction better ((next, qty) :: levels)
  | _ => .ok ()

def validateDepth (bids asks : List Level) : Except TradingError Unit := do
  validateSide "bids" "descending" (fun next price ↦ price.value < next.value) bids
  validateSide "asks" "ascending" (fun next price ↦ next.value < price.value) asks

def defaultLtp : Price := Price.ofNat 100

def setDepth (bids asks : List Level) (now : ℤ) (broker : PaperBroker) :
    Except TradingError Unit × PaperBroker :=
  match validateDepth bids asks with
  | .error err => (.error err, broker)
  | .ok () =>
    let topBid := bids.head?.map Prod.fst
    let topAsk := asks.head?.map Prod.fst
    match setQuote cfg instr (topBid <|> topAsk <|> some defaultLtp) topBid topAsk now
      { broker with depths := broker.depths.set instr ⟨instr, bids, asks, some now⟩ } with
    | (.ok (), after) => attemptResting cfg instr after
    | failed => failed

def ackOrder (req : OrderRequest) (oid : String) : Order :=
  { createOrder req oid .ack 0 with strategyId := none }

def submitOrder (req : OrderRequest) (oid : String) (broker : PaperBroker) :
    Except TradingError String × PaperBroker :=
  if (req.orderType = .stop ∨ req.orderType = .stopLimit) ∧ req.triggerPrice = none then
    (.error (.orderRejected (req.orderType.value ++ " requires trigger_price")), broker)
  else if req.orderType = .stopLimit ∧ req.price = none then
    (.error (.orderRejected "STOP_LIMIT requires price"), broker)
  else
    match
      if cfg.autoFill then attemptFill cfg (ackOrder req oid) broker
      else (.ok (), broker) with
    | (.error err, after) => (.error err, after)
    | (.ok (), after) =>
      if (after.orders.get oid).all fun stored ↦ stored.status = .ack then
        (.ok oid, { after with orders := after.orders.set oid (ackOrder req oid) })
      else (.ok oid, after)

def modifyOrder (oid : String) (req : OrderRequest) (broker : PaperBroker) :
    Except TradingError Order × PaperBroker :=
  match broker.orders.get oid with
  | none => (.error (.other ("unknown order " ++ oid)), broker)
  | some order =>
    if order.status.isTerminal then
      (.error (.orderRejected ("cannot modify order in " ++ order.status.value ++ " status")), broker)
    else
      let modified := { order with
        price := req.price
        quantity := req.quantity
        targetPrice := req.targetPrice
        stopLossPrice := req.stopLossPrice
        trailingJump := req.trailingJump }
      (.ok modified, { broker with orders := broker.orders.set oid modified })

def cancelOrder (oid : String) (broker : PaperBroker) : Except TradingError Order × PaperBroker :=
  match broker.orders.get oid with
  | none => (.error (.other ("unknown order " ++ oid)), broker)
  | some order =>
    match order.transitionTo .cancelled none with
    | .error err => (.error err, broker)
    | .ok cancelled => (.ok cancelled, { broker with orders := broker.orders.set oid cancelled })

end Tradex.Brokers.Paper

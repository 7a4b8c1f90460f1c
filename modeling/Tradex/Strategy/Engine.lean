import Tradex.Analytics.BarStore
import Tradex.Domain.Events
import Tradex.Strategy.DecisionPipeline

/-!
# The reactive strategy engine

Strategies receive candles, quotes, depth snapshots and fills in the order of their registration.
Everything behind the engine is a `Host` over an arbitrary state.
-/

namespace Tradex.Strategy

open Tradex.Domain Tradex.Analytics

structure TradingStrategy where
  strategyId : String
  version : String := "1.0.0"
  instruments : List Instrument := []
  hasOnDepth : Bool := true
deriving DecidableEq

structure StrategyContext where
  barCount : ℕ := 0
  timestamp : Option ℤ := none
  analytics : Option BarKey := none
  market : Dict Instrument Quote
  position : Option Position := none
  portfolio : Option (Option Money × List Position) := none

abbrev BarCallback (Venue : Type) :=
  Program IndicatorRequest (fun _ ↦ Except TradingError IndicatorResult) TradingError
    (Option Signal × Venue)

structure Host (Venue : Type) where
  onBar : TradingStrategy → StrategyContext → Candle → Venue → BarCallback Venue
  onQuote : TradingStrategy → StrategyContext → Quote → Venue → Option Signal × Venue
  onDepth : TradingStrategy → StrategyContext → Depth → Venue → Option Signal × Venue
  onFill : TradingStrategy → StrategyContext → Fill → Venue → Venue
  submit : OrderRequest → Venue → Except TradingError Unit × Venue
  cancel : String → Venue → Except TradingError Unit × Venue
  equity : Venue → RawAmount
  positions : Venue → List Position
  balance : Venue → Money

structure SubscriptionRouter where
  index : Finset ((MarketEventType × Instrument) × String)
  wildcard : Finset (MarketEventType × String)

namespace SubscriptionRouter

def empty : SubscriptionRouter := ⟨∅, ∅⟩

variable (router : SubscriptionRouter)

def subscribe (eventType : MarketEventType)
    (instr : Option Instrument) (sid : String) : SubscriptionRouter :=
  match instr with
  | none => { router with wildcard := insert (eventType, sid) router.wildcard }
  | some instr => { router with index := insert ((eventType, instr), sid) router.index }

def subscribeAll (instr : Option Instrument) (sid : String) : SubscriptionRouter :=
  ((router.subscribe .candle instr sid).subscribe .quote instr sid).subscribe
    .depth instr sid

def unsubscribe (sid : String) : SubscriptionRouter where
  index := router.index.filter fun entry ↦ entry.2 ≠ sid
  wildcard := router.wildcard.filter fun entry ↦ entry.2 ≠ sid

def delivers (sid : String) (eventType : MarketEventType) (instr : Instrument) : Bool :=
  (eventType, sid) ∈ router.wildcard || ((eventType, instr), sid) ∈ router.index

end SubscriptionRouter

inductive FillReference where
  | nextOpen
  | signalClose
deriving DecidableEq

structure EngineConfig where
  fillReference : FillReference := .nextOpen
  pendingMaxAgeBars : ℕ := 0
  sizer : PositionSizer
  hasSubmit : Bool := true
  hasAnalytics : Bool := true
  hasPositions : Bool := true
  hasBalance : Bool := true
  runId : String
  digest : String → String
  stampText : ℤ → String
  isoText : ℤ → String
  compute : ComputeIndicator

structure Occasion where
  number : ℕ
  event : MarketEvent
deriving DecidableEq

structure PendingOrder where
  strategyId : String
  strategyVersion : String
  signal : Signal
  quantity : Amount
  correlationId : CorrelationId
  deferredAtBar : ℕ
  emitted : Occasion

structure Submission where
  request : OrderRequest
  signal : Signal
  emitted : Occasion
  during : Occasion

structure Reading where
  series : BarKey
  request : IndicatorRequest
  published : List Candle
  result : Except TradingError IndicatorResult

structure StrategyEngine where
  strategies : Dict String TradingStrategy
  router : SubscriptionRouter
  subscriptions : List TradingStrategy
  gated : Finset String
  barCount : ℕ
  signalSeq : ℕ
  pending : Dict Instrument (List PendingOrder)
  orderFailures : Dict String ℕ
  ordersExpired : Dict String ℕ
  latestQuotes : Dict Instrument Quote
  analytics : AnalyticsRuntime
  outbox : List DomainEvent
  eventCount : ℕ
  submissions : List Submission
  candles : List Candle
  readings : List Reading

def StrategyEngine.empty : StrategyEngine where
  strategies := Dict.empty
  router := SubscriptionRouter.empty
  subscriptions := []
  gated := ∅
  barCount := 0
  signalSeq := 0
  pending := Dict.empty
  orderFailures := Dict.empty
  ordersExpired := Dict.empty
  latestQuotes := Dict.empty
  analytics := AnalyticsRuntime.empty
  outbox := []
  eventCount := 0
  submissions := []
  candles := []
  readings := []

structure Session (Venue : Type) where
  engine : StrategyEngine
  venue : Venue

namespace Session

variable {Venue : Type} (cfg : EngineConfig) (host : Host Venue) (sess : Session Venue)

def positionFor (instr : Instrument) : Option Position :=
  if cfg.hasPositions then
    (host.positions sess.venue).find? fun pos ↦ pos.instrument = instr
  else none

def portfolioView : Option (Option Money × List Position) :=
  if cfg.hasPositions || cfg.hasBalance then
    some (if cfg.hasBalance then some (host.balance sess.venue) else none,
      if cfg.hasPositions then host.positions sess.venue else [])
  else none

def makeContext (instr : Instrument) (barCount : ℕ)
    (timestamp : Option ℤ) (analytics : Option BarKey) : StrategyContext where
  barCount := barCount
  timestamp := timestamp
  analytics := analytics
  market := sess.engine.latestQuotes
  position := sess.positionFor cfg host instr
  portfolio := sess.portfolioView cfg host

def countFailure (engine : StrategyEngine) (sid : String) : StrategyEngine :=
  { engine with
    orderFailures := engine.orderFailures.set sid
      ((engine.orderFailures.get sid).getD 0 + 1) }

def place (sid : String) (sub : Submission) : Session Venue :=
  if cfg.hasSubmit then
    let ans := host.submit sub.request sess.venue
    let engine :=
      { sess.engine with submissions := sess.engine.submissions ++ [sub] }
    match ans.1 with
    | .ok _ => ⟨engine, ans.2⟩
    | .error err =>
      let failed := countFailure engine sid
      ⟨{ failed with outbox := failed.outbox ++ [.errorOccurred err] }, ans.2⟩
  else ⟨countFailure sess.engine sid, sess.venue⟩

def orderTag (sid version : String) : String := sid ++ "@" ++ version

def flushEntry (candle : Candle) (during : Occasion) (sess : Session Venue)
    (pending : PendingOrder) : Session Venue :=
  match buildRequest cfg.sizer (host.equity sess.venue) pending.signal candle.openPrice
      pending.strategyId (some pending.correlationId)
      (some (orderTag pending.strategyId pending.strategyVersion))
      (some (cfg.isoText candle.timestamp)) with
  | none => sess
  | some req =>
    sess.place cfg host pending.strategyId
      { request := req
        signal := pending.signal
        emitted := pending.emitted
        during := during }

def staleOrder (pending : PendingOrder) : Order where
  orderId := "pending-" ++ pending.correlationId.key
  instrument := pending.signal.instrument.instrument
  side := pending.signal.direction
  orderType := .market
  quantity := pending.quantity.value
  price := none
  status := .cancelled
  correlationId := some pending.correlationId
  tag := some (orderTag pending.strategyId pending.strategyVersion)
  strategyId := some pending.strategyId

def cancelStale (engine : StrategyEngine) (pending : PendingOrder) : StrategyEngine :=
  { engine with
    ordersExpired := engine.ordersExpired.set pending.strategyId
      ((engine.ordersExpired.get pending.strategyId).getD 0 + 1)
    outbox := engine.outbox ++ [.orderCancelled (staleOrder pending)] }

def isStale (engine : StrategyEngine) (pending : PendingOrder) : Bool :=
  cfg.pendingMaxAgeBars < engine.barCount - pending.deferredAtBar

def sweepInstrument (engine : StrategyEngine) (instr : Instrument) : StrategyEngine :=
  let rows := (engine.pending.get instr).getD []
  let survivors := rows.filter fun pending ↦ !isStale cfg engine pending
  let swept := (rows.filter (isStale cfg engine)).foldl cancelStale engine
  { swept with
    pending :=
      if survivors.isEmpty then engine.pending.erase instr
      else engine.pending.set instr survivors }

def sweepStalePending (engine : StrategyEngine) : StrategyEngine :=
  if cfg.pendingMaxAgeBars = 0 || engine.pending.entries.isEmpty then engine
  else (engine.pending.entries.map Prod.fst).foldl (sweepInstrument cfg) engine

def flushPending (candle : Candle) (during : Occasion) (sess : Session Venue) : Session Venue :=
  if sess.engine.pending.entries.isEmpty then sess
  else
    let rows := (sess.engine.pending.get candle.instrument).getD []
    let popped : Session Venue :=
      ⟨{ sess.engine with pending := sess.engine.pending.erase candle.instrument },
        sess.venue⟩
    let flushed := rows.foldl (flushEntry cfg host candle during) popped
    ⟨sweepStalePending cfg flushed.engine, flushed.venue⟩

variable (sid : String) (ev : MarketEvent)

def correlationSeed (signalSeq : ℕ) : String :=
  cfg.runId ++ ":" ++ sid ++ ":" ++ ev.typeName ++ ":" ++
    (match ev.timestamp with
      | some stamp => cfg.stampText stamp
      | none => "None") ++ ":" ++ toString signalSeq

def correlationId (signalSeq : ℕ) : CorrelationId :=
  .plain ("strat-" ++ cfg.digest (correlationSeed cfg sid ev signalSeq))

variable (strat : TradingStrategy) (occ : Occasion)

def deferSignal (sig : Signal) (sess : Session Venue) : Session Venue :=
  match occ.event.referencePrice with
  | none => sess
  | some price =>
    match (cfg.sizer.size (host.equity sess.venue) sig (.number price.value)).quantity with
    | none => sess
    | some qty =>
      let entry : PendingOrder :=
        { strategyId := strat.strategyId
          strategyVersion := strat.version
          signal := sig
          quantity := qty
          correlationId := correlationId cfg strat.strategyId occ.event
            sess.engine.signalSeq
          deferredAtBar := sess.engine.barCount
          emitted := occ }
      let instr := sig.instrument.instrument
      ⟨{ sess.engine with
          pending := sess.engine.pending.set instr
            ((sess.engine.pending.get instr).getD [] ++ [entry]) },
        sess.venue⟩

def submitSignal (sig : Signal) (sess : Session Venue) : Session Venue :=
  match occ.event.referencePrice with
  | none => sess
  | some price =>
    match buildRequest cfg.sizer (host.equity sess.venue) sig price strat.strategyId
        (some (correlationId cfg strat.strategyId occ.event sess.engine.signalSeq))
        (some (orderTag strat.strategyId strat.version))
        (occ.event.timestamp.map cfg.isoText) with
    | none => sess
    | some req =>
      sess.place cfg host strat.strategyId
        { request := req, signal := sig, emitted := occ, during := occ }

def maybePublishOrder (res : Option Signal) (sess : Session Venue) : Session Venue :=
  match res with
  | none => sess
  | some sig =>
    let numbered : Session Venue :=
      ⟨{ sess.engine with signalSeq := sess.engine.signalSeq + 1 }, sess.venue⟩
    match cfg.fillReference with
    | .nextOpen => numbered.deferSignal cfg host strat occ sig
    | .signalClose => numbered.submitSignal cfg host strat occ sig

def readIndicator (series : BarKey) (req : IndicatorRequest) (engine : StrategyEngine) :
    Except TradingError IndicatorResult × StrategyEngine :=
  let ans := engine.analytics.indicator cfg.compute series req
  (ans.1, { engine with
    analytics := ans.2
    readings := engine.readings ++
      [{ series := series
         request := req
         published := engine.candles
         result := ans.1 }] })

def ingestCandle (candle : Candle) (engine : StrategyEngine) : StrategyEngine :=
  if cfg.hasAnalytics then { engine with analytics := engine.analytics.ingest candle } else engine

def callOnBar (candle : Candle) (sess : Session Venue) : Option Signal × Session Venue :=
  let context := sess.makeContext cfg host candle.instrument sess.engine.barCount
    (some candle.timestamp) (if cfg.hasAnalytics then some (barKey candle) else none)
  let ans := (host.onBar strat context candle sess.venue).run
    (readIndicator cfg (barKey candle)) sess.engine
  match ans.1 with
  | .ok (sig, venue) => (sig, ⟨ans.2, venue⟩)
  | .error _ => (none, ⟨ans.2, sess.venue⟩)

def beginBar (candle : Candle) (occ : Occasion) (sess : Session Venue) : Session Venue :=
  let counted : Session Venue :=
    ⟨{ sess.engine with barCount := sess.engine.barCount + 1 }, sess.venue⟩
  match cfg.fillReference with
  | .nextOpen => counted.flushPending cfg host candle occ
  | .signalClose => counted

def onBar (candle : Candle) (occ : Occasion) (sess : Session Venue)
    (strat : TradingStrategy) : Session Venue :=
  if strat.strategyId ∈ sess.engine.gated then sess
  else
    let begun := sess.beginBar cfg host candle occ
    if begun.engine.router.delivers strat.strategyId .candle candle.instrument then
      let ans := callOnBar cfg host strat candle
        ⟨ingestCandle cfg candle begun.engine, begun.venue⟩
      ans.2.maybePublishOrder cfg host strat occ ans.1
    else begun

def onQuote (quote : Quote) (occ : Occasion) (sess : Session Venue)
    (strat : TradingStrategy) : Session Venue :=
  let stored : Session Venue :=
    ⟨{ sess.engine with
        latestQuotes := sess.engine.latestQuotes.set quote.instrument quote },
      sess.venue⟩
  if strat.strategyId ∈ stored.engine.gated then stored
  else if stored.engine.router.delivers strat.strategyId .quote quote.instrument then
    let ans := host.onQuote strat
      (stored.makeContext cfg host quote.instrument 0 (some quote.timestamp) none) quote
      stored.venue
    Session.maybePublishOrder cfg host strat occ ans.1 ⟨stored.engine, ans.2⟩
  else stored

def onDepth (depth : Depth) (occ : Occasion) (sess : Session Venue)
    (strat : TradingStrategy) : Session Venue :=
  if strat.strategyId ∈ sess.engine.gated then sess
  else if sess.engine.router.delivers strat.strategyId .depth depth.instrument then
    if strat.hasOnDepth then
      let ans := host.onDepth strat
        (sess.makeContext cfg host depth.instrument 0 depth.timestamp none) depth sess.venue
      Session.maybePublishOrder cfg host strat occ ans.1 ⟨sess.engine, ans.2⟩
    else sess
  else sess

def onFill (fill : Fill) (sess : Session Venue) (strat : TradingStrategy) : Session Venue :=
  if strat.strategyId ∈ sess.engine.gated then sess
  else if fill.strategyId = none ∨ fill.strategyId = some strat.strategyId then
    ⟨sess.engine,
      host.onFill strat (sess.makeContext cfg host fill.instrument 0 none none) fill
        sess.venue⟩
  else sess

def announce (engine : StrategyEngine) : StrategyEngine :=
  { engine with
    eventCount := engine.eventCount + 1
    candles := match ev with
      | .candle bar => engine.candles ++ [bar]
      | _ => engine.candles }

def handle : Session Venue → TradingStrategy → Session Venue :=
  match ev with
  | .candle candle => onBar cfg host candle occ
  | .quote quote => onQuote cfg host quote occ
  | .depth depth => onDepth cfg host depth occ

def publish (sess : Session Venue) : Session Venue :=
  let occ : Occasion := ⟨sess.engine.eventCount, ev⟩
  sess.engine.subscriptions.foldl (handle cfg host ev occ)
    ⟨announce ev sess.engine, sess.venue⟩

def publishFill (fill : Fill) (sess : Session Venue) : Session Venue :=
  sess.engine.subscriptions.foldl (onFill cfg host fill) sess

def register (engine : StrategyEngine) : StrategyEngine :=
  { engine with
    strategies := engine.strategies.set strat.strategyId strat
    router :=
      if strat.instruments.isEmpty then engine.router.subscribeAll none strat.strategyId
      else strat.instruments.foldl
        (fun router instr ↦ router.subscribeAll (some instr) strat.strategyId)
        engine.router
    subscriptions := engine.subscriptions ++ [strat] }

def disposeStrategy (engine : StrategyEngine) : StrategyEngine :=
  { engine with
    subscriptions := engine.subscriptions.filter fun strat ↦ strat.strategyId ≠ sid }

def unregister (engine : StrategyEngine) : StrategyEngine :=
  disposeStrategy sid
    { engine with
      strategies := engine.strategies.erase sid
      gated := engine.gated.erase sid
      router := engine.router.unsubscribe sid }

def pauseStrategy (engine : StrategyEngine) : StrategyEngine :=
  if (engine.strategies.get sid).isSome then
    { engine with gated := insert sid engine.gated }
  else engine

def resumeStrategy (engine : StrategyEngine) : StrategyEngine :=
  { engine with gated := engine.gated.erase sid }

def isSettled (status : OrderStatus) : Bool :=
  status = .filled || status = .cancelled || status = .rejected

def cancelWorking (sid : String) : List Order → Venue → List String × Venue
  | [], venue => ([], venue)
  | order :: rest, venue =>
    if order.strategyId = some sid ∧ isSettled order.status = false then
      let ans := host.cancel order.orderId venue
      let rem := cancelWorking sid rest ans.2
      match ans.1 with
      | .ok _ => rem
      | .error _ => (order.orderId :: rem.1, rem.2)
    else cancelWorking sid rest venue

def stopStrategy (workingOrders : Option (List Order))
    (sess : Session Venue) : List String × Session Venue :=
  let engine := disposeStrategy sid
    { sess.engine with gated := insert sid sess.engine.gated }
  let ans := cancelWorking host sid (workingOrders.getD []) sess.venue
  (ans.1, ⟨engine, ans.2⟩)

def disposeAll (engine : StrategyEngine) : StrategyEngine :=
  { engine with
    subscriptions := []
    router := engine.subscriptions.foldl
      (fun router strat ↦ router.unsubscribe strat.strategyId) engine.router
    gated := ∅
    strategies := Dict.empty
    pending := Dict.empty }

inductive Call where
  | publish (event : MarketEvent)
  | publishFill (fill : Fill)
  | register (strategy : TradingStrategy)
  | unregister (strategyId : String)
  | pause (strategyId : String)
  | resume (strategyId : String)
  | stop (strategyId : String) (workingOrders : Option (List Order))
  | disposeAll

def step : Call → Session Venue
  | .publish ev => sess.publish cfg host ev
  | .publishFill fill => sess.publishFill cfg host fill
  | .register strat => ⟨register strat sess.engine, sess.venue⟩
  | .unregister sid => ⟨unregister sid sess.engine, sess.venue⟩
  | .pause sid => ⟨pauseStrategy sid sess.engine, sess.venue⟩
  | .resume sid => ⟨resumeStrategy sid sess.engine, sess.venue⟩
  | .stop sid workingOrders => (sess.stopStrategy host sid workingOrders).2
  | .disposeAll => ⟨disposeAll sess.engine, sess.venue⟩

def run (calls : List Call) : Session Venue :=
  calls.foldl (step cfg host) sess

end Session

end Tradex.Strategy

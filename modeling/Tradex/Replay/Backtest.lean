import Tradex.Execution.Engine
import Tradex.Replay.Simulation
import Tradex.Strategy.Engine

/-!
# Backtests

A backtest publishes historical events on a bus. Published events wait on the bus while a delivery
is under way. Strategy, risk manager and fill source are parties with a state of their own.
-/

namespace Tradex.Replay

open Tradex.Domain Tradex.Execution Tradex.Strategy

inductive ReplayEvent where
  | candle (candle : Candle)
  | quote (quote : Quote)
  | fill (fill : Fill)
deriving DecidableEq

def ReplayEvent.timestamp : ReplayEvent → ℤ
  | .candle bar => bar.timestamp
  | .quote tick => tick.timestamp
  | .fill trade => trade.timestamp

structure Script (Memory : Type) where
  strategy : TradingStrategy
  onBar : StrategyContext → Candle → Memory → BarCallback Memory
  onQuote : StrategyContext → Quote → Memory → Option Signal × Memory
  onFill : StrategyContext → Fill → Memory → Memory
  signals : Memory → List (ℕ × Signal)

structure RiskManager (Risk : Type) where
  check : OrderRequest → List Position → Decimal → ℤ → Risk → Except TradingError Bool × Risk
  rejectedCount : Risk → ℕ

structure StrategyPlatform where
  runId : String
  digest : String → String
  stampText : ℤ → String
  isoText : ℤ → String
  compute : Analytics.ComputeIndicator

structure BacktestEngine (Risk Source : Type) where
  platform : Platform
  strategyPlatform : StrategyPlatform
  fillSource : FillSource Source
  riskManager : Option (RiskManager Risk) := none
  hasFeeCalculator : Bool := false
  corporateActions : Option (List CorporateAction) := none
  initialCapital : Decimal := 100000
  stopGapBps : Decimal := 25
  sizer : Option PositionSizer := none
  maxOrderValue : Decimal := 100000
  riskFraction : Option Decimal := some ⟨1, -2⟩
  account : World → RawAmount := fun _ ↦ .missing
  stopGapBps_nonneg : 0 ≤ stopGapBps.toRat

namespace BacktestEngine

variable {Risk Source : Type} (engine : BacktestEngine Risk Source)

def resolveSizer : Except TradingError PositionSizer :=
  match engine.sizer with
  | some sizer => .ok sizer
  | none =>
    PositionSizer.make (.number engine.maxOrderValue)
      (engine.riskFraction.elim .missing .number) (.number engine.initialCapital) false
      (.number engine.maxOrderValue) none .missing "backtest"

def executionConfig : Execution.EngineConfig where
  hasGuard := false
  hasStore := false
  hasRisk := engine.riskManager.isSome
  hasFeed := false
  hasFeeCalculator := engine.hasFeeCalculator
  requireRisk := false
  requireFeed := false
  requireDurableEvents := false
  positionProjectionOwned := engine.fillSource.positionProjectionOwned
  reachesVenue := engine.fillSource.reachesVenue
  supportsCancel := true
  supportsModify := true
  supportsSuperCancel := engine.fillSource.supportsSuperCancel
  tripDepth := 1

def strategyConfig (sizer : PositionSizer) : Strategy.EngineConfig where
  fillReference := .nextOpen
  sizer := sizer
  runId := engine.strategyPlatform.runId
  digest := engine.strategyPlatform.digest
  stampText := engine.strategyPlatform.stampText
  isoText := engine.strategyPlatform.isoText
  compute := engine.strategyPlatform.compute

end BacktestEngine

structure Rig (Memory Risk Source : Type) where
  engine : BacktestEngine Risk Source
  script : Script Memory
  sizer : PositionSizer

structure Desk (Memory Risk Source : Type) where
  world : World
  memory : Memory
  risk : Risk
  source : Source
  clock : ℤ
  backlog : List DomainEvent

variable {Memory Risk Source : Type}

namespace Desk

def positions (desk : Desk Memory Risk Source) : List Position := desk.world.cache.positions.values

def cash (desk : Desk Memory Risk Source) : Decimal := desk.world.ledger.elim 0 CashLedger.cash

def checkRisk (engine : BacktestEngine Risk Source) (req : OrderRequest)
    (desk : Desk Memory Risk Source) : Except TradingError Bool × Desk Memory Risk Source :=
  match engine.riskManager with
  | none => (.ok true, desk)
  | some mgr =>
    let ans := mgr.check req desk.positions desk.cash desk.clock desk.risk
    (ans.1, { desk with risk := ans.2 })

def execute (engine : BacktestEngine Risk Source) (op : Op) (desk : Desk Memory Risk Source) :
    op.Res × Desk Memory Risk Source :=
  match op with
  | .riskCheck req => desk.checkRisk engine req
  | .venueSubmit req =>
    let ans := engine.fillSource.submit req desk.source
    (ans.1, { desk with source := ans.2 })
  | .venueCancel oid =>
    let ans := engine.fillSource.cancel oid desk.source
    (ans.1, { desk with source := ans.2 })
  | .venueCancelSuper oid =>
    let ans := engine.fillSource.cancelSuper oid desk.source
    (ans.1, { desk with source := ans.2 })
  | .publish ev => ((), { desk with backlog := desk.backlog ++ [ev] })
  | op =>
    let ans := exec engine.executionConfig op desk.world
    (ans.1, { desk with world := ans.2 })

end Desk

variable (rig : Rig Memory Risk Source)

def Rig.host : Host (Desk Memory Risk Source) where
  onBar _ context candle desk :=
    Program.bind (rig.script.onBar context candle desk.memory) fun ans ↦
      .ret (ans.1, { desk with memory := ans.2 })
  onQuote _ context quote desk :=
    let ans := rig.script.onQuote context quote desk.memory
    (ans.1, { desk with memory := ans.2 })
  onDepth _ _ _ desk := (none, desk)
  onFill _ context fill desk := { desk with memory := rig.script.onFill context fill desk.memory }
  submit req desk :=
    let ans :=
      (Engine.submit rig.engine.executionConfig req).run (Desk.execute rig.engine) desk
    (ans.1.map fun _ ↦ (), ans.2)
  cancel _ desk := (.ok (), desk)
  equity desk := rig.engine.account desk.world
  positions := Desk.positions
  balance desk := { amount := desk.cash }

structure OpenBracket where
  instrument : Instrument
  side : OrderSide
  quantity : Decimal
  stop : Price
  target : Price
deriving DecidableEq

structure FillRecord where
  time : ℤ
  instrument : Instrument
  side : OrderSide
  price : Price
  quantity : Decimal
  rejected : Bool
  reason : String
  stop : Option Price
  target : Option Price
deriving DecidableEq

structure JournalEntry where
  event : ReplayEvent
  fills : List Fill
  records : List FillRecord
  points : List Decimal
deriving DecidableEq

structure BacktestState (Memory Risk Source : Type) where
  session : Session (Desk Memory Risk Source)
  orderLegs : Dict String (Option Price × Option Price)
  activeBrackets : Dict Instrument OpenBracket
  protectiveSeq : ℕ
  lotOpenedAt : Dict Instrument ℤ
  recordedFills : List FillRecord
  recordedFillObjects : List Fill
  pipelineErrors : List TradingError
  appliedActions : Dict Instrument (List String)
  claimed : Bool
  bridgedSignals : List ℕ
  bridgePending : Dict Instrument (List Signal)
  bridgeSeq : ℕ
  equityCurve : List Decimal
  journal : List JournalEntry

namespace BacktestState

variable (rig : Rig Memory Risk Source) (st : BacktestState Memory Risk Source)

def desk : Desk Memory Risk Source := st.session.venue

def withDesk (desk : Desk Memory Risk Source) : BacktestState Memory Risk Source :=
  { st with session := { st.session with venue := desk } }

def withWorld (world : World) : BacktestState Memory Risk Source :=
  st.withDesk { st.desk with world := world }

def withCache (cache : TradingCache) : BacktestState Memory Risk Source :=
  st.withWorld { st.desk.world with cache := cache }

def withBacklog (backlog : List DomainEvent) : BacktestState Memory Risk Source :=
  st.withDesk { st.desk with backlog := backlog }

def setClock (instant : ℤ) : BacktestState Memory Risk Source :=
  st.withDesk { st.desk with clock := instant }

variable (instr : Instrument)

def isFlat : Bool :=
  match st.desk.world.cache.getPosition instr with
  | none => true
  | some pos => pos.quantity.toRat = 0

def legsOf (platform : Platform) (order : Order) : Option Price × Option Price :=
  (order.stopLossPrice.map platform.floatPrice, order.targetPrice.map platform.floatPrice)

def onPlaced (order : Order) : BacktestState Memory Risk Source :=
  { st with
    orderLegs := st.orderLegs.set order.orderId (legsOf rig.engine.platform order) }

def dropBracket : BacktestState Memory Risk Source :=
  { st with activeBrackets := st.activeBrackets.erase instr }

variable (fill : Fill)

def registerBracket (stop target : Price) : BacktestState Memory Risk Source :=
  if isValidBracket fill.side fill.price stop target then
    { st with
      activeBrackets := st.activeBrackets.set fill.instrument
        { instrument := fill.instrument
          side := fill.side
          quantity := fill.quantity
          stop := stop
          target := target } }
  else st

def releaseBracket : BacktestState Memory Risk Source :=
  match st.activeBrackets.get fill.instrument with
  | none => st
  | some bracket => if fill.side ≠ bracket.side then st.dropBracket fill.instrument else st

def stampLot : BacktestState Memory Risk Source :=
  if st.isFlat fill.instrument then
    { st.dropBracket fill.instrument with
      lotOpenedAt := st.lotOpenedAt.erase fill.instrument }
  else if (st.lotOpenedAt.get fill.instrument).isSome then st
  else { st with lotOpenedAt := st.lotOpenedAt.set fill.instrument fill.timestamp }

def fillRecord (legs : Option Price × Option Price) : FillRecord where
  time := fill.timestamp
  instrument := fill.instrument
  side := fill.side
  price := fill.price
  quantity := fill.quantity
  rejected := false
  reason := ""
  stop := legs.1
  target := legs.2

def onFill : BacktestState Memory Risk Source :=
  let legs := (st.orderLegs.get fill.orderId).getD (none, none)
  let recorded : BacktestState Memory Risk Source :=
    { st with
      recordedFillObjects := st.recordedFillObjects ++ [fill]
      recordedFills := st.recordedFills ++ [fillRecord fill legs] }
  let bracketed :=
    match legs with
    | (some stop, some target) => recorded.registerBracket fill stop target
    | _ => recorded.releaseBracket fill
  bracketed.stampLot fill

def onRejected (order : Order) (why : String) : BacktestState Memory Risk Source :=
  { st with
    recordedFills := st.recordedFills ++
      [{ time := st.desk.clock
         instrument := order.instrument
         side := order.side
         price := Price.ofNat 0
         quantity := order.quantity
         rejected := true
         reason := why
         stop := (legsOf rig.engine.platform order).1
         target := (legsOf rig.engine.platform order).2 }] }

def onPipelineError (err : TradingError) : BacktestState Memory Risk Source :=
  if st.pipelineErrors.isEmpty then { st with pipelineErrors := [err] } else st

def applyInbound (charge : Option Decimal) : BacktestState Memory Risk Source :=
  st.withDesk
    ((Engine.applyFill rig.engine.executionConfig fill charge).run
      (Desk.execute rig.engine) st.desk).2

def notifyStrategy : BacktestState Memory Risk Source :=
  { st with
    session := st.session.publishFill (rig.engine.strategyConfig rig.sizer) rig.host fill }

def deliver (ev : DomainEvent) : BacktestState Memory Risk Source :=
  match ev with
  | .orderPlaced order => st.onPlaced rig order
  | .orderFilled fill charge =>
    ((st.applyInbound rig fill charge).onFill fill).notifyStrategy rig fill
  | .orderRejected order why => st.onRejected rig order why
  | .errorOccurred err => st.onPipelineError err
  | _ => st

def maxNestedDeliveries : ℕ := 10000

def drain : ℕ → BacktestState Memory Risk Source → BacktestState Memory Risk Source
  | 0, st => st.withBacklog []
  | budget + 1, st =>
    match st.desk.backlog with
    | [] => st
    | ev :: rest => drain budget ((st.withBacklog rest).deliver rig ev)

def publish (ev : DomainEvent) : BacktestState Memory Risk Source :=
  drain rig maxNestedDeliveries (st.withBacklog (st.desk.backlog ++ [ev]))

def deliverMarket (ev : MarketEvent) : BacktestState Memory Risk Source :=
  let sess := st.session.publish (rig.engine.strategyConfig rig.sizer) rig.host ev
  { st with
    session :=
      { engine := { sess.engine with outbox := [] }
        venue :=
          { sess.venue with backlog := sess.venue.backlog ++ sess.engine.outbox } } }

def publishMarket (ev : MarketEvent) : BacktestState Memory Risk Source :=
  drain rig (maxNestedDeliveries - 1) (st.deliverMarket rig ev)

def execute (op : Op) (st : BacktestState Memory Risk Source) :
    op.Res × BacktestState Memory Risk Source :=
  match op with
  | .publish ev => ((), st.publish rig ev)
  | op =>
    let ans := Desk.execute rig.engine op st.desk
    (ans.1, st.withDesk ans.2)

def submit (req : OrderRequest) : Except TradingError (BacktestState Memory Risk Source) :=
  let ans := (Engine.submit rig.engine.executionConfig req).run (execute rig) st
  ans.1.map fun _ ↦ ans.2

def applyCashDelta (delta : Decimal) : BacktestState Memory Risk Source :=
  st.withWorld
    { st.desk.world with
      ledger := st.desk.world.ledger.map fun ledger ↦
        { ledger with cash := ledger.cash + delta } }

theorem rebased_nonneg {ratio : Decimal} (hratio : 0 < ratio.toRat) (level : Price) :
    0 ≤ level.value.toRat / ratio.toRat :=
  div_nonneg level.nonneg hratio.le

def rebaseBracket (ratio : Decimal) : BacktestState Memory Risk Source :=
  match st.activeBrackets.get instr with
  | none => st
  | some bracket =>
    if hratio : 0 < ratio.toRat then
      { st with
        activeBrackets := st.activeBrackets.set instr
          { bracket with
            quantity := bracket.quantity * ratio
            stop := rig.engine.platform.float _ (rebased_nonneg hratio bracket.stop)
            target := rig.engine.platform.float _ (rebased_nonneg hratio bracket.target) } }
    else st

def basis (pos : Position) : Decimal := pos.avgPrice.value * pos.quantity

variable (existing : Position)

def bookSplit (action : CorporateAction) : Except TradingError (BacktestState Memory Risk Source) :=
  match PositionAccountant.onCorporateAction st.desk.world.cache existing.instrument
      (actionKind action) (some action.ratio) none with
  | .error err => .error err
  | .ok (adjusted, cache) =>
    .ok (((st.withCache cache).applyCashDelta
      (basis existing - adjusted.elim 0 basis)).rebaseBracket rig existing.instrument action.ratio)

def bookDividend (action : CorporateAction) :
    Except TradingError (BacktestState Memory Risk Source) :=
  match PositionAccountant.onCorporateAction st.desk.world.cache existing.instrument
      .dividend none (some action.amount) with
  | .error err => .error err
  | .ok (_, cache) =>
    .ok ((st.applyCashDelta (q2 (action.amount * existing.quantity))).withCache cache)

def bookAction (action : CorporateAction) :
    Except TradingError (BacktestState Memory Risk Source) :=
  match actionKind action with
  | .split => if 0 < action.ratio.toRat then st.bookSplit rig existing action else .ok st
  | .bonus => if 0 < action.ratio.toRat then st.bookSplit rig existing action else .ok st
  | .dividend => st.bookDividend existing action
  | .unsupported _ => .ok st

def markApplied (identity : String) : BacktestState Memory Risk Source :=
  { st with
    appliedActions := st.appliedActions.set instr
      ((st.appliedActions.get instr).getD [] ++ [identity]) }

def bookOwed (openedOn : Option ℤ) (due : ℤ × CorporateAction) :
    Except TradingError (BacktestState Memory Risk Source) :=
  match st.desk.world.cache.getPosition instr with
  | none => .ok st
  | some existing =>
    if openedOn.any fun opened ↦ due.1 < rig.engine.platform.date opened then .ok st
    else st.bookAction rig existing due.2

def applyAction (openedOn : Option ℤ) (due : ℤ × CorporateAction) :
    Except TradingError (BacktestState Memory Risk Source) :=
  if actionIdentity rig.engine.platform due.2 ∈ (st.appliedActions.get instr).getD [] then
    .ok st
  else
    (st.markApplied instr (actionIdentity rig.engine.platform due.2)).bookOwed rig
      instr openedOn due

def applyActionsDue (actions : List CorporateAction) (asOf : ℤ) (pos : Position) :
    Except TradingError (BacktestState Memory Risk Source) :=
  match dueActions rig.engine.platform actions pos.instrument asOf with
  | .error err => .error err
  | .ok due =>
    let openedOn := st.lotOpenedAt.get pos.instrument
    due.foldlM (fun st ↦ st.applyAction rig pos.instrument openedOn) st

def applyCaFor (asOf : ℤ) : Except TradingError (BacktestState Memory Risk Source) :=
  match rig.engine.corporateActions with
  | none => .ok st
  | some actions => st.desk.positions.foldlM (fun st ↦ st.applyActionsDue rig actions asOf) st

def pendingSnapshot : List PendingOrder :=
  st.session.engine.pending.values.flatten

def captureClaimed : BacktestState Memory Risk Source :=
  { st with claimed := st.claimed || !st.pendingSnapshot.isEmpty }

def bridge (recorded : ℕ × Signal) : BacktestState Memory Risk Source :=
  if recorded.1 ∈ st.bridgedSignals ∨ recorded.2.instrument.instrument ≠ instr then st
  else
    { st with
      bridgedSignals := st.bridgedSignals ++ [recorded.1]
      bridgePending := st.bridgePending.set instr
        ((st.bridgePending.get instr).getD [] ++ [recorded.2]) }

def captureRecorded : BacktestState Memory Risk Source :=
  if st.claimed then st
  else
    (rig.script.signals st.desk.memory).foldl (fun st ↦ st.bridge instr) st

def bridgeRequest (sig : Signal) (candle : Candle) (qty : Amount) (num : ℕ) :
    OrderRequest :=
  protectiveRequest sig candle.openPrice qty
    { correlationId := some (mintCorrelationId rig.engine.platform "backtest-bridge" num)
      tag := some (Session.orderTag rig.script.strategy.strategyId rig.script.strategy.version)
      referenceTimestamp := some (rig.engine.strategyPlatform.isoText candle.timestamp) }

def bridgeSignal (sig : Signal) (candle : Candle) :
    Except TradingError (BacktestState Memory Risk Source) :=
  match (rig.sizer.size (rig.engine.account st.desk.world) sig
      (.number candle.openPrice.value)).quantity with
  | none => .ok st
  | some qty => st.submit rig (bridgeRequest rig sig candle qty st.bridgeSeq)

def popBridge (rest : List Signal) : BacktestState Memory Risk Source :=
  { st with
    bridgePending := st.bridgePending.set instr rest
    bridgeSeq := st.bridgeSeq + 1 }

def flushBridgePending (candle : Candle) : Except TradingError (BacktestState Memory Risk Source) :=
  match (st.bridgePending.get candle.instrument).getD [] with
  | [] => .ok st
  | sig :: rest => (st.popBridge candle.instrument rest).bridgeSignal rig sig candle

def exitSide : OrderSide → OrderSide
  | .buy => .sell
  | .sell => .buy

def exitRequest (bracket : OpenBracket) (price : Price) (num : ℕ) (candle : Candle) :
    Except TradingError OrderRequest :=
  if hqty : 0 < bracket.quantity.toRat then
    .ok
      { instrument := bracket.instrument
        side := exitSide bracket.side
        orderType := .market
        quantity := bracket.quantity
        price := some price
        correlationId := some (mintCorrelationId rig.engine.platform "backtest-protect" num)
        tag := some "backtest-protective-exit"
        referenceTimestamp := some (rig.engine.strategyPlatform.isoText candle.timestamp)
        quantity_pos := hqty
        bracket_valid := by simp }
  else .error (.value "OrderRequest quantity must be positive")

def beginExit : BacktestState Memory Risk Source :=
  { st.dropBracket instr with protectiveSeq := st.protectiveSeq + 1 }

def maybeProtectiveExit (candle : Candle) :
    Except TradingError (BacktestState Memory Risk Source) :=
  match st.activeBrackets.get candle.instrument with
  | none => .ok st
  | some bracket =>
    if st.isFlat candle.instrument then .ok (st.dropBracket candle.instrument)
    else
      match protectiveTrigger candle bracket.side bracket.stop bracket.target with
      | none => .ok st
      | some (kind, level) =>
        match exitRequest rig bracket
            (stopGapPrice rig.engine.platform kind bracket.side level candle.low candle.high
              rig.engine.stopGapBps) (st.protectiveSeq + 1) candle with
        | .error err => .error err
        | .ok req => (st.beginExit candle.instrument).submit rig req

variable (mark : List Position → Decimal)

def appendEquity : BacktestState Memory Risk Source :=
  { st with
    equityCurve := st.equityCurve ++ [st.desk.cash + mark st.desk.positions] }

def processCandle (candle : Candle) :
    Except TradingError (BacktestState Memory Risk Source) := do
  let adjusted ← (st.setClock candle.timestamp).applyCaFor rig candle.timestamp
  let flushed ← adjusted.flushBridgePending rig candle
  let published := flushed.publishMarket rig (.candle candle)
  let captured := published.captureClaimed.captureRecorded rig candle.instrument
  let exited ← captured.maybeProtectiveExit rig candle
  pure (exited.appendEquity mark)

def processQuote (quote : Quote) : BacktestState Memory Risk Source :=
  let published := (st.setClock quote.timestamp).publishMarket rig (.quote quote)
  published.captureClaimed.captureRecorded rig quote.instrument

def processFill : BacktestState Memory Risk Source :=
  (st.publish rig (.orderFilled fill none)).captureClaimed

def process (ev : ReplayEvent) : Except TradingError (BacktestState Memory Risk Source) :=
  match ev with
  | .candle bar => st.processCandle rig mark bar
  | .quote tick => .ok (st.processQuote rig tick)
  | .fill trade => .ok (st.processFill rig trade)

def journalled (before : BacktestState Memory Risk Source) (ev : ReplayEvent) :
    BacktestState Memory Risk Source :=
  { st with
    journal := before.journal ++
      [{ event := ev
         fills := st.recordedFillObjects.drop before.recordedFillObjects.length
         records := st.recordedFills.drop before.recordedFills.length
         points := st.equityCurve.drop before.equityCurve.length }] }

def step (ev : ReplayEvent) : Except TradingError (BacktestState Memory Risk Source) :=
  if st.pipelineErrors.isEmpty then
    (st.process rig mark ev).map fun after ↦ after.journalled st ev
  else .ok st

end BacktestState

def collectCandle (series : Dict Instrument (List Candle)) :
    ReplayEvent → Dict Instrument (List Candle)
  | .candle bar => series.set bar.instrument ((series.get bar.instrument).getD [] ++ [bar])
  | _ => series

def candlesById (data : List ReplayEvent) : Dict Instrument (List Candle) :=
  data.foldl collectCandle Dict.empty

structure Opening (Memory Risk Source : Type) where
  memory : Memory
  risk : Risk
  source : Source
  clock : ℤ
  environment : Environment

def Rig.start (opening : Opening Memory Risk Source) :
    BacktestState Memory Risk Source where
  session :=
    { engine := Session.register rig.script.strategy StrategyEngine.empty
      venue :=
        { world :=
            { World.constructed opening.environment with
              ledger := some
                { cash := rig.engine.initialCapital
                  allowNegative := rig.engine.riskManager.isNone } }
          memory := opening.memory
          risk := opening.risk
          source := opening.source
          clock := opening.clock
          backlog := [] } }
  orderLegs := Dict.empty
  activeBrackets := Dict.empty
  protectiveSeq := 0
  lotOpenedAt := Dict.empty
  recordedFills := []
  recordedFillObjects := []
  pipelineErrors := []
  appliedActions := Dict.empty
  claimed := false
  bridgedSignals := []
  bridgePending := Dict.empty
  bridgeSeq := 0
  equityCurve := [rig.engine.initialCapital]
  journal := []

structure BacktestResult where
  numTrades : ℕ
  trades : List Signal
  totalFees : Decimal
  equityCurve : List Decimal
  numRejected : ℕ
  numUnfilled : ℕ
  fills : List FillRecord
  fillRecords : List Fill
  endPositions : List Position
  journal : List JournalEntry

def BacktestState.unfilled (st : BacktestState Memory Risk Source) : ℕ :=
  st.pendingSnapshot.length + (st.bridgePending.values.map List.length).sum

def Rig.report (preSignals : ℕ) (st : BacktestState Memory Risk Source) : BacktestResult where
  numTrades := (st.desk.world.cache.allOrders.filter fun order ↦ order.status = .filled).length
  trades := ((rig.script.signals st.desk.memory).drop preSignals).map Prod.snd
  totalFees := st.desk.world.ledger.elim 0 CashLedger.totalFees
  equityCurve := st.equityCurve
  numRejected := rig.engine.riskManager.elim 0 fun mgr ↦ mgr.rejectedCount st.desk.risk
  numUnfilled := st.unfilled
  fills := st.recordedFills.insertionSort fun first second ↦ first.time ≤ second.time
  fillRecords :=
    st.recordedFillObjects.insertionSort fun first second ↦ first.timestamp ≤ second.timestamp
  endPositions :=
    (st.desk.positions.insertionSort fun first second ↦
      first.instrument.instrumentId ≤ second.instrument.instrumentId).filter
      fun pos ↦ pos.quantity.toRat ≠ 0
  journal := st.journal

def Rig.loop (opening : Opening Memory Risk Source)
    (data : List ReplayEvent) : Except TradingError (BacktestState Memory Risk Source) :=
  data.foldlM
    (fun st ev ↦
      st.step rig (markToMarket (candlesById data) (some ev.timestamp)) ev)
    (rig.start opening)

def Rig.finish (preSignals : ℕ)
    (st : BacktestState Memory Risk Source) : Except TradingError BacktestResult :=
  match st.pipelineErrors with
  | [] => .ok (rig.report preSignals st)
  | err :: _ => .error err

def BacktestEngine.run (engine : BacktestEngine Risk Source) (script : Script Memory)
    (opening : Opening Memory Risk Source) (data : List ReplayEvent) :
    Except TradingError BacktestResult := do
  let sizer ← engine.resolveSizer
  let rig : Rig Memory Risk Source := { engine := engine, script := script, sizer := sizer }
  let final ← rig.loop opening data
  rig.finish (script.signals opening.memory).length final

end Tradex.Replay

import Tradex.Domain.Market
import Tradex.Execution.EngineState
import Mathlib.Data.List.Sort

/-!
# The parts of a simulated market

The fill model that prices orders, the rules by which a bar triggers a protective leg, corporate
actions, and the marks of open positions.
-/

namespace Tradex.Replay

open Tradex.Domain Tradex.Execution

structure Platform where
  float : (x : ℚ) → 0 ≤ x → Price
  date : ℤ → ℤ
  parseExDate : String → Except TradingError ℤ
  instant : String → ℤ
  numberText : Decimal → String
  digest : String → String
  symbol : Instrument → String

variable (platform : Platform)

def Platform.floatPrice (price : Price) : Price :=
  platform.float price.value.toRat price.nonneg

def mintCorrelationId (label : String) (num : ℕ) : CorrelationId :=
  .plain (label ++ "-" ++ platform.digest (label ++ ":" ++ toString num))

structure FillSource (Source : Type) where
  reachesVenue : Bool := false
  positionProjectionOwned : Bool := false
  supportsSuperCancel : Bool := false
  submit : OrderRequest → Source → SubmitOutcome × Source
  cancel : String → Source → Except TradingError Unit × Source
  cancelSuper : String → Source → Except TradingError Unit × Source

abbrev SlippageModel := Price → OrderSide → Decimal → Price

namespace FillModel

variable (req : OrderRequest)

def unpricedError : TradingError :=
  .value ("cannot fill " ++ req.instrument.instrumentId ++ " (" ++ req.side.value ++
    ") without a positive price")

def referencePrice : Except TradingError Price :=
  match req.price.or req.triggerPrice with
  | none => .error (unpricedError req)
  | some price => if 0 < price.value then .ok price else .error (unpricedError req)

def clampToLimit (price : Price) : Price :=
  match req.orderType, req.price with
  | .limit, some limit =>
    match req.side with
    | .buy => if limit.value < price.value then limit else price
    | .sell => if price.value < limit.value then limit else price
  | _, _ => price

def resolveFillPrice (slippage : Option SlippageModel) (req : OrderRequest) :
    Except TradingError Price :=
  (referencePrice req).map fun price ↦
    clampToLimit req
      (match slippage with
        | some worsen => worsen price req.side req.quantity
        | none => price)

def makeFill (order : Order) (price : Price) (timestamp : ℤ) : Fill where
  orderId := order.orderId
  instrument := order.instrument
  side := order.side
  quantity := order.quantity
  price := price
  timestamp := timestamp
  productType := some order.productType
  strategyId := order.strategyId

end FillModel

structure SimulatedSource where
  uuids : Answers String
  wallClock : Answers ℤ

def fillTimestamp (req : OrderRequest) (source : SimulatedSource) : ℤ × SimulatedSource :=
  match req.referenceTimestamp with
  | some text => (platform.instant text, source)
  | none => (source.wallClock 0, { source with wallClock := source.wallClock.rest })

def simulatedFillSource (slippage : Option SlippageModel) :
    FillSource SimulatedSource where
  submit req source :=
    let order := createOrder req (source.uuids 0) .ack 0
    let drawn := { source with uuids := source.uuids.rest }
    match FillModel.resolveFillPrice slippage req with
    | .error err => (.raised err none false, drawn)
    | .ok price =>
      let stamped := fillTimestamp platform req drawn
      (.accepted order (some (FillModel.makeFill order price stamped.1)), stamped.2)
  cancel _ source := (.ok (), source)
  cancelSuper _ source := (.ok (), source)

inductive ProtectiveLeg where
  | stop
  | target
deriving DecidableEq

variable (candle : Candle)

def stopHit (stop : Price) (side : OrderSide) : Bool :=
  match side with
  | .buy => candle.low.value ≤ stop.value
  | .sell => stop.value ≤ candle.high.value

def targetHit (target : Price) (side : OrderSide) : Bool :=
  match side with
  | .buy => target.value ≤ candle.high.value
  | .sell => candle.low.value ≤ target.value

def protectiveTrigger (side : OrderSide) (stop target : Price) : Option (ProtectiveLeg × Price) :=
  if stopHit candle stop side then some (.stop, stop)
  else if targetHit candle target side then some (.target, target)
  else none

def minFillPrice : Decimal := ⟨1, -2⟩

def adversePrice (entrySide : OrderSide) (level barLow barHigh : Price) (gapBps : Decimal) :
    Decimal :=
  let gap := gapBps * ⟨1, -4⟩
  match entrySide with
  | .buy => Decimal.minimum (level.value * (1 - gap)) barLow.value
  | .sell => Decimal.maximum (level.value * (1 + gap)) barHigh.value

theorem maximum_minFillPrice_nonneg {price : Decimal} :
    0 ≤ (Decimal.maximum price minFillPrice).toRat := by
  rw [Decimal.toRat_maximum]
  exact le_max_of_le_right (by decide +kernel)

def stopGapPrice (kind : ProtectiveLeg) (entrySide : OrderSide)
    (level barLow barHigh : Price) (gapBps : Decimal) : Price :=
  match kind with
  | .target => level
  | .stop =>
    platform.float
      (Decimal.maximum (adversePrice entrySide level (platform.floatPrice barLow)
        (platform.floatPrice barHigh) gapBps) minFillPrice).toRat
      maximum_minFillPrice_nonneg

structure CorporateAction where
  instrument : String
  actionType : String
  exDate : String
  amount : Decimal := 0
  ratio : Decimal := 1

def actionKind (action : CorporateAction) : CorporateActionKind :=
  let kind := action.actionType.toUpper
  if kind = "SPLIT" then .split
  else if kind = "BONUS" then .bonus
  else if kind = "DIVIDEND" then .dividend
  else .unsupported action.actionType

def actionIdentity (action : CorporateAction) : String :=
  action.exDate ++ "|" ++ action.actionType ++ "|" ++ platform.numberText action.amount ++ "|" ++
    platform.numberText action.ratio

def effectiveActions (platform : Platform) (actions : List CorporateAction)
    (instr : Instrument) (asOf : ℤ) : Except TradingError (List (ℤ × CorporateAction)) :=
  match actions with
  | [] => .ok []
  | action :: rest =>
    if action.instrument = platform.symbol instr ∧ action.exDate ≠ "" then
      match platform.parseExDate action.exDate with
      | .error err => .error err
      | .ok exDate =>
        (effectiveActions platform rest instr asOf).map fun others ↦
          if exDate ≤ platform.date asOf then (exDate, action) :: others else others
    else effectiveActions platform rest instr asOf

def dueActions (actions : List CorporateAction) (instr : Instrument)
    (asOf : ℤ) : Except TradingError (List (ℤ × CorporateAction)) :=
  (effectiveActions platform actions instr asOf).map
    (List.insertionSort fun first second ↦ first.2.exDate ≤ second.2.exDate)

def knownClose (candles : List Candle) (asOf : Option ℤ) : Option Candle :=
  match asOf with
  | some instant => (candles.filter fun bar ↦ bar.timestamp ≤ instant).getLast?
  | none => candles.getLast?

def markedValue (pos : Position) (bar : Candle) (asOf : Option ℤ) : Decimal :=
  let quote : Quote :=
    { instrument := pos.instrument
      ltp := bar.close
      timestamp := asOf.getD bar.timestamp }
  match selectMark pos quote with
  | some (mark, _) => pos.quantity * mark.value
  | none => pos.quantity * bar.close.value

def addMarked (candlesById : Dict Instrument (List Candle)) (asOf : Option ℤ) (total : Decimal)
    (pos : Position) : Decimal :=
  if pos.quantity.toRat = 0 then total
  else
    match knownClose ((candlesById.get pos.instrument).getD []) asOf with
    | none => total
    | some bar => total + markedValue pos bar asOf

def markToMarket (candlesById : Dict Instrument (List Candle)) (asOf : Option ℤ)
    (positions : List Position) : Decimal :=
  positions.foldl (addMarked candlesById asOf) 0

end Tradex.Replay

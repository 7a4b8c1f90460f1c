import Tradex.Strategy.Brackets

/-!
# Position sizing

A stated quantity is honoured in whole lots; otherwise the size follows from the risk budget and the
distance to the stop, or from a configured notional. Quotients are exact until the source rounds
them.
-/

namespace Tradex.Strategy

open Tradex.Domain

def whole (count : ℤ) : Decimal := ⟨count, 0⟩

@[simp] theorem toRat_whole {count : ℤ} : (whole count).toRat = count := by
  simp [whole, Decimal.toRat]

def floorQuotient (dividend divisor : Decimal) : Decimal := whole ⌊dividend.toRat / divisor.toRat⌋

def ceilQuotient (dividend divisor : Decimal) : Decimal := whole ⌈dividend.toRat / divisor.toRat⌉

def positive : RawAmount → Option Amount
  | .number val => if hpos : 0 < val.toRat then some ⟨val, hpos⟩ else none
  | .missing => none
  | .unusable => none

def cashEquityLotSize : Amount := ⟨1, by decide +kernel⟩

def sizingFallbackTick : Amount := ⟨⟨1, -2⟩, by decide +kernel⟩

structure ContractSpec where
  lotSize : Amount
  tickSize : Option Amount
deriving DecidableEq

inductive SizingSource where
  | signal
  | stopDistance
  | fallbackNotional
  | refused
deriving DecidableEq

inductive Clamp where
  | maxOrderValue
  | lotFloor
  | lotRound
deriving DecidableEq

inductive SizingReason where
  | unusablePrice (label : String) (referencePrice : RawAmount)
  | lotNotCovered (label : String) (maxOrderValue : Amount) (symbol : String) (price : Amount)
  | noWholeLot (label : String) (stated : Amount) (symbol : String) (lot : Option Amount)
  | statedQuantity (label : String) (stated : Amount)
  | riskBudget (label : String) (riskFraction equity : Amount) (budget riskPerLot : Decimal)
      (symbol : String)
  | cannotSize (label symbol : String) (why : List String)
  | configuredNotional (label : String) (why : List String) (notional : Amount)
  | flooredToOneLot (reason : SizingReason)

structure SizingDecision where
  quantity : Option Amount
  source : SizingSource
  reason : SizingReason
  lots : Option ℚ := none
  notional : Option Decimal := none
  clampedBy : Option Clamp := none
  stopDistanceTicks : Option Decimal := none
  riskPerLot : Option Decimal := none
  tickSize : Option Amount := none
  tickSizeDefaulted : Bool := false

def SizingDecision.refuse (reason : SizingReason) : SizingDecision where
  quantity := none
  source := .refused
  reason := reason

structure PositionSizer where
  maxOrderValue : Amount
  tickSize : Amount
  riskFraction : Option Amount
  equity : Option Amount
  hasEquitySource : Bool
  fallbackNotional : Option Amount
  contracts : Option (Instrument → Option ContractFields)
  label : String

def PositionSizer.make (maxOrderValue : RawAmount) (riskFraction equity : RawAmount)
    (hasEquitySource : Bool) (fallbackNotional : RawAmount)
    (contracts : Option (Instrument → Option ContractFields)) (tickSize : RawAmount)
    (label : String) : Except TradingError PositionSizer :=
  match positive maxOrderValue with
  | none => .error (.value "max_order_value is not a positive amount")
  | some ceiling =>
    if tickSize ≠ .missing ∧ positive tickSize = none then
      .error (.value "tick_size is not a positive amount")
    else
      .ok
        { maxOrderValue := ceiling
          tickSize := (positive tickSize).getD sizingFallbackTick
          riskFraction := positive riskFraction
          equity := positive equity
          hasEquitySource := hasEquitySource
          fallbackNotional := positive fallbackNotional
          contracts := contracts
          label := label }

namespace PositionSizer

variable (sizer : PositionSizer) (account : RawAmount)

def currentEquity : Option Amount :=
  if sizer.hasEquitySource then positive account else sizer.equity

def lookedUpContract (instr : Instrument) : Option ContractSpec :=
  match sizer.contracts with
  | none => none
  | some lookup =>
    match lookup instr with
    | none => none
    | some fields =>
      match positive fields.lotSize with
      | none => none
      | some lot => some { lotSize := lot, tickSize := positive fields.tickSize }

def venueLot (assetClass : AssetClass) : Option Amount :=
  if assetClass = .equity then some cashEquityLotSize else none

def contract (instr : ListedInstrument) : Option ContractSpec :=
  match sizer.lookedUpContract instr.instrument with
  | some spec => some spec
  | none =>
    let lot := positive instr.fields.lotSize
      |>.or (positive instr.metaFields.lotSize)
      |>.or (instr.extra.bind fun extra ↦ positive extra.lotSize)
    let tick := positive instr.fields.tickSize
      |>.or (positive instr.metaFields.tickSize)
      |>.or (instr.extra.bind fun extra ↦ positive extra.tickSize)
    match lot.or (venueLot instr.assetClass) with
    | none => none
    | some lot => some { lotSize := lot, tickSize := tick }

structure Terms where
  price : Amount
  lot : Option Amount
  tick : Amount
  tickDefaulted : Bool
  symbol : String

def terms (instr : ListedInstrument) (price : Amount) : Terms where
  price := price
  lot := (sizer.contract instr).map ContractSpec.lotSize
  tick := ((sizer.contract instr).bind ContractSpec.tickSize).getD sizer.tickSize
  tickDefaulted := ((sizer.contract instr).bind ContractSpec.tickSize).isNone
  symbol := instr.symbol

variable (terms : Terms)

def Terms.oneLot : Amount := terms.lot.getD cashEquityLotSize

def wholeLots (units : Decimal) (lot : Option Amount) : Decimal × Option Clamp :=
  match lot with
  | none => (units, none)
  | some lot =>
    let lots := floorQuotient units lot.value
    if (lots * lot.value).toRat = units.toRat then (units, none)
    else (lots * lot.value, some .lotRound)

def ticks (distance : Decimal) (tick : Amount) : Decimal := ceilQuotient distance tick.value

def stopDistance (price : Amount) (stop : Price) : Decimal := (price.value - stop.value).abs

def ceilingUnits : Decimal :=
  let ceiling := floorQuotient sizer.maxOrderValue.value terms.price.value
  match terms.lot with
  | none => ceiling
  | some lot => whole ⌊ceiling.toRat / lot.value.toRat * lot.value.toRat⌋

structure Proposal where
  units : Decimal
  source : SizingSource
  reason : SizingReason
  clampedBy : Option Clamp
  stopDistanceTicks : Option Decimal
  riskPerLot : Option Decimal

def Proposal.decide (proposal : Proposal) (terms : Terms) (units : Amount)
    (clampedBy : Option Clamp) (reason : SizingReason) : SizingDecision where
  quantity := some units
  source := proposal.source
  reason := reason
  lots := some (match terms.lot with
    | some lot => units.value.toRat / lot.value.toRat
    | none => units.value.toRat)
  notional := some (units.value * terms.price.value)
  clampedBy := clampedBy
  stopDistanceTicks := proposal.stopDistanceTicks
  riskPerLot := proposal.riskPerLot
  tickSize := some terms.tick
  tickSizeDefaulted := terms.tickDefaulted && proposal.stopDistanceTicks.isSome

def cappedUnits (proposal : Proposal) : Decimal :=
  if sizer.ceilingUnits terms < proposal.units then sizer.ceilingUnits terms else proposal.units

def cap (proposal : Proposal) : SizingDecision :=
  if hpos : 0 < (sizer.cappedUnits terms proposal).toRat then
    proposal.decide terms ⟨sizer.cappedUnits terms proposal, hpos⟩
      (if sizer.ceilingUnits terms < proposal.units then some .maxOrderValue
        else proposal.clampedBy)
      proposal.reason
  else proposal.decide terms terms.oneLot (some .lotFloor) (.flooredToOneLot proposal.reason)

def statedProposal (sig : Signal) (stated : Amount) :
    Proposal where
  units := (wholeLots stated.value terms.lot).1
  source := .signal
  reason := .statedQuantity sizer.label stated
  clampedBy := (wholeLots stated.value terms.lot).2
  stopDistanceTicks := match sig.declaredStop with
    | none => none
    | some stop =>
      if 0 < (stopDistance terms.price stop).toRat then
        some (ticks (stopDistance terms.price stop) terms.tick)
      else none
  riskPerLot := none

def fromStated (sig : Signal) (stated : Amount) : SizingDecision :=
  if (wholeLots stated.value terms.lot).1.toRat ≤ 0 then
    SizingDecision.refuse (.noWholeLot sizer.label stated terms.symbol terms.lot)
  else sizer.cap terms (sizer.statedProposal terms sig stated)

def notionalProposal (why : List String) (notional : Amount) : Proposal where
  units := (wholeLots (floorQuotient notional.value terms.price.value) terms.lot).1
  source := .fallbackNotional
  reason := .configuredNotional sizer.label why notional
  clampedBy := (wholeLots (floorQuotient notional.value terms.price.value) terms.lot).2
  stopDistanceTicks := none
  riskPerLot := none

def fallback (why : List String) : SizingDecision :=
  match sizer.fallbackNotional with
  | none => SizingDecision.refuse (.cannotSize sizer.label terms.symbol why)
  | some notional => sizer.cap terms (sizer.notionalProposal terms why notional)

structure RiskInputs where
  riskFraction : Amount
  equity : Amount
  lot : Amount
  stop : Price

def riskInputs (terms : Terms) (sig : Signal) : Option RiskInputs :=
  match sizer.riskFraction, sizer.currentEquity account, terms.lot, sig.declaredStop with
  | some riskFraction, some equity, some lot, some stop =>
    if 0 < (stopDistance terms.price stop).toRat then
      some { riskFraction := riskFraction, equity := equity, lot := lot, stop := stop }
    else none
  | _, _, _, _ => none

def missingInputs (terms : Terms) (sig : Signal) : List String :=
  (if sizer.riskFraction.isNone then ["no risk_fraction configured"] else []) ++
    (if (sizer.currentEquity account).isNone then ["no positive equity to risk a fraction of"]
      else []) ++
    (if terms.lot.isNone then ["no lot size recorded for " ++ terms.symbol] else []) ++
    match sig.declaredStop with
    | none => ["no stop declared, so there is no risk distance"]
    | some stop =>
      if 0 < (stopDistance terms.price stop).toRat then []
      else ["the declared stop is at the entry, so there is no risk distance"]

def riskPerLot (inputs : RiskInputs) : Decimal :=
  ticks (stopDistance terms.price inputs.stop) terms.tick * terms.tick.value * inputs.lot.value

def RiskInputs.budget (inputs : RiskInputs) : Decimal :=
  inputs.riskFraction.value * inputs.equity.value

def riskProposal (inputs : RiskInputs) : Proposal where
  units := whole ⌊inputs.budget.toRat / (riskPerLot terms inputs).toRat * inputs.lot.value.toRat⌋
  source := .stopDistance
  reason := .riskBudget sizer.label inputs.riskFraction inputs.equity inputs.budget
    (riskPerLot terms inputs) terms.symbol
  clampedBy := none
  stopDistanceTicks := some (ticks (stopDistance terms.price inputs.stop) terms.tick)
  riskPerLot := some (riskPerLot terms inputs)

def fromRisk (terms : Terms) (sig : Signal) : SizingDecision :=
  match sizer.riskInputs account terms sig with
  | none => sizer.fallback terms (sizer.missingInputs account terms sig)
  | some inputs => sizer.cap terms (sizer.riskProposal terms inputs)

def size (sig : Signal) (referencePrice : RawAmount) : SizingDecision :=
  match positive referencePrice with
  | none => SizingDecision.refuse (.unusablePrice sizer.label referencePrice)
  | some price =>
    let terms := sizer.terms sig.instrument price
    if sizer.maxOrderValue.value < price.value * terms.oneLot.value then
      SizingDecision.refuse (.lotNotCovered sizer.label sizer.maxOrderValue terms.symbol price)
    else
      match positive sig.quantity with
      | some stated => sizer.fromStated terms sig stated
      | none => sizer.fromRisk account terms sig

end PositionSizer

end Tradex.Strategy

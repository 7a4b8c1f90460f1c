import Tradex.Domain.PositionMath
import Tradex.Foundation.Dict
import Tradex.Foundation.Text

/-!
# The risk manager

The gates that a request passes, in the order in which they are asked, and the day-start baselines
of the loss guards. Amounts are rational numbers.
-/

namespace Tradex.Execution.Risk

open Tradex.Domain Tradex.Text

structure Instant where
  micros : ℤ
  date : ℤ
  aware : Bool
deriving DecidableEq

def secondsBetween (prior later : ℤ) : ℚ := (later - prior : ℤ) / 1000000

structure MarketPrice where
  value : ℚ
  bid : Option ℚ
  timestamp : Option ℤ
deriving DecidableEq

structure RiskBudget where
  maxOrderValue : Option ℚ := none
  maxPositionValue : Option ℚ := none
  maxDailyLossAmt : Option ℚ := none
  maxDrawdownPct : Option ℚ := none
deriving DecidableEq

structure RiskManager where
  maxOrderValue : Option ℚ := none
  maxPositionValue : Option ℚ := none
  maxOrdersPerMinute : Option ℕ := none
  liveOrdersEnabled : Bool := true
  allowShort : Bool := true
  rejectUnknownMarketValue : Bool := false
  requireFreshMarks : Bool := false
  maxMarkAgeSeconds : ℚ := 5
  maxDailyLossAmt : Option ℚ := none
  maxDrawdownPct : Option ℚ := none
  maxGrossExposure : Option ℚ := none
  maxNetExposure : Option ℚ := none
  failClosedCash : Bool := false
  budgets : Dict String RiskBudget := Dict.empty

structure Providers where
  positions : Option (List Position) := none
  prices : Option (Instrument → Option MarketPrice) := none
  cash : Option (Option ℚ) := none
  clock : Option Instant := none

structure Baseline where
  date : ℤ
  base : ℚ
  peak : ℚ
deriving DecidableEq

structure RiskState where
  recentOrders : List Instant := []
  baselines : Dict String Baseline := Dict.empty
  stored : Option (Dict String Baseline) := none
  rejectedCount : ℕ := 0

inductive DenyReason where
  | liveOrdersDisabled
  | shortSellingDisabled
  | marksNotFresh
  | unknownMarketValue
  | orderValueExceeded
  | cashUnavailable
  | insufficientCash
  | positionValueExceeded
  | maxGrossExposureExceeded
  | maxNetExposureExceeded
  | dailyLossExceeded
  | drawdownExceeded
  | rateLimitExceeded
deriving DecidableEq

def nonBlank (text : Option String) : Option String :=
  text.bind fun text ↦ if strip text = "" then none else some (strip text)

def resolveStrategyId (req : OrderRequest) : Option String :=
  match nonBlank req.strategyId with
  | some sid => some sid
  | none => nonBlank (req.tag.map fun tag ↦ String.ofList (tag.toList.takeWhile (· ≠ '@')))

def positionStrategy (pos : Position) : Option String := nonBlank pos.strategyId

variable (mgr : RiskManager)

def activeBudget (req : OrderRequest) : RiskBudget :=
  match (resolveStrategyId req).bind mgr.budgets.get with
  | some budget => budget
  | none =>
    { maxOrderValue := mgr.maxOrderValue
      maxPositionValue := mgr.maxPositionValue
      maxDailyLossAmt := mgr.maxDailyLossAmt
      maxDrawdownPct := mgr.maxDrawdownPct }

def positive (val : ℚ) : Option ℚ := if 0 < val then some val else none

theorem positive_eq_some {val price : ℚ} (hprice : positive val = some price) : 0 < price := by
  unfold positive at hprice
  split at hprice
  · cases hprice
    assumption
  · cases hprice

section Exposure

variable (prov : Providers)

def quoted (instr : Instrument) : Option MarketPrice :=
  prov.prices.bind fun prices ↦ prices instr

def markPrice (instr : Instrument) : Option ℚ :=
  (quoted prov instr).bind fun quote ↦ positive quote.value

variable (req : OrderRequest)

def requestPrice : Option ℚ :=
  req.price.bind fun price ↦ positive price.value.toRat

def saleBid : Option ℚ :=
  match req.side with
  | .buy => none
  | .sell => ((quoted prov req.instrument).bind MarketPrice.bid).bind positive

def markForTrade : Option ℚ :=
  match saleBid prov req with
  | some bid => some ((requestPrice req).elim bid fun price ↦ max price bid)
  | none =>
    match requestPrice req with
    | some price => some price
    | none => markPrice prov req.instrument

def incomingExposure : ℚ :=
  (markForTrade prov req).elim 0 fun mark ↦ mark * req.quantity.toRat

def valuationPrice (pos : Position) : ℚ :=
  (markPrice prov pos.instrument).getD pos.avgPrice.value.toRat

def listedPositions : List Position := prov.positions.getD []

def signedQuantity : ℚ :=
  match req.side with
  | .buy => req.quantity.toRat
  | .sell => -req.quantity.toRat

def positionExposure : ℚ :=
  ((listedPositions prov).map fun pos ↦
    |pos.quantity.toRat| * valuationPrice prov pos).sum

def resultingQuantity (pos : Position) : ℚ :=
  pos.quantity.toRat +
    if pos.instrument = req.instrument then signedQuantity req else 0

def matched : Bool :=
  (listedPositions prov).any fun pos ↦ pos.instrument = req.instrument

def resultingExposures : ℚ × ℚ :=
  let positions := listedPositions prov
  let gross := (positions.map fun pos ↦
    |resultingQuantity req pos| * valuationPrice prov pos).sum
  let net := (positions.map fun pos ↦
    resultingQuantity req pos * valuationPrice prov pos).sum
  if matched prov req then (gross, net)
  else
    match markForTrade prov req with
    | some mark => (gross + mark * req.quantity.toRat, net + signedQuantity req * mark)
    | none => (gross, net)

def heldPosition : Option Position :=
  (listedPositions prov).find? fun pos ↦ pos.instrument = req.instrument

def increasesExposure (mgr : RiskManager) (req : OrderRequest) : Bool :=
  match prov.positions with
  | none => mgr.requireFreshMarks
  | some _ =>
    match heldPosition prov req with
    | none => true
    | some pos =>
      let existing := pos.quantity.toRat
      let resulting := existing + signedQuantity req
      decide (max existing 0 < max resulting 0) || decide (max (-existing) 0 < max (-resulting) 0)

def opensShort : Bool :=
  match prov.positions with
  | none => true
  | some _ =>
    match heldPosition prov req with
    | none => true
    | some pos =>
      let existing := pos.quantity.toRat
      decide (max (-existing) 0 < max (-(existing - req.quantity.toRat)) 0)

theorem markPrice_pos {instr : Instrument} {mark : ℚ}
    (hmark : markPrice prov instr = some mark) : 0 < mark := by
  obtain ⟨quote, -, hquote⟩ := Option.bind_eq_some_iff.mp hmark
  exact positive_eq_some hquote

theorem markForTrade_pos {req : OrderRequest} {mark : ℚ}
    (hmark : markForTrade prov req = some mark) : 0 < mark := by
  unfold markForTrade at hmark
  cases hsale : saleBid prov req with
  | some bid =>
    have hbid : 0 < bid := by
      unfold saleBid at hsale
      split at hsale
      · cases hsale
      · obtain ⟨val, -, hval⟩ := Option.bind_eq_some_iff.mp hsale
        exact positive_eq_some hval
    rw [hsale] at hmark
    cases hprice : requestPrice req with
    | none =>
      rw [hprice] at hmark
      cases hmark
      exact hbid
    | some price =>
      rw [hprice] at hmark
      cases hmark
      exact lt_max_of_lt_right hbid
  | none =>
    rw [hsale] at hmark
    cases hprice : requestPrice req with
    | none =>
      rw [hprice] at hmark
      exact markPrice_pos prov hmark
    | some price =>
      obtain ⟨val, -, hval⟩ := Option.bind_eq_some_iff.mp hprice
      rw [hprice] at hmark
      cases hmark
      exact positive_eq_some hval

theorem valuationPrice_nonneg {pos : Position} : 0 ≤ valuationPrice prov pos := by
  unfold valuationPrice
  cases hmark : markPrice prov pos.instrument with
  | none => exact pos.avgPrice.nonneg
  | some mark => exact (markPrice_pos prov hmark).le

end Exposure

variable (prov : Providers)

def resolveNow (now : Option Instant) : Except TradingError Instant :=
  match now.or prov.clock with
  | some instant => .ok instant
  | none => .error (.runtime ("RiskManager has no injected clock; " ++
      "pass clock= or now= to evaluate risk deterministically"))

def positiveMark (pos : Position) : Bool :=
  pos.markPrice.any fun mark ↦ 0 < mark.value

def freshMarksAvailable (req : OrderRequest)
    (now : Option Instant) : Except TradingError Bool :=
  if mgr.requireFreshMarks = false then .ok true
  else
    match prov.positions with
    | none => .ok false
    | some positions => do
      let instant ← resolveNow prov now
      let marked := positions.all fun pos ↦
        decide (pos.quantity.toRat = 0) ||
          (pos.markedAt.any fun markedAt ↦
            secondsBetween markedAt instant.micros ≤ mgr.maxMarkAgeSeconds) &&
            positiveMark pos
      let quoteFresh := ((quoted prov req.instrument).bind MarketPrice.timestamp).any
        fun timestamp ↦
          0 ≤ secondsBetween timestamp instant.micros &&
            secondsBetween timestamp instant.micros ≤ mgr.maxMarkAgeSeconds
      pure (marked && quoteFresh && (markPrice prov req.instrument).isSome)

def staleMarks (now : Option Instant) : Except TradingError Bool :=
  match prov.positions with
  | none => .ok false
  | some positions => do
    let instant ← resolveNow prov now
    pure (positions.any fun pos ↦
      decide (pos.quantity.toRat ≠ 0) &&
        !(positiveMark pos && pos.markedAt.any fun markedAt ↦
          0 ≤ secondsBetween markedAt instant.micros &&
            secondsBetween markedAt instant.micros ≤ mgr.maxMarkAgeSeconds))

section

variable (mgr : RiskManager) (prov : Providers) (req : OrderRequest)
  (now : Option Instant)

abbrev Gate := Except TradingError (Option DenyReason)

def denyIf (condition : Bool) (why : DenyReason) : Option DenyReason :=
  if condition then some why else none

def exceeds (limit : Option ℚ) (val : ℚ) : Bool := limit.any fun limit ↦ limit < val

def masterGate : Gate := .ok (denyIf (!mgr.liveOrdersEnabled) .liveOrdersDisabled)

def shortSellingGate : Gate :=
  .ok (denyIf (decide (req.side = .sell) && !mgr.allowShort && opensShort prov req)
    .shortSellingDisabled)

def freshMarksGate : Gate :=
  if mgr.requireFreshMarks && increasesExposure prov mgr req then do
    let fresh ← freshMarksAvailable mgr prov req now
    pure (denyIf (!fresh) .marksNotFresh)
  else .ok none

def orderValueGate : Gate :=
  match (activeBudget mgr req).maxOrderValue with
  | none => .ok none
  | some limit =>
    match markForTrade prov req with
    | none => .ok (denyIf mgr.rejectUnknownMarketValue .unknownMarketValue)
    | some mark => .ok (denyIf (limit < mark * req.quantity.toRat) .orderValueExceeded)

def cashGate : Gate :=
  if req.side = .sell then .ok none
  else if mgr.failClosedCash && (markForTrade prov req).isNone then
    .ok (some .unknownMarketValue)
  else
    match prov.cash with
    | some (some cash) => .ok (denyIf (cash < incomingExposure prov req) .insufficientCash)
    | _ => .ok (denyIf mgr.failClosedCash .cashUnavailable)

def positionValueGate : Gate :=
  .ok (denyIf (exceeds (activeBudget mgr req).maxPositionValue
    (positionExposure prov + incomingExposure prov req)) .positionValueExceeded)

def exposureGate : Gate :=
  let exposures := resultingExposures prov req
  if exceeds mgr.maxGrossExposure exposures.1 then .ok (some .maxGrossExposureExceeded)
  else .ok (denyIf (exceeds mgr.maxNetExposure |exposures.2|) .maxNetExposureExceeded)

def firstRefusal : List Gate → Gate
  | [] => .ok none
  | gate :: rest => do
    match ← gate with
    | some why => pure (some why)
    | none => firstRefusal rest

def earlyGates : List Gate :=
  [masterGate mgr, shortSellingGate mgr prov req,
    freshMarksGate mgr prov req now, orderValueGate mgr prov req,
    cashGate mgr prov req]

def statelessGates : List Gate :=
  earlyGates mgr prov req now ++
    [positionValueGate mgr prov req, exposureGate mgr prov req]

end

section

variable (mgr : RiskManager) (prov : Providers)

def positionPnl (pos : Position) : ℚ :=
  pos.realizedPnl.amount.toRat + pos.unrealizedPnl.amount.toRat

def bookIsAttributed : Bool :=
  (listedPositions prov).any fun pos ↦ (positionStrategy pos).isSome

def equityPnlFor (sid : Option String) : ℚ :=
  (((listedPositions prov).filter fun pos ↦
    positionStrategy pos = sid).map positionPnl).sum

def lossBucket (req : OrderRequest) : Option String :=
  if bookIsAttributed prov then resolveStrategyId req else none

variable (st : RiskState)

def todaysBaseline (bucket : Option String) (today : ℤ) : Baseline :=
  match st.baselines.get (bucket.getD "") with
  | some baseline =>
    if baseline.date = today then baseline else ⟨today, equityPnlFor prov bucket, 0⟩
  | none => ⟨today, equityPnlFor prov bucket, 0⟩

def persistBaseline (sid : String) (baseline : Baseline) : RiskState :=
  if st.baselines.get sid = some baseline then st
  else
    { st with
      baselines := st.baselines.set sid baseline
      stored := st.stored.map fun stored ↦ stored.set sid baseline }

def sessionNetFor (bucket : Option String) (today : ℤ) : (ℚ × ℚ) × RiskState :=
  let baseline := todaysBaseline prov st bucket today
  let net := equityPnlFor prov bucket - baseline.base
  let peak := max baseline.peak net
  let updated : Baseline := { baseline with peak := peak }
  match bucket with
  | none => ((net, peak), { st with baselines := st.baselines.set "" updated })
  | some sid => ((net, peak), persistBaseline st sid updated)

def drawdownOf (peak net : ℚ) : Option ℚ := if peak ≤ 0 then none else some ((peak - net) / peak)

def lossRefusal (budget : RiskBudget) (net peak : ℚ) : Option DenyReason :=
  if budget.maxDailyLossAmt.any fun limit ↦ net ≤ -limit then some .dailyLossExceeded
  else
    denyIf (budget.maxDrawdownPct.any fun limit ↦
      (drawdownOf peak net).any fun drawdown ↦ limit ≤ drawdown) .drawdownExceeded

def lossGuards (req : OrderRequest) (now : Option Instant) (st : RiskState) :
    Except TradingError (Option DenyReason × RiskState) :=
  let budget := activeBudget mgr req
  if (budget.maxDailyLossAmt.isSome || budget.maxDrawdownPct.isSome) && prov.positions.isSome
  then do
    let increases := increasesExposure prov mgr req
    let stale ← staleMarks mgr prov now
    if stale && increases then pure (some .marksNotFresh, st)
    else
      let instant ← resolveNow prov now
      let measured := sessionNetFor prov st (lossBucket prov req) instant.date
      if increases then pure (lossRefusal budget measured.1.1 measured.1.2, measured.2)
      else pure (none, measured.2)
  else .ok (none, st)

def rateLimit (now : Option Instant) (st : RiskState) :
    Except TradingError (Option DenyReason × RiskState) :=
  match mgr.maxOrdersPerMinute with
  | none => .ok (none, st)
  | some limit => do
    let instant ← resolveNow prov now
    let recent := st.recentOrders.dropWhile fun prior ↦
      60 < secondsBetween prior.micros instant.micros
    if limit ≤ recent.length then
      pure (some .rateLimitExceeded, { st with recentOrders := recent })
    else pure (none, { st with recentOrders := recent ++ [instant] })

end

def sameAwareness (st : RiskState) (now : Option Instant) : Bool :=
  match now, st.recentOrders with
  | some now, earliest :: _ => now.aware = earliest.aware
  | _, _ => true

def decided (refusal : Option DenyReason) (st : RiskState) : Option DenyReason × RiskState :=
  match refusal with
  | some why => (some why, { st with rejectedCount := st.rejectedCount + 1 })
  | none => (none, st)

def check (mgr : RiskManager) (prov : Providers) (st : RiskState)
    (req : OrderRequest) (now : Option Instant) :
    Except TradingError (Option DenyReason × RiskState) :=
  if sameAwareness st now = false then
    .error (.value "RiskManager.check: tz-awareness mismatch in rate-limit window")
  else do
    match ← firstRefusal (statelessGates mgr prov req now) with
    | some why => pure (decided (some why) st)
    | none =>
      let guarded ← lossGuards mgr prov req now st
      match guarded.1 with
      | some why => pure (decided (some why) guarded.2)
      | none =>
        let limited ← rateLimit mgr prov now guarded.2
        pure (decided limited.1 limited.2)

def decision (st : RiskState)
    (req : OrderRequest) (now : Option Instant) : Except TradingError (Option DenyReason) :=
  (check mgr prov st req now).map Prod.fst

def loadBaselines (stored : Dict String Baseline) (today : ℤ) : Dict String Baseline :=
  stored.entries.foldl (fun baselines row ↦
    if row.2.date = today then baselines.set row.1 row.2 else baselines) Dict.empty

def RiskState.restarted (stored : Option (Dict String Baseline)) (today : ℤ) : RiskState where
  baselines := stored.elim Dict.empty fun rows ↦ loadBaselines rows today
  stored := stored

end Tradex.Execution.Risk

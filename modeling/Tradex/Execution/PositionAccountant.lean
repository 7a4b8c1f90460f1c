import Tradex.Domain.PositionMath
import Tradex.Execution.OrderManager

/-!
# Position accountant and mark-to-market service

The two components that rebuild cached positions. Every operation holds the
instrument's lock from its read to its write, so it is one atomic step.
-/

namespace Tradex.Execution

open Tradex.Domain

inductive CorporateActionKind where
  | split
  | bonus
  | dividend
  | unsupported (actionType : String)
deriving DecidableEq

variable (pos : Position)

def selectMark (quote : Quote) : Option (Price × String) :=
  let lastTraded : Option (Price × String) :=
    if 0 < quote.ltp.value then some (quote.ltp, "LTP") else none
  let sideMark (mark : Option Price) (source : String) : Option (Price × String) :=
    match mark with
    | some price => if 0 < price.value then some (price, source) else lastTraded
    | none => lastTraded
  if 0 < pos.quantity then sideMark quote.bid "BID"
  else if pos.quantity < 0 then sideMark quote.ask "ASK"
  else none

def isStaleFor (quote : Quote) : Bool :=
  match pos.markedAt with
  | some markedAt => quote.timestamp < markedAt
  | none => false

def markedPosition (quote : Quote) (mark : Price) (source : String) :
    Position where
  instrument := pos.instrument
  quantity := pos.quantity
  avgPrice := pos.avgPrice
  realizedPnl := pos.realizedPnl
  unrealizedPnl :=
    { amount := q2 ((mark.value - pos.avgPrice.value) * pos.quantity)
      currency := pos.realizedPnl.currency }
  markPrice := some mark
  markedAt := some quote.timestamp
  markSource := some source

namespace PositionAccountant

def remarkUnlocked (pos : Position) (quote : Quote) : Position :=
  match selectMark pos quote with
  | none => pos
  | some (mark, source) =>
    if isStaleFor pos quote then pos else markedPosition pos quote mark source

variable (cache : TradingCache) (fill : Fill)

def onFill : Position × TradingCache :=
  let pos := applyFill (cache.getPosition fill.instrument) fill
  (pos, cache.updatePosition pos)

def fillWithRemark (quote : Option Quote) : Position × TradingCache :=
  let filled := applyFill (cache.getPosition fill.instrument) fill
  let pos :=
    match quote with
    | some quote => if filled.quantity.toRat ≠ 0 then remarkUnlocked filled quote else filled
    | none => filled
  (pos, cache.updatePosition pos)

def feeDeducted (pos : Position) (fee : Money) : Position where
  instrument := pos.instrument
  quantity := pos.quantity
  avgPrice := pos.avgPrice
  realizedPnl := { amount := q2 (pos.realizedPnl.amount - fee.amount) }
  unrealizedPnl := pos.unrealizedPnl
  markPrice := pos.markPrice
  markedAt := pos.markedAt
  markSource := pos.markSource

def onFee (fee : Money) : Option Position × TradingCache :=
  match cache.getPosition fill.instrument with
  | none => (none, cache)
  | some existing =>
    let pos := feeDeducted existing fee
    (some pos, cache.updatePosition pos)

def corporateActionPosition (existing : Position) (kind : CorporateActionKind)
    (ratio perShare : Option Decimal) : Except TradingError Position :=
  match kind, ratio, perShare with
  | .split, none, _ => .error (.value "SPLIT requires a ratio")
  | .bonus, none, _ => .error (.value "BONUS requires a ratio")
  | .split, some ratio, _ => applySplit existing ratio
  | .bonus, some ratio, _ => applySplit existing ratio
  | .dividend, _, none => .error (.value "DIVIDEND requires per_share")
  | .dividend, _, some perShare => .ok (applyDividend existing perShare)
  | .unsupported actionType, _, _ =>
    .error (.value ("unsupported corporate action type: " ++ actionType))

def onCorporateAction (instr : Instrument)
    (kind : CorporateActionKind) (ratio perShare : Option Decimal) :
    Except TradingError (Option Position × TradingCache) :=
  match cache.getPosition instr with
  | none => .ok (none, cache)
  | some existing =>
    (corporateActionPosition existing kind ratio perShare).map fun pos ↦
      (some pos, cache.updatePosition pos)

def remark (quote : Quote) : Option Position × TradingCache :=
  match cache.getPosition quote.instrument with
  | none => (none, cache)
  | some pos =>
    if pos.quantity.toRat = 0 then (none, cache)
    else
      let updated := remarkUnlocked pos quote
      (some updated, cache.updatePosition updated)

end PositionAccountant

namespace MarkToMarketService

def isOutdated (cache : TradingCache) (quote : Quote) : Bool :=
  match cache.getQuote quote.instrument with
  | some cur => quote.timestamp < cur.timestamp
  | none => false

def onQuote (cache : TradingCache) (quote : Quote) : Option Position × TradingCache :=
  if isOutdated cache quote then (none, cache)
  else
    let cache := cache.updateQuote quote
    match cache.getPosition quote.instrument with
    | none => (none, cache)
    | some pos =>
      if pos.quantity.toRat = 0 then (none, cache)
      else
        match selectMark pos quote with
        | none => (none, cache)
        | some (mark, source) =>
          if isStaleFor pos quote then (none, cache)
          else
            let updated := markedPosition pos quote mark source
            (some updated, cache.updatePosition updated)

end MarkToMarketService

end Tradex.Execution

import Tradex.Domain.Timeframe
import Tradex.Domain.Types

/-!
# Market events

Candles, order-book depth and the events that a strategy engine is fed with. The
stamp of an event counts time on one clock; a depth snapshot may have none.
-/

namespace Tradex.Domain

structure Candle where
  instrument : Instrument
  timeframe : Timeframe
  openPrice : Price
  high : Price
  low : Price
  close : Price
  volume : Decimal
  timestamp : ℤ
deriving DecidableEq

structure Depth where
  instrument : Instrument
  bids : List (Price × Decimal) := []
  asks : List (Price × Decimal) := []
  timestamp : Option ℤ := none
deriving DecidableEq

inductive MarketEvent where
  | candle (candle : Candle)
  | quote (quote : Quote)
  | depth (depth : Depth)
deriving DecidableEq

inductive MarketEventType where
  | candle
  | quote
  | depth
deriving DecidableEq

namespace MarketEvent

def instrument : MarketEvent → Instrument
  | .candle bar => bar.instrument
  | .quote tick => tick.instrument
  | .depth book => book.instrument

def timestamp : MarketEvent → Option ℤ
  | .candle bar => some bar.timestamp
  | .quote tick => some tick.timestamp
  | .depth book => book.timestamp

def type : MarketEvent → MarketEventType
  | .candle _ => .candle
  | .quote _ => .quote
  | .depth _ => .depth

def typeName : MarketEvent → String
  | .candle _ => "Candle"
  | .quote _ => "Quote"
  | .depth _ => "Depth"

end MarketEvent

def half : Decimal := ⟨5, -1⟩

theorem midPrice_nonneg {bid ask : Price} : 0 ≤ ((bid.value + ask.value) * half).toRat := by
  rw [Decimal.toRat_mul, Decimal.toRat_add]
  exact mul_nonneg (add_nonneg bid.nonneg ask.nonneg) (by decide +kernel)

def midPrice (bid ask : Price) : Price where
  value := (bid.value + ask.value) * half
  nonneg := midPrice_nonneg

def MarketEvent.referencePrice : MarketEvent → Option Price
  | .candle bar => some bar.close
  | .quote tick => some tick.ltp
  | .depth book =>
    match book.bids, book.asks with
    | (bid, _) :: _, (ask, _) :: _ => some (midPrice bid ask)
    | _, _ => none

end Tradex.Domain

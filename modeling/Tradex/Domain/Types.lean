import Tradex.Foundation.Decimal

/-!
# Domain records

Orders, fills, positions, requests and quotes. A price carries its non-negativity and a request what
its constructor checks.
-/

namespace Tradex.Domain

inductive OrderSide where
  | buy
  | sell
deriving DecidableEq

inductive OrderType where
  | market
  | limit
  | stop
  | stopLimit
deriving DecidableEq

inductive OrderStatus where
  | new
  | pending
  | ack
  | partiallyFilled
  | filled
  | cancelled
  | rejected
  | submitted
  | unknown
deriving DecidableEq

inductive TimeInForce where
  | day
deriving DecidableEq

inductive ProductType where
  | intraday
  | delivery
  | margin
  | mtf
  | coverOrder
deriving DecidableEq

def OrderSide.value : OrderSide → String
  | .buy => "BUY"
  | .sell => "SELL"

def OrderType.value : OrderType → String
  | .market => "MARKET"
  | .limit => "LIMIT"
  | .stop => "STOP"
  | .stopLimit => "STOP_LIMIT"

def TimeInForce.value : TimeInForce → String
  | .day => "DAY"

def OrderStatus.value : OrderStatus → String
  | .new => "NEW"
  | .pending => "PENDING"
  | .ack => "ACK"
  | .partiallyFilled => "PARTIALLY_FILLED"
  | .filled => "FILLED"
  | .cancelled => "CANCELLED"
  | .rejected => "REJECTED"
  | .submitted => "SUBMITTED"
  | .unknown => "UNKNOWN"

def ProductType.value : ProductType → String
  | .intraday => "INTRADAY"
  | .delivery => "DELIVERY"
  | .margin => "MARGIN"
  | .mtf => "MTF"
  | .coverOrder => "COVER_ORDER"

inductive TradingError where
  | sessionState (message : String)
  | value (message : String)
  | unsupportedProductType (message : String)
  | runtime (message : String)
  | orderRejected (message : String)
  | orderSubmissionUnknown (message : String)
  | idempotencyKeyReuseMismatch (message : String)
  | idempotencyInflight (message : String)
  | other (message : String)
deriving DecidableEq

def TradingError.message : TradingError → String
  | .sessionState msg => msg
  | .value msg => msg
  | .unsupportedProductType msg => msg
  | .runtime msg => msg
  | .orderRejected msg => msg
  | .orderSubmissionUnknown msg => msg
  | .idempotencyKeyReuseMismatch msg => msg
  | .idempotencyInflight msg => msg
  | .other msg => msg

structure Instrument where
  instrumentId : String
deriving DecidableEq

structure Price where
  value : Decimal
  nonneg : 0 ≤ value.toRat
deriving DecidableEq

def Price.ofNat (val : ℕ) : Price where
  value := OfNat.ofNat val
  nonneg := by
    rw [Decimal.toRat_ofNat]
    exact Nat.cast_nonneg val

def Price.q2 (x : ℚ) (hx : 0 ≤ x) : Price := ⟨Decimal.roundCents x, Decimal.roundCents_nonneg hx⟩

structure Money where
  amount : Decimal
  currency : String := "INR"
deriving DecidableEq

inductive CorrelationId where
  | uuid (text : String)
  | plain (text : String)
deriving DecidableEq

def CorrelationId.key : CorrelationId → String
  | .uuid text => text
  | .plain text => text

def protectivePricesValid (side : OrderSide) (entry stop target : Price) : Bool :=
  match side with
  | .buy => stop.value < entry.value && entry.value < target.value
  | .sell => target.value < entry.value && entry.value < stop.value

def bracketValid (side : OrderSide) (price stopLossPrice targetPrice : Option Price) : Bool :=
  match price, stopLossPrice, targetPrice with
  | some entry, some stop, some target => protectivePricesValid side entry stop target
  | _, _, _ => false

structure OrderRequest where
  instrument : Instrument
  side : OrderSide
  orderType : OrderType
  quantity : Decimal
  price : Option Price := none
  triggerPrice : Option Price := none
  timeInForce : TimeInForce := .day
  productType : ProductType := .intraday
  correlationId : Option CorrelationId := none
  tag : Option String := none
  strategyId : Option String := none
  referenceTimestamp : Option String := none
  disclosedQuantity : ℕ := 0
  marketProtection : ℤ := -1
  targetPrice : Option Price := none
  stopLossPrice : Option Price := none
  trailingJump : Option Price := none
  isBracket : Bool := false
  quantity_pos : 0 < quantity.toRat
  bracket_valid : isBracket = true → bracketValid side price stopLossPrice targetPrice = true
deriving DecidableEq

def OrderRequest.plain (instr : Instrument) (side : OrderSide) (orderType : OrderType)
    (qty : Decimal) (price : Option Price) (hqty : 0 < qty.toRat) :
    OrderRequest where
  instrument := instr
  side := side
  orderType := orderType
  quantity := qty
  price := price
  quantity_pos := hqty
  bracket_valid := by simp

structure Order where
  orderId : String
  instrument : Instrument
  side : OrderSide
  orderType : OrderType
  quantity : Decimal
  price : Option Price
  timeInForce : TimeInForce := .day
  status : OrderStatus
  correlationId : Option CorrelationId := none
  triggerPrice : Option Price := none
  productType : ProductType := .intraday
  tag : Option String := none
  filledQuantity : Decimal := 0
  targetPrice : Option Price := none
  stopLossPrice : Option Price := none
  trailingJump : Option Price := none
  avgPriceTraded : Option Price := none
  strategyId : Option String := none
deriving DecidableEq

structure OrderReceipt where
  orderId : String
  status : OrderStatus := .submitted
  message : String := "submitted"
deriving DecidableEq

structure Fill where
  orderId : String
  instrument : Instrument
  side : OrderSide
  quantity : Decimal
  price : Price
  timestamp : ℤ := 0
  fillId : Option String := none
  productType : Option ProductType := none
  strategyId : Option String := none
deriving DecidableEq

structure Position where
  instrument : Instrument
  quantity : Decimal
  avgPrice : Price
  realizedPnl : Money
  unrealizedPnl : Money
  markPrice : Option Price := none
  markedAt : Option ℤ := none
  markSource : Option String := none
  strategyId : Option String := none
deriving DecidableEq

structure Quote where
  instrument : Instrument
  ltp : Price
  bid : Option Price := none
  ask : Option Price := none
  timestamp : ℤ
deriving DecidableEq

def Fill.signedQuantity (fill : Fill) : Decimal :=
  match fill.side with
  | .buy => fill.quantity
  | .sell => -fill.quantity

def createOrder (req : OrderRequest) (oid : String) (status : OrderStatus)
    (filled : Decimal) : Order where
  orderId := oid
  instrument := req.instrument
  side := req.side
  orderType := req.orderType
  quantity := req.quantity
  price := req.price
  timeInForce := req.timeInForce
  status := status
  correlationId := req.correlationId
  triggerPrice := req.triggerPrice
  productType := req.productType
  tag := req.tag
  filledQuantity := filled
  targetPrice := req.targetPrice
  stopLossPrice := req.stopLossPrice
  trailingJump := req.trailingJump
  avgPriceTraded := none
  strategyId := req.strategyId

end Tradex.Domain

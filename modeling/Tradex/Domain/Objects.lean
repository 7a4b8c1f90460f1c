import Tradex.Foundation.Calendar
import Tradex.Foundation.Decimal
import Tradex.Foundation.Pickle

/-!
# Domain objects at run time

The serialisers work on any domain object by the fields of its class and their annotations.
-/

namespace Tradex.Domain

open Tradex.Pickle (Global)

inductive Zone where
  | fixed (offset : ℤ) (name : Option String)
  | other (cls : Global) (key : String) (offset : ℤ) (ambiguous : Bool)
deriving DecidableEq

structure DateTime where
  wall : ℤ
  zone : Option Zone
deriving DecidableEq

inductive EnumClass where
  | orderSide
  | orderType
  | orderStatus
  | timeInForce
  | productType
  | assetClass
  | exchangeId
  | timeframe
deriving DecidableEq

namespace EnumClass

def path : EnumClass → Global
  | orderSide => ⟨"tradex_domain.enums", "OrderSide"⟩
  | orderType => ⟨"tradex_domain.enums", "OrderType"⟩
  | orderStatus => ⟨"tradex_domain.enums", "OrderStatus"⟩
  | timeInForce => ⟨"tradex_domain.enums", "TimeInForce"⟩
  | productType => ⟨"tradex_domain.enums", "ProductType"⟩
  | assetClass => ⟨"tradex_domain.enums", "AssetClass"⟩
  | exchangeId => ⟨"tradex_domain.enums", "ExchangeId"⟩
  | timeframe => ⟨"tradex_domain.enums", "Timeframe"⟩

def members : EnumClass → List String
  | orderSide => ["BUY", "SELL"]
  | orderType => ["MARKET", "LIMIT", "STOP", "STOP_LIMIT"]
  | orderStatus => ["NEW", "PENDING", "ACK", "PARTIALLY_FILLED", "FILLED", "CANCELLED", "REJECTED",
      "SUBMITTED", "UNKNOWN"]
  | timeInForce => ["DAY"]
  | productType => ["INTRADAY", "DELIVERY", "MARGIN", "MTF", "COVER_ORDER"]
  | assetClass => ["EQUITY", "INDEX", "FUTURE", "OPTION", "CURRENCY", "COMMODITY"]
  | exchangeId => ["NSE", "BSE", "NFO", "BFO", "MCX", "CDS", "BCD", "NSE_COMM", "IDX"]
  | timeframe => ["1m", "5m", "15m", "30m", "1h", "1d", "1w"]

end EnumClass

inductive RecordClass where
  | instrumentId | orderId | correlationId | price | quantity | money
  | instrumentMeta
  | instrument | equity | index | future | option | currency | commodity
  | ohlc | depth | quote | candle
  | orderRequest | bracketOrderRequest | order | fill | position
  | orderPlaced | orderFilled | orderRejected | orderCancelled | orderModified
  | riskDecision | brokerOrderRequested | brokerOrderAcknowledged | cancelRequested
  | unknownSubmission | reconciliationResult | cashAccountInitialized | cashReconciled
deriving DecidableEq

inductive Annotation where
  | str
  | int
  | bool
  | decimal
  | datetime
  | date
  | uuidOrStr
  | enum (cls : EnumClass)
  | record (cls : RecordClass)
  | objects
  | tupleOf (item : Annotation)
  | pair (first second : Annotation)
deriving DecidableEq

structure Field where
  name : String
  type : Annotation
  optional : Bool := false

namespace RecordClass

def path : RecordClass → Global
  | instrumentId => ⟨"tradex_domain.value_objects", "InstrumentId"⟩
  | orderId => ⟨"tradex_domain.value_objects", "OrderId"⟩
  | correlationId => ⟨"tradex_domain.value_objects", "CorrelationId"⟩
  | price => ⟨"tradex_domain.value_objects", "Price"⟩
  | quantity => ⟨"tradex_domain.value_objects", "Quantity"⟩
  | money => ⟨"tradex_domain.value_objects", "Money"⟩
  | instrumentMeta => ⟨"tradex_domain.instruments", "InstrumentMeta"⟩
  | instrument => ⟨"tradex_domain.instruments", "Instrument"⟩
  | equity => ⟨"tradex_domain.instruments", "Equity"⟩
  | index => ⟨"tradex_domain.instruments", "Index"⟩
  | future => ⟨"tradex_domain.instruments", "Future"⟩
  | option => ⟨"tradex_domain.instruments", "Option"⟩
  | currency => ⟨"tradex_domain.instruments", "Currency"⟩
  | commodity => ⟨"tradex_domain.instruments", "Commodity"⟩
  | ohlc => ⟨"tradex_domain.market", "OHLC"⟩
  | depth => ⟨"tradex_domain.market", "Depth"⟩
  | quote => ⟨"tradex_domain.market", "Quote"⟩
  | candle => ⟨"tradex_domain.market", "Candle"⟩
  | orderRequest => ⟨"tradex_domain.execution", "OrderRequest"⟩
  | bracketOrderRequest => ⟨"tradex_domain.execution", "BracketOrderRequest"⟩
  | order => ⟨"tradex_domain.execution", "Order"⟩
  | fill => ⟨"tradex_domain.execution", "Fill"⟩
  | position => ⟨"tradex_domain.execution", "Position"⟩
  | orderPlaced => ⟨"tradex_domain.events", "OrderPlaced"⟩
  | orderFilled => ⟨"tradex_domain.events", "OrderFilled"⟩
  | orderRejected => ⟨"tradex_domain.events", "OrderRejected"⟩
  | orderCancelled => ⟨"tradex_domain.events", "OrderCancelled"⟩
  | orderModified => ⟨"tradex_domain.events", "OrderModified"⟩
  | riskDecision => ⟨"tradex_domain.events", "RiskDecision"⟩
  | brokerOrderRequested => ⟨"tradex_domain.events", "BrokerOrderRequested"⟩
  | brokerOrderAcknowledged => ⟨"tradex_domain.events", "BrokerOrderAcknowledged"⟩
  | cancelRequested => ⟨"tradex_domain.events", "CancelRequested"⟩
  | unknownSubmission => ⟨"tradex_domain.events", "UnknownSubmission"⟩
  | reconciliationResult => ⟨"tradex_domain.events", "ReconciliationResult"⟩
  | cashAccountInitialized => ⟨"tradex_domain.events", "CashAccountInitialized"⟩
  | cashReconciled => ⟨"tradex_domain.events", "CashReconciled"⟩

def subclasses : RecordClass → List RecordClass
  | instrument => [instrument, equity, index, future, option, currency, commodity]
  | orderRequest => [orderRequest, bracketOrderRequest]
  | cls => [cls]

def isSubclassOf (cls base : RecordClass) : Bool := cls ∈ base.subclasses

def instrumentFields : List Field :=
  [⟨"instrument_id", .record instrumentId, false⟩, ⟨"symbol", .str, false⟩,
    ⟨"exchange", .enum .exchangeId, false⟩, ⟨"asset_class", .enum .assetClass, false⟩,
    ⟨"currency", .str, false⟩, ⟨"expiry", .date, true⟩, ⟨"strike", .decimal, true⟩,
    ⟨"option_type", .str, true⟩, ⟨"contract_size", .decimal, true⟩, ⟨"lot_size", .decimal, true⟩,
    ⟨"tick_size", .decimal, true⟩, ⟨"meta", .record instrumentMeta, false⟩]

def requestFields : List Field :=
  [⟨"instrument", .record instrument, false⟩, ⟨"side", .enum .orderSide, false⟩,
    ⟨"order_type", .enum .orderType, false⟩, ⟨"quantity", .record quantity, false⟩,
    ⟨"price", .record price, true⟩, ⟨"trigger_price", .record price, true⟩,
    ⟨"time_in_force", .enum .timeInForce, false⟩, ⟨"product_type", .enum .productType, false⟩,
    ⟨"correlation_id", .record correlationId, true⟩, ⟨"tag", .str, true⟩,
    ⟨"strategy_id", .str, true⟩, ⟨"reference_timestamp", .datetime, true⟩,
    ⟨"disclosed_quantity", .int, false⟩, ⟨"market_protection", .int, false⟩,
    ⟨"target_price", .record price, true⟩, ⟨"stop_loss_price", .record price, true⟩,
    ⟨"trailing_jump", .record price, true⟩]

def eventFields : List Field :=
  [⟨"timestamp", .datetime, false⟩, ⟨"correlation_id", .record correlationId, true⟩]

def fields : RecordClass → List Field
  | instrumentId =>
    [⟨"exchange", .str, false⟩, ⟨"underlying", .str, false⟩, ⟨"expiry", .date, true⟩,
      ⟨"strike", .decimal, true⟩, ⟨"right", .str, true⟩,
      ⟨"asset_class", .enum .assetClass, false⟩]
  | orderId => [⟨"value", .str, false⟩]
  | correlationId => [⟨"value", .uuidOrStr, false⟩]
  | price => [⟨"value", .decimal, false⟩]
  | quantity => [⟨"value", .decimal, false⟩]
  | money => [⟨"amount", .decimal, false⟩, ⟨"currency", .str, false⟩]
  | instrumentMeta =>
    [⟨"description", .str, true⟩, ⟨"isin", .str, true⟩, ⟨"lot_size", .int, true⟩,
      ⟨"tick_size", .record price, true⟩, ⟨"extra", .objects, false⟩]
  | instrument => instrumentFields
  | equity => instrumentFields
  | index => instrumentFields
  | future => instrumentFields
  | option => instrumentFields ++ [⟨"right", .str, false⟩]
  | currency => instrumentFields
  | commodity => instrumentFields
  | ohlc =>
    [⟨"open", .record price, false⟩, ⟨"high", .record price, false⟩,
      ⟨"low", .record price, false⟩, ⟨"close", .record price, false⟩]
  | depth =>
    [⟨"instrument", .record instrument, false⟩,
      ⟨"bids", .tupleOf (.pair (.record price) (.record quantity)), false⟩,
      ⟨"asks", .tupleOf (.pair (.record price) (.record quantity)), false⟩,
      ⟨"timestamp", .datetime, true⟩]
  | quote =>
    [⟨"instrument", .record instrument, false⟩, ⟨"ltp", .record price, false⟩,
      ⟨"bid", .record price, true⟩, ⟨"ask", .record price, true⟩,
      ⟨"volume", .record quantity, true⟩, ⟨"open_interest", .record quantity, true⟩,
      ⟨"ohlc", .record ohlc, true⟩, ⟨"depth", .record depth, true⟩,
      ⟨"timestamp", .datetime, false⟩, ⟨"exchange", .str, false⟩, ⟨"provider", .str, false⟩,
      ⟨"metadata", .objects, true⟩]
  | candle =>
    [⟨"instrument", .record instrument, false⟩, ⟨"timeframe", .enum .timeframe, false⟩,
      ⟨"ohlc", .record ohlc, false⟩, ⟨"volume", .record quantity, false⟩,
      ⟨"timestamp", .datetime, false⟩]
  | orderRequest => requestFields
  | bracketOrderRequest => requestFields
  | order =>
    [⟨"order_id", .record orderId, false⟩, ⟨"instrument", .record instrument, false⟩,
      ⟨"side", .enum .orderSide, false⟩, ⟨"order_type", .enum .orderType, false⟩,
      ⟨"quantity", .record quantity, false⟩, ⟨"price", .record price, true⟩,
      ⟨"time_in_force", .enum .timeInForce, false⟩, ⟨"status", .enum .orderStatus, false⟩,
      ⟨"correlation_id", .record correlationId, true⟩, ⟨"trigger_price", .record price, true⟩,
      ⟨"product_type", .enum .productType, false⟩, ⟨"tag", .str, true⟩,
      ⟨"filled_quantity", .record quantity, false⟩, ⟨"target_price", .record price, true⟩,
      ⟨"stop_loss_price", .record price, true⟩, ⟨"trailing_jump", .record price, true⟩,
      ⟨"avg_price_traded", .record price, true⟩, ⟨"strategy_id", .str, true⟩]
  | fill =>
    [⟨"order_id", .record orderId, false⟩, ⟨"instrument", .record instrument, false⟩,
      ⟨"side", .enum .orderSide, false⟩, ⟨"quantity", .record quantity, false⟩,
      ⟨"price", .record price, false⟩, ⟨"timestamp", .datetime, false⟩,
      ⟨"fill_id", .str, true⟩, ⟨"product_type", .enum .productType, true⟩,
      ⟨"strategy_id", .str, true⟩]
  | position =>
    [⟨"instrument", .record instrument, false⟩, ⟨"quantity", .record quantity, false⟩,
      ⟨"avg_price", .record price, false⟩, ⟨"realized_pnl", .record money, false⟩,
      ⟨"unrealized_pnl", .record money, false⟩, ⟨"mark_price", .record price, true⟩,
      ⟨"marked_at", .datetime, true⟩, ⟨"mark_source", .str, true⟩,
      ⟨"strategy_id", .str, true⟩]
  | orderPlaced => eventFields ++ [⟨"order", .record order, false⟩]
  | orderFilled => eventFields ++ [⟨"fill", .record fill, false⟩, ⟨"fee_amount", .decimal, true⟩]
  | orderRejected => eventFields ++ [⟨"order", .record order, false⟩, ⟨"reason", .str, false⟩]
  | orderCancelled => eventFields ++ [⟨"order", .record order, false⟩]
  | orderModified => eventFields ++ [⟨"order", .record order, false⟩]
  | riskDecision =>
    eventFields ++ [⟨"request", .record orderRequest, false⟩, ⟨"approved", .bool, false⟩,
      ⟨"reason", .str, false⟩]
  | brokerOrderRequested => eventFields ++ [⟨"request", .record orderRequest, false⟩]
  | brokerOrderAcknowledged => eventFields ++ [⟨"order", .record order, false⟩]
  | cancelRequested => eventFields ++ [⟨"order_id", .str, false⟩]
  | unknownSubmission =>
    eventFields ++ [⟨"request", .record orderRequest, false⟩, ⟨"detail", .str, false⟩]
  | reconciliationResult => eventFields ++ [⟨"drift_count", .int, false⟩, ⟨"detail", .str, false⟩]
  | cashAccountInitialized => eventFields ++ [⟨"amount", .decimal, false⟩]
  | cashReconciled =>
    eventFields ++ [⟨"previous", .decimal, false⟩, ⟨"amount", .decimal, false⟩,
      ⟨"reason", .str, false⟩]

end RecordClass

inductive Obj where
  | none
  | bool (value : Bool)
  | int (value : ℤ)
  | float (value : ℚ)
  | str (value : String)
  | decimal (value : Decimal)
  | uuid (value : ℕ)
  | datetime (value : DateTime)
  | date (value : Date)
  | enum (cls : EnumClass) (value : String)
  | tuple (items : List Obj)
  | list (items : List Obj)
  | dict (keys : List String) (values : List Obj)
  | record (cls : RecordClass) (values : List Obj)
  | foreign (cls : Global) (state : List Obj)

namespace Obj

def isNone : Obj → Bool
  | .none => true
  | _ => false

def leafTypes : Obj → List Annotation
  | .bool _ => [.bool]
  | .int _ => [.int]
  | .str _ => [.str, .uuidOrStr]
  | .decimal _ => [.decimal]
  | .uuid _ => [.uuidOrStr]
  | .datetime _ => [.datetime]
  | .date _ => [.date]
  | .enum cls value => if value ∈ cls.members then [.enum cls] else []
  | .dict keys values => if keys.length = values.length then [.objects] else []
  | _ => []

mutual

def fits : Obj → Annotation → Bool
  | .record cls values, type =>
    match type with
    | .record base => cls.isSubclassOf base && fitsFields values cls.fields
    | _ => false
  | .tuple items, type =>
    match type with
    | .tupleOf item => fitsAll items item
    | .pair first second => fitsFields items [⟨"0", first, false⟩, ⟨"1", second, false⟩]
    | _ => false
  | obj, type => type ∈ obj.leafTypes

def fitsAll : List Obj → Annotation → Bool
  | [], _ => true
  | item :: rest, type => item.fits type && fitsAll rest type

def fitsFields : List Obj → List Field → Bool
  | [], [] => true
  | value :: rest, field :: fields =>
    (value.isNone && field.optional || value.fits field.type) && fitsFields rest fields
  | _, _ => false

end

end Obj

end Tradex.Domain

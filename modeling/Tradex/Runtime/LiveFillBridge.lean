import Tradex.Execution.Engine

/-!
# The live fill bridge

The order stream reports cumulative filled totals, and the bridge publishes what the order cache
lacks: one fill for each new trade of the venue's book, or else one at the average price.
-/

namespace Tradex.Runtime

open Tradex.Domain Tradex.Execution

structure TradeRow where
  orderId : Option String
  tradeId : Option String
  quantity : Option Decimal
  price : Option Decimal
  timestamp : Option ℤ := none

structure VenueTrade where
  tradeId : String
  quantity : Decimal
  price : Price
  timestamp : Option ℤ
  quantity_pos : 0 < quantity.toRat

def TradeRow.asTrade (row : TradeRow) (tradeId : String) : Option VenueTrade :=
  match row.quantity, row.price with
  | some qty, some price =>
    if husable : 0 < qty.toRat ∧ 0 < price.toRat then
      some
        { tradeId := tradeId
          quantity := qty
          price := ⟨price, husable.2.le⟩
          timestamp := row.timestamp
          quantity_pos := husable.1 }
    else none
  | _, _ => none

def TradeRow.tradeIdFor (row : TradeRow) (oid : String) : Option String :=
  if row.orderId = some oid then row.tradeId else none

def takeTrades (oid : String) :
    List TradeRow → List String → Decimal → List VenueTrade × List String
  | [], given, _ => ([], given)
  | row :: rest, given, room =>
    match row.tradeIdFor oid with
    | none => takeTrades oid rest given room
    | some tradeId =>
      if tradeId ∈ given then takeTrades oid rest given room
      else
        match row.asTrade tradeId with
        | none => takeTrades oid rest (given ++ [tradeId]) room
        | some trade =>
          if room < trade.quantity then ([], given)
          else
            let later := takeTrades oid rest (given ++ [tradeId]) (room - trade.quantity)
            (trade :: later.1, later.2)

structure TradeBookFillIdResolver where
  strict : Bool
  given : Dict String (List String)

namespace TradeBookFillIdResolver

def givenFor (resolver : TradeBookFillIdResolver) (oid : String) : List String :=
  (resolver.given.get oid).getD []

def nextTrades (resolver : TradeBookFillIdResolver) (book : Option (List TradeRow))
    (oid : String) (limit : Decimal) :
    Except TradingError (List VenueTrade) × TradeBookFillIdResolver :=
  let given := resolver.givenFor oid
  if resolver.strict && book.isNone then
    (.error (.runtime "live trade book unavailable; refusing an unidentified fill"),
      { resolver with given := resolver.given.set oid given })
  else
    let taken := takeTrades oid (book.getD []) given limit
    let remembering := { resolver with given := resolver.given.set oid taken.2 }
    if resolver.strict && taken.1.isEmpty then
      (.error (.runtime ("live trade book has no usable per-trade fill for order " ++ oid)),
        remembering)
    else (.ok taken.1, remembering)

end TradeBookFillIdResolver

structure StreamUpdate where
  row : Order
  now : ℤ
  book : Option (List TradeRow)

structure LiveFillBridge where
  world : World
  resolver : Option TradeBookFillIdResolver
  avgPriceFallbackFills : ℕ
  published : List Fill

namespace LiveFillBridge

def fillStatuses : List OrderStatus := [.filled, .partiallyFilled]

def avgPriceFallbackPrefix : String := "avg-price:"

def rowPrice (row : Order) : Option Price :=
  match row.avgPriceTraded with
  | some traded => if 0 < traded.value.toRat then some traded else row.price
  | none => row.price

def engineOrderId (bridge : LiveFillBridge) (row : Order) : String :=
  match row.correlationId.bind bridge.world.orderIndex.get with
  | some oid => if oid ≠ "" then oid else row.orderId
  | none => row.orderId

def applied (world : World) (oid : String) : Decimal :=
  match world.cache.getOrder oid with
  | some order => order.filledQuantity
  | none => 0

def rowFill (row : Order) (oid : String) (qty : Decimal) (price : Price)
    (fillId : String) (timestamp : ℤ) : Fill where
  orderId := oid
  instrument := row.instrument
  side := row.side
  quantity := qty
  price := price
  timestamp := timestamp
  fillId := some fillId
  productType := some row.productType

variable (cfg : EngineConfig)

def publish (bridge : LiveFillBridge) (fill : Fill) : LiveFillBridge :=
  { bridge with
    world := ((Engine.publishFilled cfg fill none).run (exec cfg) bridge.world).2
    published := bridge.published ++ [fill] }

def tradeFill (update : StreamUpdate) (oid : String) (trade : VenueTrade) : Fill :=
  rowFill update.row oid trade.quantity trade.price trade.tradeId
    (trade.timestamp.getD update.now)

def fallbackFill (update : StreamUpdate) (oid : String) (delta : Decimal) (price : Price) :
    Fill :=
  rowFill update.row oid delta price
    (avgPriceFallbackPrefix ++ update.row.orderId ++ ":" ++ update.row.filledQuantity.str)
    update.now

def publishFallback (bridge : LiveFillBridge) (update : StreamUpdate)
    (oid : String) (delta : Decimal) (price : Price) : LiveFillBridge :=
  publish cfg { bridge with avgPriceFallbackFills := bridge.avgPriceFallbackFills + 1 }
    (fallbackFill update oid delta price)

def publishDelta (bridge : LiveFillBridge) (update : StreamUpdate)
    (oid : String) (delta : Decimal) (price : Price) :
    Except TradingError Unit × LiveFillBridge :=
  match bridge.resolver with
  | none => (.ok (), bridge.publishFallback cfg update oid delta price)
  | some resolver =>
    match resolver.nextTrades update.book update.row.orderId delta with
    | (.error err, asked) => (.error err, { bridge with resolver := some asked })
    | (.ok [], asked) =>
      (.ok (), publishFallback cfg { bridge with resolver := some asked } update oid delta
        price)
    | (.ok (trade :: trades), asked) =>
      (.ok (), ((trade :: trades).map (tradeFill update oid)).foldl (publish cfg)
        { bridge with resolver := some asked })

def onOrder (bridge : LiveFillBridge) (update : StreamUpdate) :
    Except TradingError Unit × LiveFillBridge :=
  let total := update.row.filledQuantity
  if update.row.status ∉ fillStatuses then (.ok (), bridge)
  else
    match rowPrice update.row with
    | none => (.ok (), bridge)
    | some price =>
      if total.toRat ≤ 0 ∨ price.value.toRat ≤ 0 then (.ok (), bridge)
      else
        let oid := bridge.engineOrderId update.row
        let delta := total - applied bridge.world oid
        if delta.toRat ≤ 0 then (.ok (), bridge)
        else bridge.publishDelta cfg update oid delta price

end LiveFillBridge

end Tradex.Runtime

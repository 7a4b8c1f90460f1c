import Tradex.Domain.OrderLifecycle
import Tradex.Foundation.Dict

/-!
# Trading cache and order manager

The in-memory collections of orders, positions and quotes, and the order
manager's rule for applying a fill to an order: the filled quantity advances by
the part of the fill that fits the order, and the status follows it.
-/

namespace Tradex.Execution

open Tradex.Domain

structure TradingCache where
  orders : Dict String Order
  positions : Dict String Position
  quotes : Dict String Quote
  orders_keyed : ∀ orderId order, orders.get orderId = some order → order.orderId = orderId
  positions_keyed : ∀ instrumentId position, positions.get instrumentId = some position →
    position.instrument.instrumentId = instrumentId
deriving DecidableEq

namespace TradingCache

def empty : TradingCache where
  orders := Dict.empty
  positions := Dict.empty
  quotes := Dict.empty
  orders_keyed := by simp
  positions_keyed := by simp

theorem keyed_set {Value : Type} {key : Value → String} {dict : Dict String Value}
    (hkeyed : ∀ name val, dict.get name = some val → key val = name) (written : Value) :
    ∀ name val, (dict.set (key written) written).get name = some val → key val = name := by
  intro name val hget
  rw [Dict.get_set] at hget
  split at hget
  · cases hget
    assumption
  · exact hkeyed name val hget

variable (cache : TradingCache)

def updateOrder (order : Order) : TradingCache :=
  { cache with
    orders := cache.orders.set order.orderId order
    orders_keyed := keyed_set cache.orders_keyed order }

def getOrder (oid : String) : Option Order := cache.orders.get oid

def allOrders : List Order := cache.orders.values

def updatePosition (pos : Position) : TradingCache :=
  { cache with
    positions := cache.positions.set pos.instrument.instrumentId pos
    positions_keyed :=
      @keyed_set _ (fun held ↦ held.instrument.instrumentId) _ cache.positions_keyed pos }

def getPosition (instr : Instrument) : Option Position :=
  cache.positions.get instr.instrumentId

def updateQuote (quote : Quote) : TradingCache :=
  { cache with quotes := cache.quotes.set quote.instrument.instrumentId quote }

def getQuote (instr : Instrument) : Option Quote :=
  cache.quotes.get instr.instrumentId

@[simp] theorem getOrder_updateOrder_self (order : Order) :
    (cache.updateOrder order).getOrder order.orderId = some order :=
  Dict.get_set_self

variable {cache : TradingCache} {order : Order} {instr : Instrument} {oid : String}

theorem getOrder_updateOrder :
    (cache.updateOrder order).getOrder oid =
      if order.orderId = oid then some order else cache.getOrder oid :=
  Dict.get_set _ _ _ _

theorem orderId_of_getOrder (hcache : cache.getOrder oid = some order) : order.orderId = oid :=
  cache.orders_keyed oid order hcache

variable {pos : Position}

theorem instrument_of_getPosition (hheld : cache.getPosition instr = some pos) :
    pos.instrument = instr := by
  have hkey := cache.positions_keyed _ _ hheld
  cases hinstr : pos.instrument
  simp_all

theorem updateOrder_of_getOrder
    (hcache : cache.getOrder order.orderId = some order) : cache.updateOrder order = cache := by
  have hords := Dict.set_of_get hcache
  unfold updateOrder
  simp_all

theorem getPosition_updatePosition (cache : TradingCache) (pos : Position) (instr : Instrument) :
    (cache.updatePosition pos).getPosition instr =
      if pos.instrument.instrumentId = instr.instrumentId then some pos
      else cache.getPosition instr :=
  Dict.get_set _ _ _ _

@[simp] theorem getPosition_updateQuote {quote : Quote} :
    (cache.updateQuote quote).getPosition instr = cache.getPosition instr := rfl

end TradingCache

variable (order : Order) (fill : Fill)

def fillDelta : Decimal :=
  Decimal.minimum fill.quantity (order.quantity - order.filledQuantity)

def filledAfter : Decimal :=
  order.filledQuantity + fillDelta order fill

def statusAfter : OrderStatus :=
  if order.quantity ≤ filledAfter order fill then .filled else .partiallyFilled

def filledOrder : Except TradingError Order :=
  if statusAfter order fill = order.status then
    .ok { order with filledQuantity := filledAfter order fill }
  else order.transitionTo (statusAfter order fill) (some (filledAfter order fill))

structure OverfillWarning where
  fill : Fill
  delta : Decimal

def overfillWarning : Option OverfillWarning :=
  if fillDelta order fill < fill.quantity then some ⟨fill, fillDelta order fill⟩ else none

variable {fill : Fill} {order : Order}

theorem filledOrder_ok {order filled : Order} (hok : filledOrder order fill = .ok filled) :
    filled = { order with
      status := statusAfter order fill, filledQuantity := filledAfter order fill } := by
  unfold filledOrder at hok
  split at hok
  · rename_i hsame
    cases hok
    rw [hsame]
  · exact (transitionTo_ok hok).2

theorem status_of_filledOrder {order filled : Order}
    (hok : filledOrder order fill = .ok filled) : order.status ≠ .rejected := by
  intro hrej
  have hmove : statusAfter order fill ≠ order.status := by
    rw [hrej, statusAfter]
    split <;> decide
  rw [filledOrder, if_neg hmove] at hok
  have hlegal := (transitionTo_ok hok).1
  rw [hrej] at hlegal
  cases hlegal

structure Order.WithinQuantity (order : Order) : Prop where
  nonneg : 0 ≤ order.filledQuantity.toRat
  le : order.filledQuantity.toRat ≤ order.quantity.toRat

theorem toRat_filledAfter (order : Order) (fill : Fill) :
    (filledAfter order fill).toRat = order.filledQuantity.toRat +
      min fill.quantity.toRat (order.quantity.toRat - order.filledQuantity.toRat) := by
  simp [filledAfter, fillDelta]

theorem filledAfter_within (hin : Order.WithinQuantity order) (hqty : 0 ≤ fill.quantity.toRat) :
    0 ≤ (filledAfter order fill).toRat ∧ (filledAfter order fill).toRat ≤ order.quantity.toRat := by
  have hnn := hin.nonneg
  have hle := hin.le
  rw [toRat_filledAfter]
  constructor
  · have hmin : 0 ≤ min fill.quantity.toRat
        (order.quantity.toRat - order.filledQuantity.toRat) := le_min hqty (by linarith)
    linarith
  · have hmin : min fill.quantity.toRat (order.quantity.toRat - order.filledQuantity.toRat) ≤
        order.quantity.toRat - order.filledQuantity.toRat := min_le_right _ _
    linarith

theorem filledOrder_of_legal (hin : Order.WithinQuantity order) (hqty : 0 ≤ fill.quantity.toRat)
    (hlegal : statusAfter order fill = order.status ∨
      statusAfter order fill ∈ legalTransitions order.status) :
    filledOrder order fill = .ok { order with
      status := statusAfter order fill, filledQuantity := filledAfter order fill } := by
  obtain ⟨hnn, hle⟩ := filledAfter_within hin hqty
  unfold filledOrder
  split
  · rename_i hsame
    rw [hsame]
  · rename_i hchanged
    have hstat := hlegal.resolve_left hchanged
    exact transitionTo_of_legal hstat hnn hle

structure Regular (order : Order) : Prop where
  within : Order.WithinQuantity order
  acknowledged : order.status ≠ .new ∧ order.status ≠ .pending
  complete : order.status = .filled → order.filledQuantity.toRat = order.quantity.toRat

theorem Regular.admits (hreg : Regular order) (hopen : order.status ≠ .rejected)
    (hqty : 0 ≤ fill.quantity.toRat) :
    statusAfter order fill = order.status ∨
      statusAfter order fill ∈ legalTransitions order.status := by
  have hafter := toRat_filledAfter order fill
  obtain ⟨hnew, hpend⟩ := hreg.acknowledged
  cases hstat : order.status with
  | new => exact absurd hstat hnew
  | pending => exact absurd hstat hpend
  | rejected => exact absurd hstat hopen
  | filled =>
    have hcompl := hreg.complete hstat
    have hreach : order.quantity ≤ filledAfter order fill := by
      rw [Decimal.le_iff, hafter, hcompl, sub_self, min_eq_right hqty, add_zero]
    exact Or.inl (if_pos hreach)
  | partiallyFilled =>
    unfold statusAfter
    split
    · exact Or.inr (by decide)
    · exact Or.inl rfl
  | _ => unfold statusAfter; split <;> decide

theorem Regular.filled (hreg : Regular order) (hqty : 0 ≤ fill.quantity.toRat) :
    Regular { order with
      status := statusAfter order fill, filledQuantity := filledAfter order fill } := by
  obtain ⟨hnn, hle⟩ := filledAfter_within hreg.within hqty
  refine ⟨⟨hnn, hle⟩, ?_, ?_⟩
  · dsimp only [statusAfter]
    split <;> decide
  · intro hstat
    by_cases hreach : order.quantity ≤ filledAfter order fill
    · exact le_antisymm hle hreach
    · have hincomplete : statusAfter order fill = .partiallyFilled := if_neg hreach
      rw [hincomplete] at hstat
      cases hstat

end Tradex.Execution

import Tradex.Domain.Types

/-!
# Order lifecycle

The status machine of an order. `transitionTo` is the only way in which a status
changes; it refuses a transition that the table does not list and a filled
quantity outside the order.
-/

namespace Tradex.Domain

def legalTransitions : OrderStatus → List OrderStatus
  | .new => [.pending, .partiallyFilled, .cancelled, .rejected, .unknown]
  | .pending => [.ack, .cancelled, .rejected, .unknown]
  | .ack => [.partiallyFilled, .filled, .cancelled, .rejected]
  | .partiallyFilled => [.filled, .cancelled, .rejected]
  | .filled => []
  | .cancelled => [.filled, .partiallyFilled]
  | .rejected => []
  | .submitted => [.partiallyFilled, .filled, .cancelled]
  | .unknown => [.partiallyFilled, .filled, .cancelled, .rejected]

def Order.transitionTo (order : Order) (newStatus : OrderStatus)
    (filledQuantity : Option Decimal) : Except TradingError Order :=
  if newStatus ∈ legalTransitions order.status then
    let nextFilled := filledQuantity.getD order.filledQuantity
    if nextFilled < 0 then .error (.value "filled_quantity must be non-negative")
    else if order.quantity < nextFilled then
      .error (.value "filled_quantity cannot exceed quantity")
    else .ok { order with status := newStatus, filledQuantity := nextFilled }
  else
    .error (.sessionState
      ("illegal order transition " ++ order.status.value ++ " -> " ++ newStatus.value))

variable {filledQuantity : Option Decimal} {newStatus : OrderStatus}

theorem transitionTo_ok {order moved : Order}
    (hok : order.transitionTo newStatus filledQuantity = .ok moved) :
    newStatus ∈ legalTransitions order.status ∧
      moved = { order with
        status := newStatus, filledQuantity := filledQuantity.getD order.filledQuantity } := by
  unfold Order.transitionTo at hok
  split at hok
  · rename_i hlegal
    dsimp only at hok
    split at hok
    · cases hok
    · split at hok
      · cases hok
      · cases hok
        exact ⟨hlegal, rfl⟩
  · cases hok

theorem transitionTo_of_legal {order : Order} (hlegal : newStatus ∈ legalTransitions order.status)
    (hnn : 0 ≤ (filledQuantity.getD order.filledQuantity).toRat)
    (hle : (filledQuantity.getD order.filledQuantity).toRat ≤ order.quantity.toRat) :
    order.transitionTo newStatus filledQuantity = .ok { order with
      status := newStatus, filledQuantity := filledQuantity.getD order.filledQuantity } := by
  have hnot_neg : ¬ filledQuantity.getD order.filledQuantity < 0 := by
    rw [Decimal.lt_iff, Decimal.toRat_zero]
    exact not_lt.2 hnn
  have hnot_over : ¬ order.quantity < filledQuantity.getD order.filledQuantity := by
    exact not_lt.2 hle
  rw [Order.transitionTo, if_pos hlegal]
  simp [if_neg hnot_neg, if_neg hnot_over]

def OrderStatus.isTerminal (status : OrderStatus) : Bool :=
  status ∈ [OrderStatus.filled, .cancelled, .rejected]

end Tradex.Domain

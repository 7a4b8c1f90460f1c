import Tradex.Domain.PositionMath
import Tradex.Foundation.Dict
import Tradex.Foundation.Program

/-!
# Fees

The product-aware fee schedules and the fee processor, which accrues brokerage per
order so that the cap spans partial fills. A fill without a product type is priced on
the intraday schedule.
-/

namespace Tradex.Execution

open Tradex.Domain Decimal

structure FeeBreakdown where
  brokerFee : Decimal
  exchangeFee : Decimal
  stt : Decimal
  gst : Decimal
  sebiFee : Decimal
  stampDuty : Decimal

def FeeBreakdown.total (fees : FeeBreakdown) : Decimal :=
  0 + fees.stt + fees.brokerFee + fees.exchangeFee + fees.gst +
    fees.sebiFee + fees.stampDuty

structure FeeSchedule where
  product : ProductType
  sttBuy : Decimal
  sttSell : Decimal
  brokerageRate : Decimal
  brokerageCap : Decimal
  exchangeRate : Decimal
  sebiRate : Decimal
  stampDutyRate : Decimal
  gstRate : Decimal

variable (sched : FeeSchedule)

def FeeSchedule.sttFor : OrderSide → Decimal
  | .buy => sched.sttBuy
  | .sell => sched.sttSell

def intradaySchedule : FeeSchedule where
  product := .intraday
  sttBuy := 0
  sttSell := ⟨25, -5⟩
  brokerageRate := ⟨3, -4⟩
  brokerageCap := 20
  exchangeRate := ⟨345, -7⟩
  sebiRate := ⟨2, -6⟩
  stampDutyRate := ⟨3, -5⟩
  gstRate := ⟨18, -2⟩

def deliverySchedule : FeeSchedule :=
  { intradaySchedule with product := .delivery, sttBuy := ⟨1, -3⟩, sttSell := ⟨1, -3⟩ }

def scheduleFor : ProductType → Except TradingError FeeSchedule
  | .intraday => .ok intradaySchedule
  | .delivery => .ok deliverySchedule
  | product => .error (.unsupportedProductType
      ("no fee schedule for product type '" ++ product.value ++ "': " ++
        "MARGIN, MTF and COVER_ORDER are refused until a rate table " ++
        "exists, rather than charged a silent zero or the INTRADAY schedule. " ++
        "Priced products: DELIVERY, INTRADAY."))

def requireFeeSchedule (productType : Option ProductType) : Except TradingError ProductType :=
  match productType with
  | none => .ok .intraday
  | some product => (scheduleFor product).map fun _ ↦ product

def FeeSchedule.breakdown (side : OrderSide) (price qty : Decimal) :
    Except TradingError FeeBreakdown :=
  if price ≤ 0 ∨ qty ≤ 0 then .error (.value "price and quantity must be positive")
  else
    let turnover := price * qty
    let brokerage := q2 (Decimal.minimum (turnover * sched.brokerageRate) sched.brokerageCap)
    let exchange := q2 (turnover * sched.exchangeRate)
    let sebi := q2 (turnover * sched.sebiRate)
    .ok
      { brokerFee := brokerage
        exchangeFee := exchange
        stt := q2 (turnover * sched.sttFor side)
        gst := q2 ((brokerage + exchange + sebi) * sched.gstRate)
        sebiFee := sebi
        stampDuty := q2 (turnover * sched.stampDutyRate) }

def scheduleForFill (fill : Fill) : Except TradingError FeeSchedule :=
  scheduleFor (fill.productType.getD .intraday)

def cappedFee (fees : FeeBreakdown) (capped : Decimal) : Decimal :=
  if capped < fees.brokerFee then
    let gst := q2 ((capped + fees.exchangeFee + fees.sebiFee) * sched.gstRate)
    q2 (capped + fees.exchangeFee + fees.stt + fees.sebiFee +
      fees.stampDuty + gst)
  else q2 fees.total

def calculateCapped (fill : Fill) (accruedBrokerage : Decimal) :
    Except TradingError (Decimal × Decimal) :=
  if fill.price.value ≤ 0 ∨ fill.quantity ≤ 0 then
    .error (.value "fill price and quantity must be positive")
  else do
    let sched ← scheduleForFill fill
    let fees ← sched.breakdown fill.side fill.price.value fill.quantity
    let rem := Decimal.maximum (sched.brokerageCap - accruedBrokerage) 0
    let capped := Decimal.minimum fees.brokerFee rem
    return (cappedFee sched fees capped, accruedBrokerage + capped)

abbrev Accrual := Dict String Decimal

def computeFee (hasFeeCalculator : Bool) (accrued : Accrual) (fill : Fill) :
    Except TradingError (Decimal × Accrual) :=
  if hasFeeCalculator then do
    let (fee, newAccrued) ← calculateCapped fill ((accrued.get fill.orderId).getD 0)
    return (fee, accrued.set fill.orderId newAccrued)
  else .ok (0, accrued)

structure FeeSchedule.Nonneg (schedule : FeeSchedule) : Prop where
  stt : ∀ side, 0 ≤ (schedule.sttFor side).toRat
  brokerage : 0 ≤ schedule.brokerageRate.toRat
  cap : 0 ≤ schedule.brokerageCap.toRat
  exchange : 0 ≤ schedule.exchangeRate.toRat
  sebi : 0 ≤ schedule.sebiRate.toRat
  stampDuty : 0 ≤ schedule.stampDutyRate.toRat
  gst : 0 ≤ schedule.gstRate.toRat

variable {sched : FeeSchedule}

theorem scheduleFor_nonneg {product : ProductType}
    (hsched : scheduleFor product = .ok sched) : sched.Nonneg := by
  cases product with
  | intraday | delivery =>
    cases hsched
    constructor
    case stt => intro side; cases side <;> decide +kernel
    all_goals decide +kernel
  | margin | mtf | coverOrder => cases hsched

theorem q2_nonneg {val : Decimal} (hval : 0 ≤ val.toRat) : 0 ≤ (q2 val).toRat :=
  roundCents_nonneg hval

structure FeeBreakdown.Nonneg (breakdown : FeeBreakdown) : Prop where
  brokerFee : 0 ≤ breakdown.brokerFee.toRat
  exchangeFee : 0 ≤ breakdown.exchangeFee.toRat
  stt : 0 ≤ breakdown.stt.toRat
  gst : 0 ≤ breakdown.gst.toRat
  sebiFee : 0 ≤ breakdown.sebiFee.toRat
  stampDuty : 0 ≤ breakdown.stampDuty.toRat

variable {fees : FeeBreakdown} {fill : Fill}

theorem breakdown_nonneg (hrates : sched.Nonneg) {side : OrderSide} {price qty : Decimal}
    (hok : sched.breakdown side price qty = .ok fees) : fees.Nonneg := by
  unfold FeeSchedule.breakdown at hok
  split at hok
  · cases hok
  · rename_i hpos
    simp only [le_iff, toRat_zero, not_or, not_le] at hpos
    cases hok
    have hturnover : 0 ≤ (price * qty).toRat := by
      rw [toRat_mul]
      exact mul_nonneg hpos.1.le hpos.2.le
    have hrate : ∀ {rate : Decimal}, 0 ≤ rate.toRat → 0 ≤ (q2 (price * qty * rate)).toRat := by
      intro rate hnn
      refine q2_nonneg ?_
      rw [toRat_mul]
      exact mul_nonneg hturnover hnn
    have hbroker : 0 ≤ (q2 (minimum (price * qty * sched.brokerageRate)
        sched.brokerageCap)).toRat := by
      refine q2_nonneg ?_
      rw [toRat_minimum, toRat_mul]
      exact le_min (mul_nonneg hturnover hrates.brokerage) hrates.cap
    have hexch := hrate hrates.exchange
    have hsebi := hrate hrates.sebi
    refine ⟨hbroker, hexch, hrate (hrates.stt side), ?_, hsebi, hrate hrates.stampDuty⟩
    refine q2_nonneg ?_
    simp only [toRat_mul, toRat_add] at hbroker hexch hsebi ⊢
    exact mul_nonneg (by linarith) hrates.gst

theorem cappedFee_nonneg (hrates : sched.Nonneg) (hitems : fees.Nonneg) {capped : Decimal}
    (hcap : 0 ≤ capped.toRat) : 0 ≤ (cappedFee sched fees capped).toRat := by
  have hexch := hitems.exchangeFee
  have hsebi := hitems.sebiFee
  have hstt := hitems.stt
  have hstamp := hitems.stampDuty
  unfold cappedFee
  split
  · have hgst : 0 ≤ (q2 ((capped + fees.exchangeFee + fees.sebiFee) *
        sched.gstRate)).toRat := by
      refine q2_nonneg ?_
      simp only [toRat_mul, toRat_add]
      exact mul_nonneg (by linarith) hrates.gst
    refine q2_nonneg ?_
    simp only [toRat_add]
    linarith
  · have hbroker := hitems.brokerFee
    have hgst := hitems.gst
    refine q2_nonneg ?_
    simp only [FeeBreakdown.total, toRat_add, toRat_zero]
    linarith

theorem calculateCapped_nonneg {accrued fee newAccrued : Decimal}
    (hok : calculateCapped fill accrued = .ok (fee, newAccrued)) : 0 ≤ fee.toRat := by
  unfold calculateCapped at hok
  split at hok
  · cases hok
  · obtain ⟨sched, hsched, hok⟩ := except_bind_eq_ok hok
    obtain ⟨fees, hfees, hok⟩ := except_bind_eq_ok hok
    cases hok
    have hrates := scheduleFor_nonneg hsched
    have hitems := breakdown_nonneg hrates hfees
    refine cappedFee_nonneg hrates hitems ?_
    rw [toRat_minimum, toRat_maximum, toRat_zero]
    exact le_min hitems.brokerFee (le_max_right _ _)

theorem computeFee_nonneg {hasFeeCalculator : Bool} {accrued newAccrued : Accrual}
    {fee : Decimal} (hok : computeFee hasFeeCalculator accrued fill = .ok (fee, newAccrued)) :
    0 ≤ fee.toRat := by
  unfold computeFee at hok
  split at hok
  · obtain ⟨⟨amount, orderAccrued⟩, hcap, hok⟩ := except_bind_eq_ok hok
    cases hok
    exact calculateCapped_nonneg hcap
  · cases hok
    simp

end Tradex.Execution

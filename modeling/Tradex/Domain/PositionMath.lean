import Tradex.Domain.Types

/-!
# Position accounting

The weighted-average and realized-profit kernel that every execution mode books through.
-/

namespace Tradex.Domain

def q2 (val : Decimal) : Decimal := Decimal.roundCents val.toRat

def addsToPosition (oldQuantity signedFill : Decimal) : Bool :=
  (0 ≤ oldQuantity && 0 < signedFill) || (oldQuantity ≤ 0 && signedFill < 0)

theorem weightedAverage_nonneg (oldAverage fillPrice : Price) (oldQuantity signedFill : Decimal) :
    0 ≤ (oldAverage.value * oldQuantity.abs + fillPrice.value * signedFill.abs).toRat /
      (oldQuantity + signedFill).abs.toRat := by
  have hold := oldAverage.nonneg
  have hfill := fillPrice.nonneg
  simp only [Decimal.toRat_add, Decimal.toRat_mul, Decimal.toRat_abs]
  positivity

variable (pos : Position)

def averageAfterFill (fill : Fill) : Price :=
  let oldQuantity := pos.quantity
  let signedFill := fill.signedQuantity
  let newQuantity := oldQuantity + signedFill
  if addsToPosition oldQuantity signedFill then
    if newQuantity.toRat ≠ 0 then
      Price.q2 _ (weightedAverage_nonneg pos.avgPrice fill.price oldQuantity signedFill)
    else fill.price
  else if 0 ≤ newQuantity * oldQuantity then pos.avgPrice
  else fill.price

def realizedAfterFill (fill : Fill) : Decimal :=
  let oldQuantity := pos.quantity
  let signedFill := fill.signedQuantity
  if addsToPosition oldQuantity signedFill then pos.realizedPnl.amount
  else
    let closed := Decimal.minimum signedFill.abs oldQuantity.abs
    let pnlDiff := (fill.price.value - pos.avgPrice.value) * closed
    pos.realizedPnl.amount + (if oldQuantity < 0 then -pnlDiff else pnlDiff)

def applyFill (pos : Option Position) (fill : Fill) : Position :=
  match pos with
  | none =>
    { instrument := fill.instrument
      quantity := fill.signedQuantity
      avgPrice := fill.price
      realizedPnl := { amount := 0 }
      unrealizedPnl := { amount := 0 }
      markPrice := none
      markedAt := none
      markSource := none
      strategyId := fill.strategyId }
  | some pos =>
    let average := averageAfterFill pos fill
    { instrument := fill.instrument
      quantity := pos.quantity + fill.signedQuantity
      avgPrice := Price.q2 average.value.toRat average.nonneg
      realizedPnl := { amount := q2 (realizedAfterFill pos fill) }
      unrealizedPnl := { amount := 0 }
      markPrice := none
      markedAt := none
      markSource := none
      strategyId := pos.strategyId }

def Price.dividedBy (price : Price) (ratio : Decimal) (hratio : 0 < ratio.toRat) : Price :=
  Price.q2 (price.value.toRat / ratio.toRat) (div_nonneg price.nonneg hratio.le)

def applySplit (ratio : Decimal) : Except TradingError Position :=
  if hratio : 0 < ratio.toRat then
    if pos.quantity.toRat = 0 then .ok pos
    else
      let adjustedMark := pos.markPrice.map fun mark ↦ mark.dividedBy ratio hratio
      let adjustedUnrealized : Money :=
        match adjustedMark with
        | none => pos.unrealizedPnl
        | some mark =>
          { amount := Decimal.roundCents
              ((mark.value.toRat - pos.avgPrice.value.toRat / ratio.toRat) *
                pos.quantity.toRat * ratio.toRat) }
      .ok
        { instrument := pos.instrument
          quantity := pos.quantity * ratio
          avgPrice := pos.avgPrice.dividedBy ratio hratio
          realizedPnl := pos.realizedPnl
          unrealizedPnl := adjustedUnrealized
          markPrice := adjustedMark
          markedAt := pos.markedAt
          markSource := pos.markSource
          strategyId := pos.strategyId }
  else .error (.value "split ratio must be positive")

def applyDividend (perShare : Decimal) : Position :=
  { instrument := pos.instrument
    quantity := pos.quantity
    avgPrice := pos.avgPrice
    realizedPnl := { amount := q2 (pos.realizedPnl.amount + perShare * pos.quantity) }
    unrealizedPnl := pos.unrealizedPnl
    markPrice := pos.markPrice
    markedAt := pos.markedAt
    markSource := pos.markSource
    strategyId := pos.strategyId }

def positionQuantity (pos : Option Position) : ℚ :=
  pos.elim 0 fun held ↦ held.quantity.toRat

variable {fill : Fill} {pos : Option Position}

theorem quantity_applyFill :
    (applyFill pos fill).quantity.toRat = positionQuantity pos + fill.signedQuantity.toRat := by
  cases pos with
  | none | some held => simp [applyFill, positionQuantity]

@[simp] theorem instrument_applyFill (pos : Option Position) (fill : Fill) :
    (applyFill pos fill).instrument = fill.instrument := by
  cases pos <;> rfl

theorem strategyId_applyFill (pos : Option Position) (fill : Fill) :
    (applyFill pos fill).strategyId = pos.elim fill.strategyId Position.strategyId := by
  cases pos <;> rfl

@[simp] theorem markedAt_applyFill : (applyFill pos fill).markedAt = none := by
  cases pos <;> rfl

theorem fields_of_applySplit {pos adjusted : Position} {ratio : Decimal}
    (hsplit : applySplit pos ratio = .ok adjusted) :
    adjusted.strategyId = pos.strategyId ∧ adjusted.instrument = pos.instrument ∧
      adjusted.quantity.toRat = pos.quantity.toRat * ratio.toRat := by
  unfold applySplit at hsplit
  split at hsplit
  · split at hsplit
    next hflat =>
      cases hsplit
      exact ⟨rfl, rfl, by rw [hflat, zero_mul]⟩
    next =>
      cases hsplit
      exact ⟨rfl, rfl, Decimal.toRat_mul⟩
  · cases hsplit

theorem toRat_signedQuantity :
    fill.signedQuantity.toRat =
      match fill.side with
      | .buy => fill.quantity.toRat
      | .sell => -fill.quantity.toRat := by
  unfold Fill.signedQuantity
  cases fill.side with
  | buy => rfl
  | sell => exact Decimal.toRat_neg

def cashReceived (fill : Fill) : ℚ := -(fill.signedQuantity.toRat * fill.price.value.toRat)

def Position.bookValue (held : Position) : ℚ :=
  held.realizedPnl.amount.toRat - held.quantity.toRat * held.avgPrice.value.toRat

def Position.afterFills (held : Position) (fills : List Fill) : Position :=
  fills.foldl (fun held fill ↦ applyFill (some held) fill) held

/-- Half a paisa for each unit held and one more half, at the position and after each fill. -/
def Position.roundingAllowance (held : Position) : List Fill → ℚ
  | [] => 1 / 200 * |held.quantity.toRat| + 1 / 200
  | fill :: rest => 1 / 200 * |held.quantity.toRat| + 1 / 200 +
      (applyFill (some held) fill).roundingAllowance rest

theorem addsToPosition_iff {oldQuantity signedFill : Decimal} :
    addsToPosition oldQuantity signedFill = true ↔
      0 ≤ oldQuantity.toRat ∧ 0 < signedFill.toRat ∨
        oldQuantity.toRat ≤ 0 ∧ signedFill.toRat < 0 := by
  simp [addsToPosition, Decimal.le_iff, Decimal.lt_iff]

variable (held : Position) (fill : Fill)

/-- The average before its rounding. -/
def exactAverage : ℚ :=
  if addsToPosition held.quantity fill.signedQuantity then
    (held.avgPrice.value * held.quantity.abs + fill.price.value * fill.signedQuantity.abs).toRat /
      (held.quantity + fill.signedQuantity).abs.toRat
  else if 0 ≤ (held.quantity + fill.signedQuantity) * held.quantity then
    held.avgPrice.value.toRat
  else fill.price.value.toRat

theorem abs_average_sub_exactAverage_le :
    |(applyFill (some held) fill).avgPrice.value.toRat - exactAverage held fill| ≤ 1 / 200 := by
  show |(Decimal.roundCents (averageAfterFill held fill).value.toRat).toRat - _| ≤ 1 / 200
  rw [averageAfterFill, exactAverage]
  split
  next hadds =>
    have hopen : (held.quantity + fill.signedQuantity).toRat ≠ 0 := by
      rw [Decimal.toRat_add]
      rcases addsToPosition_iff.1 hadds with ⟨hheld, hfill⟩ | ⟨hheld, hfill⟩
      · exact (add_pos_of_nonneg_of_pos hheld hfill).ne'
      · exact (add_neg_of_nonpos_of_neg hheld hfill).ne
    simp only [if_pos hopen, Price.q2, Decimal.roundCents_roundCents
      (weightedAverage_nonneg held.avgPrice fill.price held.quantity fill.signedQuantity)]
    exact Decimal.abs_roundCents_sub_le _
  next =>
    simp only [apply_ite Price.value, apply_ite Decimal.toRat]
    exact Decimal.abs_roundCents_sub_le _

/-- No value is made or lost before rounding. -/
theorem realizedAfterFill_sub_exactAverage :
    (realizedAfterFill held fill).toRat -
        (held.quantity.toRat + fill.signedQuantity.toRat) * exactAverage held fill =
      held.bookValue + cashReceived fill := by
  rw [realizedAfterFill, exactAverage, Position.bookValue, cashReceived]
  split
  next hadds =>
    simp only [Decimal.toRat_add, Decimal.toRat_mul, Decimal.toRat_abs]
    rcases addsToPosition_iff.1 hadds with ⟨hheld, hfill⟩ | ⟨hheld, hfill⟩
    · have hopen : 0 < held.quantity.toRat + fill.signedQuantity.toRat := by linarith
      rw [abs_of_nonneg hheld, abs_of_pos hfill, abs_of_pos hopen]
      field_simp
      ring
    · have hopen : held.quantity.toRat + fill.signedQuantity.toRat < 0 := by linarith
      rw [abs_of_nonpos hheld, abs_of_neg hfill, abs_of_neg hopen]
      have hne := hopen.ne
      field_simp
      ring
  next hred =>
    rw [addsToPosition_iff] at hred
    simp only [Decimal.toRat_add, Decimal.le_iff, Decimal.lt_iff, Decimal.toRat_mul,
      Decimal.toRat_zero, apply_ite Decimal.toRat, Decimal.toRat_neg, Decimal.toRat_minimum,
      Decimal.toRat_abs, Decimal.toRat_sub]
    generalize held.quantity.toRat = qty at hred ⊢
    generalize fill.signedQuantity.toRat = signed at hred ⊢
    push Not at hred
    rcases lt_trichotomy qty 0 with hshort | hflat | hlong
    · rw [if_pos hshort, abs_of_neg hshort, abs_of_nonneg (hred.2 hshort.le)]
      split
      next hkeep =>
        have hclose : signed ≤ -qty := by nlinarith
        rw [min_eq_left hclose]
        ring
      next hflips =>
        have hclose : -qty ≤ signed := by nlinarith
        rw [min_eq_right hclose]
        ring
    · have hnone : signed = 0 := le_antisymm (hred.1 hflat.ge) (hred.2 hflat.le)
      simp [hflat, hnone]
    · rw [if_neg hlong.not_gt, abs_of_pos hlong, abs_of_nonpos (hred.1 hlong.le)]
      split
      next hkeep =>
        have hclose : -signed ≤ qty := by nlinarith
        rw [min_eq_left hclose]
        ring
      next hflips =>
        have hclose : qty ≤ -signed := by nlinarith
        rw [min_eq_right hclose]
        ring

theorem abs_bookValue_applyFill_sub_le :
    |(applyFill (some held) fill).bookValue - (held.bookValue + cashReceived fill)| ≤
      1 / 200 * |(applyFill (some held) fill).quantity.toRat| + 1 / 200 := by
  have havg := abs_average_sub_exactAverage_le held fill
  have hrealized := Decimal.abs_roundCents_sub_le (realizedAfterFill held fill).toRat
  rw [← realizedAfterFill_sub_exactAverage]
  have hqty : (applyFill (some held) fill).quantity.toRat =
      held.quantity.toRat + fill.signedQuantity.toRat := quantity_applyFill
  rw [← hqty]
  show |(Decimal.roundCents (realizedAfterFill held fill).toRat).toRat - _ - _| ≤ _
  generalize (applyFill (some held) fill).avgPrice.value.toRat = average at havg ⊢
  generalize (applyFill (some held) fill).quantity.toRat = qty
  calc _ = |(Decimal.roundCents (realizedAfterFill held fill).toRat).toRat -
          (realizedAfterFill held fill).toRat -
          qty * (average - exactAverage held fill)| := by ring_nf
    _ ≤ |(Decimal.roundCents (realizedAfterFill held fill).toRat).toRat -
          (realizedAfterFill held fill).toRat| +
          |qty| * |average - exactAverage held fill| := by
      rw [← abs_mul]
      exact abs_sub _ _
    _ ≤ 1 / 200 + |qty| * (1 / 200) := by gcongr
    _ = 1 / 200 * |qty| + 1 / 200 := by ring

theorem abs_bookValue_afterFills_sub_le (fills : List Fill) (received : ℚ) :
    |(held.afterFills fills).bookValue - (received + (fills.map cashReceived).sum)| ≤
      |held.bookValue - received| + (held.roundingAllowance fills -
        (1 / 200 * |held.quantity.toRat| + 1 / 200)) := by
  induction fills generalizing held received with
  | nil => simp [Position.afterFills, Position.roundingAllowance]
  | cons fill rest ih =>
    have hrest := ih (applyFill (some held) fill) (received + cashReceived fill)
    have hstep := abs_bookValue_applyFill_sub_le held fill
    have hcarry := abs_sub_le (applyFill (some held) fill).bookValue
      (held.bookValue + cashReceived fill) (received + cashReceived fill)
    rw [add_sub_add_right_eq_sub] at hcarry
    rw [List.map_cons, List.sum_cons, ← add_assoc, Position.roundingAllowance]
    exact hrest.trans (by linarith)

/-- Realised profit is the cash received plus the position at its average, up to the rounding
allowance. -/
theorem cash_conserved_up_to_rounding (first : Fill) (rest : List Fill) :
    let final := (applyFill none first).afterFills rest
    |final.realizedPnl.amount.toRat - (((first :: rest).map cashReceived).sum +
        final.quantity.toRat * final.avgPrice.value.toRat)| ≤
      (applyFill none first).roundingAllowance rest := by
  intro final
  have hopened : (applyFill none first).bookValue = cashReceived first := by
    simp [applyFill, Position.bookValue, cashReceived]
  have hrun := abs_bookValue_afterFills_sub_le (applyFill none first) rest (cashReceived first)
  rw [hopened, sub_self] at hrun
  have hspare : 0 ≤ 1 / 200 * |(applyFill none first).quantity.toRat| + 1 / 200 := by positivity
  rw [List.map_cons, add_comm _ (final.quantity.toRat * _), ← sub_sub]
  exact hrun.trans (by linarith)

end Tradex.Domain

import Mathlib.Algebra.Order.Archimedean.Basic
import Mathlib.Algebra.Order.Group.MinMax
import Tradex.Execution.RiskLimits

/-!
# Exposure forecasts

The gross and net caps are asked of a forecast in which a new row has the price of the order, while
the row that the fill leaves is valued at the market price or at its new average.
-/

namespace Tradex.Execution.Risk

open Tradex.Domain Decimal List Option

section

variable (prov : Providers)

def rowValue (pos : Position) : ℚ :=
  pos.quantity.toRat * valuationPrice prov pos

def grossValue (book : List Position) : ℚ :=
  (book.map fun pos ↦ |pos.quantity.toRat| * valuationPrice prov pos).sum

def netValue (book : List Position) : ℚ := (book.map (rowValue prov)).sum

def forecastValue (req : OrderRequest) : Option Position → ℚ
  | some held => (held.quantity.toRat + signedQuantity req) * valuationPrice prov held
  | none => signedQuantity req * (markForTrade prov req).getD 0

end

section Forecast

variable {prov : Providers} {req : OrderRequest} {held : Option Position}
  {front back : List Position}

theorem grossValue_eq {book : List Position} :
    grossValue prov book = (book.map fun pos ↦ |rowValue prov pos|).sum := by
  unfold grossValue
  congr 1
  apply map_congr_left
  intro pos _
  rw [rowValue, abs_mul, abs_of_nonneg (valuationPrice_nonneg prov)]

theorem grossValue_row (pos : Position) :
    grossValue prov (front ++ [pos] ++ back) =
      grossValue prov (front ++ back) + |rowValue prov pos| := by
  simp only [grossValue_eq, map_append, sum_append, map_cons, map_nil, sum_singleton]
  ring

theorem netValue_row (pos : Position) :
    netValue prov (front ++ [pos] ++ back) = netValue prov (front ++ back) + rowValue prov pos := by
  simp only [netValue, map_append, sum_append, map_cons, map_nil, sum_singleton]
  ring

def heldValue (prov : Providers) (held : Option Position) : ℚ :=
  held.elim 0 (rowValue prov)

theorem grossValue_held :
    grossValue prov (front ++ held.toList ++ back) =
      grossValue prov (front ++ back) + |heldValue prov held| := by
  cases held with
  | none => simp [heldValue]
  | some pos => exact grossValue_row pos

theorem netValue_held :
    netValue prov (front ++ held.toList ++ back) =
      netValue prov (front ++ back) + heldValue prov held := by
  cases held with
  | none => simp [heldValue]
  | some pos => exact netValue_row pos

variable {book : List Position}

theorem forecast_others (prov : Providers) (hoth : ∀ pos ∈ book, pos.instrument ≠ req.instrument) :
    (book.map fun pos ↦ |resultingQuantity req pos| *
        valuationPrice prov pos).sum = grossValue prov book ∧
      (book.map fun pos ↦ resultingQuantity req pos *
        valuationPrice prov pos).sum = netValue prov book := by
  have hsame : ∀ pos ∈ book, resultingQuantity req pos = pos.quantity.toRat := by
    intro pos hpos
    rw [resultingQuantity, if_neg (hoth pos hpos), add_zero]
  constructor
  · congr 1
    exact map_congr_left fun pos hpos ↦ by rw [hsame pos hpos]
  · congr 1
    exact map_congr_left fun pos hpos ↦ by rw [hsame pos hpos, rowValue]

variable (hbook : prov.positions = some book) (hsplit : book = front ++ held.toList ++ back)
  (hheld : ∀ pos ∈ held, pos.instrument = req.instrument)
  (hoth : ∀ pos ∈ front ++ back, pos.instrument ≠ req.instrument)

include hbook hsplit hheld hoth in
theorem matched_eq : matched prov req = held.isSome := by
  have hfront : front.any (fun pos ↦ pos.instrument = req.instrument) = false :=
    any_eq_false.mpr fun pos hpos ↦ by simpa using hoth pos (mem_append_left _ hpos)
  have hback : back.any (fun pos ↦ pos.instrument = req.instrument) = false :=
    any_eq_false.mpr fun pos hpos ↦ by simpa using hoth pos (mem_append_right _ hpos)
  rw [matched, listedPositions, hbook, getD_some, hsplit, any_append, any_append, hfront, hback]
  cases held with
  | none => rfl
  | some pos => simp [hheld pos rfl]

include hbook hsplit hheld hoth in
theorem resultingExposures_eq :
    resultingExposures prov req =
      (grossValue prov (front ++ back) + |forecastValue prov req held|,
        netValue prov (front ++ back) + forecastValue prov req held) := by
  obtain ⟨hgross, hnet⟩ := forecast_others prov hoth
  unfold resultingExposures
  dsimp only
  rw [matched_eq hbook hsplit hheld hoth, listedPositions, hbook, getD_some, hsplit]
  cases held with
  | none =>
    rw [toList_none, append_nil, hgross, hnet]
    cases hmark : markForTrade prov req with
    | none => simp [forecastValue, hmark]
    | some mark =>
      have hval : mark * req.quantity.toRat = |signedQuantity req * mark| := by
        have hmarkPos := markForTrade_pos prov hmark
        have hqty := req.quantity_pos
        unfold signedQuantity
        cases req.side with
        | buy => rw [abs_of_pos (mul_pos hqty hmarkPos), mul_comm]
        | sell => rw [neg_mul, abs_neg, abs_of_pos (mul_pos hqty hmarkPos), mul_comm]
      simp [forecastValue, hmark, hval]
  | some pos =>
    rw [isSome_some, if_pos rfl]
    have hres : resultingQuantity req pos =
        pos.quantity.toRat + signedQuantity req := by
      rw [resultingQuantity, if_pos (hheld pos rfl)]
    rw [← hgross, ← hnet]
    simp only [forecastValue, toList_some, map_append, sum_append, map_cons, map_nil, sum_singleton,
      hres, abs_mul, abs_of_nonneg (valuationPrice_nonneg prov), Prod.mk.injEq]
    constructor <;> ring

end Forecast

def executionOf (req : OrderRequest) (price : Price) : Fill where
  orderId := ""
  instrument := req.instrument
  side := req.side
  quantity := req.quantity
  price := price

def filledRow (held : Option Position) (req : OrderRequest) (price : Price) : Position :=
  applyFill held (executionOf req price)

def RespectsCaps (prices : Option (Instrument → Option MarketPrice)) (held : Option Position)
    (req : OrderRequest) (price : Price) : Prop :=
  ∀ (front back : List Position) (mgr : RiskManager) (gross net : ℚ)
    (prov : Providers) (st final : RiskState) (now : Option Instant),
    (∀ pos ∈ front ++ back, pos.instrument ≠ req.instrument) →
    mgr.maxGrossExposure = some gross → mgr.maxNetExposure = some net →
    prov.prices = prices → prov.positions = some (front ++ held.toList ++ back) →
    check mgr prov st req now = .ok (none, final) →
    grossValue prov (front ++ held.toList ++ back) ≤ gross →
    |netValue prov (front ++ held.toList ++ back)| ≤ net →
      grossValue prov (front ++ [filledRow held req price] ++ back) ≤ gross ∧
        |netValue prov (front ++ [filledRow held req price] ++ back)| ≤ net

def Between (first second val : ℚ) : Prop := min first second ≤ val ∧ val ≤ max first second

variable {val second first : ℚ}

theorem Between.abs_add_le (hbtw : Between first second val)
    (offset : ℚ) : |offset + val| ≤ max |offset + first| |offset + second| := by
  obtain ⟨hlower, hupper⟩ := hbtw
  rcases le_total first second with hle | hle
  · rw [min_eq_left hle] at hlower
    rw [max_eq_right hle] at hupper
    exact abs_le_max_abs_abs (by linarith) (by linarith)
  · rw [min_eq_right hle] at hlower
    rw [max_eq_left hle] at hupper
    rw [max_comm]
    exact abs_le_max_abs_abs (by linarith) (by linarith)

theorem between_of_abs_add_le {bound : ℚ} (hbound : |first| + |second| + |val| ≤ bound)
    (habove : |bound + val| ≤ max |bound + first| |bound + second|)
    (hlow : |-bound + val| ≤ max |-bound + first| |-bound + second|) :
    Between first second val := by
  have hfst := abs_le.mp (le_refl |first|)
  have hsnd := abs_le.mp (le_refl |second|)
  have hval := abs_le.mp (le_refl |val|)
  rw [abs_of_nonneg (by linarith), abs_of_nonneg (by linarith), abs_of_nonneg (by linarith),
    max_add_add_left] at habove
  rw [abs_of_nonpos (by linarith), abs_of_nonpos (by linarith), abs_of_nonpos (by linarith)] at hlow
  refine ⟨?_, by linarith⟩
  rcases le_max_iff.mp hlow with hle | hle
  · exact min_le_of_left_le (by linarith)
  · exact min_le_of_right_le (by linarith)

def cents (x : ℚ) : ℚ := (Decimal.roundCents x).toRat

def filledAverage (before change average price : ℚ) : ℚ :=
  if 0 ≤ before * change then
    cents ((average * |before| + price * |change|) / |before + change|)
  else if 0 ≤ (before + change) * before then cents average
  else cents price

def RowForeseen (before change average price : ℚ) : Prop :=
  let val := filledAverage before change average price
  if 0 ≤ before * change then
    |before| * average ≤ |before + change| * val ∧ val ≤ average
  else if 0 ≤ (before + change) * before then
    |before + change| * average ≤ |before + change| * val ∧
      |before + change| * val ≤ |before| * average
  else val ≤ average

instance (before change average price : ℚ) : Decidable (RowForeseen before change average price) :=
  inferInstanceAs (Decidable (ite _ _ _))

section Rows

variable {before change average price val : ℚ}

theorem cents_nonneg {x : ℚ} (hx : 0 ≤ x) : 0 ≤ cents x := roundCents_nonneg hx

theorem cents_q2 {x : ℚ} (hx : 0 ≤ x) : cents (Price.q2 x hx).value.toRat = cents x :=
  congrArg toRat (roundCents_roundCents hx)

theorem filledAverage_nonneg (havg : 0 ≤ average) (hprice : 0 ≤ price) :
    0 ≤ filledAverage before change average price := by
  unfold filledAverage
  split
  · exact cents_nonneg (by positivity)
  · split
    · exact cents_nonneg havg
    · exact cents_nonneg hprice

/-! Long and short rows are mirror images. -/

theorem filledAverage_neg :
    filledAverage (-before) (-change) average price = filledAverage before change average price := by
  simp only [filledAverage, ← neg_add, neg_mul_neg, abs_neg]

theorem rowForeseen_neg :
    RowForeseen (-before) (-change) average price ↔ RowForeseen before change average price := by
  simp only [RowForeseen, filledAverage_neg, ← neg_add, neg_mul_neg, abs_neg]

theorem between_neg : Between (-first) (-second) (-val) ↔ Between first second val := by
  unfold Between
  rw [min_neg_neg, max_neg_neg, neg_le_neg_iff, neg_le_neg_iff, and_comm]

theorem between_of_grows (hchg : 0 < change) (havg : 0 ≤ average) :
    Between (before * average) ((before + change) * average) ((before + change) * val) ↔
      before * average ≤ (before + change) * val ∧
        (before + change) * val ≤ (before + change) * average := by
  have hgrows : before * average ≤ (before + change) * average := by nlinarith
  unfold Between
  rw [min_eq_left hgrows, max_eq_right hgrows]

theorem between_iff_of_buy (hchg : 0 < change) (havg : 0 ≤ average) (hprice : 0 ≤ price) :
    Between (before * average) ((before + change) * average)
        ((before + change) * filledAverage before change average price) ↔
      RowForeseen before change average price := by
  rw [between_of_grows hchg havg]
  have hval : 0 ≤ filledAverage before change average price := filledAverage_nonneg havg hprice
  unfold RowForeseen
  generalize filledAverage before change average price = val at hval ⊢
  rcases le_or_gt 0 before with hlong | hshort
  · rw [if_pos (mul_nonneg hlong hchg.le), abs_of_nonneg hlong,
      abs_of_pos (by linarith : 0 < before + change),
      mul_le_mul_iff_right₀ (by linarith : 0 < before + change)]
  · rw [if_neg (not_le.mpr (mul_neg_of_neg_of_pos hshort hchg))]
    rcases le_or_gt (before + change) 0 with hred | hflips
    · rw [if_pos (mul_nonneg_of_nonpos_of_nonpos hred hshort.le), abs_of_neg hshort,
        abs_of_nonpos hred]
      simp only [neg_mul, neg_le_neg_iff]
      exact and_comm
    · rw [if_neg (not_le.mpr (mul_neg_of_pos_of_neg hflips hshort)), mul_le_mul_iff_right₀ hflips]
      have hlow : before * average ≤ (before + change) * val :=
        (mul_nonpos_of_nonpos_of_nonneg hshort.le havg).trans (mul_nonneg hflips.le hval)
      exact and_iff_right hlow

theorem between_iff_rowForeseen (hchg : change ≠ 0) (havg : 0 ≤ average) (hprice : 0 ≤ price) :
    Between (before * average) ((before + change) * average)
        ((before + change) * filledAverage before change average price) ↔
      RowForeseen before change average price := by
  rcases lt_or_gt_of_ne hchg with hsale | hbuy
  · rw [← rowForeseen_neg, ← between_iff_of_buy (neg_pos.mpr hsale) havg hprice,
      filledAverage_neg, ← neg_add, neg_mul, neg_mul, neg_mul, between_neg]
  · exact between_iff_of_buy hbuy havg hprice

end Rows

section Executions

variable {row : Position} {req : OrderRequest} {price : Price}

theorem signedQuantity_ne_zero (req : OrderRequest) : signedQuantity req ≠ 0 := by
  have hqty := req.quantity_pos
  unfold signedQuantity
  cases req.side with
  | buy => exact hqty.ne'
  | sell => exact neg_ne_zero.mpr hqty.ne'

theorem signedQuantity_executionOf :
    (executionOf req price).signedQuantity.toRat = signedQuantity req := by
  cases hside : req.side <;> simp [executionOf, Fill.signedQuantity, signedQuantity, hside]

theorem addsToPosition_iff {qty change : Decimal} (hchg : change.toRat ≠ 0) :
    addsToPosition qty change = true ↔ 0 ≤ qty.toRat * change.toRat := by
  simp only [addsToPosition, le_iff, lt_iff]
  rcases lt_or_gt_of_ne hchg with hsale | hbuy
  · rw [← neg_mul_neg, mul_nonneg_iff_of_pos_right (neg_pos.mpr hsale)]
    simp [hsale, hsale.not_gt]
  · simp [hbuy, hbuy.not_gt]

theorem avgPrice_filledRow :
    (filledRow (some row) req price).avgPrice.value.toRat =
      filledAverage row.quantity.toRat (signedQuantity req) row.avgPrice.value.toRat
        price.value.toRat := by
  have hsigned : (executionOf req price).signedQuantity.toRat = signedQuantity req :=
    signedQuantity_executionOf
  have hchg := signedQuantity_ne_zero req
  change cents (averageAfterFill row (executionOf req price)).value.toRat = _
  unfold averageAfterFill filledAverage
  simp only [addsToPosition_iff (hsigned.symm ▸ hchg), hsigned, toRat_add, toRat_mul, le_iff,
    toRat_zero]
  split
  next hadds =>
    have hafter : row.quantity.toRat + signedQuantity req ≠ 0 := by
      intro hzero
      rw [eq_neg_of_add_eq_zero_left hzero] at hadds
      have hsquare := mul_self_pos.mpr hchg
      linarith
    rw [if_pos hafter, cents_q2, toRat_abs, toRat_abs, toRat_abs, toRat_add, hsigned]
    rfl
  · split
    · rfl
    · rfl

variable {quotes : Providers}

theorem markForTrade_of_price (hprice : req.price = some price) (hpos : 0 < price.value.toRat) :
    ∃ val, markForTrade quotes req = some val ∧ price.value.toRat ≤ val := by
  have hreq : requestPrice req = some price.value.toRat := by
    simp [requestPrice, hprice, positive, hpos]
  unfold markForTrade
  rw [hreq]
  cases saleBid quotes req with
  | none => exact ⟨_, rfl, le_rfl⟩
  | some bid => exact ⟨_, rfl, le_max_left _ _⟩

theorem between_zero {change forecast : ℚ} (hchg : change ≠ 0) (hfcst : 0 ≤ forecast)
    (hval : 0 ≤ val) : Between 0 (change * forecast) (change * val) ↔ val ≤ forecast := by
  unfold Between
  rcases lt_or_gt_of_ne hchg with hsale | hbuy
  · rw [min_eq_right (mul_nonpos_of_nonpos_of_nonneg hsale.le hfcst),
      max_eq_left (mul_nonpos_of_nonpos_of_nonneg hsale.le hfcst),
      mul_le_mul_left_of_neg hsale]
    exact and_iff_left (mul_nonpos_of_nonpos_of_nonneg hsale.le hval)
  · rw [min_eq_left (mul_nonneg hbuy.le hfcst),
      max_eq_right (mul_nonneg hbuy.le hfcst), mul_le_mul_iff_right₀ hbuy]
    exact and_iff_right (mul_nonneg hbuy.le hval)

theorem rowValue_filledRow {held : Option Position} :
    rowValue quotes (filledRow held req price) =
      (positionQuantity held + signedQuantity req) *
        (markPrice quotes req.instrument).getD (filledRow held req price).avgPrice.value.toRat := by
  have hqty : (filledRow held req price).quantity.toRat =
      positionQuantity held + signedQuantity req := by
    rw [filledRow, quantity_applyFill, signedQuantity_executionOf]
  rw [rowValue, hqty, valuationPrice]
  simp only [filledRow, instrument_applyFill]
  rfl

def Foreseen (quotes : Providers) (held : Option Position) (req : OrderRequest) (price : ℚ) :
    Prop :=
  held.elim
    (∀ mark ∈ markPrice quotes req.instrument,
      ∀ val ∈ markForTrade quotes req, mark ≤ val)
    fun row ↦ markPrice quotes req.instrument = none →
      RowForeseen row.quantity.toRat (signedQuantity req) row.avgPrice.value.toRat price

theorem between_iff_foreseen_open (hprice : req.price = some price) (hpos : 0 < price.value.toRat) :
    Between (heldValue quotes none) (forecastValue quotes req none)
        (rowValue quotes (filledRow none req price)) ↔
      Foreseen quotes none req price.value.toRat := by
  obtain ⟨val, hval, hle⟩ :
      ∃ val, markForTrade quotes req = some val ∧ price.value.toRat ≤ val :=
    markForTrade_of_price hprice hpos
  have hfcst : forecastValue quotes req none = signedQuantity req * val := by
    simp [forecastValue, hval]
  rw [rowValue_filledRow, hfcst, positionQuantity, elim_none, zero_add]
  have hnn : 0 ≤ val := hpos.le.trans hle
  cases hmark : markPrice quotes req.instrument with
  | none =>
    have hopen : Foreseen quotes none req price.value.toRat := by
      intro mark hmem
      rw [hmark] at hmem
      cases hmem
    refine iff_of_true ?_ hopen
    exact (between_zero (signedQuantity_ne_zero req) hnn hpos.le).mpr hle
  | some mark =>
    have hopen : Foreseen quotes none req price.value.toRat ↔ mark ≤ val := by
      simp [Foreseen, hmark, hval]
    rw [hopen]
    exact between_zero (signedQuantity_ne_zero req) hnn (markPrice_pos quotes hmark).le

theorem between_iff_foreseen_held (hinstr : row.instrument = req.instrument) :
    Between (heldValue quotes (some row)) (forecastValue quotes req (some row))
        (rowValue quotes (filledRow (some row) req price)) ↔
      Foreseen quotes (some row) req price.value.toRat := by
  rw [rowValue_filledRow, avgPrice_filledRow]
  simp only [heldValue, elim_some, rowValue, forecastValue, valuationPrice, hinstr, Foreseen]
  cases markPrice quotes req.instrument with
  | none =>
    simp only [true_imp_iff]
    exact between_iff_rowForeseen (signedQuantity_ne_zero req) row.avgPrice.nonneg price.nonneg
  | some mark =>
    simp only [reduceCtorEq, false_imp_iff, iff_true]
    exact ⟨min_le_right _ _, le_max_right _ _⟩

end Executions

section Approved

variable {mgr : RiskManager} {prov : Providers} {st final : RiskState}
  {req : OrderRequest} {now : Option Instant}

theorem withinCaps_of_approved (hchk : check mgr prov st req now = .ok (none, final)) :
    WithinCaps mgr prov req := by
  by_contra hbeyond
  obtain ⟨haware, early, hearly, hpass⟩ := early_of_check hchk
  obtain rfl : early = none := or_self_iff.mp hpass
  obtain ⟨why, -, hcaps⟩ := firstRefusal_caps.2 hbeyond
  rw [check_of_early_passed haware hearly, hcaps] at hchk
  cases hchk

theorem exceeds_some_eq_false {limit : ℚ} : exceeds (some limit) val = false ↔ val ≤ limit := by
  simp [exceeds]

def capsOnly (gross net : ℚ) : RiskManager :=
  { maxGrossExposure := some gross, maxNetExposure := some net }

theorem approved_of_within_caps {gross net : ℚ} (hgross : (resultingExposures prov req).1 ≤ gross)
    (hnet : |(resultingExposures prov req).2| ≤ net) (hcash : prov.cash = none) :
    check (capsOnly gross net) prov {} req none = .ok (none, {}) := by
  have hbudget : activeBudget (capsOnly gross net) req = {} := activeBudget_of_no_budgets rfl
  have hin : WithinCaps (capsOnly gross net) prov req := by
    refine ⟨?_, exceeds_some_eq_false.mpr hgross, exceeds_some_eq_false.mpr hnet⟩
    rw [hbudget]
    rfl
  have hshort : shortSellingGate (capsOnly gross net) prov req = .ok none := by
    simp [shortSellingGate, capsOnly, denyIf]
  have hval : orderValueGate (capsOnly gross net) prov req = .ok none := by
    rw [orderValueGate, hbudget]
  have hmoney : cashGate (capsOnly gross net) prov req = .ok none := by
    simp [cashGate, hcash, capsOnly, denyIf]
  have hearly : firstRefusal (earlyGates (capsOnly gross net) prov req none) =
      .ok none := by
    rw [earlyGates, hshort, hval, hmoney]
    rfl
  rw [check_of_early_passed rfl hearly, firstRefusal_caps.1 hin]
  unfold lossGuards
  rw [hbudget]
  rfl

end Approved

section Caps

variable {prices : Option (Instrument → Option MarketPrice)} {held : Option Position}
  {req : OrderRequest} {price : Price} (hheld : ∀ pos ∈ held, pos.instrument = req.instrument)

include hheld in
theorem respectsCaps_of_between (hbtw : Between (heldValue { prices := prices } held)
      (forecastValue { prices := prices } req held)
      (rowValue { prices := prices } (filledRow held req price))) :
    RespectsCaps prices held req price := by
  intro front back mgr gross net prov st final now hoth hgross hnet hprices
    hposn hchk hgrossBefore hnetBefore
  subst hprices
  have hbtw : Between (heldValue prov held) (forecastValue prov req held)
      (rowValue prov (filledRow held req price)) := hbtw
  obtain ⟨-, hgrossCap, hnetCap⟩ := withinCaps_of_approved hchk
  rw [hgross, exceeds_some_eq_false, resultingExposures_eq hposn rfl hheld hoth] at hgrossCap
  rw [hnet, exceeds_some_eq_false, resultingExposures_eq hposn rfl hheld hoth] at hnetCap
  rw [grossValue_held] at hgrossBefore
  rw [netValue_held] at hnetBefore
  rw [grossValue_row, netValue_row]
  have hrow : |rowValue prov (filledRow held req price)| ≤
      max |heldValue prov held| |forecastValue prov req held| := by
    simpa using hbtw.abs_add_le 0
  constructor
  · rcases le_max_iff.mp hrow with hle | hle
    · linarith
    · linarith
  · exact (hbtw.abs_add_le _).trans (max_le hnetBefore hnetCap)

theorem RespectsCaps.abs_le (hresp : RespectsCaps prices held req price)
    (hheld : ∀ pos ∈ held, pos.instrument = req.instrument) {other : Position}
    (hother : other.instrument ≠ req.instrument) :
    let quotes : Providers := { prices := prices }
    |rowValue quotes other + rowValue quotes (filledRow held req price)| ≤
      max |rowValue quotes other + heldValue quotes held|
        |rowValue quotes other + forecastValue quotes req held| := by
  intro quotes
  let offset := rowValue quotes other
  let net := max |offset + heldValue quotes held| |offset + forecastValue quotes req held|
  let gross := |offset| + max |heldValue quotes held| |forecastValue quotes req held|
  let prov : Providers := { quotes with positions := some ([other] ++ held.toList ++ []) }
  have hoth : ∀ pos ∈ [other] ++ [], pos.instrument ≠ req.instrument := by simpa using hother
  have hsingleGross : grossValue prov ([other] ++ []) = |offset| := by
    simp [grossValue_eq]
    rfl
  have hsingleNet : netValue prov ([other] ++ []) = offset := by
    simp [netValue]
    rfl
  have hfcst : resultingExposures prov req = _ := resultingExposures_eq rfl rfl hheld hoth
  rw [hsingleGross, hsingleNet] at hfcst
  have happr : check (capsOnly gross net) prov {} req none = .ok (none, {}) := by
    apply approved_of_within_caps
    · rw [hfcst]
      exact add_le_add_right (le_max_right _ _) _
    · rw [hfcst]
      exact le_max_right _ _
    · rfl
  have hafter := (hresp [other] [] (capsOnly gross net) gross net prov {} {} none hoth
    rfl rfl rfl rfl happr ?_ ?_).2
  · rw [netValue_row, hsingleNet] at hafter
    exact hafter
  · rw [grossValue_held, hsingleGross]
    exact add_le_add_right (le_max_left _ _) _
  · rw [netValue_held, hsingleNet]
    exact le_max_left _ _

def hedge (req : OrderRequest) (qty : ℤ) : Position where
  instrument := ⟨req.instrument.instrumentId ++ "'"⟩
  quantity := ⟨qty, 0⟩
  avgPrice := Price.ofNat 1
  realizedPnl := { amount := 0 }
  unrealizedPnl := { amount := 0 }

theorem hedge_instrument_ne (req : OrderRequest) (qty : ℤ) :
    (hedge req qty).instrument ≠ req.instrument := by
  intro heq
  have hlen := congrArg (fun instr ↦ instr.instrumentId.length) heq
  simp [hedge] at hlen

theorem rowValue_hedge (quotes : Providers) (req : OrderRequest) (qty : ℤ) :
    rowValue quotes (hedge req qty) = qty * valuationPrice quotes (hedge req 0) := by
  have hqty : (⟨qty, 0⟩ : Decimal).toRat = qty := by simp [toRat]
  exact congrArg (· * valuationPrice quotes (hedge req 0)) hqty

theorem valuationPrice_hedge_pos (quotes : Providers) (req : OrderRequest) :
    0 < valuationPrice quotes (hedge req 0) := by
  unfold valuationPrice
  cases hmark : markPrice quotes (hedge req 0).instrument with
  | none =>
    change 0 < (Price.ofNat 1).value.toRat
    decide +kernel
  | some mark => exact markPrice_pos quotes hmark

include hheld in
theorem respectsCaps_iff_between :
    RespectsCaps prices held req price ↔
      Between (heldValue { prices := prices } held)
        (forecastValue { prices := prices } req held)
        (rowValue { prices := prices } (filledRow held req price)) := by
  constructor
  · intro hresp
    let quotes : Providers := { prices := prices }
    have hunit := valuationPrice_hedge_pos quotes req
    obtain ⟨count, hcnt⟩ := exists_nat_ge ((|heldValue quotes held| +
      |forecastValue quotes req held| + |rowValue quotes (filledRow held req price)|) /
        valuationPrice quotes (hedge req 0))
    rw [div_le_iff₀ hunit] at hcnt
    have habove := hresp.abs_le hheld (hedge_instrument_ne req count)
    have hlow := hresp.abs_le hheld (hedge_instrument_ne req (-count))
    dsimp only at habove hlow
    rw [rowValue_hedge] at habove hlow
    rw [Int.cast_neg, neg_mul] at hlow
    exact between_of_abs_add_le hcnt habove hlow
  · exact respectsCaps_of_between hheld

/-- An approved order leaves the book within the caps exactly when the fill's price and average were
foreseen by the check. -/
theorem caps_respected_iff (hheld : ∀ pos ∈ held, pos.instrument = req.instrument)
    (hprice : req.price = some price) (hpositive : 0 < price.value.toRat) :
    RespectsCaps prices held req price ↔
      Foreseen { prices := prices } held req price.value.toRat := by
  rw [respectsCaps_iff_between hheld]
  cases held with
  | none => exact between_iff_foreseen_open hprice hpositive
  | some row => exact between_iff_foreseen_held (hheld row rfl)

end Caps

def buyHundred : OrderRequest :=
  OrderRequest.plain equity .buy .limit 100 (some (Price.ofNat 20)) Decimal.hundred_pos

theorem approved_beyond_caps :
    grossValue {} [longHundred] ≤ 2000 ∧ |netValue {} [longHundred]| ≤ 2000 ∧
      decision (capsOnly 2000 2000) { positions := some [longHundred] } {} buyHundred none =
        .ok none ∧
      grossValue {} [filledRow (some longHundred) buyHundred (Price.ofNat 20)] = 3000 ∧
      netValue {} [filledRow (some longHundred) buyHundred (Price.ofNat 20)] = 3000 := by
  decide +kernel

theorem sale_respects_caps : RespectsCaps none (some longHundred) sellTen (Price.ofNat 10) := by
  have hheld : ∀ pos ∈ some longHundred, pos.instrument = sellTen.instrument := by
    rintro pos ⟨⟩
    rfl
  refine (caps_respected_iff hheld rfl (by decide +kernel)).mpr fun _ ↦ ?_
  decide +kernel

end Tradex.Execution.Risk

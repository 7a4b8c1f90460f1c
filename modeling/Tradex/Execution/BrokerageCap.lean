import Tradex.Execution.EngineState

/-!
# The brokerage cap of an order

The fee processor limits the brokerage of a fill to what is left of its order's cap, so in one
process an order costs the smaller of the cap and the sum of its fills.
-/

namespace Tradex.Execution

open Tradex.Domain Decimal

def brokerageCap : ℚ := 20

theorem brokerageCap_pos : 0 < brokerageCap := by
  rw [brokerageCap]
  norm_num

variable (fill : Fill)

def pricing : Except TradingError (FeeSchedule × FeeBreakdown) :=
  if fill.price.value ≤ 0 ∨ fill.quantity ≤ 0 then
    .error (.value "fill price and quantity must be positive")
  else
    (scheduleForFill fill).bind fun sched ↦
      (sched.breakdown fill.side fill.price.value fill.quantity).map fun fees ↦
        (sched, fees)

def fillBrokerage : ℚ :=
  match pricing fill with
  | .ok (_, fees) => fees.brokerFee.toRat
  | .error _ => 0

def feeWith (sched : FeeSchedule) (fees : FeeBreakdown) (brokerage : ℚ) : ℚ :=
  brokerage + fees.exchangeFee.toRat + fees.stt.toRat + fees.sebiFee.toRat +
    fees.stampDuty.toRat +
    (Decimal.roundCents ((brokerage + fees.exchangeFee.toRat + fees.sebiFee.toRat) *
      sched.gstRate.toRat)).toRat

def chargedBrokerage (accrued : ℚ) : ℚ :=
  min (fillBrokerage fill) (max (brokerageCap - accrued) 0)

def chargedFee (accrued : ℚ) : ℚ :=
  match pricing fill with
  | .ok (sched, fees) => feeWith sched fees (chargedBrokerage fill accrued)
  | .error _ => 0

structure Priced (schedule : FeeSchedule) (breakdown : FeeBreakdown) : Prop where
  cap : schedule.brokerageCap.toRat = brokerageCap
  rates : schedule.Nonneg
  items : breakdown.Nonneg
  brokerCents : Decimal.IsCents breakdown.brokerFee.toRat
  exchangeCents : Decimal.IsCents breakdown.exchangeFee.toRat
  sttCents : Decimal.IsCents breakdown.stt.toRat
  sebiCents : Decimal.IsCents breakdown.sebiFee.toRat
  stampCents : Decimal.IsCents breakdown.stampDuty.toRat
  gst : breakdown.gst.toRat = (Decimal.roundCents ((breakdown.brokerFee.toRat +
    breakdown.exchangeFee.toRat + breakdown.sebiFee.toRat) * schedule.gstRate.toRat)).toRat

theorem cap_of_scheduleFor {product : ProductType} {sched : FeeSchedule}
    (hsched : scheduleFor product = .ok sched) :
    sched.brokerageCap.toRat = brokerageCap := by
  cases product with
  | intraday | delivery => cases hsched; decide +kernel
  | margin | mtf | coverOrder => cases hsched

section Pricing

variable {fill : Fill} {sched : FeeSchedule} {fees : FeeBreakdown}

theorem priced_of_pricing (hprc : pricing fill = .ok (sched, fees)) : Priced sched fees := by
  unfold pricing at hprc
  split at hprc
  · cases hprc
  obtain ⟨own, hsched, hmap⟩ := except_bind_eq_ok hprc
  obtain ⟨items, hfees, ⟨⟩⟩ := except_map_eq_ok hmap
  have hrates := scheduleFor_nonneg hsched
  have hitems := breakdown_nonneg hrates hfees
  unfold FeeSchedule.breakdown at hfees
  split at hfees
  · cases hfees
  cases hfees
  exact
    { cap := cap_of_scheduleFor hsched
      rates := hrates
      items := hitems
      brokerCents := isCents_roundCents
      exchangeCents := isCents_roundCents
      sttCents := isCents_roundCents
      sebiCents := isCents_roundCents
      stampCents := isCents_roundCents
      gst := by simp only [q2, toRat_mul, toRat_add] }

theorem fillBrokerage_nonneg : 0 ≤ fillBrokerage fill := by
  rw [fillBrokerage]
  split
  next sched fees hprc => exact (priced_of_pricing hprc).items.brokerFee
  · exact le_refl 0

theorem isCents_fillBrokerage : Decimal.IsCents (fillBrokerage fill) := by
  rw [fillBrokerage]
  split
  next sched fees hprc => exact (priced_of_pricing hprc).brokerCents
  · exact ⟨0, by norm_num⟩

theorem isCents_brokerageCap : Decimal.IsCents brokerageCap := isCents_natCast

theorem isCents_chargedBrokerage {accrued : ℚ} (haccr : Decimal.IsCents accrued) :
    Decimal.IsCents (chargedBrokerage fill accrued) :=
  isCents_fillBrokerage.min ((isCents_brokerageCap.sub haccr).max isCents_natCast)

theorem toRat_cappedFee (hprice : Priced sched fees) {capped : Decimal}
    (hcents : Decimal.IsCents capped.toRat) (hcap : capped.toRat ≤ fees.brokerFee.toRat) :
    (cappedFee sched fees capped).toRat = feeWith sched fees capped.toRat := by
  rw [cappedFee]
  split
  · have hgst : Decimal.IsCents (roundCents ((capped.toRat + fees.exchangeFee.toRat +
        fees.sebiFee.toRat) * sched.gstRate.toRat)).toRat := isCents_roundCents
    simp only [q2, toRat_add, toRat_mul]
    exact toRat_roundCents_of_isCents (((((hcents.add hprice.exchangeCents).add
      hprice.sttCents).add hprice.sebiCents).add hprice.stampCents).add hgst)
  · rename_i hwhole
    rw [lt_iff, not_lt] at hwhole
    have hsame : capped.toRat = fees.brokerFee.toRat := le_antisymm hcap hwhole
    have hgst : Decimal.IsCents fees.gst.toRat := hprice.gst ▸ isCents_roundCents
    have htotal : fees.total.toRat = feeWith sched fees capped.toRat := by
      rw [feeWith, hsame, ← hprice.gst]
      simp only [FeeBreakdown.total, toRat_add, toRat_zero]
      ring
    have hcentsTotal : Decimal.IsCents (feeWith sched fees capped.toRat) := by
      rw [feeWith, hsame, ← hprice.gst]
      exact ((((hprice.brokerCents.add hprice.exchangeCents).add hprice.sttCents).add
        hprice.sebiCents).add hprice.stampCents).add hgst
    rw [q2, htotal, toRat_roundCents_of_isCents hcentsTotal]

theorem feeWith_lt (hprice : Priced sched fees) {less more : ℚ} (hless : 0 ≤ less)
    (hlt : less < more) : feeWith sched fees less < feeWith sched fees more := by
  have hexch := hprice.items.exchangeFee
  have hsebi := hprice.items.sebiFee
  have hgst : (roundCents ((less + fees.exchangeFee.toRat +
      fees.sebiFee.toRat) * sched.gstRate.toRat)).toRat ≤
      (roundCents ((more + fees.exchangeFee.toRat +
        fees.sebiFee.toRat) * sched.gstRate.toRat)).toRat := by
    apply roundCents_mono
    · exact mul_nonneg (by linarith) hprice.rates.gst
    · exact mul_le_mul_of_nonneg_right (by linarith) hprice.rates.gst
  rw [feeWith, feeWith]
  linarith

end Pricing

section

variable (fill : Fill) {accrued less more : ℚ}

theorem add_chargedBrokerage (haccr : accrued ≤ brokerageCap) :
    accrued + chargedBrokerage fill accrued = min brokerageCap (accrued + fillBrokerage fill) := by
  rw [chargedBrokerage, max_eq_left (by linarith), ← min_add_add_left, min_comm]
  ring_nf

theorem chargedBrokerage_anti (hle : less ≤ more) :
    chargedBrokerage fill more ≤ chargedBrokerage fill less :=
  min_le_min_left _ (max_le_max_right _ (by linarith))

theorem chargedFee_anti (hle : less ≤ more) :
    chargedFee fill more ≤ chargedFee fill less ∧
      (chargedFee fill more = chargedFee fill less ↔
        chargedBrokerage fill more = chargedBrokerage fill less) := by
  cases hprc : pricing fill with
  | error err =>
    have hnone : ∀ accrued, chargedBrokerage fill accrued = 0 := by
      simp [chargedBrokerage, fillBrokerage, hprc]
    simp [chargedFee, hnone]
  | ok priced =>
    simp only [chargedFee, hprc]
    rcases (chargedBrokerage_anti fill hle).lt_or_eq with hlt | hsame
    · have hfee := feeWith_lt (priced_of_pricing hprc)
        (le_min fillBrokerage_nonneg (le_max_right _ _)) hlt
      exact ⟨hfee.le, iff_of_false hfee.ne hlt.ne⟩
    · rw [hsame]
      exact ⟨le_refl _, iff_of_true rfl rfl⟩

end

def amountOf : Except TradingError Decimal → ℚ
  | .ok fee => fee.toRat
  | .error _ => 0

namespace World

def accruedFor (world : World) (oid : String) : ℚ :=
  ((world.accrued.get oid).getD 0).toRat

def chargedTo (cfg : EngineConfig) (oid : String) : World → List Fill → ℚ
  | _, [] => 0
  | world, fill :: rest =>
    (if fill.orderId = oid then amountOf (world.computeFee cfg fill).1 else 0) +
      chargedTo cfg oid (world.computeFee cfg fill).2 rest

def afterFees (cfg : EngineConfig) (world : World) (fills : List Fill) : World :=
  fills.foldl (fun world fill ↦ (world.computeFee cfg fill).2) world

end World

def orderBrokerage (oid : String) (fills : List Fill) : ℚ :=
  ((fills.filter fun fill ↦ fill.orderId = oid).map fillBrokerage).sum

theorem calculateCapped_eq {fill : Fill} {accrued : Decimal} :
    calculateCapped fill accrued = (pricing fill).map fun priced ↦
      let capped := minimum priced.2.brokerFee
        (maximum (priced.1.brokerageCap - accrued) 0)
      (cappedFee priced.1 priced.2 capped, accrued + capped) := by
  unfold calculateCapped pricing
  split
  · rfl
  · cases scheduleForFill fill with
    | error err => rfl
    | ok sched =>
      cases hfees : sched.breakdown fill.side fill.price.value fill.quantity with
      | error err => simp only [bind, Except.bind, hfees, Except.map]
      | ok fees =>
        simp only [bind, Except.bind, hfees]
        rfl

section Calls

variable {cfg : EngineConfig} {world : World} {fill : Fill} {oid : String}

theorem accruedFor_of_other (hother : fill.orderId ≠ oid) :
    (world.computeFee cfg fill).2.accruedFor oid = world.accruedFor oid := by
  rw [World.computeFee, Execution.computeFee]
  cases cfg.hasFeeCalculator with
  | false => rfl
  | true =>
    cases calculateCapped fill ((world.accrued.get fill.orderId).getD 0) with
    | error err => rfl
    | ok ans =>
      show ((((world.accrued.set fill.orderId ans.2).get oid).getD 0).toRat = _)
      rw [Dict.get_set_of_ne hother]
      rfl

theorem computeFee_of_own (hcalc : cfg.hasFeeCalculator = true)
    (hown : fill.orderId = oid) (hcents : Decimal.IsCents (world.accruedFor oid)) :
    amountOf (world.computeFee cfg fill).1 = chargedFee fill (world.accruedFor oid) ∧
      (world.computeFee cfg fill).2.accruedFor oid =
        world.accruedFor oid + chargedBrokerage fill (world.accruedFor oid) := by
  subst hown
  rw [World.computeFee, Execution.computeFee, if_pos hcalc, calculateCapped_eq]
  cases hprc : pricing fill with
  | error err =>
    have hnone : chargedBrokerage fill (world.accruedFor fill.orderId) = 0 := by
      simp [chargedBrokerage, fillBrokerage, hprc]
    rw [hnone, add_zero, chargedFee, hprc]
    exact ⟨rfl, rfl⟩
  | ok priced =>
    obtain ⟨sched, fees⟩ := priced
    have hprice := priced_of_pricing hprc
    let capped := minimum fees.brokerFee
      (maximum (sched.brokerageCap - (world.accrued.get fill.orderId).getD 0) 0)
    have hcap : capped.toRat = chargedBrokerage fill (world.accruedFor fill.orderId) := by
      simp [capped, hprice.cap, chargedBrokerage, fillBrokerage, hprc, World.accruedFor]
    have hle : capped.toRat ≤ fees.brokerFee.toRat := by
      rw [toRat_minimum]
      exact min_le_left _ _
    constructor
    · show (cappedFee sched fees capped).toRat = _
      rw [toRat_cappedFee hprice (hcap ▸ isCents_chargedBrokerage hcents) hle, hcap,
        chargedFee, hprc]
    · show ((((world.accrued.set fill.orderId
        ((world.accrued.get fill.orderId).getD 0 + capped)).get fill.orderId).getD 0).toRat = _)
      rw [Dict.get_set_self, Option.getD_some, toRat_add, hcap]
      rfl

theorem computeFee_of_none (hcalc : cfg.hasFeeCalculator = false) :
    world.computeFee cfg fill = (.ok 0, world) := by
  rw [World.computeFee, Execution.computeFee, hcalc, if_neg Bool.false_ne_true]

end Calls

section

variable {cfg : EngineConfig} {oid : String} {world : World} {fills : List Fill}
  {ahead behind : World}

theorem World.chargedTo_append {before after : List Fill} :
    world.chargedTo cfg oid (before ++ after) =
      world.chargedTo cfg oid before + (world.afterFees cfg before).chargedTo cfg oid after := by
  induction before generalizing world with
  | nil => rw [List.nil_append, World.chargedTo, zero_add, World.afterFees, List.foldl_nil]
  | cons fill rest ih =>
    rw [List.cons_append, World.chargedTo, World.chargedTo, ih, add_assoc]
    rfl

theorem orderBrokerage_cons {fill : Fill} {rest : List Fill} :
    orderBrokerage oid (fill :: rest) =
      (if fill.orderId = oid then fillBrokerage fill else 0) +
        orderBrokerage oid rest := by
  by_cases hown : fill.orderId = oid <;> simp [orderBrokerage, hown]

theorem orderBrokerage_nonneg (fills : List Fill) : 0 ≤ orderBrokerage oid fills := by
  apply List.sum_nonneg
  intro brokerage hmem
  obtain ⟨fill, -, rfl⟩ := List.mem_map.1 hmem
  exact fillBrokerage_nonneg

theorem afterFees_of_none (hcalc : cfg.hasFeeCalculator = false) :
    world.afterFees cfg fills = world := by
  induction fills with
  | nil => rfl
  | cons fill rest ih => rwa [World.afterFees, List.foldl_cons, computeFee_of_none hcalc]

theorem chargedTo_of_none (hcalc : cfg.hasFeeCalculator = false) :
    world.chargedTo cfg oid fills = 0 := by
  induction fills with
  | nil => rfl
  | cons fill rest ih =>
    rw [World.chargedTo, computeFee_of_none hcalc, ih]
    simp [amountOf]

structure World.Accrues (world : World) (orderId : String) : Prop where
  cents : Decimal.IsCents (world.accruedFor orderId)
  below : world.accruedFor orderId ≤ brokerageCap

theorem World.Accrues.step (haccr : world.Accrues oid)
    (hcalc : cfg.hasFeeCalculator = true) (fill : Fill) :
    (world.computeFee cfg fill).2.Accrues oid ∧
      (world.computeFee cfg fill).2.accruedFor oid = min brokerageCap
        (world.accruedFor oid + if fill.orderId = oid then fillBrokerage fill else 0) := by
  by_cases hown : fill.orderId = oid
  · obtain ⟨-, hnext⟩ := computeFee_of_own hcalc hown haccr.cents
    have hcap := add_chargedBrokerage fill haccr.below
    refine ⟨⟨?_, ?_⟩, ?_⟩
    · rw [hnext]
      exact haccr.cents.add (isCents_chargedBrokerage haccr.cents)
    · rw [hnext, hcap]
      exact min_le_left _ _
    · rw [hnext, hcap, if_pos hown]
  · have hnext : (world.computeFee cfg fill).2.accruedFor oid = world.accruedFor oid :=
      accruedFor_of_other hown
    refine ⟨⟨hnext ▸ haccr.cents, hnext ▸ haccr.below⟩, ?_⟩
    rw [hnext, if_neg hown, add_zero, min_eq_right haccr.below]

theorem World.Accrues.run (haccr : world.Accrues oid)
    (hcalc : cfg.hasFeeCalculator = true) (fills : List Fill) :
    (world.afterFees cfg fills).Accrues oid ∧
      (world.afterFees cfg fills).accruedFor oid =
        min brokerageCap (world.accruedFor oid + orderBrokerage oid fills) := by
  induction fills generalizing world with
  | nil =>
    refine ⟨haccr, ?_⟩
    have hnone : orderBrokerage oid [] = 0 := rfl
    rw [hnone, add_zero, min_eq_right haccr.below]
    rfl
  | cons fill rest ih =>
    obtain ⟨hnext, haccrued⟩ := haccr.step hcalc fill
    obtain ⟨hlast, htotal⟩ := ih hnext
    refine ⟨hlast, ?_⟩
    have hrest := @orderBrokerage_nonneg oid rest
    refine htotal.trans ?_
    rw [haccrued, orderBrokerage_cons, ← min_add_add_right, ← min_assoc,
      min_eq_left (by linarith : brokerageCap ≤ brokerageCap + orderBrokerage oid rest),
      add_assoc]

theorem charge_anti (hcalc : cfg.hasFeeCalculator = true)
    (hahead : ahead.Accrues oid) (hback : behind.Accrues oid)
    (hle : behind.accruedFor oid ≤ ahead.accruedFor oid) {fill : Fill} :
    (if fill.orderId = oid then amountOf (ahead.computeFee cfg fill).1 else 0) ≤
        (if fill.orderId = oid then amountOf (behind.computeFee cfg fill).1 else 0) ∧
      (ahead.computeFee cfg fill).2.accruedFor oid - ahead.accruedFor oid ≤
        (behind.computeFee cfg fill).2.accruedFor oid - behind.accruedFor oid ∧
      ((if fill.orderId = oid then amountOf (ahead.computeFee cfg fill).1 else 0) =
          (if fill.orderId = oid then amountOf (behind.computeFee cfg fill).1 else 0) ↔
        (ahead.computeFee cfg fill).2.accruedFor oid - ahead.accruedFor oid =
          (behind.computeFee cfg fill).2.accruedFor oid - behind.accruedFor oid) := by
  by_cases hown : fill.orderId = oid
  · obtain ⟨hfeeAhead, hnextAhead⟩ := computeFee_of_own hcalc hown hahead.cents
    obtain ⟨hfeeBehind, hnextBehind⟩ := computeFee_of_own hcalc hown hback.cents
    obtain ⟨hfee, hsame⟩ := chargedFee_anti fill hle
    simp only [if_pos hown, hfeeAhead, hfeeBehind, hnextAhead, hnextBehind, add_sub_cancel_left]
    exact ⟨hfee, chargedBrokerage_anti fill hle, hsame⟩
  · simp [if_neg hown, accruedFor_of_other hown]

theorem chargedTo_anti (hcalc : cfg.hasFeeCalculator = true)
    (hahead : ahead.Accrues oid) (hback : behind.Accrues oid)
    (hle : behind.accruedFor oid ≤ ahead.accruedFor oid) :
    ahead.chargedTo cfg oid fills ≤ behind.chargedTo cfg oid fills ∧
      (ahead.afterFees cfg fills).accruedFor oid - ahead.accruedFor oid ≤
        (behind.afterFees cfg fills).accruedFor oid - behind.accruedFor oid ∧
      (ahead.chargedTo cfg oid fills = behind.chargedTo cfg oid fills ↔
        (ahead.afterFees cfg fills).accruedFor oid - ahead.accruedFor oid =
          (behind.afterFees cfg fills).accruedFor oid - behind.accruedFor oid) := by
  induction fills generalizing ahead behind with
  | nil => simp [World.chargedTo, World.afterFees]
  | cons fill rest ih =>
    obtain ⟨hnextAhead, haheadNext⟩ := hahead.step hcalc fill
    obtain ⟨hnextBehind, hbehindNext⟩ := hback.step hcalc fill
    have hnext : (behind.computeFee cfg fill).2.accruedFor oid ≤
        (ahead.computeFee cfg fill).2.accruedFor oid := by
      rw [haheadNext, hbehindNext]
      exact min_le_min_left _ (by linarith)
    obtain ⟨hfees, hgrowth, hsame⟩ := ih hnextAhead hnextBehind hnext
    obtain ⟨hfee, hstep, hstepSame⟩ := charge_anti hcalc hahead hback hle
    have hsplit : ∀ world : World,
        (world.afterFees cfg (fill :: rest)).accruedFor oid - world.accruedFor oid =
          ((world.computeFee cfg fill).2.accruedFor oid - world.accruedFor oid) +
            (((world.computeFee cfg fill).2.afterFees cfg rest).accruedFor oid -
              (world.computeFee cfg fill).2.accruedFor oid) := by
      intro world
      rw [World.afterFees, List.foldl_cons, ← World.afterFees]
      ring
    rw [hsplit ahead, hsplit behind, World.chargedTo, World.chargedTo]
    refine ⟨add_le_add hfee hfees, add_le_add hstep hgrowth, ?_⟩
    rw [add_eq_add_iff_eq_and_eq hfee hfees, add_eq_add_iff_eq_and_eq hstep hgrowth, hstepSame,
      hsame]

end

variable {cfg : EngineConfig} {oid : String} {world : World} {fills : List Fill}

/-- The brokerage inside the fees charged to an order. -/
def World.brokerageTo (cfg : EngineConfig) (oid : String) : World → List Fill → ℚ
  | _, [] => 0
  | world, fill :: rest =>
    (if fill.orderId = oid then chargedBrokerage fill (world.accruedFor oid) else 0) +
      brokerageTo cfg oid (world.computeFee cfg fill).2 rest

theorem World.Accrues.brokerageTo_eq (haccr : world.Accrues oid)
    (hcalc : cfg.hasFeeCalculator = true) (fills : List Fill) :
    world.accruedFor oid + world.brokerageTo cfg oid fills =
      (world.afterFees cfg fills).accruedFor oid := by
  induction fills generalizing world with
  | nil => rw [World.brokerageTo, add_zero, World.afterFees, List.foldl_nil]
  | cons fill rest ih =>
    have hrest := ih (haccr.step hcalc fill).1
    rw [World.afterFees, List.foldl_cons, ← World.afterFees, ← hrest, World.brokerageTo,
      ← add_assoc]
    by_cases hown : fill.orderId = oid
    · rw [if_pos hown, (computeFee_of_own hcalc hown haccr.cents).2]
    · rw [if_neg hown, add_zero, accruedFor_of_other hown]

/-- The brokerage of an order is the capped sum over its own fills, and no fee is negative. -/
theorem brokerage_closed_form (hcalculator : cfg.hasFeeCalculator = true)
    (hfresh : world.accrued.get oid = none) (fills : List Fill) :
    world.brokerageTo cfg oid fills = min brokerageCap (orderBrokerage oid fills) ∧
      world.brokerageTo cfg oid fills =
        world.brokerageTo cfg oid (fills.filter fun fill ↦ fill.orderId = oid) ∧
      ∀ before fill after, fills = before ++ fill :: after →
        (fill.orderId = oid →
          amountOf ((world.afterFees cfg before).computeFee cfg fill).1 =
            chargedFee fill ((world.afterFees cfg before).accruedFor oid)) ∧
        ∀ fee, ((world.afterFees cfg before).computeFee cfg fill).1 = .ok fee → 0 ≤ fee.toRat := by
  have hzero : world.accruedFor oid = 0 := by
    rw [World.accruedFor, hfresh, Option.getD_none, Decimal.toRat_zero]
  have haccrues : world.Accrues oid :=
    ⟨hzero ▸ Decimal.isCents_natCast (n := 0), hzero ▸ brokerageCap_pos.le⟩
  have hshut : ∀ fills, world.brokerageTo cfg oid fills =
      min brokerageCap (orderBrokerage oid fills) := by
    intro fills
    have hsum := haccrues.brokerageTo_eq hcalculator fills
    rwa [(haccrues.run hcalculator fills).2, hzero, zero_add, zero_add] at hsum
  refine ⟨hshut fills, by simp only [hshut, orderBrokerage, List.filter_filter, Bool.and_self], ?_⟩
  rintro before fill after -
  have hpre := (haccrues.run hcalculator before).1
  refine ⟨fun hown ↦ (computeFee_of_own hcalculator hown hpre.cents).1, fun fee hfee ↦ ?_⟩
  rw [World.computeFee] at hfee
  split at hfee
  · cases hfee
  next hok =>
    cases hfee
    exact computeFee_nonneg hok

def halfCapFill (oid : String) : Fill where
  orderId := oid
  instrument := ⟨"NSE:INFY"⟩
  side := .buy
  quantity := 500
  price := .ofNat 100

/-- Two fills of fifteen each, with another order's between them, cost the cap. -/
theorem brokerage_of_two_fills :
    (World.constructed (.obliging fun _ ↦ .raised (.runtime "closed") none false)).brokerageTo
      .standard "a" [halfCapFill "a", halfCapFill "b", halfCapFill "a"] = 20 := by
  rw [(brokerage_closed_form rfl rfl _).1]
  decide +kernel

end Tradex.Execution

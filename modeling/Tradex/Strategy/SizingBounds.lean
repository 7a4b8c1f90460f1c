import Tradex.Strategy.Sizing

/-!
# The bounds of a size

The ceiling, the stated quantity and the risk budget hold for every size. Whole lots
do not: the risk formula rounds to units, and the ceiling divides by the lot and
multiplies by it again before it rounds.
-/

namespace Tradex.Strategy.PositionSizer

open Tradex.Domain Amount Decimal SizingDecision

variable {sizer : PositionSizer} {account : RawAmount} {terms : Terms} {sig : Signal}

theorem le_ceilQuotient_mul {dividend : Decimal} {divisor : Amount} :
    dividend.toRat ≤ (ceilQuotient dividend divisor.value).toRat * divisor.value.toRat := by
  rw [ceilQuotient, toRat_whole]
  exact (div_le_iff₀ divisor.pos).mp (Int.le_ceil _)

variable {units : Decimal} {proposal : Proposal}

theorem toRat_ceilingUnits :
    (sizer.ceilingUnits terms).toRat =
      ⌊sizer.maxOrderValue.value.toRat / terms.price.value.toRat⌋ := by
  unfold ceilingUnits
  cases terms.lot with
  | none => simp [floorQuotient]
  | some lot =>
    have hlot : lot.value.toRat ≠ 0 := lot.pos.ne'
    simp [floorQuotient, div_mul_cancel₀ _ hlot]

theorem toRat_wholeLots {lot : Amount} :
    (wholeLots units (some lot)).1.toRat = ⌊units.toRat / lot.value.toRat⌋ * lot.value.toRat := by
  simp only [wholeLots]
  split
  · rename_i heq
    simpa [floorQuotient] using heq.symm
  · simp [floorQuotient]

theorem wholeLots_le {lot : Option Amount} : (wholeLots units lot).1.toRat ≤ units.toRat := by
  cases lot with
  | none => exact le_rfl
  | some lot =>
    rw [toRat_wholeLots]
    exact (le_div_iff₀ lot.pos).mp (Int.floor_le _)

variable {lot : Amount} {qty : Amount} {inputs : RiskInputs}

theorem lot_le_wholeLots (hpos : 0 < (wholeLots units (some lot)).1.toRat) :
    lot.value.toRat ≤ (wholeLots units (some lot)).1.toRat := by
  rw [toRat_wholeLots] at hpos ⊢
  have hlots : (0 : ℚ) < ⌊units.toRat / lot.value.toRat⌋ :=
    (pos_iff_pos_of_mul_pos hpos).mpr lot.pos
  have hone : (1 : ℚ) ≤ ⌊units.toRat / lot.value.toRat⌋ := by exact_mod_cast hlots
  calc
    lot.value.toRat = 1 * lot.value.toRat := (one_mul _).symm
    _ ≤ ⌊units.toRat / lot.value.toRat⌋ * lot.value.toRat :=
      mul_le_mul_of_nonneg_right hone lot.pos.le

theorem toRat_cappedUnits :
    (sizer.cappedUnits terms proposal).toRat =
      min proposal.units.toRat (sizer.ceilingUnits terms).toRat := by
  unfold cappedUnits
  split
  · rename_i hlt
    exact (min_eq_right (lt_iff.mp hlt).le).symm
  · rename_i hle
    exact (min_eq_left (not_lt.mp (lt_iff.not.mp hle))).symm

theorem cappedUnits_le_units (sizer : PositionSizer) (terms : Terms) (proposal : Proposal) :
    (sizer.cappedUnits terms proposal).toRat ≤ proposal.units.toRat := by
  rw [toRat_cappedUnits]
  exact min_le_left _ _

theorem quantity_cap (hqty : (sizer.cap terms proposal).quantity = some qty) :
    0 < (sizer.cappedUnits terms proposal).toRat ∧
        qty.value = sizer.cappedUnits terms proposal ∨
      (sizer.cappedUnits terms proposal).toRat ≤ 0 ∧ qty = terms.oneLot ∧
        (sizer.cap terms proposal).clampedBy = some .lotFloor := by
  unfold cap at hqty ⊢
  split
  · rename_i hpos
    rw [dif_pos hpos] at hqty
    cases hqty
    exact .inl ⟨hpos, rfl⟩
  · rename_i hnot
    rw [dif_neg hnot] at hqty
    cases hqty
    exact .inr ⟨not_lt.mp hnot, rfl, rfl⟩

@[simp] theorem source_cap : (sizer.cap terms proposal).source = proposal.source := by
  unfold cap
  split <;> rfl

inductive Route (sizer : PositionSizer) (account : RawAmount) (terms : Terms) (signal : Signal) :
    Proposal → Prop
  | stated (stated : Amount) (hstated : positive signal.quantity = some stated)
      (hunits : 0 < (wholeLots stated.value terms.lot).1.toRat) :
      Route sizer account terms signal (sizer.statedProposal terms signal stated)
  | risk (inputs : RiskInputs) (hstated : positive signal.quantity = none)
      (hinputs : sizer.riskInputs account terms signal = some inputs) :
      Route sizer account terms signal (sizer.riskProposal terms inputs)
  | notional (notional : Amount) (hstated : positive signal.quantity = none)
      (hinputs : sizer.riskInputs account terms signal = none)
      (hnotional : sizer.fallbackNotional = some notional) :
      Route sizer account terms signal
        (sizer.notionalProposal terms (sizer.missingInputs account terms signal) notional)

theorem size_route {reference : RawAmount}
    (hqty : (sizer.size account sig reference).quantity = some qty) :
    ∃ price proposal, positive reference = some price ∧
      price.value.toRat * (sizer.terms sig.instrument price).oneLot.value.toRat ≤
        sizer.maxOrderValue.value.toRat ∧
      Route sizer account (sizer.terms sig.instrument price) sig proposal ∧
      sizer.size account sig reference = sizer.cap (sizer.terms sig.instrument price) proposal := by
  unfold size at hqty ⊢
  cases hprice : positive reference with
  | none => simp [hprice, refuse] at hqty
  | some price =>
    simp only [hprice] at hqty ⊢
    split at hqty
    · simp [refuse] at hqty
    · rename_i hcov
      have hlot : price.value.toRat * (sizer.terms sig.instrument price).oneLot.value.toRat ≤
          sizer.maxOrderValue.value.toRat := by
        rw [← toRat_mul]
        exact not_lt.mp (lt_iff.not.mp hcov)
      rw [if_neg hcov]
      cases hstate : positive sig.quantity with
      | some stated =>
        simp only [hstate, fromStated] at hqty ⊢
        split at hqty
        · simp [refuse] at hqty
        · rename_i hunits
          rw [if_neg hunits]
          exact ⟨price, _, rfl, hlot, .stated stated hstate (not_le.mp hunits), rfl⟩
      | none =>
        simp only [hstate, fromRisk] at hqty ⊢
        cases hins : sizer.riskInputs account (sizer.terms sig.instrument price) sig with
        | some inputs => exact ⟨price, _, rfl, hlot, .risk inputs hstate hins, rfl⟩
        | none =>
          simp only [hins, fallback] at hqty ⊢
          cases hworth : sizer.fallbackNotional with
          | none => simp [hworth, refuse] at hqty
          | some notional => exact ⟨price, _, rfl, hlot, .notional notional hstate hins hworth, rfl⟩

theorem riskInputs_eq_some (hins : sizer.riskInputs account terms sig = some inputs) :
    sizer.riskFraction = some inputs.riskFraction ∧
      sizer.currentEquity account = some inputs.equity ∧ terms.lot = some inputs.lot ∧
      sig.declaredStop = some inputs.stop ∧
      0 < (stopDistance terms.price inputs.stop).toRat := by
  unfold riskInputs at hins
  split at hins
  · rename_i riskFraction equity lot stop hfraction hequity hlot hstop
    split at hins
    · rename_i hdist
      cases hins
      exact ⟨hfraction, hequity, hlot, hstop, hdist⟩
    · cases hins
  · cases hins

theorem cappedUnits_mul_price_le :
    (sizer.cappedUnits terms proposal).toRat * terms.price.value.toRat ≤
      sizer.maxOrderValue.value.toRat := by
  rw [toRat_cappedUnits]
  calc
    min proposal.units.toRat (sizer.ceilingUnits terms).toRat * terms.price.value.toRat
        ≤ (sizer.ceilingUnits terms).toRat * terms.price.value.toRat :=
      mul_le_mul_of_nonneg_right (min_le_right _ _) terms.price.pos.le
    _ ≤ sizer.maxOrderValue.value.toRat := by
      rw [toRat_ceilingUnits]
      exact (le_div_iff₀ terms.price.pos).mp (Int.floor_le _)

theorem stopDistance_le_ticks (terms : Terms) (stop : Price) :
    (stopDistance terms.price stop).toRat ≤
      (ticks (stopDistance terms.price stop) terms.tick).toRat * terms.tick.value.toRat :=
  le_ceilQuotient_mul

theorem units_riskProposal :
    (sizer.riskProposal terms inputs).units.toRat =
      ⌊inputs.budget.toRat /
        ((ticks (stopDistance terms.price inputs.stop) terms.tick).toRat *
          terms.tick.value.toRat)⌋ := by
  have hlot : inputs.lot.value.toRat ≠ 0 := inputs.lot.pos.ne'
  have hcanc :
      inputs.budget.toRat / (riskPerLot terms inputs).toRat * inputs.lot.value.toRat =
        inputs.budget.toRat /
          ((ticks (stopDistance terms.price inputs.stop) terms.tick).toRat *
            terms.tick.value.toRat) := by
    rw [riskPerLot, toRat_mul, toRat_mul, ← div_div, div_mul_cancel₀ _ hlot]
  rw [riskProposal, toRat_whole, hcanc]

theorem units_mul_stopDistance_le (hdist : 0 < (stopDistance terms.price inputs.stop).toRat)
    (hunits : 0 < (sizer.riskProposal terms inputs).units.toRat) :
    (sizer.riskProposal terms inputs).units.toRat *
      (stopDistance terms.price inputs.stop).toRat ≤ inputs.budget.toRat := by
  have hcov := stopDistance_le_ticks terms inputs.stop
  have hpos := hdist.trans_le hcov
  calc
    (sizer.riskProposal terms inputs).units.toRat * (stopDistance terms.price inputs.stop).toRat
        ≤ (sizer.riskProposal terms inputs).units.toRat *
          ((ticks (stopDistance terms.price inputs.stop) terms.tick).toRat *
            terms.tick.value.toRat) :=
      mul_le_mul_of_nonneg_left hcov hunits.le
    _ ≤ inputs.budget.toRat := by
      rw [units_riskProposal]
      exact (le_div_iff₀ hpos).mp (Int.floor_le _)

theorem capped_le_stated {stated qty : Amount}
    (hunits : 0 < (wholeLots stated.value terms.lot).1.toRat)
    (hqty :
      (sizer.cap terms (sizer.statedProposal terms sig stated)).quantity = some qty)
    (hlot : terms.price.value.toRat * terms.oneLot.value.toRat ≤ sizer.maxOrderValue.value.toRat) :
    qty.value.toRat ≤ stated.value.toRat := by
  have hstate : (sizer.statedProposal terms sig stated).units.toRat ≤ stated.value.toRat :=
    wholeLots_le
  obtain ⟨-, hval⟩ | ⟨hnone, rfl, -⟩ := quantity_cap hqty
  · rw [hval]
    exact (cappedUnits_le_units sizer terms _).trans hstate
  · cases hrec : terms.lot with
    | some lot =>
      rw [hrec] at hunits
      have hone : terms.oneLot = lot := by simp [Terms.oneLot, hrec]
      rw [hone]
      exact (lot_le_wholeLots hunits).trans wholeLots_le
    | none =>
      -- Without a lot the ceiling covers one unit, so nothing is raised.
      exfalso
      have hone : terms.oneLot.value.toRat = 1 := by
        simp only [Terms.oneLot, hrec]
        exact toRat_ofNat 1 |>.trans Nat.cast_one
      have hceiling : (1 : ℚ) ≤ (sizer.ceilingUnits terms).toRat := by
        rw [toRat_ceilingUnits]
        have hquotient : (1 : ℚ) ≤ sizer.maxOrderValue.value.toRat / terms.price.value.toRat := by
          rw [le_div_iff₀ terms.price.pos]
          simpa [hone] using hlot
        exact_mod_cast Int.le_floor.mpr (by exact_mod_cast hquotient)
      have hcap : 0 < (sizer.cappedUnits terms (sizer.statedProposal terms sig stated)).toRat := by
        rw [toRat_cappedUnits]
        exact lt_min hunits (one_pos.trans_le hceiling)
      exact hnone.not_gt hcap

theorem capped_mul_stopDistance_le (hins : sizer.riskInputs account terms sig = some inputs)
    (hqty : (sizer.cap terms (sizer.riskProposal terms inputs)).quantity = some qty)
    (hfloor : (sizer.cap terms (sizer.riskProposal terms inputs)).clampedBy ≠ some .lotFloor) :
    qty.value.toRat * (stopDistance terms.price inputs.stop).toRat ≤ inputs.budget.toRat := by
  obtain ⟨hpos, hval⟩ | ⟨-, -, hclamp⟩ := quantity_cap hqty
  · have hdist := (riskInputs_eq_some hins).2.2.2.2
    have hcap := cappedUnits_le_units sizer terms (sizer.riskProposal terms inputs)
    calc
      qty.value.toRat * (stopDistance terms.price inputs.stop).toRat
          ≤ (sizer.riskProposal terms inputs).units.toRat *
            (stopDistance terms.price inputs.stop).toRat := by
        rw [hval]
        exact mul_le_mul_of_nonneg_right hcap hdist.le
      _ ≤ inputs.budget.toRat := units_mul_stopDistance_le hdist (hpos.trans_le hcap)
  · exact absurd hclamp hfloor

/-- Every size respects the value ceiling, the stated quantity and, off the lot floor, the risk
budget. -/
theorem size_within_bounds {reference : RawAmount} {qty : Amount}
    (hquantity : (sizer.size account sig reference).quantity = some qty) :
    ∃ price, positive reference = some price ∧
      qty.value.toRat * price.value.toRat ≤ sizer.maxOrderValue.value.toRat ∧
      (∀ stated, positive sig.quantity = some stated →
        qty.value.toRat ≤ stated.value.toRat) ∧
      ((sizer.size account sig reference).source = .stopDistance →
        (sizer.size account sig reference).clampedBy ≠ some .lotFloor →
        ∃ riskFraction equity stop, sizer.riskFraction = some riskFraction ∧
          sizer.currentEquity account = some equity ∧ sig.declaredStop = some stop ∧
          qty.value.toRat * |price.value.toRat - stop.value.toRat| ≤
            riskFraction.value.toRat * equity.value.toRat) := by
  obtain ⟨price, proposal, hprice, hlot, hroute, hsize⟩ := size_route hquantity
  rw [hsize] at hquantity ⊢
  refine ⟨price, hprice, ?_, ?_, ?_⟩
  · obtain ⟨-, hvalue⟩ | ⟨-, rfl, -⟩ := quantity_cap hquantity
    · rw [hvalue]
      exact cappedUnits_mul_price_le
    · rwa [mul_comm]
  · intro stated hstated
    cases hroute with
    | stated given hgiven hunits =>
      rw [hgiven] at hstated
      cases hstated
      exact capped_le_stated hunits hquantity hlot
    | risk inputs hnone _ | notional notional hnone _ _ => simp [hnone] at hstated
  · intro hsrc hfloor
    rw [source_cap] at hsrc
    cases hroute with
    | stated given _ _ | notional notional _ _ _ => cases hsrc
    | risk inputs _ hinputs =>
      obtain ⟨hfraction, hequity, -, hstop, -⟩ := riskInputs_eq_some hinputs
      have hloss := capped_mul_stopDistance_le hinputs hquantity hfloor
      refine ⟨inputs.riskFraction, inputs.equity, inputs.stop, hfraction, hequity, hstop, ?_⟩
      simpa [stopDistance, RiskInputs.budget, terms] using hloss

def indexFuture : ListedInstrument where
  instrument := ⟨"NFO:NIFTY:2026-09-24:FUT"⟩
  symbol := "NIFTY"
  assetClass := .future
  fields := { lotSize := .number 50 }

def stoppedSignal : Signal where
  instrument := indexFuture
  direction := .buy
  metadata := some { stopLossPrice := .number 900 }

def accountPolicy : PositionSizer where
  maxOrderValue := Amount.ofNat 100000 (by decide)
  tickSize := sizingFallbackTick
  riskFraction := some sizingFallbackTick
  equity := some (Amount.ofNat 750000 (by decide))
  hasEquitySource := false
  fallbackNotional := none
  contracts := none
  label := "account"

theorem stopped_signal_within_bounds :
    ∃ price, positive (.number 1000) = some price ∧
      (75 : ℚ) * price.value.toRat ≤ accountPolicy.maxOrderValue.value.toRat := by
  have hquantity : (accountPolicy.size .missing stoppedSignal (.number 1000)).quantity =
      some (ofNat 75 (by decide)) := by decide +kernel
  have hvalue : (ofNat 75 (by decide)).value.toRat = 75 := by decide +kernel
  obtain ⟨price, hprice, hceiling, -⟩ := size_within_bounds hquantity
  rw [hvalue] at hceiling
  exact ⟨price, hprice, hceiling⟩

def IsWholeLots (units : ℚ) (lot : Amount) : Prop :=
  ∃ lots : ℕ, 0 < lots ∧ units = lots * lot.value.toRat

def askedUnits (sizer : PositionSizer) (account : RawAmount) (terms : Terms) (sig : Signal)
    (lot : Amount) : ℚ :=
  match positive sig.quantity with
  | some stated => ⌊stated.value.toRat / lot.value.toRat⌋ * lot.value.toRat
  | none =>
    match sizer.riskInputs account terms sig with
    | some inputs =>
      ⌊inputs.riskFraction.value.toRat * inputs.equity.value.toRat /
        (⌈|terms.price.value.toRat - inputs.stop.value.toRat| / terms.tick.value.toRat⌉ *
          terms.tick.value.toRat)⌋
    | none =>
      match sizer.fallbackNotional with
      | some notional =>
        ⌊(⌊notional.value.toRat / terms.price.value.toRat⌋ : ℚ) / lot.value.toRat⌋ * lot.value.toRat
      | none => 0

structure RoundsToLots (sizer : PositionSizer) (account : RawAmount) (terms : Terms)
    (signal : Signal) (lot : Amount) : Prop where
  ceiling :
    ⌊sizer.maxOrderValue.value.toRat / terms.price.value.toRat⌋ <
        sizer.askedUnits account terms signal lot →
      (0 : ℚ) < ⌊sizer.maxOrderValue.value.toRat / terms.price.value.toRat⌋ →
      IsWholeLots ⌊sizer.maxOrderValue.value.toRat / terms.price.value.toRat⌋ lot
  risk :
    sizer.askedUnits account terms signal lot ≤
        ⌊sizer.maxOrderValue.value.toRat / terms.price.value.toRat⌋ →
      positive signal.quantity = none → sizer.riskInputs account terms signal ≠ none →
      0 < sizer.askedUnits account terms signal lot →
      IsWholeLots (sizer.askedUnits account terms signal lot) lot

theorem isWholeLots_of_pos {lots : ℤ} (hpos : 0 < lots * lot.value.toRat) :
    IsWholeLots (lots * lot.value.toRat) lot := by
  have hlots : (0 : ℚ) < lots := (pos_iff_pos_of_mul_pos hpos).mpr lot.pos
  obtain ⟨count, rfl⟩ := Int.eq_ofNat_of_zero_le (Int.cast_pos.mp hlots).le
  exact ⟨count, by exact_mod_cast hlots, by simp⟩

theorem units_eq_askedUnits (hlot : terms.lot = some lot)
    (hroute : Route sizer account terms sig proposal) :
    proposal.units.toRat = sizer.askedUnits account terms sig lot := by
  cases hroute with
  | stated stated hstate _ => simp [statedProposal, askedUnits, hstate, hlot, toRat_wholeLots]
  | risk inputs hstate hins =>
    rw [units_riskProposal]
    simp [askedUnits, hstate, hins, ticks, ceilQuotient, stopDistance, RiskInputs.budget]
  | notional notional hstate hins hworth =>
    simp [notionalProposal, askedUnits, hstate, hins, hworth, hlot, toRat_wholeLots, floorQuotient]

theorem isWholeLots_askedUnits (hroute : Route sizer account terms sig proposal)
    (hother : ¬(positive sig.quantity = none ∧ sizer.riskInputs account terms sig ≠ none))
    (hpos : 0 < sizer.askedUnits account terms sig lot) :
    IsWholeLots (sizer.askedUnits account terms sig lot) lot := by
  cases hroute with
  | stated stated hstate _ =>
    simp only [askedUnits, hstate] at hpos ⊢
    exact isWholeLots_of_pos hpos
  | risk inputs hstate hins => exact absurd ⟨hstate, by simp [hins]⟩ hother
  | notional notional hstate hins hworth =>
    simp only [askedUnits, hstate, hins, hworth] at hpos ⊢
    exact isWholeLots_of_pos hpos

theorem cappedUnits_whole_iff (hlot : terms.lot = some lot)
    (hroute : Route sizer account terms sig proposal) :
    (0 < (sizer.cappedUnits terms proposal).toRat →
        IsWholeLots (sizer.cappedUnits terms proposal).toRat lot) ↔
      RoundsToLots sizer account terms sig lot := by
  have hunits := units_eq_askedUnits hlot hroute
  rw [toRat_cappedUnits, toRat_ceilingUnits, hunits]
  constructor
  · intro hwhole
    refine ⟨fun hless hpos ↦ ?_, fun hle _ _ hpos ↦ ?_⟩
    · rw [min_eq_right hless.le] at hwhole
      exact hwhole hpos
    · rw [min_eq_left hle] at hwhole
      exact hwhole hpos
  · intro hrounds hpos
    rcases lt_or_ge (⌊sizer.maxOrderValue.value.toRat / terms.price.value.toRat⌋ : ℚ)
      (sizer.askedUnits account terms sig lot) with hless | hle
    · rw [min_eq_right hless.le] at hpos ⊢
      exact hrounds.ceiling hless hpos
    · rw [min_eq_left hle] at hpos ⊢
      by_cases hrisk : positive sig.quantity = none ∧ sizer.riskInputs account terms sig ≠ none
      · exact hrounds.risk hle hrisk.1 hrisk.2 hpos
      · exact isWholeLots_askedUnits hroute hrisk hpos

/-- A size is in whole lots exactly when the route's rounding and the value ceiling both respect the
lot. -/
theorem size_whole_lots_iff {reference : RawAmount} {qty price : Amount} {spec : ContractSpec}
    (hprice : positive reference = some price)
    (hspec : sizer.contract sig.instrument = some spec)
    (hquantity : (sizer.size account sig reference).quantity = some qty) :
    IsWholeLots qty.value.toRat spec.lotSize ↔
      RoundsToLots sizer account (sizer.terms sig.instrument price) sig spec.lotSize := by
  obtain ⟨sized, proposal, hsized, -, hroute, hsize⟩ := size_route hquantity
  rw [hprice] at hsized
  cases hsized
  rw [hsize] at hquantity
  have hlot : (sizer.terms sig.instrument price).lot = some spec.lotSize := by simp [terms, hspec]
  rw [← cappedUnits_whole_iff hlot hroute]
  obtain ⟨hpos, hvalue⟩ | ⟨hnone, rfl, -⟩ := quantity_cap hquantity
  · rw [hvalue]
    exact ⟨fun hwhole _ ↦ hwhole, fun hwhole ↦ hwhole hpos⟩
  · have hone : (sizer.terms sig.instrument price).oneLot = spec.lotSize := by
      simp [Terms.oneLot, hlot]
    rw [hone]
    exact ⟨fun _ hpos ↦ absurd hpos hnone.not_gt, fun _ ↦ ⟨1, one_pos, by simp⟩⟩

def statedSignal (qty : Decimal) : Signal where
  instrument := indexFuture
  direction := .buy
  quantity := .number qty

def fifty : Amount := ofNat 50 (by decide)

theorem not_isWholeLots_fifty {units : ℕ} {hpos : 0 < units} (hnot : ¬ 50 ∣ units) :
    ¬IsWholeLots (ofNat units hpos).value.toRat fifty := by
  rintro ⟨lots, -, hlots⟩
  rw [fifty, Amount.ofNat, Amount.ofNat, Decimal.toRat_ofNat, Decimal.toRat_ofNat, ← Nat.cast_mul,
    Nat.cast_inj] at hlots
  exact hnot ⟨lots, hlots.trans (mul_comm _ _)⟩

theorem sizes_between_lots :
    (accountPolicy.contract indexFuture).map ContractSpec.lotSize = some fifty ∧
      ((accountPolicy.size .missing stoppedSignal (.number 1000)).quantity =
          some (ofNat 75 (by decide)) ∧
        ¬IsWholeLots (ofNat 75 (by decide)).value.toRat fifty) ∧
      ((accountPolicy.size .missing (statedSignal 200) (.number 1300)).quantity =
          some (ofNat 76 (by decide)) ∧
        ¬IsWholeLots (ofNat 76 (by decide)).value.toRat fifty) :=
  ⟨by decide +kernel, ⟨by decide +kernel, not_isWholeLots_fifty (by decide)⟩, by decide +kernel,
    not_isWholeLots_fifty (by decide)⟩

theorem stated_size_rounds_to_lots :
    RoundsToLots accountPolicy .missing (accountPolicy.terms indexFuture (ofNat 900 (by decide)))
      (statedSignal 137) fifty := by
  have hspec : accountPolicy.contract indexFuture =
      some { lotSize := fifty, tickSize := none } := by decide +kernel
  have hprice : positive (.number 900) = some (ofNat 900 (by decide)) := by decide +kernel
  have hquantity : (accountPolicy.size .missing (statedSignal 137) (.number 900)).quantity =
      some ⟨100, (ofNat 100 (by decide)).pos⟩ := by decide +kernel
  refine (size_whole_lots_iff hprice hspec hquantity).mp ⟨2, by decide, ?_⟩
  decide +kernel

end Tradex.Strategy.PositionSizer

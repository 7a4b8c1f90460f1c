import Tradex.Strategy.SizingBounds

/-!
# The decision pipeline

The sizer reads the declared stop by its distance to the price alone, while the request carries it
only as one leg of a pair that brackets the entry.
-/

namespace Tradex.Strategy

open Tradex.Domain

def buildRequest (sizer : PositionSizer) (account : RawAmount) (sig : Signal) (entry : Price)
    (sid : String) (cid : Option CorrelationId) (tag : Option String)
    (referenceTimestamp : Option String) : Option OrderRequest :=
  match (sizer.size account sig (.number entry.value)).quantity with
  | none => none
  | some qty =>
    some (protectiveRequest sig entry qty
      { correlationId := cid
        tag := tag
        strategyId := some sid
        referenceTimestamp := referenceTimestamp })

variable {sizer : PositionSizer} {account : RawAmount} {sig : Signal} {entry : Price} {sid : String}
  {cid : Option CorrelationId} {tag : Option String} {referenceTimestamp : Option String}
  {req : OrderRequest}
  (hbuilt : buildRequest sizer account sig entry sid cid tag referenceTimestamp = some req)

include hbuilt in
theorem buildRequest_eq_some :
    ∃ qty, (sizer.size account sig (.number entry.value)).quantity = some qty ∧
      req = protectiveRequest sig entry qty
        { correlationId := cid
          tag := tag
          strategyId := some sid
          referenceTimestamp := referenceTimestamp } := by
  unfold buildRequest at hbuilt
  split at hbuilt
  · cases hbuilt
  · rename_i qty hqty
    cases hbuilt
    exact ⟨qty, hqty, rfl⟩

include hbuilt in
theorem fields_of_buildRequest :
    req.strategyId = some sid ∧
      req.instrument = sig.instrument.instrument ∧ req.price = some entry := by
  obtain ⟨qty, -, rfl⟩ := buildRequest_eq_some hbuilt
  unfold protectiveRequest
  split
  · exact ⟨rfl, rfl, rfl⟩
  · exact ⟨rfl, rfl, rfl⟩

theorem exists_declaredStop_of_source {reference : RawAmount} {qty : Amount}
    (hqty : (sizer.size account sig reference).quantity = some qty)
    (hsrc : (sizer.size account sig reference).source = .stopDistance) :
    ∃ stop, sig.declaredStop = some stop := by
  obtain ⟨price, proposal, -, -, hroute, hsize⟩ := PositionSizer.size_route hqty
  rw [hsize, PositionSizer.source_cap] at hsrc
  cases hroute with
  | stated given _ _ | notional notional _ _ _ => cases hsrc
  | risk inputs _ hins => exact ⟨inputs.stop, (PositionSizer.riskInputs_eq_some hins).2.2.2.1⟩

/-- A request sized by its stop carries it as a bracket exactly when the signal's target makes a
valid bracket. -/
theorem stop_carried_iff
    (hbuilt : buildRequest sizer account sig entry sid cid tag
      referenceTimestamp = some req)
    (hsrc : (sizer.size account sig (.number entry.value)).source = .stopDistance) :
    (req.isBracket = true ∧
        ∃ stop, sig.declaredStop = some stop ∧ req.stopLossPrice = some stop ∧
          OnLosingSide sig.direction entry stop) ↔
      ∀ stop, sig.declaredStop = some stop →
        ∃ target, sig.declaredTarget = some target ∧
          isValidBracket sig.direction entry stop target = true := by
  obtain ⟨qty, hquantity, rfl⟩ := buildRequest_eq_some hbuilt
  obtain ⟨stop, hstop⟩ := exists_declaredStop_of_source hquantity hsrc
  rw [isBracket_protectiveRequest_iff]
  constructor
  · rintro ⟨⟨leg, target, hleg, htgt, hvalid⟩, -⟩ other hother
    rw [hleg] at hother
    cases hother
    exact ⟨target, htgt, hvalid⟩
  · intro hpair
    obtain ⟨target, htgt, hvalid⟩ := hpair stop hstop
    refine ⟨⟨stop, target, hstop, htgt, hvalid⟩, stop, hstop, ?_, ?_⟩
    · exact stopLossPrice_protectiveRequest hstop htgt hvalid
    · exact onLosingSide_of_isValidBracket hvalid

def pairedSignal (stop target : Decimal) : Signal where
  instrument := PositionSizer.indexFuture
  direction := .buy
  metadata := some { stopLossPrice := .number stop, targetPrice := .number target }

def requestAtThousand (sig : Signal) : Option OrderRequest :=
  buildRequest PositionSizer.accountPolicy .missing sig (Price.ofNat 1000) "breakout" none none
    none

/-- What sizes a signal at a thousand, and the bracket and the stop of its request. -/
def sizedAtThousand (sig : Signal) : SizingSource × Option (Bool × Option Price) :=
  ((PositionSizer.accountPolicy.size .missing sig (.number 1000)).source,
    (requestAtThousand sig).map fun req ↦ (req.isBracket, req.stopLossPrice))

theorem unprotected_risk_sizes :
    sizedAtThousand PositionSizer.stoppedSignal = (.stopDistance, some (false, none)) ∧
      sizedAtThousand (pairedSignal 1100 900) = (.stopDistance, some (false, none)) := by
  decide +kernel

theorem paired_stop_carried :
    ∃ req, requestAtThousand (pairedSignal 900 1200) = some req ∧
      req.isBracket = true ∧
        ∃ stop, (pairedSignal 900 1200).declaredStop = some stop ∧
          req.stopLossPrice = some stop ∧
          OnLosingSide .buy (Price.ofNat 1000) stop := by
  have hsrc : (PositionSizer.accountPolicy.size .missing (pairedSignal 900 1200)
      (.number (Price.ofNat 1000).value)).source = .stopDistance := by decide +kernel
  have hsome : (requestAtThousand (pairedSignal 900 1200)).isSome = true := by decide +kernel
  obtain ⟨req, hbuilt⟩ := Option.isSome_iff_exists.mp hsome
  refine ⟨req, hbuilt, (stop_carried_iff hbuilt hsrc).mpr ?_⟩
  intro stop hstop
  have hdeclared : (pairedSignal 900 1200).declaredStop = some (Price.ofNat 900) := by
    decide +kernel
  rw [hdeclared] at hstop
  cases hstop
  exact ⟨Price.ofNat 1200, by decide +kernel, by decide +kernel⟩

end Tradex.Strategy

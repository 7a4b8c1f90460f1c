import Tradex.Execution.Risk
import Tradex.Foundation.Outcome

/-!
# Exposure limits

The position cap adds the value of a reduction to the book that it reduces, and
the gross and net caps are asked of reductions as well, so a book beyond a cap
cannot be flattened.
-/

namespace Tradex.Execution.Risk

open Tradex.Domain

section Gates

variable {mgr : RiskManager} {prov : Providers} {st : RiskState}
  {req : OrderRequest} {now : Option Instant}

theorem firstRefusal_append {gates more : List Gate} :
    firstRefusal (gates ++ more) =
      (firstRefusal gates >>= fun refusal ↦
        match refusal with
        | some why => pure (some why)
        | none => firstRefusal more) := by
  induction gates with
  | nil => rfl
  | cons gate rest ih =>
    rw [List.cons_append, firstRefusal, ih]
    cases gate with
    | error err => rfl
    | ok refusal =>
      cases refusal with
      | some why | none => rfl

variable {why : DenyReason} {final : RiskState}

theorem exists_gate_of_firstRefusal {gates : List Gate}
    (href : firstRefusal gates = .ok (some why)) : .ok (some why) ∈ gates := by
  induction gates with
  | nil => cases href
  | cons gate rest ih =>
    match gate, href with
    | .error err, href => cases href
    | .ok (some found), href =>
      cases href
      exact List.mem_cons_self
    | .ok none, href => exact List.mem_cons_of_mem _ (ih href)

theorem activeBudget_of_no_budgets (hbud : mgr.budgets = Dict.empty) :
    activeBudget mgr req =
      { maxOrderValue := mgr.maxOrderValue
        maxPositionValue := mgr.maxPositionValue
        maxDailyLossAmt := mgr.maxDailyLossAmt
        maxDrawdownPct := mgr.maxDrawdownPct } := by
  unfold activeBudget
  rw [hbud]
  cases resolveStrategyId req with
  | none | some sid => rfl

def exposureReasons : List DenyReason :=
  [.positionValueExceeded, .maxGrossExposureExceeded, .maxNetExposureExceeded, .marksNotFresh,
    .dailyLossExceeded, .drawdownExceeded]

theorem early_of_denyIf {condition : Bool} {denied : DenyReason}
    (hgate : (.ok (some why) : Gate) = .ok (denyIf condition denied))
    (hearly : denied ∉ exposureReasons) : why ∉ exposureReasons := by
  cases condition <;> cases hgate
  exact hearly

theorem early_reason_of_reduction (hred : increasesExposure prov mgr req = false)
    (href : firstRefusal (earlyGates mgr prov req now) = .ok (some why)) :
    why ∉ exposureReasons := by
  have hgate := exists_gate_of_firstRefusal href
  simp only [earlyGates, List.mem_cons, List.not_mem_nil, or_false] at hgate
  rcases hgate with hgate | hgate | hgate | hgate | hgate
  · exact early_of_denyIf hgate (by decide)
  · exact early_of_denyIf hgate (by decide)
  · rw [freshMarksGate, hred, Bool.and_false] at hgate
    cases hgate
  · unfold orderValueGate at hgate
    split at hgate
    · cases hgate
    · split at hgate
      · exact early_of_denyIf hgate (by decide)
      · exact early_of_denyIf hgate (by decide)
  · unfold cashGate at hgate
    split_ifs at hgate
    · cases hgate
    · cases hgate
      decide
    · split at hgate
      · exact early_of_denyIf hgate (by decide)
      · exact early_of_denyIf hgate (by decide)

variable {refusal : Option DenyReason}

theorem lossGuards_cases (hguard : lossGuards mgr prov req now st = .ok (refusal, final)) :
    refusal = none ∧ final = st ∨
      increasesExposure prov mgr req = true ∧ refusal = some .marksNotFresh ∧
        final = st ∨
      ∃ instant, resolveNow prov now = .ok instant ∧
        final = (sessionNetFor prov st (lossBucket prov req) instant.date).2 ∧
        refusal = if increasesExposure prov mgr req then
          lossRefusal (activeBudget mgr req)
            (sessionNetFor prov st (lossBucket prov req) instant.date).1.1
            (sessionNetFor prov st (lossBucket prov req) instant.date).1.2
          else none := by
  unfold lossGuards at hguard
  dsimp only at hguard
  split at hguard
  · obtain ⟨stale, -, hguard⟩ := except_bind_eq_ok hguard
    split at hguard
    next href =>
      cases hguard
      exact .inr (.inl ⟨(Bool.and_eq_true _ _ ▸ href).2, rfl, rfl⟩)
    next =>
      obtain ⟨instant, hnow, hguard⟩ := except_bind_eq_ok hguard
      refine .inr (.inr ⟨instant, hnow, ?_⟩)
      split at hguard
      next hinc =>
        cases hguard
        exact ⟨rfl, (if_pos hinc).symm⟩
      next hred =>
        cases hguard
        exact ⟨rfl, (if_neg hred).symm⟩
  · cases hguard
    exact .inl ⟨rfl, rfl⟩

theorem lossGuards_of_reduction (hred : increasesExposure prov mgr req = false)
    (hguard : lossGuards mgr prov req now st = .ok (refusal, final)) :
    refusal = none := by
  rcases lossGuards_cases hguard with hnone | hmarks | ⟨instant, -, -, href⟩
  · exact hnone.1
  · rw [hred] at hmarks
    cases hmarks.1
  · rw [href, hred]
    rfl

theorem reason_of_rateLimit (hlim : rateLimit mgr prov now st = .ok (some why, final)) :
    why = .rateLimitExceeded := by
  unfold rateLimit at hlim
  split at hlim
  · cases hlim
  · obtain ⟨instant, -, hlim⟩ := except_bind_eq_ok hlim
    dsimp only at hlim
    split_ifs at hlim
    · cases hlim
      rfl
    · cases hlim

def WithinCaps (mgr : RiskManager) (prov : Providers) (req : OrderRequest) : Prop :=
  exceeds (activeBudget mgr req).maxPositionValue
      (positionExposure prov + incomingExposure prov req) = false ∧
    exceeds mgr.maxGrossExposure (resultingExposures prov req).1 = false ∧
    exceeds mgr.maxNetExposure |(resultingExposures prov req).2| = false

instance : Decidable (WithinCaps mgr prov req) :=
  inferInstanceAs (Decidable (_ ∧ _ ∧ _))

theorem firstRefusal_caps :
    (WithinCaps mgr prov req →
      firstRefusal [positionValueGate mgr prov req,
        exposureGate mgr prov req] = .ok none) ∧
    (¬WithinCaps mgr prov req →
      ∃ why ∈ exposureReasons, firstRefusal [positionValueGate mgr prov req,
        exposureGate mgr prov req] = .ok (some why)) := by
  unfold WithinCaps positionValueGate exposureGate
  dsimp only
  generalize exceeds (activeBudget mgr req).maxPositionValue _ = pos
  generalize exceeds mgr.maxGrossExposure _ = gross
  generalize exceeds mgr.maxNetExposure _ = net
  revert pos gross net
  decide

theorem early_of_check (hchk : check mgr prov st req now = .ok (refusal, final)) :
    sameAwareness st now = true ∧
      ∃ early, firstRefusal (earlyGates mgr prov req now) = .ok early ∧
        (early = none ∨ early = refusal) := by
  unfold check at hchk
  split at hchk
  · cases hchk
  next haware =>
    rw [statelessGates, firstRefusal_append] at hchk
    obtain ⟨stateless, hbare, hchk⟩ := except_bind_eq_ok hchk
    obtain ⟨early, hearly, hbare⟩ := except_bind_eq_ok hbare
    refine ⟨Bool.eq_true_of_not_eq_false haware, early, hearly, ?_⟩
    cases early with
    | none => exact .inl rfl
    | some why =>
      cases hbare
      cases hchk
      exact .inr rfl

section

variable (haware : sameAwareness st now = true)

include haware

theorem check_of_early_passed (hearly : firstRefusal (earlyGates mgr prov req now) = .ok none) :
    check mgr prov st req now = (do
      let refusal ← firstRefusal [positionValueGate mgr prov req,
        exposureGate mgr prov req]
      match refusal with
      | some why => pure (decided (some why) st)
      | none =>
        let guarded ← lossGuards mgr prov req now st
        match guarded.1 with
        | some why => pure (decided (some why) guarded.2)
        | none =>
          let limited ← rateLimit mgr prov now guarded.2
          pure (decided limited.1 limited.2)) := by
  rw [check, haware, statelessGates, firstRefusal_append, hearly]
  rfl

theorem reason_of_reduction_within (hred : increasesExposure prov mgr req = false)
    (hearly : firstRefusal (earlyGates mgr prov req now) = .ok none)
    (hin : WithinCaps mgr prov req)
    (hchk : check mgr prov st req now = .ok (some why, final)) :
    why = .rateLimitExceeded := by
  rw [check_of_early_passed haware hearly, firstRefusal_caps.1 hin] at hchk
  obtain ⟨_, ⟨⟩, hchk⟩ := except_bind_eq_ok hchk
  obtain ⟨⟨guarded, measured⟩, hguard, hchk⟩ := except_bind_eq_ok hchk
  obtain rfl : guarded = none := lossGuards_of_reduction hred hguard
  obtain ⟨⟨limited, after⟩, hlim, hchk⟩ := except_bind_eq_ok hchk
  cases limited with
  | none => cases hchk
  | some found =>
    cases hchk
    exact reason_of_rateLimit hlim

end

/-- A reducing order passes the exposure limits exactly when the position, gross and net caps have
room for it as if it added. -/
theorem reduction_not_blocked_iff (hreduces : increasesExposure prov mgr req = false) :
    (∀ why final, check mgr prov st req now = .ok (some why, final) →
        why ∉ exposureReasons) ↔
      (sameAwareness st now = true →
        firstRefusal (earlyGates mgr prov req now) = .ok none →
          WithinCaps mgr prov req) := by
  constructor
  · intro hnever haware hearly
    by_contra hbeyond
    obtain ⟨why, hreason, hcaps⟩ := firstRefusal_caps.2 hbeyond
    have hcheck : check mgr prov st req now = _ :=
      check_of_early_passed haware hearly
    rw [hcaps] at hcheck
    exact hnever why _ hcheck hreason
  · intro hwithin why final hcheck
    obtain ⟨haware, early, hearly, rfl | rfl⟩ := early_of_check hcheck
    · rw [reason_of_reduction_within haware hreduces hearly (hwithin haware hearly) hcheck]
      decide
    · exact early_reason_of_reduction hreduces hearly

end Gates

def equity : Instrument := ⟨"NSE:TEST"⟩

def longHundred : Position where
  instrument := equity
  quantity := 100
  avgPrice := Price.ofNat 10
  realizedPnl := { amount := 0 }
  unrealizedPnl := { amount := 0 }

def sellTen : OrderRequest :=
  OrderRequest.plain equity .sell .limit 10 (some (Price.ofNat 10)) Decimal.ten_pos

theorem reduction_denied_at_cap :
    increasesExposure { positions := some [longHundred] } {} sellTen = false ∧
      decision { maxPositionValue := some 1000 } { positions := some [longHundred] } {} sellTen
        none = .ok (some .positionValueExceeded) ∧
      .positionValueExceeded ∈ exposureReasons := by
  decide +kernel

theorem reduction_passes_below_cap :
    increasesExposure { positions := some [longHundred] } { maxPositionValue := some 1200 }
        sellTen = false ∧
      ∀ why final, check { maxPositionValue := some 1200 } { positions := some [longHundred] } {}
        sellTen none = .ok (some why, final) → why ∉ exposureReasons :=
  ⟨by decide +kernel, (reduction_not_blocked_iff (by decide +kernel)).mpr fun _ _ ↦
    by decide +kernel⟩

end Tradex.Execution.Risk

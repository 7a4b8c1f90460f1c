import Tradex.Execution.RiskLimits
import Tradex.Foundation.Program

/-!
# The daily-loss breaker

The guard measures a request without a strategy against the positions without one, from the first
check of the day that was measured so.
-/

namespace Tradex.Execution.Risk

open Tradex.Domain List

structure Call where
  providers : Providers
  request : OrderRequest
  now : Option Instant := none

def Call.check (mgr : RiskManager) (st : RiskState) (call : Call) :
    Except TradingError (Option DenyReason × RiskState) :=
  Risk.check mgr call.providers st call.request call.now

def Call.decision (mgr : RiskManager) (st : RiskState) (call : Call) :
    Except TradingError (Option DenyReason) :=
  Risk.decision mgr call.providers st call.request call.now

def Call.after (mgr : RiskManager) (st : RiskState) (call : Call) : RiskState :=
  match call.check mgr st with
  | .ok (_, final) => final
  | .error _ => st

def runCalls (mgr : RiskManager) (st : RiskState) (calls : List Call) : RiskState :=
  calls.foldl (Call.after mgr) st

variable {mgr : RiskManager} {st : RiskState} {calls : List Call}

theorem runCalls_invariant {prop : RiskState → Prop}
    (hstep : ∀ call ∈ calls, ∀ cur, prop cur → prop (call.after mgr cur))
    (hstart : prop st) : prop (runCalls mgr st calls) := by
  induction calls generalizing st with
  | nil => exact hstart
  | cons call calls ih =>
    exact ih (fun later hlate ↦ hstep later (mem_cons_of_mem _ hlate))
      (hstep call mem_cons_self st hstart)

def Call.OnDate (today : ℤ) (call : Call) : Prop :=
  ∀ instant, resolveNow call.providers call.now = .ok instant → instant.date = today

def Call.bucket (call : Call) : Option String := lossBucket call.providers call.request

def SameBaselines (first second : RiskState) : Prop :=
  first.baselines = second.baselines ∧ first.stored = second.stored

theorem SameBaselines.trans {first second third : RiskState} (hfst : SameBaselines first second)
    (hsnd : SameBaselines second third) : SameBaselines first third :=
  ⟨hfst.1.trans hsnd.1, hfst.2.trans hsnd.2⟩

theorem sameBaselines_decided {refusal : Option DenyReason} :
    SameBaselines (decided refusal st).2 st := by
  cases refusal with
  | none | some why => exact ⟨rfl, rfl⟩

section Effect

variable {prov : Providers} {final : RiskState} {req : OrderRequest} {now : Option Instant}
  {refusal : Option DenyReason}

theorem sameBaselines_rateLimit (hlim : rateLimit mgr prov now st = .ok (refusal, final)) :
    SameBaselines final st := by
  unfold rateLimit at hlim
  split at hlim
  · cases hlim
    exact ⟨rfl, rfl⟩
  · obtain ⟨instant, -, hlim⟩ := except_bind_eq_ok hlim
    dsimp only at hlim
    split_ifs at hlim
    · cases hlim
      exact ⟨rfl, rfl⟩
    · cases hlim
      exact ⟨rfl, rfl⟩

theorem baselines_check (hchk : check mgr prov st req now = .ok (refusal, final)) :
    SameBaselines final st ∨
      ∃ instant, resolveNow prov now = .ok instant ∧
        SameBaselines final (sessionNetFor prov st (lossBucket prov req) instant.date).2 := by
  unfold check at hchk
  split at hchk
  · cases hchk
  obtain ⟨stateless, -, hchk⟩ := except_bind_eq_ok hchk
  cases stateless with
  | some why =>
    cases hchk
    exact .inl ⟨rfl, rfl⟩
  | none =>
    obtain ⟨⟨guarded, measured⟩, hguard, hchk⟩ := except_bind_eq_ok hchk
    have hfin : SameBaselines final measured := by
      cases guarded with
      | some why =>
        cases hchk
        exact ⟨rfl, rfl⟩
      | none =>
        obtain ⟨limited, hlim, hchk⟩ := except_bind_eq_ok hchk
        have hdecided : (decided limited.1 limited.2).2 = final :=
          congrArg Prod.snd (Except.ok.inj hchk)
        rw [← hdecided]
        exact sameBaselines_decided.trans (sameBaselines_rateLimit hlim)
    rcases lossGuards_cases hguard with ⟨-, rfl⟩ | ⟨-, -, rfl⟩ | ⟨instant, hnow, rfl, -⟩
    · exact .inl hfin
    · exact .inl hfin
    · exact .inr ⟨instant, hnow, hfin⟩

def measuredBaseline (prov : Providers) (st : RiskState) (bucket : Option String)
    (today : ℤ) : Baseline :=
  let baseline := todaysBaseline prov st bucket today
  { baseline with peak := max baseline.peak (equityPnlFor prov bucket - baseline.base) }

variable {bucket : Option String} {today : ℤ}

theorem date_todaysBaseline : (todaysBaseline prov st bucket today).date = today := by
  unfold todaysBaseline
  split
  · split
    · assumption
    · rfl
  · rfl

theorem measuredBaseline_eq :
    measuredBaseline prov st bucket today =
      ⟨today, (todaysBaseline prov st bucket today).base,
        (measuredBaseline prov st bucket today).peak⟩ := by
  simp [measuredBaseline, date_todaysBaseline]

theorem get_persistBaseline {sid key : String} {baseline : Baseline} :
    (persistBaseline st sid baseline).baselines.get key =
      if sid = key then some baseline else st.baselines.get key := by
  unfold persistBaseline
  split
  next hkept =>
    split
    next hkey => rw [← hkey, hkept]
    · rfl
  · rw [Dict.get_set]

theorem get_sessionNetFor {key : String} :
    (sessionNetFor prov st bucket today).2.baselines.get key =
      if bucket.getD "" = key then some (measuredBaseline prov st bucket today)
      else st.baselines.get key := by
  cases bucket with
  | none =>
    change (st.baselines.set "" (measuredBaseline prov st none today)).get key = _
    rw [Dict.get_set]
    rfl
  | some sid => exact get_persistBaseline

end Effect

def AccountOpen (today : ℤ) (base : ℚ) (st : RiskState) : Prop :=
  ∃ peak, st.baselines.get "" = some ⟨today, base, peak⟩

section Account

variable {call : Call} {today : ℤ} {base : ℚ}

section

variable (hopen : AccountOpen today base st)

include hopen

variable {prov : Providers}

theorem AccountOpen.base_todaysBaseline {bucket : Option String} (hbkt : bucket.getD "" = "") :
    (todaysBaseline prov st bucket today).base = base := by
  obtain ⟨peak, hget⟩ := hopen
  unfold todaysBaseline
  rw [hbkt, hget]
  simp

theorem AccountOpen.measured (bucket : Option String) :
    AccountOpen today base (sessionNetFor prov st bucket today).2 := by
  by_cases hbkt : bucket.getD "" = ""
  · refine ⟨(measuredBaseline prov st bucket today).peak, ?_⟩
    rw [get_sessionNetFor, if_pos hbkt, measuredBaseline_eq, hopen.base_todaysBaseline hbkt]
  · obtain ⟨peak, hget⟩ := hopen
    refine ⟨peak, ?_⟩
    rw [get_sessionNetFor, if_neg hbkt, hget]

theorem AccountOpen.congr {other : RiskState}
    (hsame : SameBaselines other st) : AccountOpen today base other := by
  obtain ⟨peak, hget⟩ := hopen
  exact ⟨peak, hsame.1 ▸ hget⟩

end

theorem AccountOpen.after (hdate : call.OnDate today) (hopen : AccountOpen today base st) :
    AccountOpen today base (call.after mgr st) := by
  unfold Call.after
  cases hchk : call.check mgr st with
  | error err => exact hopen
  | ok res =>
    rcases baselines_check hchk with hsame | ⟨instant, hnow, hsame⟩
    · exact hopen.congr hsame
    · rw [hdate instant hnow] at hsame
      exact (hopen.measured _).congr hsame

end Account

section

variable {prov : Providers} {measured : RiskState} {req : OrderRequest}
  {now : Option Instant} {instant : Instant} {refusal : Option DenyReason}

theorem resolveNow_of_fresh (hbound : prov.positions.isSome = true)
    (hnew : staleMarks mgr prov now = .ok false) :
    ∃ instant, resolveNow prov now = .ok instant := by
  unfold staleMarks at hnew
  split at hnew
  · rename_i hnone
    rw [hnone] at hbound
    cases hbound
  · obtain ⟨instant, hnow, -⟩ := except_bind_eq_ok hnew
    exact ⟨instant, hnow⟩

theorem firstRefusal_ok {gates : List Gate} (hgate : ∀ gate ∈ gates, ∃ ans, gate = .ok ans) :
    ∃ ans, firstRefusal gates = .ok ans := by
  induction gates with
  | nil => exact ⟨none, rfl⟩
  | cons gate rest ih =>
    obtain ⟨ans, rfl⟩ := hgate gate mem_cons_self
    cases ans with
    | some why => exact ⟨some why, rfl⟩
    | none => exact ih fun later hlate ↦ hgate later (mem_cons_of_mem _ hlate)

theorem statelessGates_ok (hnow : resolveNow prov now = .ok instant) :
    ∃ ans, firstRefusal (statelessGates mgr prov req now) = .ok ans := by
  apply firstRefusal_ok
  intro gate hgate
  simp only [statelessGates, earlyGates, mem_append, mem_cons, not_mem_nil, or_false] at hgate
  rcases hgate with (rfl | rfl | rfl | rfl | rfl) | rfl | rfl
  · exact ⟨_, rfl⟩
  · exact ⟨_, rfl⟩
  · unfold freshMarksGate freshMarksAvailable
    rw [hnow]
    split_ifs
    · exact ⟨_, rfl⟩
    · cases prov.positions with
      | none | some positions => exact ⟨_, rfl⟩
    · exact ⟨_, rfl⟩
  · unfold orderValueGate
    split
    · exact ⟨_, rfl⟩
    · split
      · exact ⟨_, rfl⟩
      · exact ⟨_, rfl⟩
  · unfold cashGate
    split_ifs
    · exact ⟨_, rfl⟩
    · exact ⟨_, rfl⟩
    · split
      · exact ⟨_, rfl⟩
      · exact ⟨_, rfl⟩
  · exact ⟨_, rfl⟩
  · unfold exposureGate
    dsimp only
    split_ifs
    · exact ⟨_, rfl⟩
    · exact ⟨_, rfl⟩

theorem rateLimit_ok (hnow : resolveNow prov now = .ok instant) :
    ∃ ans, rateLimit mgr prov now st = .ok ans := by
  unfold rateLimit
  split
  · exact ⟨_, rfl⟩
  · rw [hnow]
    simp only [bind, Except.bind]
    split_ifs
    · exact ⟨_, rfl⟩
    · exact ⟨_, rfl⟩

theorem lossGuards_of_fresh {limit : ℚ}
    (hlimit : (activeBudget mgr req).maxDailyLossAmt = some limit)
    (hbound : prov.positions.isSome = true)
    (hnew : staleMarks mgr prov now = .ok false)
    (hnow : resolveNow prov now = .ok instant) :
    lossGuards mgr prov req now st =
      .ok (if increasesExposure prov mgr req then
          lossRefusal (activeBudget mgr req)
            (sessionNetFor prov st (lossBucket prov req) instant.date).1.1
            (sessionNetFor prov st (lossBucket prov req) instant.date).1.2
        else none,
        (sessionNetFor prov st (lossBucket prov req) instant.date).2) := by
  unfold lossGuards
  dsimp only
  rw [hlimit, hbound, hnew, hnow]
  simp only [Option.isSome_some, Bool.true_or, Bool.and_true, if_true]
  split
  · rfl
  · rfl

theorem check_of_guarded (haware : sameAwareness st now = true)
    (hnow : resolveNow prov now = .ok instant)
    (hpass : firstRefusal (statelessGates mgr prov req now) = .ok none)
    (hguard : lossGuards mgr prov req now st = .ok (refusal, measured)) :
    ∃ ans final, check mgr prov st req now = .ok (ans, final) ∧
      SameBaselines final measured ∧ ∀ why, refusal = some why → ans = some why := by
  rw [check, haware, hpass]
  simp only [bind, Except.bind, hguard]
  cases refusal with
  | some why => exact ⟨some why, _, rfl, ⟨rfl, rfl⟩, fun _ hwhy ↦ hwhy⟩
  | none =>
    obtain ⟨⟨limited, final⟩, hlim⟩ :
        ∃ ans, rateLimit mgr prov now measured = .ok ans := rateLimit_ok hnow
    simp only [hlim]
    refine ⟨_, _, rfl, sameBaselines_decided.trans (sameBaselines_rateLimit hlim), ?_⟩
    intro why hwhy
    cases hwhy

end

def totalPnl (prov : Providers) : ℚ := ((listedPositions prov).map positionPnl).sum

def attributedPnl (prov : Providers) : ℚ :=
  (((listedPositions prov).filter fun pos ↦
    (positionStrategy pos).isSome).map positionPnl).sum

theorem totalPnl_eq {prov : Providers} :
    totalPnl prov = equityPnlFor prov none + attributedPnl prov := by
  unfold totalPnl equityPnlFor attributedPnl
  induction listedPositions prov with
  | nil => simp
  | cons pos rest ih =>
    rw [map_cons, sum_cons, ih]
    cases hstrat : positionStrategy pos with
    | none =>
      simp only [filter_cons, hstrat, decide_true, if_true, map_cons, sum_cons,
        Option.isSome_none, Bool.false_eq_true, if_false]
      ring
    | some sid =>
      simp only [filter_cons, hstrat, reduceCtorEq, decide_false, if_false, Option.isSome_some,
        if_true, map_cons, sum_cons]
      ring

section Breaker

variable {start : RiskState} {call first last : Call} {calls : List Call} {today : ℤ}
  {base limit : ℚ}

structure Call.OpensAccount (manager : RiskManager) (start : RiskState) (today : ℤ)
    (call : Call) : Prop where
  aware : sameAwareness start call.now = true
  passed : firstRefusal (statelessGates manager call.providers call.request call.now) = .ok none
  bound : call.providers.positions.isSome = true
  fresh : staleMarks manager call.providers call.now = .ok false
  account : call.bucket = none
  zero : equityPnlFor call.providers none = (todaysBaseline call.providers start none today).base

theorem Call.OpensAccount.accountOpen (hopens : call.OpensAccount mgr start today)
    (hlimit : mgr.maxDailyLossAmt = some limit) (hbud : mgr.budgets = Dict.empty)
    (hdate : call.OnDate today) :
    AccountOpen today (equityPnlFor call.providers none) (call.after mgr start) := by
  obtain ⟨instant, hnow⟩ := resolveNow_of_fresh hopens.bound hopens.fresh
  have hact : (activeBudget mgr call.request).maxDailyLossAmt = some limit := by
    rw [activeBudget_of_no_budgets hbud, hlimit]
  obtain ⟨ans, final, hchk, hsame, -⟩ := check_of_guarded hopens.aware hnow hopens.passed
    (lossGuards_of_fresh hact hopens.bound hopens.fresh hnow)
  have hafter : call.after mgr start = final := by
    unfold Call.after Call.check
    rw [hchk]
  have hbkt : lossBucket call.providers call.request = none := hopens.account
  rw [hafter]
  rw [hdate instant hnow, hbkt] at hsame
  refine AccountOpen.congr ⟨(measuredBaseline call.providers start none today).peak, ?_⟩ hsame
  rw [get_sessionNetFor, if_pos Option.getD_none, measuredBaseline_eq, hopens.zero]

theorem AccountOpen.denied (hopen : AccountOpen today base st)
    (hlimit : mgr.maxDailyLossAmt = some limit) (hbud : mgr.budgets = Dict.empty)
    (hdate : call.OnDate today) (haware : sameAwareness st call.now = true)
    (hbound : call.providers.positions.isSome = true)
    (hnew : staleMarks mgr call.providers call.now = .ok false)
    (hinc : increasesExposure call.providers mgr call.request = true)
    (hplain : resolveStrategyId call.request = none)
    (hloss : equityPnlFor call.providers none + limit ≤ base) :
    ∃ why final, call.check mgr st = .ok (some why, final) := by
  obtain ⟨instant, hnow⟩ := resolveNow_of_fresh hbound hnew
  have hact : (activeBudget mgr call.request).maxDailyLossAmt = some limit := by
    rw [activeBudget_of_no_budgets hbud, hlimit]
  have hbkt : lossBucket call.providers call.request = none := by rw [lossBucket, hplain, ite_self]
  obtain ⟨ans, hbare⟩ :
      ∃ ans, firstRefusal (statelessGates mgr call.providers call.request call.now) =
        .ok ans := statelessGates_ok hnow
  cases ans with
  | some why =>
    refine ⟨why, (decided (some why) st).2, ?_⟩
    rw [Call.check, Risk.check, haware, hbare]
    rfl
  | none =>
    obtain ⟨ans, final, hchk, -, hans⟩ := check_of_guarded haware hnow hbare
      (lossGuards_of_fresh hact hbound hnew hnow)
    refine ⟨.dailyLossExceeded, final, ?_⟩
    rw [Call.check, hchk, hans .dailyLossExceeded]
    have hnet : (sessionNetFor call.providers st none today).1.1 ≤ -limit := by
      change equityPnlFor call.providers none - (todaysBaseline call.providers st none today).base ≤ _
      rw [hopen.base_todaysBaseline Option.getD_none]
      linarith
    rw [if_pos hinc, hbkt, hdate instant hnow, lossRefusal, hact, Option.any_some,
      if_pos (decide_eq_true hnet)]

/-- A loss beyond the daily limit is refused, if the day's first check was measured on the account.
-/
theorem breaker_not_dead (hlimit : mgr.maxDailyLossAmt = some limit)
    (hbud : mgr.budgets = Dict.empty)
    (hdates : ∀ call ∈ first :: calls ++ [last], call.OnDate today)
    (hfirst : first.OpensAccount mgr start today)
    (hbound : last.providers.positions.isSome = true)
    (hfresh : staleMarks mgr last.providers last.now = .ok false)
    (hinc : increasesExposure last.providers mgr last.request = true)
    (hplain : resolveStrategyId last.request = none)
    (hattributed : attributedPnl first.providers ≤ attributedPnl last.providers)
    (hfallen : totalPnl last.providers + limit ≤ totalPnl first.providers) :
    (∀ final, last.check mgr (runCalls mgr start (first :: calls)) ≠ .ok (none, final)) ∧
      (sameAwareness (runCalls mgr start (first :: calls)) last.now = true →
        ∃ why final, last.check mgr (runCalls mgr start (first :: calls)) =
          .ok (some why, final)) := by
  have hopen : AccountOpen today (equityPnlFor first.providers none)
      (runCalls mgr start (first :: calls)) := by
    change AccountOpen today _ (runCalls mgr (first.after mgr start) calls)
    refine runCalls_invariant (fun call hcall cur hcurr ↦ hcurr.after ?_) ?_
    · exact hdates call (mem_append_left _ (mem_cons_of_mem _ hcall))
    · exact hfirst.accountOpen hlimit hbud (hdates first mem_cons_self)
  have hloss : equityPnlFor last.providers none + limit ≤ equityPnlFor first.providers none := by
    rw [totalPnl_eq, totalPnl_eq] at hfallen
    linarith
  have hdenied : sameAwareness (runCalls mgr start (first :: calls)) last.now = true →
      ∃ why final, last.check mgr (runCalls mgr start (first :: calls)) =
        .ok (some why, final) := fun haware ↦
    hopen.denied hlimit hbud (hdates last (mem_append_right _ mem_cons_self)) haware
      hbound hfresh hinc hplain hloss
  refine ⟨fun final happroved ↦ ?_, hdenied⟩
  obtain ⟨why, denied, hcheck⟩ := hdenied (early_of_check happroved).1
  rw [happroved] at hcheck
  cases hcheck

end Breaker

def markedRow (sid : Option String) (profit : Decimal) : Position where
  instrument := equity
  quantity := 100
  avgPrice := Price.ofNat 10
  realizedPnl := { amount := 0 }
  unrealizedPnl := { amount := profit }
  markPrice := some (Price.ofNat 10)
  markedAt := some 0
  strategyId := sid

def openOther : OrderRequest :=
  OrderRequest.plain ⟨"NSE:OTHER"⟩ .buy .limit 10 (some (Price.ofNat 10)) Decimal.ten_pos

def accountCall (sid : Option String) (profit : Decimal) : Call where
  providers := { positions := some [markedRow sid profit] }
  request := openOther
  now := some ⟨0, 0, true⟩

def lossLimit : RiskManager := { maxDailyLossAmt := some 100 }

theorem onDate_accountCall {sid : Option String} {profit : Decimal} :
    (accountCall sid profit).OnDate 0 := by
  intro instant hnow
  cases hnow
  rfl

theorem breaker_dead_on_attributed_loss :
    (accountCall (some "momentum") 0).OpensAccount lossLimit {} 0 ∧
      increasesExposure (accountCall (some "momentum") (-200)).providers lossLimit openOther =
        true ∧
      resolveStrategyId openOther = none ∧
      totalPnl (accountCall (some "momentum") 0).providers = 0 ∧
      totalPnl (accountCall (some "momentum") (-200)).providers = -200 ∧
      (accountCall (some "momentum") (-200)).decision lossLimit
        (runCalls lossLimit {} [accountCall (some "momentum") 0]) = .ok none := by
  refine ⟨⟨?_, ?_, ?_, ?_, ?_, ?_⟩, ?_, ?_, ?_, ?_, ?_⟩ <;> decide +kernel

theorem breaker_stops_unattributed_loss :
    ∃ why final, (accountCall none (-200)).check lossLimit
      (runCalls lossLimit {} [accountCall none 0]) = .ok (some why, final) := by
  have hdates : ∀ call ∈ accountCall none 0 :: [] ++ [accountCall none (-200)], call.OnDate 0 :=
    forall_mem_cons.2 ⟨onDate_accountCall, forall_mem_singleton.2 onDate_accountCall⟩
  have hfirst : (accountCall none 0).OpensAccount lossLimit {} 0 :=
    ⟨by decide +kernel, by decide +kernel, by decide +kernel, by decide +kernel,
      by decide +kernel, by decide +kernel⟩
  refine (breaker_not_dead rfl rfl hdates hfirst ?_ ?_ ?_ ?_ ?_ ?_).2 ?_
  all_goals decide +kernel

end Tradex.Execution.Risk

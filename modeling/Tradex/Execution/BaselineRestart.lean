import Tradex.Execution.LossBreaker

/-!
# Restarts of the loss guards

The baselines of the strategies are written through to the store and survive a
restart. The baseline of the account has no row: after a restart the account is
measured anew.
-/

namespace Tradex.Execution.Risk

open Tradex.Domain RiskState List

def ofToday (today : ℤ) (baseline : Option Baseline) : Option Baseline :=
  baseline.filter fun baseline ↦ baseline.date = today

variable {stored : Dict String Baseline}

section Today

variable {today : ℤ} {baseline : Baseline} {key : String}

theorem ofToday_some (hdate : baseline.date = today) :
    ofToday today (some baseline) = some baseline := by
  simp [ofToday, hdate]

theorem ofToday_some_of_ne (hdate : baseline.date ≠ today) :
    ofToday today (some baseline) = none := by
  simp [ofToday, hdate]

@[simp] theorem ofToday_none : ofToday today none = none := rfl

theorem ofToday_ofToday {baseline : Option Baseline} :
    ofToday today (ofToday today baseline) = ofToday today baseline := by
  simp [ofToday]

theorem todaysBaseline_eq (prov : Providers) (st : RiskState) (bucket : Option String) (today : ℤ) :
    todaysBaseline prov st bucket today =
      (ofToday today (st.baselines.get (bucket.getD ""))).getD
        ⟨today, equityPnlFor prov bucket, 0⟩ := by
  unfold todaysBaseline
  cases st.baselines.get (bucket.getD "") with
  | none => rfl
  | some baseline =>
    by_cases hdate : baseline.date = today
    · simp [ofToday_some hdate, hdate]
    · simp [ofToday_some_of_ne hdate, hdate]

theorem lookup_loaded {rows : List (String × Baseline)}
    (hnd : (rows.map Prod.fst).Nodup) {loaded : Dict String Baseline} :
    (rows.foldl (fun baselines row ↦
        if row.2.date = today then baselines.set row.1 row.2 else baselines) loaded).get key =
      (ofToday today (Dict.lookupEntries key rows)).or (loaded.get key) := by
  induction rows generalizing loaded with
  | nil => rfl
  | cons row rest ih =>
    rw [map_cons, nodup_cons] at hnd
    rw [foldl_cons, ih hnd.2, Dict.lookupEntries]
    by_cases hkey : row.1 = key
    · have hrest : Dict.lookupEntries key rest = none :=
        Dict.lookupEntries_eq_none_iff.mpr (hkey ▸ hnd.1)
      rw [hrest, if_pos hkey]
      by_cases hdate : row.2.date = today
      · simp [ofToday_some hdate, hdate, hkey]
      · simp [ofToday_some_of_ne hdate, hdate]
    · split
      · rw [Dict.get_set_of_ne hkey]
      · rfl

theorem get_loadBaselines :
    (loadBaselines stored today).get key = ofToday today (stored.get key) := by
  rw [loadBaselines, lookup_loaded stored.nodupKeys, Dict.get_empty, Option.or_none, Dict.get]

end Today

structure Agrees (today : ℤ) (account : Prop) (left right : RiskState) : Prop where
  recent : left.recentOrders = right.recentOrders
  baselines : ∀ key, key ≠ "" ∨ account →
    ofToday today (left.baselines.get key) = ofToday today (right.baselines.get key)

variable {second first : Except TradingError (Option DenyReason × RiskState)}

section Agreement

variable {mgr : RiskManager} {prov : Providers} {left right st : RiskState}
  {req : OrderRequest} {now : Option Instant} {today : ℤ} {account : Prop}
  {bucket : Option String}

theorem nonBlank_ne_empty {text : Option String} : nonBlank text ≠ some "" := by
  intro hblank
  obtain ⟨content, -, hcont⟩ := Option.bind_eq_some_iff.mp hblank
  split at hcont
  · cases hcont
  · rename_i hne
    exact hne (Option.some.inj hcont)

theorem lossBucket_ne_empty : lossBucket prov req ≠ some "" := by
  unfold lossBucket resolveStrategyId
  split
  · split
    next sid hstrat => exact fun hnil ↦ nonBlank_ne_empty (hstrat.trans hnil)
    · exact nonBlank_ne_empty
  · nofun

theorem key_ne_empty_or (hbkt : bucket ≠ some "") (hmeas : bucket ≠ none ∨ account) :
    bucket.getD "" ≠ "" ∨ account := by
  refine hmeas.imp_left fun hstrat ↦ ?_
  cases bucket with
  | none => exact absurd rfl hstrat
  | some sid => exact fun hnil ↦ hbkt (congrArg some hnil)

variable (hagr : Agrees today account left right)

include hagr in
theorem Agrees.todaysBaseline_eq (hkey : bucket.getD "" ≠ "" ∨ account) :
    todaysBaseline prov left bucket today = todaysBaseline prov right bucket today := by
  rw [Risk.todaysBaseline_eq, Risk.todaysBaseline_eq, hagr.baselines _ hkey]

include hagr in
theorem Agrees.net_eq (hkey : bucket.getD "" ≠ "" ∨ account) :
    (sessionNetFor prov left bucket today).1 = (sessionNetFor prov right bucket today).1 := by
  cases bucket with
  | none | some sid => simp only [sessionNetFor, hagr.todaysBaseline_eq hkey]

theorem recentOrders_sessionNetFor :
    (sessionNetFor prov st bucket today).2.recentOrders = st.recentOrders := by
  cases bucket with
  | none => rfl
  | some sid =>
    simp only [sessionNetFor, persistBaseline]
    split
    · rfl
    · rfl

include hagr in
theorem Agrees.measured :
    Agrees today account (sessionNetFor prov left bucket today).2
      (sessionNetFor prov right bucket today).2 where
  recent := by rw [recentOrders_sessionNetFor, recentOrders_sessionNetFor, hagr.recent]
  baselines key hkey := by
    rw [get_sessionNetFor, get_sessionNetFor]
    split
    next hmeas => rw [measuredBaseline, measuredBaseline, hagr.todaysBaseline_eq (hmeas ▸ hkey)]
    · exact hagr.baselines key hkey

include hagr in
theorem Agrees.decided (first second : Option DenyReason) :
    Agrees today account (decided first left).2 (decided second right).2 := by
  cases first <;> cases second <;> exact ⟨hagr.recent, hagr.baselines⟩

inductive Alike (today : ℤ) (account same : Prop) :
    Except TradingError (Option DenyReason × RiskState) →
      Except TradingError (Option DenyReason × RiskState) → Prop
  | raised (error : TradingError) : Alike today account same (.error error) (.error error)
  | returned {first second : Option DenyReason × RiskState}
      (hanswers : same → first.1 = second.1) (hstates : Agrees today account first.2 second.2) :
      Alike today account same (.ok first) (.ok second)

variable {same : Prop}

include hagr in
theorem lossGuards_alike
    (hdate : ∀ instant, resolveNow prov now = .ok instant → instant.date = today)
    (hmeas : same → lossBucket prov req ≠ none ∨ account) :
    Alike today account same (lossGuards mgr prov req now left)
      (lossGuards mgr prov req now right) := by
  unfold lossGuards
  dsimp only
  split
  · cases staleMarks mgr prov now with
    | error err => exact .raised err
    | ok stale =>
      simp only [bind, Except.bind]
      split
      · exact .returned (fun _ ↦ rfl) hagr
      · cases hnow : resolveNow prov now with
        | error err => exact .raised err
        | ok instant =>
          simp only [hdate instant hnow]
          split
          · refine .returned (fun hsame ↦ ?_) hagr.measured
            have hkey := key_ne_empty_or lossBucket_ne_empty (hmeas hsame)
            rw [hagr.net_eq hkey]
          · exact .returned (fun _ ↦ rfl) hagr.measured
  · exact .returned (fun _ ↦ rfl) hagr

variable {refusal : Option DenyReason} {st : RiskState}

@[simp] theorem fst_decided : (decided refusal st).1 = refusal := by
  cases refusal <;> rfl

theorem recentOrders_decided : (decided refusal st).2.recentOrders = st.recentOrders := by
  cases refusal <;> rfl

theorem Alike.map_decided (halike : Alike today account same first second) :
    Alike today account same (first.map fun guarded ↦ Risk.decided guarded.1 guarded.2)
      (second.map fun guarded ↦ Risk.decided guarded.1 guarded.2) := by
  cases halike with
  | raised err => exact .raised err
  | returned hans hsts =>
    refine .returned (fun hsame ↦ ?_) (hsts.decided _ _)
    rw [fst_decided, fst_decided, hans hsame]

theorem check_of_no_rate_limit (hrate : mgr.maxOrdersPerMinute = none)
    (haware : sameAwareness st now = true) :
    check mgr prov st req now =
      (firstRefusal (statelessGates mgr prov req now) >>= fun refusal ↦
        refusal.elim
          ((lossGuards mgr prov req now st).map fun guarded ↦
            decided guarded.1 guarded.2)
          fun why ↦ .ok (decided (some why) st)) := by
  rw [check, haware, if_neg (by decide)]
  congr 1
  funext refusal
  cases refusal with
  | some why => rfl
  | none =>
    cases lossGuards mgr prov req now st with
    | error err => rfl
    | ok guarded =>
      obtain ⟨ans, measured⟩ := guarded
      cases ans with
      | some why => rfl
      | none =>
        simp only [rateLimit, hrate]
        rfl

theorem check_alike (hrate : mgr.maxOrdersPerMinute = none) (hagr : Agrees today account left right)
    (hdate : ∀ instant, resolveNow prov now = .ok instant → instant.date = today)
    (hmeas : same → lossBucket prov req ≠ none ∨ account) :
    Alike today account same (check mgr prov left req now) (check mgr prov right req now) := by
  have hawareness : sameAwareness left now = sameAwareness right now := by
    unfold sameAwareness
    rw [hagr.recent]
  cases haware : sameAwareness right now with
  | false =>
    rw [check, check, hawareness, haware]
    exact .raised _
  | true =>
    rw [check_of_no_rate_limit hrate haware, check_of_no_rate_limit hrate (hawareness.trans haware)]
    cases firstRefusal (statelessGates mgr prov req now) with
    | error err => exact .raised err
    | ok refusal =>
      cases refusal with
      | some why => exact .returned (fun _ ↦ rfl) (hagr.decided _ _)
      | none =>
        have hguard : Alike today account same
            (lossGuards mgr prov req now left)
            (lossGuards mgr prov req now right) :=
          lossGuards_alike hagr hdate hmeas
        exact hguard.map_decided

end Agreement

section Runs

variable {mgr : RiskManager} {left right st : RiskState} {call : Call}
  {calls before middle : List Call} {today : ℤ} {account : Prop}

theorem Alike.map_fst {same : Prop}
    (halike : Alike today account same first second) (hsame : same) :
    first.map Prod.fst = second.map Prod.fst := by
  cases halike with
  | raised err => rfl
  | returned hans hsts => exact congrArg Except.ok (hans hsame)

section

variable (hrate : mgr.maxOrdersPerMinute = none)

include hrate

theorem Agrees.after (hdate : call.OnDate today) (hagr : Agrees today account left right) :
    Agrees today account (call.after mgr left) (call.after mgr right) := by
  have halike : Alike today account False (call.check mgr left) (call.check mgr right) :=
    check_alike hrate hagr hdate False.elim
  unfold Call.after
  generalize call.check mgr left = first at halike ⊢
  generalize call.check mgr right = second at halike ⊢
  cases halike with
  | raised err => exact hagr
  | returned hans hsts => exact hsts

theorem Agrees.run
    (hdate : ∀ call ∈ calls, call.OnDate today) (hagr : Agrees today account left right) :
    Agrees today account (runCalls mgr left calls) (runCalls mgr right calls) := by
  induction calls generalizing left right with
  | nil => exact hagr
  | cons call calls ih =>
    exact ih (fun later hlate ↦ hdate later (mem_cons_of_mem _ hlate))
      (hagr.after hrate (hdate call mem_cons_self))

end

def Durable (today : ℤ) (account : Prop) (st : RiskState) : Prop :=
  ∃ rows, st.stored = some rows ∧ ∀ key, key ≠ "" ∨ account →
    ofToday today (st.baselines.get key) = ofToday today (rows.get key)

theorem Durable.congr {other : RiskState} (hdur : Durable today account st)
    (hsame : SameBaselines other st) : Durable today account other := by
  unfold Durable
  rw [hsame.1, hsame.2]
  exact hdur

theorem Durable.measured {prov : Providers} {bucket : Option String}
    (hdur : Durable today account st) (hbkt : account → bucket ≠ none) :
    Durable today account (sessionNetFor prov st bucket today).2 := by
  obtain ⟨rows, hstore, hrows⟩ := hdur
  cases bucket with
  | none =>
    refine ⟨rows, hstore, fun key hkey ↦ ?_⟩
    have hother : key ≠ "" := hkey.resolve_right fun hacct ↦ hbkt hacct rfl
    rw [get_sessionNetFor, if_neg (by simpa using hother.symm)]
    exact hrows key hkey
  | some sid =>
    change Durable today account (persistBaseline st sid
      (measuredBaseline prov st (some sid) today))
    unfold persistBaseline
    split
    · exact ⟨rows, hstore, hrows⟩
    · refine ⟨rows.set sid (measuredBaseline prov st (some sid) today),
        by rw [hstore]; rfl, fun key hkey ↦ ?_⟩
      rw [Dict.get_set, Dict.get_set]
      split
      · rfl
      · exact hrows key hkey

theorem Durable.after (hdate : call.OnDate today) (hbkt : account → call.bucket ≠ none)
    (hdur : Durable today account st) : Durable today account (call.after mgr st) := by
  unfold Call.after
  cases hchk : call.check mgr st with
  | error err => exact hdur
  | ok res =>
    rcases baselines_check hchk with hsame | ⟨instant, hnow, hsame⟩
    · exact hdur.congr hsame
    · rw [hdate instant hnow] at hsame
      exact (hdur.measured hbkt).congr hsame

theorem durable_restarted {today : ℤ} {account : Prop} :
    Durable today account (restarted (some stored) today) := by
  refine ⟨stored, rfl, fun key _ ↦ ?_⟩
  change ofToday today ((loadBaselines stored today).get key) = _
  rw [get_loadBaselines, ofToday_ofToday]

theorem Durable.agrees (hdur : Durable today account st) (hrecent : st.recentOrders = []) :
    Agrees today account st (restarted st.stored today) := by
  obtain ⟨rows, hstore, hrows⟩ := hdur
  refine ⟨hrecent, fun key hkey ↦ ?_⟩
  rw [hstore]
  change _ = ofToday today ((loadBaselines rows today).get key)
  rw [get_loadBaselines, ofToday_ofToday, hrows key hkey]

theorem recentOrders_after (hrate : mgr.maxOrdersPerMinute = none) :
    (call.after mgr st).recentOrders = st.recentOrders := by
  unfold Call.after
  cases hchk : call.check mgr st with
  | error err => rfl
  | ok res =>
    have haware := (early_of_check hchk).1
    rw [Call.check, check_of_no_rate_limit hrate haware] at hchk
    obtain ⟨refusal, -, hchk⟩ := except_bind_eq_ok hchk
    cases refusal with
    | some why =>
      cases hchk
      rfl
    | none =>
      obtain ⟨guarded, hguard, rfl⟩ := except_map_eq_ok hchk
      rw [recentOrders_decided]
      rcases lossGuards_cases hguard with ⟨-, hst⟩ | ⟨-, -, hst⟩ | ⟨instant, -, hst, -⟩
      · rw [hst]
      · rw [hst]
      · rw [hst, recentOrders_sessionNetFor]

/-- A restart over the same baseline store changes no decision of the day, except on the account
bucket. -/
theorem restart_keeps_decision (hrate : mgr.maxOrdersPerMinute = none)
    (stored : Dict String Baseline)
    (hdates : ∀ checked ∈ before ++ middle ++ [call], checked.OnDate today)
    (hmeasured : call.bucket ≠ none ∨ ∀ prior ∈ before, prior.bucket ≠ none) :
    let reached := runCalls mgr (RiskState.restarted (some stored) today) before
    call.decision mgr (runCalls mgr reached middle) =
      call.decision mgr
        (runCalls mgr (restarted reached.stored today) middle) := by
  intro reached
  have hdurable : Durable today (∀ prior ∈ before, prior.bucket ≠ none) reached := by
    refine runCalls_invariant (fun prior hearlier cur hcurr ↦ ?_) durable_restarted
    exact hcurr.after (hdates prior (by simp [hearlier])) fun hnever ↦ hnever prior hearlier
  have hrecent : reached.recentOrders = [] := by
    have hstep : ∀ prior ∈ before, ∀ cur : RiskState, cur.recentOrders = [] →
        (prior.after mgr cur).recentOrders = [] := by
      intro prior _ cur hcurr
      rw [recentOrders_after hrate, hcurr]
    exact runCalls_invariant hstep rfl
  have hagr : Agrees today (∀ prior ∈ before, prior.bucket ≠ none)
      (runCalls mgr reached middle)
      (runCalls mgr (restarted reached.stored today) middle) :=
    (hdurable.agrees hrecent).run hrate fun later hlater ↦ hdates later (by simp [hlater])
  exact (check_alike hrate hagr (hdates call (by simp)) fun _ : True ↦ hmeasured).map_fst trivial

end Runs

def emptyStore : Dict String Baseline := Dict.empty

theorem restart_forgets_account_loss :
    let reached := runCalls lossLimit (RiskState.restarted (some emptyStore) 0)
      [accountCall none 0]
    (accountCall none (-200)).decision lossLimit reached = .ok (some .dailyLossExceeded) ∧
      (accountCall none (-200)).decision lossLimit (restarted reached.stored 0) =
        .ok none := by
  decide +kernel

def strategyCall (profit : Decimal) : Call :=
  { accountCall (some "momentum") profit with
    request := { openOther with strategyId := some "momentum" } }

theorem restart_keeps_strategy_loss :
    let reached := runCalls lossLimit (RiskState.restarted (some emptyStore) 0) [strategyCall 0]
    (strategyCall (-200)).decision lossLimit (restarted reached.stored 0) =
      .ok (some .dailyLossExceeded) := by
  have hdates : ∀ call ∈ [strategyCall 0] ++ [] ++ [strategyCall (-200)], call.OnDate 0 :=
    forall_mem_cons.2 ⟨onDate_accountCall, forall_mem_singleton.2 onDate_accountCall⟩
  have hstrategy : (strategyCall (-200)).bucket ≠ none := by decide +kernel
  have hrate : lossLimit.maxOrdersPerMinute = none := rfl
  have hkept := restart_keeps_decision hrate emptyStore hdates (.inl hstrategy)
  exact hkept.symm.trans (by decide +kernel)

end Tradex.Execution.Risk

import Tradex.Execution.PipelineRules
import Tradex.Execution.Recovery

/-!
# A synchronous fill that the ledger refuses

The pipeline persists a synchronous fill before it asks the ledger to pay for it. When
the ledger refuses, nothing is booked, but the event stays in the log.
-/

namespace Tradex.Execution.RefusedFill

open Tradex.Domain Engine Recovery Program CashLedger

structure Dispatched (cfg : EngineConfig) (world : World) (request : OrderRequest) : Prop where
  killInactive : world.killActive = false
  feedBound : cfg.requireFeed = true → cfg.hasFeed = true
  feedReady : cfg.hasFeed = true → world.environment.feeds 0 = true
  riskBound : cfg.requireRisk = true → cfg.hasRisk = true
  riskApproved : cfg.hasRisk = true → world.environment.risks 0 = .ok true
  keyFresh : ∀ cid, request.correlationId = some cid → cfg.hasGuard = true →
    (world.guard.checkAndReserve cid
      (some (requestFingerprint request "submit" none))).1 = .ok .fresh
  scheduled : requireFeeSchedule (some request.productType) = .ok request.productType

structure Unaffordable (cfg : EngineConfig) (world : World) (request : OrderRequest)
    (order : Order) (fill : Fill) (fee : Decimal) (ledger : CashLedger) : Prop where
  accepted : world.environment.submits 0 request = .accepted order (some fill)
  charged : ∃ accrued, Execution.computeFee cfg.hasFeeCalculator world.accrued fill =
    .ok (fee, accrued)
  holds : world.ledger = some ledger
  armed : ledger.allowNegative = false
  short : ledger.cash.toRat < (CashLedger.fillDebit fill fee).toRat

theorem Unaffordable.refused {cfg : EngineConfig} {world : World} {req : OrderRequest}
    {order : Order} {fill : Fill} {fee : Decimal} {ledger : CashLedger}
    (hfill : Unaffordable cfg world req order fill fee ledger) :
    ∃ err, world.requireCash fill fee = .error err := by
  unfold World.requireCash
  rw [hfill.holds]
  cases hproof : ledger.requireDebit (fillDebit fill fee) (fillLabel fill) with
  | error err => exact ⟨err, hproof⟩
  | ok _ =>
    rw [requireDebit_eq_ok_iff, refusesDebit_eq_false_iff] at hproof
    exact absurd (hproof hfill.armed) (not_le.2 hfill.short)

def LeavesNoTrace (before after : World) : Prop :=
  (recoverTradingCache after.log).map (fun replay ↦ replay.cache.positions) =
      .ok after.cache.positions ∧
    (foldCash after.log).toOption.map (fun st ↦ st.cash.toRat) =
      after.ledger.map (fun ledger ↦ ledger.cash.toRat) ∧
    reportedFills after.log = reportedFills before.log

section Stages

variable {cfg : EngineConfig} {world : World} {req : OrderRequest}
  {fail : TradingError → World → Prop}

theorem wp_intakeRefusal {post : Option String → World → Prop} (hgate : Dispatched cfg world req)
    (hpost : ∀ feeds, post none
      { world with environment := { world.environment with feeds := feeds } }) :
    wp (exec cfg) (intakeRefusal cfg) post fail world := by
  have hfeedBound : (cfg.requireFeed && !cfg.hasFeed) = false := by
    cases hrequired : cfg.requireFeed with
    | false => rfl
    | true => simp [hgate.feedBound hrequired]
  have hriskBound : (cfg.requireRisk && !cfg.hasRisk) = false := by
    cases hrequired : cfg.requireRisk with
    | false => rfl
    | true => simp [hgate.riskBound hrequired]
  simp only [intakeRefusal, wp_bind, wp_act, exec, hgate.killInactive, hfeedBound]
  cases hfeed : cfg.hasFeed with
  | false => simpa [hriskBound] using hpost world.environment.feeds
  | true => simpa [exec, hriskBound, hgate.feedReady hfeed] using hpost world.environment.feeds.rest

variable {post : KeyCheck → World → Prop} {resv : Option CorrelationId}

variable (hfresh : ∀ cid, req.correlationId = some cid → cfg.hasGuard =
    true → (world.guard.checkAndReserve cid (some (requestFingerprint req "submit"
    none))).1 = .ok .fresh)

include hfresh in
theorem wp_checkKey_reserved (hpost : ∀ resv guard,
      (∀ cid, req.correlationId = some cid → cfg.hasGuard = true →
        resv = some cid ∧ cid.key ∈ guard.reserved ∧
          world.guard.completed.get cid.key = none) →
      post (.proceed resv) { world with guard := guard }) :
    wp (exec cfg) (checkKey cfg req) post fail world := by
  unfold checkKey
  cases hkey : req.correlationId with
  | none =>
    refine hpost none world.guard fun cid hsome ↦ ?_
    rw [hkey] at hsome
    cases hsome
  | some cid =>
    cases hguard : cfg.hasGuard with
    | false => exact hpost none world.guard fun _ _ htrue ↦ absurd (hguard.symm.trans htrue) nofun
    | true =>
      have hans := hfresh cid hkey hguard
      simp only [if_true, wp_bind, wp_act, exec, hans]
      refine hpost _ _ fun other hother _ ↦ ?_
      obtain rfl : cid = other := Option.some.inj (hkey.symm.trans hother)
      rcases world.guard.checkAndReserve_cases
        with
        ⟨ans, hnot, heq⟩ | ⟨hnew, -, heq⟩
      · rw [heq] at hans
        exact absurd hans hnot
      · rw [heq]
        exact ⟨rfl, Finset.mem_insert_self _ _, hnew⟩

theorem wp_riskGate_approved {post : Option IdempotencyResult → World → Prop}
    (hdur : world.environment.Durable)
    (happr : cfg.hasRisk = true → world.environment.risks 0 = .ok true)
    (hpost : ∀ risks log, reportedFills log = reportedFills world.log → post none
      { world with log := log, environment := { world.environment with risks := risks } }) :
    wp (exec cfg) (riskGate cfg req resv) post fail world := by
  unfold riskGate
  cases hrisk : cfg.hasRisk with
  | false => exact hpost world.environment.risks world.log rfl
  | true =>
    simp only [if_true, wp_bind, wp_act, exec, happr hrisk]
    refine wp_append_durable (by exact hdur) ?_
    refine hpost _ _ ?_
    unfold appendedLog
    split
    · simp [reportedFills, DomainEvent.reportedFill]
    · rfl

theorem wp_acceptOrder_refused {order : Order} {fill : Fill} {fee : Decimal} {accrued : Accrual}
    {err : TradingError} {log : List DomainEvent} {post : IdempotencyResult → World → Prop}
    (hown : cfg.positionProjectionOwned = false) (hstore : cfg.hasStore = true)
    (hdur : world.environment.Durable)
    (hchg : Execution.computeFee cfg.hasFeeCalculator world.accrued fill = .ok (fee, accrued))
    (href : world.requireCash fill fee = .error err)
    (hlog : reportedFills world.log = reportedFills log) :
    wp (exec cfg) (acceptOrder cfg req resv order (some fill)) post
      (fun _ fin ↦ reportedFills fin.log = reportedFills log ++ [fill]) world := by
  have hsame := hdur.afterAppend cfg
  refine wp_acceptOrder ?_ ?_ ?_ ?_
  · exact fun _ _ hfail ↦ absurd hfail (hdur.not_appendFails cfg)
  · rw [hsame]
    exact fun _ _ hfail ↦ absurd hfail (hdur.not_appendFails cfg)
  · exact fun hnone ↦ absurd hnone (Option.some_ne_none fill)
  · intro reported hrep orderIndex cidForOrder
    cases hrep
    have hacc : (acceptedWorld cfg world order orderIndex cidForOrder).environment.Durable := by
      simp only [acceptedWorld, hsame]
      exact hdur
    simp only [settleSynchronousFill, wp_bind, wp_releasingOnFailure, applyFillToBook]
    refine wp_computeFee hown (fun failure hfailure ↦ ?_) (fun amount adv hamount ↦ ?_)
    · simp only [acceptedWorld, hchg] at hfailure
      cases hfailure
    simp only [acceptedWorld, hchg] at hamount
    obtain ⟨rfl, -⟩ := hamount
    refine wp_append_durable (by exact hacc) ?_
    simp only [if_true, wp_bind]
    refine wp_applyFillEffect_of_refused hown href ?_
    simp only [acceptedWorld, appendedLog, hstore, if_true, reportedFills_append, hlog,
      List.append_assoc]
    rfl

end Stages

/-- A synchronous fill that the ledger cannot pay for is refused, but never without a trace: the log
and the accrual keep it. -/
theorem refused_fill_always_traced (cfg : EngineConfig) (world : World) (req : OrderRequest)
    (order : Order) (fill : Fill) (fee : Decimal) (ledger : CashLedger)
    (hown : cfg.positionProjectionOwned = false) (hstore : cfg.hasStore = true)
    (hdurable : world.environment.Durable) (hgates : Dispatched cfg world req)
    (hfill : Unaffordable cfg world req order fill fee ledger) :
    (∃ err, ((submit cfg req).run (exec cfg) world).1 = .error err) ∧
      ¬ LeavesNoTrace world ((submit cfg req).run (exec cfg) world).2 := by
  obtain ⟨accrued, hcharged⟩ := hfill.charged
  obtain ⟨err, hrefused⟩ := hfill.refused
  have hrun : wp (exec cfg) (submit cfg req) (fun _ _ ↦ False)
      (fun _ final ↦ reportedFills final.log = reportedFills world.log ++ [fill]) world := by
    simp only [submit, wp_tryCatch, runPipelineBody, wp_bind]
    refine wp_intakeRefusal hgates fun feeds ↦ ?_
    simp only [wp_bind]
    refine wp_checkKey_reserved hgates.keyFresh fun resv guard _ ↦ ?_
    simp only [afterReservation, wp_bind]
    refine wp_riskGate_approved (by exact hdurable) hgates.riskApproved fun risks log hlog ↦ ?_
    simp only [hgates.scheduled, dispatch, wp_bind]
    refine wp_append_durable (by exact hdurable) ?_
    simp only [if_true, callVenue, wp_bind, wp_act, exec, World.venueSubmit, hfill.accepted]
    refine wp_acceptOrder_refused hown hstore (by exact hdurable) hcharged hrefused ?_
    simp only [appendedLog, hstore, if_true, reportedFills_append, hlog]
    exact List.append_nil _
  rw [wp_iff_run] at hrun
  obtain ⟨hreturns, hrse⟩ := hrun
  cases hresult : ((submit cfg req).run (exec cfg) world).1 with
  | ok res => exact (hreturns res hresult).elim
  | error err =>
    refine ⟨⟨err, rfl⟩, fun hclean ↦ ?_⟩
    have htraced := hrse err hresult
    rw [hclean.2.2] at htraced
    exact List.cons_ne_nil fill [] (List.self_eq_append_right.1 htraced)


def purchase : OrderRequest :=
  .plain ⟨"NSE:INFY"⟩ .buy .market 100 none Decimal.hundred_pos

def purchaseOrder : Order := createOrder purchase "order-1" .ack 0

def purchaseFill : Fill where
  orderId := "order-1"
  instrument := ⟨"NSE:INFY"⟩
  side := .buy
  quantity := 100
  price := .ofNat 10
  productType := some .intraday

def short : World :=
  World.opened (.obliging fun _ ↦ .accepted purchaseOrder (some purchaseFill)) 500 false

def refusal : Except TradingError IdempotencyResult × World :=
  (submit .standard purchase).run (exec .standard) short

theorem refused_purchase_recovered :
    refusal.1.toOption = none ∧
      positionQuantity (refusal.2.cache.getPosition ⟨"NSE:INFY"⟩) = 0 ∧
      (refusal.2.ledger.map fun ledger ↦ ledger.cash.toRat) = some 500 ∧
      (recoverTradingCache refusal.2.log).toOption.map (fun replay ↦
        positionQuantity (replay.cache.getPosition ⟨"NSE:INFY"⟩)) = some 100 ∧
      (foldCash refusal.2.log).toOption.map (fun st ↦ decide (st.cash < 0)) = some true := by
  decide +kernel

theorem refused_purchase_always_traced :
    (∃ err, refusal.1 = .error err) ∧ ¬ LeavesNoTrace short refusal.2 := by
  have hsome : (Execution.computeFee true short.accrued purchaseFill).toOption.isSome = true := by
    decide +kernel
  obtain ⟨⟨fee, accrued⟩, hfee⟩ := Option.isSome_iff_exists.1 hsome
  have hcharged := eq_ok_of_toOption hfee
  have hnonneg := computeFee_nonneg hcharged
  refine refused_fill_always_traced .standard short purchase purchaseOrder purchaseFill fee
    { cash := 500 } rfl rfl (fun _ ↦ rfl) ⟨rfl, nofun, nofun, nofun, nofun, nofun, rfl⟩
    ⟨rfl, ⟨accrued, hcharged⟩, rfl, rfl, ?_⟩
  have hshort : (500 : Decimal).toRat < (notional purchaseFill).toRat := by decide +kernel
  calc
    (500 : Decimal).toRat < (notional purchaseFill).toRat + 0 := by rwa [add_zero]
    _ ≤ (notional purchaseFill).toRat + fee.toRat := by gcongr
    _ = (fillDebit purchaseFill fee).toRat := Decimal.toRat_add.symm

end Tradex.Execution.RefusedFill

import Tradex.Execution.KeyStamps
import Tradex.Execution.RefusedFill

/-!
# From the answer of the fill source to the end of the submission

The fill source returns an order, raises with the boundary crossed, or raises without.
-/

namespace Tradex.Execution.PlacementCall

open Tradex.Domain Engine KeyStamps RefusedFill Program

variable (cfg : EngineConfig)

def gateAppends : ℕ := if cfg.hasRisk then 2 else 1

def DurableAt (env : Environment) (index : ℕ) : Prop :=
  cfg.hasStore = true → env.appends index = .ok ()

structure PlacementMade (cfg : EngineConfig) (world : World) (request : OrderRequest) : Prop
    extends Dispatched cfg world request where
  gatesDurable : ∀ index < gateAppends cfg, DurableAt cfg world.environment index

def Recorded (world : World) : Prop :=
  DurableAt cfg world.environment (gateAppends cfg) ∧
    DurableAt cfg world.environment (gateAppends cfg + 1)

variable (req : OrderRequest)

def KeyHeld (world : World) : Prop :=
  ∀ cid, req.correlationId = some cid → cfg.hasGuard = true →
    cid.key ∈ world.guard.reserved ∨ world.guard.completed.get cid.key ≠ none

def Acknowledged (out : Except TradingError IdempotencyResult) : Prop :=
  ∃ receipt : OrderReceipt, out = .ok (.receipt receipt) ∧ receipt.status = .ack

def OutcomeUnknown (out : Except TradingError IdempotencyResult) : Prop :=
  ∃ msg, out = .error (.orderSubmissionUnknown msg)

def Accounted (ended : Except TradingError IdempotencyResult × World) : Prop :=
  (Acknowledged ended.1 ∨ OutcomeUnknown ended.1) ∧ KeyHeld cfg req ended.2

structure Underway (cfg : EngineConfig) (world : World) (request : OrderRequest)
    (reserved : Option CorrelationId) (appended : ℕ) (now : World) : Prop where
  submits : now.environment.submits = world.environment.submits
  appends : cfg.hasStore = true → ∀ index,
    now.environment.appends index = world.environment.appends (appended + index)
  stamps : now.cidForOrder = world.cidForOrder
  held : ∀ cid, request.correlationId = some cid → cfg.hasGuard = true →
    reserved = some cid ∧ cid.key ∈ now.guard.reserved ∧
      world.guard.completed.get cid.key = none

section Gates

variable {cfg : EngineConfig} {world now : World} {req : OrderRequest}
  {resv : Option CorrelationId} {appended : ℕ} {fail : TradingError → World → Prop}

section

variable (hway : Underway cfg world req resv appended now)

include hway

theorem Underway.frame {later : World} (hsub : later.environment.submits = now.environment.submits)
    (happends : later.environment.appends = now.environment.appends)
    (hstmp : later.cidForOrder = now.cidForOrder) (hguard : later.guard = now.guard) :
    Underway cfg world req resv appended later where
  submits := hsub.trans hway.submits
  appends := by
    rw [happends]
    exact hway.appends
  stamps := hstmp.trans hway.stamps
  held := by
    rw [hguard]
    exact hway.held

theorem Underway.not_appendFails
    (hdur : DurableAt cfg world.environment appended) : ¬ now.environment.AppendFails cfg := by
  rintro ⟨hstore, err, herr⟩
  rw [hway.appends hstore, Nat.add_zero, hdur hstore] at herr
  cases herr

theorem Underway.persisted {log : List DomainEvent} :
    Underway cfg world req resv (appended + 1)
      { now with log := log, environment := now.environment.afterAppend cfg } where
  submits := by
    simp only [Environment.afterAppend]
    split <;> exact hway.submits
  appends := by
    intro hstore index
    simp only [Environment.afterAppend, if_pos hstore]
    rw [Nat.add_right_comm]
    exact hway.appends hstore (index + 1)
  stamps := hway.stamps
  held := hway.held

theorem Underway.wp_append (hdur : DurableAt cfg world.environment appended)
    {ev : DomainEvent} {post : Bool → World → Prop}
    (hpost : ∀ later, Underway cfg world req resv (appended + 1) later → post true later) :
    wp (exec cfg) (append cfg ev) post fail now :=
  Engine.wp_append (fun _ ↦ hpost _ hway.persisted)
    fun _ hfail _ ↦ absurd hfail (hway.not_appendFails hdur)

end

theorem Underway.wp_riskGate (hway : Underway cfg world req resv 0 now)
    (happr : cfg.hasRisk = true → now.environment.risks 0 = .ok true)
    (hdur : ∀ index < gateAppends cfg, DurableAt cfg world.environment index)
    {post : Option IdempotencyResult → World → Prop}
    (hpost : ∀ later appended, appended + 1 = gateAppends cfg →
      Underway cfg world req resv appended later → post none later) :
    wp (exec cfg) (riskGate cfg req resv) post fail now := by
  unfold riskGate
  cases hrisk : cfg.hasRisk with
  | false => exact hpost now 0 (by rw [gateAppends, hrisk]; rfl) hway
  | true =>
    have hgate : gateAppends cfg = 2 := by rw [gateAppends, hrisk]; rfl
    simp only [if_true, wp_bind, wp_act, exec, happr hrisk]
    have hchk : Underway cfg world req resv 0
        { now with environment := { now.environment with risks := now.environment.risks.rest } } :=
      hway.frame rfl rfl rfl rfl
    refine hchk.wp_append (hdur 0 (by omega)) fun later hlate ↦ ?_
    exact hpost later 1 hgate.symm hlate

theorem wp_submit_placed (hmade : PlacementMade cfg world req)
    {post : IdempotencyResult → World → Prop}
    (hvenue : ∀ resv now, Underway cfg world req resv (gateAppends cfg) now →
      wp (exec cfg) (callVenue cfg req resv) post fail now) :
    wp (exec cfg) (submit cfg req) post fail world := by
  simp only [submit, wp_tryCatch, runPipelineBody, wp_bind]
  refine wp_intakeRefusal hmade.toDispatched fun feeds ↦ ?_
  simp only [wp_bind]
  refine wp_checkKey_reserved hmade.keyFresh fun resv guard hheld ↦ ?_
  simp only [afterReservation, wp_bind]
  have hstart : Underway cfg world req resv 0
      { world with guard, environment := { world.environment with feeds := feeds } } :=
    ⟨rfl, fun _ index ↦ congrArg world.environment.appends (Nat.zero_add index).symm, rfl, hheld⟩
  refine hstart.wp_riskGate hmade.riskApproved hmade.gatesDurable fun now appended hcnt hway ↦ ?_
  simp only [hmade.scheduled, dispatch, wp_bind]
  refine hway.wp_append (hmade.gatesDurable appended (by omega)) fun later hlate ↦ ?_
  rw [hcnt] at hlate
  exact hvenue resv later hlate

end Gates

def Holding (world : World) : Prop :=
  ∀ cid, req.correlationId = some cid → cfg.hasGuard = true →
    Reserves cid.key world

section Outcomes

variable {cfg : EngineConfig} {world now : World} {req : OrderRequest} {resv : Option CorrelationId}
  {appended : ℕ}

theorem Underway.holding (hreg : StampRegular world)
    (hway : Underway cfg world req resv appended now) : Holding cfg req now := by
  intro cid hkey hguard
  obtain ⟨-, hresv, hnew⟩ := hway.held cid hkey hguard
  exact reserves_of_regular hreg hway.stamps hnew hresv

theorem keptByHalting_holding : KeptByHalting cfg (Holding cfg req) where
  action op world hsweep hhold cid hkey hguard :=
    reserves_sweep op world hsweep (hhold cid hkey hguard)
  release oid := keeps_of_run fun _ hhold cid hkey hguard ↦
    (keptByHalting_reserves.release oid).run (hhold cid hkey hguard)

variable {ev : DomainEvent} {err : TradingError} {latch : Option Bool}

theorem wp_append_holding (hhold : Holding cfg req now) (hctl : ev.reportedFill = none) :
    wp (exec cfg) (append cfg ev) (fun _ ↦ Holding cfg req) (fun _ _ ↦ False) now :=
  wp_mono
    (wp_and (keptByHalting_holding.append ev now hhold) (halts_append hctl))
    (fun _ _ hboth ↦ hboth.1) fun _ _ hboth ↦ hboth.2

theorem wp_tripKillSwitch_holding (hhold : Holding cfg req now) {why : String} :
    wp (exec cfg) (tripKillSwitch cfg why) (fun _ ↦ Holding cfg req) (fun _ _ ↦ False) now :=
  wp_mono
    (wp_and (keptByHalting_holding.tripKillSwitch why now hhold) halts_tripKillSwitch)
    (fun _ _ hboth ↦ hboth.1) fun _ _ hboth ↦ hboth.2

theorem wp_submissionRaised_crossed
    (hhold : Holding cfg req now) (hcross : boundaryCrossed cfg err latch = true) :
    wp (exec cfg) (submissionRaised cfg req resv err latch) (fun _ _ ↦ False)
      (fun raised fin ↦ (∃ msg, raised = .orderSubmissionUnknown msg) ∧
        KeyHeld cfg req fin) now := by
  simp only [submissionRaised, hcross, if_true, wp_bind]
  refine wp_mono (wp_append_holding hhold rfl) ?_ fun _ _ hfalse ↦ hfalse.elim
  intro _ noted hnoted
  simp only [wp_makeOrder, transitionTo_unknown, wp_ofExcept, wp_act, exec]
  have hcache : Holding cfg req
      { noted with
        cache := noted.cache.updateOrder (createOrder req (noted.environment.uuids 0) .unknown 0)
        environment := { noted.environment with uuids := noted.environment.uuids.rest } } :=
    fun cid hkey hguard ↦ (hnoted cid hkey hguard).frame rfl rfl
  refine wp_mono (wp_append_holding hcache rfl) ?_ fun _ _ hfalse ↦ hfalse.elim
  intro _ placed hplace
  refine wp_mono (wp_tripKillSwitch_holding hplace) ?_ fun _ _ hfalse ↦ hfalse.elim
  exact fun _ _ hhalt ↦ ⟨⟨_, rfl⟩, fun cid hkey hguard ↦ .inl (hhalt cid hkey hguard).reserved⟩

theorem wp_submissionRaised_local (hlocal : boundaryCrossed cfg err latch = false) :
    wp (exec cfg) (submissionRaised cfg req resv err latch)
      (fun res _ ↦ ∃ order, res = rejectedReceipt order err.message) (fun _ _ ↦ False)
      now := by
  simp only [submissionRaised, hlocal, Bool.false_eq_true, if_false, rejectIntake, wp_bind,
    wp_releaseReservation, wp_makeOrder, wp_act, exec]
  exact wp_mono (halts_append rfl) (fun _ _ _ ↦ ⟨_, rfl⟩) fun _ _ hfalse ↦ hfalse

variable {fail : TradingError → World → Prop} {post : Bool → World → Prop}

theorem wp_append_failed (hfails : now.environment.AppendFails cfg)
    (hctl : ev.reportedFill = none) (hpost : ∀ fin, post false fin) :
    wp (exec cfg) (append cfg ev) post fail now := by
  have hrep : wp (exec cfg) (append cfg ev) (fun durable _ ↦ durable = false)
      (fun _ _ ↦ True) now := by
    obtain ⟨hstore, err, herr⟩ := hfails
    rw [Engine.append, appendAt_eq, appendWith, if_pos hstore, wp_bind, wp_act, exec]
    simp only [World.storeAppend, herr]
    have hfail : wp (exec cfg) (appendFailed cfg (tripAt cfg cfg.tripDepth) err)
        (fun durable _ ↦ durable = false ∧ True) (fun _ _ ↦ True)
        { now with environment :=
          { now.environment with appends := now.environment.appends.rest } } :=
      wp_of_performs (fun _ _ _ _ ↦ trivial)
        (performs_appendFailed (performs_tripAt cfg.tripDepth)) trivial
    exact wp_mono hfail (fun _ _ hboth ↦ hboth.1) fun _ _ _ ↦ trivial
  refine wp_mono (wp_and hrep (halts_append hctl)) ?_ fun _ _ hboth ↦ hboth.2.elim
  rintro durable fin ⟨rfl, -⟩
  exact hpost fin

theorem Underway.wp_append_cases (hway : Underway cfg world req resv appended now)
    (hctl : ev.reportedFill = none)
    (hdur : DurableAt cfg world.environment appended → ∀ later,
      Underway cfg world req resv (appended + 1) later → post true later)
    (hfail : ¬ DurableAt cfg world.environment appended → ∀ fin, post false fin) :
    wp (exec cfg) (append cfg ev) post fail now := by
  by_cases hok : DurableAt cfg world.environment appended
  · exact hway.wp_append hok (hdur hok)
  · refine wp_append_failed ?_ hctl (hfail hok)
    rw [DurableAt, Classical.not_imp] at hok
    obtain ⟨hstore, hnot⟩ := hok
    have hans := hway.appends hstore 0
    refine ⟨hstore, ?_⟩
    rw [hans]
    cases hres : world.environment.appends appended with
    | ok done => exact absurd hres hnot
    | error err => exact ⟨err, rfl⟩

theorem wp_acceptOrder_placed {order : Order}
    (hway : Underway cfg world req resv (gateAppends cfg) now) :
    wp (exec cfg) (acceptOrder cfg req resv order none)
      (fun res fin ↦ Recorded cfg world ∧ res = submittedReceipt order ∧
        KeyHeld cfg req fin)
      (fun err _ ↦ ¬ Recorded cfg world ∧ ∃ msg, err = .runtime msg) now := by
  obtain ⟨orderIndex, hpub⟩ := World.publish_eq
    { now with cache := now.cache.updateOrder order } (.orderPlaced order)
  have hcache : Underway cfg world req resv (gateAppends cfg)
      { now with cache := now.cache.updateOrder order, orderIndex := orderIndex } :=
    hway.frame rfl rfl rfl rfl
  simp only [acceptOrder, wp_bind, wp_act, exec, hpub]
  refine hcache.wp_append_cases rfl (fun hplace placed hway ↦ ?_)
    fun hnot fin ↦ ⟨fun hrec ↦ hnot hrec.1, _, rfl⟩
  simp only [if_true, wp_bind]
  refine hway.wp_append_cases rfl (fun hack acknowledged hway ↦ ?_)
    fun hnot fin ↦ ⟨fun hrec ↦ hnot hrec.2, _, rfl⟩
  have hrec : Recorded cfg world := ⟨hplace, hack⟩
  cases resv with
  | none =>
    simp only [if_true, wp_bind, wp_pure]
    refine ⟨hrec, trivial, fun cid hkey hguard ↦ ?_⟩
    exact absurd (hway.held cid hkey hguard).1 (Option.some_ne_none _).symm
  | some own =>
    simp only [if_true, wp_bind, wp_recordResult, wp_pure]
    refine ⟨hrec, trivial, fun cid hkey hguard ↦ Or.inr ?_⟩
    obtain rfl : own = cid := Option.some.inj (hway.held cid hkey hguard).1
    simp only [completedGuard, hguard, if_true]
    rw [MemoryIdempotencyGuard.get_completed_recordResult, if_pos rfl]
    exact Option.some_ne_none _

end Outcomes

variable {cfg : EngineConfig} {world : World} {req : OrderRequest} {venueHolds : Bool}

theorem accounted_accepted_iff {order : Order} (hmade : PlacementMade cfg world req)
    (hans : world.environment.submits 0 req = .accepted order none)
    (hstat : order.status = .ack) :
    Accounted cfg req ((submit cfg req).run (exec cfg) world) ↔ Recorded cfg world := by
  have hends : wp (exec cfg) (submit cfg req)
      (fun res fin ↦ Recorded cfg world ∧ res = submittedReceipt order ∧ KeyHeld cfg req fin)
      (fun err _ ↦ ¬ Recorded cfg world ∧ ∃ msg, err = .runtime msg) world := by
    refine wp_submit_placed hmade fun resv now hway ↦ ?_
    simp only [callVenue, wp_bind, wp_act, exec, World.venueSubmit, hway.submits, hans]
    have hcalled : Underway cfg
        { world with environment :=
          { world.environment with submits := world.environment.submits.rest } }
        req resv (gateAppends cfg)
        { now with
          venueAccepted := now.venueAccepted ++ [req]
          environment := { now.environment with submits := world.environment.submits.rest } } :=
      ⟨rfl, hway.appends, hway.stamps, hway.held⟩
    exact wp_mono (wp_acceptOrder_placed hcalled) (fun _ _ hret ↦ hret) fun _ _ hraise ↦ hraise
  rw [wp_iff_run] at hends
  obtain ⟨hreturns, hrse⟩ := hends
  constructor
  · rintro ⟨⟨receipt, hres, -⟩ | ⟨msg, hres⟩, -⟩
    · exact (hreturns _ hres).1
    · obtain ⟨-, other, hruntime⟩ := hrse _ hres
      cases hruntime
  · intro hrec
    cases hres : ((submit cfg req).run (exec cfg) world).1 with
    | error err => exact absurd hrec (hrse err hres).1
    | ok res =>
      obtain ⟨-, rfl, hheld⟩ := hreturns res hres
      exact ⟨Or.inl ⟨_, hres, hstat⟩, hheld⟩

variable {err : TradingError} {latch : Option Bool}

theorem accounted_crossed (hreg : StampRegular world) (hmade : PlacementMade cfg world req)
    (hans : world.environment.submits 0 req = .raised err latch venueHolds)
    (hcross : boundaryCrossed cfg err latch = true) :
    Accounted cfg req ((submit cfg req).run (exec cfg) world) := by
  have hends : wp (exec cfg) (submit cfg req) (fun _ _ ↦ False)
      (fun raised fin ↦ (∃ msg, raised = .orderSubmissionUnknown msg) ∧
        KeyHeld cfg req fin) world := by
    refine wp_submit_placed hmade fun resv now hway ↦ ?_
    simp only [callVenue, wp_bind, wp_act, exec, World.venueSubmit, hway.submits, hans]
    refine wp_submissionRaised_crossed (fun cid hkey hguard ↦ ?_) hcross
    exact (hway.holding hreg cid hkey hguard).frame rfl rfl
  rw [wp_iff_run] at hends
  cases hres : ((submit cfg req).run (exec cfg) world).1 with
  | ok res => exact (hends.1 res hres).elim
  | error raised =>
    obtain ⟨⟨msg, rfl⟩, hheld⟩ := hends.2 raised hres
    exact ⟨Or.inr ⟨msg, hres⟩, hheld⟩

theorem not_accounted_local (hmade : PlacementMade cfg world req)
    (hans : world.environment.submits 0 req = .raised err latch venueHolds)
    (hlocal : boundaryCrossed cfg err latch = false) :
    ¬ Accounted cfg req ((submit cfg req).run (exec cfg) world) := by
  have hends : wp (exec cfg) (submit cfg req)
      (fun res _ ↦ ∃ order, res = rejectedReceipt order err.message) (fun _ _ ↦ False)
      world := by
    refine wp_submit_placed hmade fun resv now hway ↦ ?_
    simp only [callVenue, wp_bind, wp_act, exec, World.venueSubmit, hway.submits, hans]
    exact wp_submissionRaised_local hlocal
  rw [wp_iff_run] at hends
  rintro ⟨⟨receipt, hres, hstat⟩ | ⟨msg, hres⟩, -⟩
  · obtain ⟨order, hrej⟩ := hends.1 _ hres
    cases hrej
    cases hstat
  · exact hends.2 _ hres

end Tradex.Execution.PlacementCall

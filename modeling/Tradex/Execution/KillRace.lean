import Tradex.Execution.KillSweep
import Tradex.Execution.PipelineActions
import Tradex.Execution.Risk

/-!
# The kill switch against a submission

A submission asks the kill switch once, at its intake, and the switch sweeps the orders that are
cached when it reads them.
-/

namespace Tradex.Execution.KillRace

open Tradex.Domain Engine Pool Protocol

inductive Stage where
  | intake
  | admitted
  | committed
  | sent (order : Order)
  | settled
  | raised

variable (cfg : EngineConfig)

def Stage.entry : Stage := if cfg.hasRisk then .admitted else .committed

def Stage.next : Stage → (op : Op) → op.Res → Stage
  | .intake, .killActive, active => if active then .settled else .entry cfg
  | .admitted, .riskCheck _, .ok true => .committed
  | .admitted, .riskCheck _, _ => .settled
  | .admitted, .storeAppend _, .error _ => .settled
  | .admitted, .updateOrder _, _ => .settled
  | .committed, .venueSubmit _, .accepted order none => .sent order
  | .committed, .venueSubmit _, _ => .raised
  | .committed, .storeAppend _, .error _ => .settled
  | .committed, .updateOrder _, _ => .settled
  | .sent _, .updateOrder _, _ => .settled
  | stage, _, _ => stage

def Stage.Safe : Stage → Prop
  | .committed => False
  | .sent _ => False
  | _ => True

def Harmless : Op → Prop
  | .venueSubmit _ => False
  | op => Closing op

variable (req : OrderRequest)

def Stage.Allows : Stage → Op → Prop
  | .intake, .killActive => True
  | .intake, _ => False
  | .committed, .venueSubmit submitted => submitted = req
  | .sent order, .updateOrder written => written = order
  | .sent _, _ => False
  | .raised, _ => True
  | _, op => Harmless op

def submission : Protocol Op Op.Res Stage where
  allowed := Stage.Allows req
  next := Stage.next cfg

def Stage.Ended : Stage → Prop
  | .intake => False
  | .sent _ => False
  | _ => True

section Follows

variable {cfg : EngineConfig} {req : OrderRequest} {stage : Stage} {op : Op}

theorem harmless_of_haltAction (hhalt : HaltAction op) : Harmless op := by
  cases op with
  | venueSubmit submitted => exact hhalt
  | _ => exact closing_of_haltAction hhalt

def Idle : Op → Prop
  | .feedReady => True
  | .checkAndReserve _ _ => True
  | .recordResult _ _ => True
  | .releaseOwn _ => True
  | .uuid4 => True
  | .publish _ => True
  | .stampCid _ _ => True
  | _ => False

theorem quiet_idle (hended : stage.Ended) : (submission cfg req).Quiet stage Idle := by
  intro op hidle
  cases stage <;> cases op <;> first | exact hidle.elim | exact hended.elim | exact ⟨trivial, fun _ ↦ rfl⟩

theorem quiet_settled : (submission cfg req).Quiet .settled Harmless := by
  intro op hharm
  refine ⟨?_, fun _ ↦ ?_⟩
  · cases op <;> exact hharm
  · cases op <;> rfl

theorem quiet_raised : (submission cfg req).Quiet .raised fun _ ↦ True := by
  intro op _
  refine ⟨?_, fun _ ↦ ?_⟩
  · cases op <;> exact True.intro
  · cases op <;> rfl

variable {Output : Type} {ev : DomainEvent}

theorem follows_step {next : op.Res → EngineProgram Output}
    {post : Stage → Except TradingError Output → Prop} (hallow : stage.Allows req op)
    (hnext : ∀ ans, (submission cfg req).Follows (stage.next cfg op ans) (next ans)
      post) : (submission cfg req).Follows stage (act op >>= next) post := ⟨hallow, hnext⟩

def Runs (cfg : EngineConfig) (req : OrderRequest) (stage : Stage) {Output : Type}
    (prog : EngineProgram Output) : Prop :=
  (submission cfg req).Follows stage prog fun final _ ↦ final.Ended

theorem runs_settled {prog : EngineProgram Output} {returned : Output → Prop}
    (hperf : prog.Performs Harmless returned) : Runs cfg req .settled prog :=
  follows_mono (follows_of_performs quiet_settled hperf) fun _ _ hfin ↦ by
    rw [hfin.1]
    trivial

theorem runs_raised (prog : EngineProgram Output) : Runs cfg req .raised prog := by
  have hperf : prog.Performs (fun _ ↦ True) fun _ ↦ True := by
    induction prog with
    | ret val | raise err => trivial
    | call op rest ih => exact ⟨trivial, ih⟩
  exact follows_mono (follows_of_performs quiet_raised hperf)
    fun _ _ hfin ↦ by
      rw [hfin.1]
      trivial

theorem runs_idle_bind {Input Output : Type} {prog : EngineProgram Input}
    {returned : Input → Prop} {next : Input → EngineProgram Output} (hended : stage.Ended)
    (hperf : prog.Performs Idle returned)
    (hnext : ∀ val, returned val → Runs cfg req stage (next val)) :
    Runs cfg req stage (prog >>= next) :=
  follows_quiet_bind (quiet_idle hended) hperf hnext fun _ ↦ hended

theorem follows_append_stage (hstage : stage = .admitted ∨ stage = .committed) :
    (submission cfg req).Follows stage (append cfg ev) fun fin out ↦
      out = .ok true ∧ fin = stage ∨ out ≠ .ok true ∧ fin = .settled := by
  have hquiet : ∀ err : TradingError, (submission cfg req).Quiet
      ((submission cfg req).next stage (.storeAppend ev) (.error err)) HaltAction := by
    intro err op hhalt
    rcases hstage with rfl | rfl <;> exact quiet_settled op (harmless_of_haltAction hhalt)
  refine follows_append ?_ hquiet (fun _ ↦ .inl ⟨rfl, rfl⟩) (fun done ↦ .inl ⟨rfl, ?_⟩)
    fun err out hfail ↦ .inr ⟨hfail, ?_⟩
  · rcases hstage with rfl | rfl <;> exact True.intro
  · rcases hstage with rfl | rfl <;> rfl
  · rcases hstage with rfl | rfl <;> rfl

theorem runs_append_bind (hstage : stage = .admitted ∨ stage = .committed)
    {next : Bool → EngineProgram Output} (hdur : Runs cfg req stage (next true))
    (hfailed : Runs cfg req .settled (next false)) :
    Runs cfg req stage (append cfg ev >>= next) := by
  refine follows_then (follows_append_stage hstage) ?_ ?_
  · rintro fin durable (⟨hok, rfl⟩ | ⟨hfail, rfl⟩)
    · cases hok
      exact hdur
    · cases durable with
      | true => exact absurd rfl hfail
      | false => exact hfailed
  · rintro fin err (⟨hok, -⟩ | ⟨-, rfl⟩)
    · cases hok
    · trivial

/-! ## The pipeline -/

theorem harmless_append (ev : DomainEvent) :
    Program.Performs Harmless (append cfg ev) fun _ ↦ True :=
  performs_append trivial fun _ ↦ harmless_of_haltAction

variable {resv : Option CorrelationId} {refused : OrderRequest}

theorem idle_releaseReservation :
    Program.Performs Idle (releaseReservation cfg resv) fun _ ↦ True :=
  Parts.releaseReservation composes_performs (fun _ ↦ performs_act trivial fun _ ↦ trivial) resv

theorem idle_makeOrder {req : OrderRequest} {status : OrderStatus} :
    Program.Performs Idle (makeOrder req status) fun order ↦ order.status = status :=
  performs_act_bind (by trivial) fun _ ↦ rfl

theorem harmless_of_idle (hidle : Idle op) : Harmless op := by
  cases op <;> first | exact hidle.elim | exact True.intro

theorem harmless_releaseReservation :
    Program.Performs Harmless (releaseReservation cfg resv) fun _ ↦ True :=
  Program.performs_weaken idle_releaseReservation fun _ ↦ harmless_of_idle

theorem harmless_rejected {order : Order} (hstat : order.status = .rejected) :
    Harmless (.updateOrder order) := by
  change order.status.isTerminal = true
  rw [hstat]
  rfl

theorem runs_rejectIntake (hstage : stage = .admitted ∨ stage = .committed ∨ stage = .settled)
    {why : String} : Runs cfg req stage (rejectIntake cfg refused why resv) := by
  have hended : stage.Ended := by rcases hstage with rfl | rfl | rfl <;> trivial
  refine runs_idle_bind hended idle_releaseReservation fun _ _ ↦ ?_
  refine runs_idle_bind hended idle_makeOrder fun order hstat ↦ ?_
  have hterm := harmless_rejected hstat
  have hrest : Program.Performs Harmless
      (do act (.publish (.orderRejected order why))
          let _ ← append cfg (.orderRejected order why)
          pure (rejectedReceipt order why) : EngineProgram IdempotencyResult) fun _ ↦ True :=
    performs_act_bind (by trivial) fun _ ↦ performs_then (harmless_append _) fun _ _ ↦ trivial
  rcases hstage with rfl | rfl | rfl
  · exact ⟨hterm, fun _ ↦ runs_settled hrest⟩
  · exact ⟨hterm, fun _ ↦ runs_settled hrest⟩
  · exact ⟨hterm, fun _ ↦ runs_settled hrest⟩

theorem harmless_riskRejected :
    Program.Performs Harmless (riskRejected cfg refused resv) fun _ ↦ True := by
  refine performs_then (Program.performs_weaken idle_makeOrder
    fun _ ↦ harmless_of_idle) fun order hstat ↦ ?_
  refine performs_act_bind (harmless_rejected hstat) fun _ ↦ ?_
  refine performs_then harmless_releaseReservation fun _ _ ↦ ?_
  refine performs_act_bind (by trivial) fun _ ↦ ?_
  refine performs_then (harmless_append _) fun _ _ ↦ ?_
  exact performs_then (harmless_append _) fun _ _ ↦ trivial

theorem runs_callVenue : Runs cfg req .committed (callVenue cfg req resv) := by
  refine ⟨rfl, fun out ↦ ?_⟩
  match out with
  | .accepted order none =>
    have hrec : Program.Performs Harmless (recordResult cfg resv (submittedReceipt order))
        fun _ ↦ True :=
      Parts.recordResult composes_performs (fun _ _ ↦ performs_act trivial fun _ ↦ trivial) _ _
    exact ⟨rfl, fun _ ↦ runs_settled (Parts.afterCaching composes_performs harmless_append order
      (performs_act trivial fun _ ↦ trivial) (fun _ ↦ performs_act trivial fun _ ↦ trivial)
      hrec)⟩
  | .accepted order (some fill) => exact runs_raised _
  | .raised err latch held => exact runs_raised _

theorem runs_dispatch : Runs cfg req .committed (dispatch cfg req resv) :=
  runs_append_bind (.inr rfl) runs_callVenue (runs_settled (show Program.Performs Harmless _
    fun _ ↦ True from performs_then harmless_releaseReservation fun _ _ ↦ trivial))

theorem follows_answered {prog : EngineProgram (Option Output)}
    (hperf : prog.Performs Harmless fun ans ↦ ans ≠ none) :
    (submission cfg req).Follows .settled prog fun fin out ↦
      out = .ok none ∧ fin = .committed ∨ out ≠ .ok none ∧ fin = .settled := by
  refine follows_mono (follows_of_performs quiet_settled hperf) ?_
  rintro fin out ⟨rfl, hret⟩
  exact .inr ⟨fun hnone ↦ hret none hnone rfl, rfl⟩

theorem follows_riskGate (resv : Option CorrelationId) :
    (submission cfg req).Follows (.entry cfg) (riskGate cfg req resv)
      fun fin out ↦
        out = .ok none ∧ fin = .committed ∨ out ≠ .ok none ∧ fin = .settled := by
  have hstop : ∀ err, Program.Performs Harmless
      (do releaseReservation cfg resv; .raise err :
        EngineProgram (Option IdempotencyResult)) fun ans ↦ ans ≠ none :=
    fun err ↦ performs_then harmless_releaseReservation fun _ _ ↦ trivial
  unfold riskGate Stage.entry
  split
  · refine follows_step trivial fun verdict ↦ ?_
    match verdict with
    | .error err => exact follows_answered (hstop err)
    | .ok false =>
      exact follows_answered (performs_then harmless_riskRejected
        fun receipt _ ↦ Option.some_ne_none receipt)
    | .ok true =>
      refine follows_then (follows_append_stage (.inr rfl)) ?_ ?_
      · rintro fin durable (⟨hok, rfl⟩ | ⟨hfail, rfl⟩)
        · cases hok
          exact .inl ⟨rfl, rfl⟩
        · cases durable with
          | true => exact absurd rfl hfail
          | false => exact follows_answered (hstop _)
      · rintro fin err (⟨hok, -⟩ | ⟨-, rfl⟩)
        · cases hok
        · exact .inr ⟨nofun, rfl⟩
  · exact .inl ⟨rfl, rfl⟩

theorem runs_afterReservation : Runs cfg req (.entry cfg) (afterReservation cfg req resv) := by
  refine follows_then (follows_riskGate resv) ?_ ?_
  · rintro fin ans (⟨hpass, rfl⟩ | ⟨hans, rfl⟩)
    · cases hpass
      dsimp only
      split
      · exact runs_rejectIntake (.inr (.inl rfl))
      · exact runs_dispatch
    · cases ans with
      | none => exact absurd rfl hans
      | some receipt => trivial
  · rintro fin err (⟨hpass, -⟩ | ⟨-, rfl⟩)
    · cases hpass
    · trivial

theorem idle_checkKey : Program.Performs Idle (checkKey cfg req) fun _ ↦ True := by
  unfold checkKey
  split
  · trivial
  · split
    · refine performs_act_bind (by trivial) fun ans ↦ ?_
      split <;> trivial
    · trivial

theorem entry_cases {cfg : EngineConfig} :
    Stage.entry cfg = .admitted ∨ Stage.entry cfg = .committed := by
  unfold Stage.entry
  split
  · exact .inl rfl
  · exact .inr rfl

theorem ended_entry {cfg : EngineConfig} : (Stage.entry cfg).Ended := by
  rcases entry_cases with hent | hent <;> rw [hent] <;> trivial

theorem follows_intakeRefusal :
    (submission cfg req).Follows .intake (intakeRefusal cfg) fun fin out ↦
      (out = .ok none → fin = .entry cfg) ∧ (fin = .entry cfg ∨ fin = .settled) := by
  refine follows_step trivial fun active ↦ ?_
  cases active with
  | true => exact ⟨nofun, .inr rfl⟩
  | false =>
    simp only [Bool.false_eq_true, if_false]
    refine follows_mono (follows_of_performs (quiet_idle ended_entry)
      (?_ : Program.Performs Idle _ fun _ ↦ True)) fun fin out hfin ↦
        ⟨fun _ ↦ hfin.1, .inl hfin.1⟩
    split
    · trivial
    · split
      · refine performs_act_bind (by trivial) fun ready ↦ ?_
        split
        · trivial
        · split <;> trivial
      · refine Program.performs_bind (Program.performs_pure.2 ?_)
        split
        · trivial
        · split <;> trivial

theorem runs_runPipelineBody : Runs cfg req .intake (runPipelineBody cfg req) := by
  have hstage : ∀ {fin : Stage}, fin = .entry cfg ∨ fin = .settled →
      fin = .admitted ∨ fin = .committed ∨ fin = .settled := by
    rintro fin (rfl | rfl)
    · exact entry_cases.imp_right .inl
    · exact .inr (.inr rfl)
  refine follows_then follows_intakeRefusal ?_ ?_
  · rintro fin refusal ⟨hpass, hfin⟩
    cases refusal with
    | some why => exact runs_rejectIntake (hstage hfin)
    | none =>
      obtain rfl := hpass rfl
      refine runs_idle_bind ended_entry idle_checkKey fun key _ ↦ ?_
      cases key with
      | answered res => exact ended_entry
      | proceed resv => exact runs_afterReservation
  · rintro fin err ⟨-, hfin⟩
    rcases hstage hfin with rfl | rfl | rfl <;> trivial

theorem runs_submit : Runs cfg req .intake (submit cfg req) := by
  apply follows_tryCatch
  apply follows_mono runs_runPipelineBody
  intro fin out hended
  cases out with
  | ok res => exact hended
  | error err =>
    exact runs_idle_bind hended (performs_act (by trivial) fun _ ↦ trivial) fun _ _ ↦ hended

end Follows

inductive Party where
  | submitter
  | halter
deriving DecidableEq

abbrev Outcome := IdempotencyResult ⊕ List String

def submitThread : EngineProgram Outcome := do
  let receipt ← submit cfg req
  pure (.inl receipt)

def tripThread (why : String) : EngineProgram Outcome := do
  let failures ← tripKillSwitch cfg why
  pure (.inr failures)

def sweepThread (orders : List Order) : EngineProgram Outcome := do
  let failures ← cancelAll cfg (append cfg) orders
  pure (.inr failures)

abbrev RacePool := Pool Party Op Op.Res TradingError Outcome World

def racers (why : String) (world : World) :
    RacePool where
  shared := world
  threads
    | .submitter => submitThread cfg req
    | .halter => tripThread cfg why

def isSnapshot : Op → Bool
  | .allOrders => true
  | _ => false

def ClosedGate (ans : Except TradingError Bool) : Prop :=
  ∃ (mgr : Risk.RiskManager) (prov : Risk.Providers) (st : Risk.RiskState)
    (now : Option Risk.Instant), mgr.liveOrdersEnabled = false ∧
      ans = (Risk.decision mgr prov st req now).map Option.isNone

theorem ClosedGate.not_approved {req : OrderRequest} {ans : Except TradingError Bool}
    (hclose : ClosedGate req ans) : ans ≠ .ok true := by
  obtain ⟨mgr, prov, st, now, hdisabled, rfl⟩ := hclose
  have hgate : Risk.masterGate mgr = .ok (some .liveOrdersDisabled) := by
    rw [Risk.masterGate, hdisabled]
    rfl
  have href : Risk.firstRefusal (Risk.statelessGates mgr prov req now) =
      .ok (some .liveOrdersDisabled) := by
    unfold Risk.statelessGates Risk.earlyGates Risk.firstRefusal
    rw [hgate]
    rfl
  unfold Risk.decision Risk.check
  split
  · intro happr
    cases happr
  · rw [href]
    intro happr
    cases happr

inductive Race (cfg : EngineConfig) (start : RacePool) : Stage → Bool → RacePool → Prop
  | start : Race cfg start .intake false start
  | submitter {stage : Stage} {swept : Bool} {pool : RacePool} {op : Op}
      {rest : op.Res → EngineProgram Outcome} (hrace : Race cfg start stage swept pool)
      (hnext : pool.threads .submitter = .call op rest)
      (hgate : swept = true → ∀ request, op = .riskCheck request →
        ClosedGate request (pool.shared.environment.risks 0)) :
      Race cfg start (stage.next cfg op (exec cfg op pool.shared).1) swept
        (pool.step (exec cfg) .submitter)
  | halter {stage : Stage} {swept : Bool} {pool : RacePool} {op : Op}
      {rest : op.Res → EngineProgram Outcome} (hrace : Race cfg start stage swept pool)
      (hnext : pool.threads .halter = .call op rest) (hsafe : isSnapshot op = true → stage.Safe) :
      Race cfg start stage (swept || isSnapshot op) (pool.step (exec cfg) .halter)

def Unsent (start world : World) : Prop :=
  world.venueAccepted = start.venueAccepted ∧ world.environment.submits = start.environment.submits

def Stage.Fits (start : World) (order : Order) : Stage → World → Prop
  | .sent acknowledged, _ => acknowledged = order
  | .settled, world => Unsent start world ∨ Cached order.orderId world
  | .raised, _ => False
  | _, world => Unsent start world

section Step

variable {cfg : EngineConfig} {req : OrderRequest} {start world : World} {order : Order}
  {stage : Stage} {op : Op}

theorem unsent_exec (hharm : Harmless op) (hpend : Unsent start world) :
    Unsent start (exec cfg op world).2 := by
  refine World.kept_exec _ (fun _ _ _ _ ↦ hpend) ?_ fun hplain ↦ ?_
  · rintro fill fee rfl
    exact hharm.elim
  · cases op <;> first | exact hplain.elim | exact hharm.elim | exact hpend

theorem closing_of_harmless (hharm : Harmless op) : Closing op := by
  cases op with
  | venueSubmit submitted => trivial
  | _ => exact hharm

theorem killActive_exec (hact : world.killActive = true) :
    (exec cfg op world).2.killActive = true := by
  refine World.kept_exec (fun world ↦ world.killActive = true) (fun _ _ _ _ ↦ hact)
    (fun _ _ _ _ _ _ ↦ hact) fun hplain ↦ ?_
  cases op <;> first | exact hplain.elim | exact hact | rfl

theorem fits_exec (hharm : Harmless op) (hfits : stage.Fits start order world) :
    stage.Fits start order (exec cfg op world).2 := by
  cases stage with
  | sent acknowledged | raised => exact hfits
  | settled => exact hfits.imp (unsent_exec hharm) (keeps_exec (closing_of_harmless hharm)).cached
  | _ => exact unsent_exec hharm hfits

variable {ans : op.Res}

theorem fits_next_admitted (hpend : Unsent start world) :
    (Stage.next cfg .admitted op ans).Fits start order world := by
  cases op with
  | riskCheck asked =>
    rcases ans with err | (_ | _)
    · exact .inl hpend
    · exact .inl hpend
    · exact hpend
  | storeAppend ev =>
    cases ans with
    | error err => exact .inl hpend
    | ok done => exact hpend
  | updateOrder written => exact .inl hpend
  | _ => exact hpend

theorem fits_next_committed (hharm : Harmless op) (hpend : Unsent start world) :
    (Stage.next cfg .committed op ans).Fits start order world := by
  cases op with
  | venueSubmit submitted => exact hharm.elim
  | storeAppend ev =>
    cases ans with
    | error err => exact .inl hpend
    | ok done => exact hpend
  | updateOrder written => exact .inl hpend
  | _ => exact hpend

theorem fits_next (hans : start.environment.submits 0 req = .accepted order none)
    (hallow : stage.Allows req op) (hfits : stage.Fits start order world) :
    (stage.next cfg op (exec cfg op world).1).Fits start order (exec cfg op world).2 := by
  cases stage with
  | intake =>
    cases op with
    | killActive =>
      change (if world.killActive = true then Stage.settled else Stage.entry cfg).Fits _ _ world
      split
      · exact .inl hfits
      · rcases entry_cases with hent | hent <;> rw [hent] <;> exact hfits
    | _ => exact hallow.elim
  | admitted =>
    have hharm : Harmless op := by cases op <;> exact hallow
    exact fits_next_admitted (unsent_exec hharm hfits)
  | committed =>
    by_cases hsub : ∃ submitted, op = .venueSubmit submitted
    · obtain ⟨submitted, rfl⟩ := hsub
      obtain rfl : submitted = req := hallow
      have hanswered : (exec cfg (.venueSubmit submitted) world).1 = .accepted order none := by
        change world.environment.submits 0 submitted = _
        rw [hfits.2, hans]
      rw [hanswered]
      rfl
    · have hharm : Harmless op := by
        cases op with
        | venueSubmit submitted => exact absurd ⟨submitted, rfl⟩ hsub
        | _ => exact hallow
      exact fits_next_committed hharm (unsent_exec hharm hfits)
  | sent acknowledged =>
    cases op with
    | updateOrder written =>
      obtain rfl : written = acknowledged := hallow
      obtain rfl : written = order := hfits
      exact .inr ⟨written, TradingCache.getOrder_updateOrder_self _ _⟩
    | _ => exact hallow.elim
  | settled =>
    have hharm : Harmless op := by cases op <;> exact hallow
    have hstays : Stage.next cfg .settled op (exec cfg op world).1 = .settled := by cases op <;> rfl
    exact fits_exec hharm hfits
  | raised => exact hfits.elim

theorem harmless_of_safe (hallow : stage.Allows req op) (hsafe : stage.Safe)
    (hfits : stage.Fits start order world) : Harmless op := by
  cases stage with
  | intake => cases op <;> first | exact hallow.elim | exact True.intro
  | admitted | settled => cases op <;> exact hallow
  | committed | sent acknowledged => exact hsafe.elim
  | raised => exact hfits.elim

theorem safe_next (hallow : stage.Allows req op) (hsafe : stage.Safe)
    (hact : world.killActive = true)
    (hgate : ∀ asked, op = .riskCheck asked → ClosedGate asked (world.environment.risks 0)) :
    (stage.next cfg op (exec cfg op world).1).Safe := by
  cases stage with
  | intake =>
    cases op with
    | killActive =>
      change (if world.killActive = true then Stage.settled else Stage.entry cfg).Safe
      rw [if_pos hact]
      trivial
    | _ => exact hallow.elim
  | admitted =>
    cases op with
    | riskCheck asked =>
      have hver : (exec cfg (.riskCheck asked) world).1 ≠ .ok true := (hgate asked rfl).not_approved
      revert hver
      generalize (exec cfg (.riskCheck asked) world).1 = verdict
      intro hver
      rcases verdict with err | (_ | _)
      · trivial
      · trivial
      · exact absurd rfl hver
    | storeAppend ev =>
      generalize (exec cfg (.storeAppend ev) world).1 = stored
      cases stored <;> trivial
    | _ => trivial
  | settled | raised => cases op <;> trivial
  | committed | sent acknowledged => exact hsafe.elim

end Step

def Reported (target : String) (out : Outcome) (world : World) : Prop :=
  ∃ failures, out = .inr failures ∧ (Closed target world ∨ target ∈ failures)

structure Sweeping (cfg : EngineConfig) (start : World) (order : Order) (stage : Stage)
    (pool : RacePool) : Prop where
  safe : stage.Safe
  active : pool.shared.killActive = true
  halts : Program.Performs HaltAction (pool.threads .halter) fun _ ↦ True
  accounted : Unsent start pool.shared ∨ stage = .settled ∧
    Program.Withstands (exec cfg) (Keeps order.orderId) (pool.threads .halter)
      (Reported order.orderId) (fun _ _ ↦ False) pool.shared

structure Racing (cfg : EngineConfig) (request : OrderRequest) (reason : String) (start : World)
    (order : Order) (stage : Stage) (swept : Bool) (pool : RacePool) : Prop where
  runs : Runs cfg request stage (pool.threads .submitter)
  fits : stage.Fits start order pool.shared
  waiting : swept = false → pool.threads .halter = tripThread cfg reason ∨
    pool.shared.killActive = true ∧ pool.threads .halter = (act .allOrders >>= sweepThread cfg)
  sweeping : swept = true → Sweeping cfg start order stage pool

section Race

variable {cfg : EngineConfig} {req : OrderRequest} {why : String} {start : World}
  {order : Order} {stage : Stage} {swept : Bool} {pool : RacePool} {op : Op}
  {rest : op.Res → EngineProgram Outcome}

theorem racing_start (hpend : Unsent start start) :
    Racing cfg req why start order .intake false (racers cfg req why start) where
  runs := by exact follows_then runs_submit (fun _ _ hended ↦ hended) fun _ _ hended ↦ hended
  fits := hpend
  waiting _ := .inl rfl
  sweeping hswept := by cases hswept

theorem Sweeping.submitter (hsweep : Sweeping cfg start order stage pool)
    (hallow : stage.Allows req op) (hfits : stage.Fits start order pool.shared)
    (hnext : pool.threads .submitter = .call op rest)
    (hgate : ∀ asked, op = .riskCheck asked → ClosedGate asked (pool.shared.environment.risks 0)) :
    Sweeping cfg start order (stage.next cfg op (exec cfg op pool.shared).1)
      (pool.step (exec cfg) .submitter) := by
  have hharm : Harmless op := harmless_of_safe hallow hsweep.safe hfits
  have hother : (pool.step (exec cfg) .submitter).threads .halter = pool.threads .halter :=
    step_threads_of_ne (by decide)
  have hshare : (pool.step (exec cfg) .submitter).shared = (exec cfg op pool.shared).2 :=
    step_shared hnext
  refine ⟨safe_next hallow hsweep.safe hsweep.active hgate, ?_, ?_, ?_⟩
  · rw [hshare]
    exact killActive_exec hsweep.active
  · rw [hother]
    exact hsweep.halts
  · rw [hother, hshare]
    refine hsweep.accounted.imp (unsent_exec hharm) ?_
    rintro ⟨rfl, hwith⟩
    refine ⟨by cases op <;> rfl, ?_⟩
    exact hwith.later (keeps_trans _) (keeps_exec (closing_of_harmless hharm))

theorem Sweeping.halter (hsweep : Sweeping cfg start order stage pool)
    (hnext : pool.threads .halter = .call op rest) :
    Sweeping cfg start order stage (pool.step (exec cfg) .halter) := by
  have hhalt := hsweep.halts
  rw [hnext] at hhalt
  refine ⟨hsweep.safe, ?_, ?_, ?_⟩
  · rw [step_shared hnext]
    exact killActive_exec hsweep.active
  · rw [step_threads_self hnext]
    exact hhalt.2 _
  · rw [step_threads_self hnext, step_shared hnext]
    refine hsweep.accounted.imp (unsent_exec (harmless_of_haltAction hhalt.1)) ?_
    rintro ⟨hsettle, hwith⟩
    rw [hnext] at hwith
    exact ⟨hsettle, hwith _ (keeps_refl _ _)⟩

theorem sweeping_of_snapshot (hsafe : stage.Safe) (hfits : stage.Fits start order pool.shared)
    (hact : pool.shared.killActive = true)
    (hnext : pool.threads .halter = (act .allOrders >>= sweepThread cfg)) :
    Sweeping cfg start order stage (pool.step (exec cfg) .halter) := by
  have htid : (pool.step (exec cfg) .halter).threads .halter =
      sweepThread cfg pool.shared.cache.allOrders := step_threads_self hnext
  have hshare : (pool.step (exec cfg) .halter).shared = pool.shared := step_shared hnext
  refine ⟨hsafe, by rwa [hshare], ?_, ?_⟩
  · rw [htid]
    exact performs_then (performs_cancelAll (appendHalts_append)) fun _ _ ↦ trivial
  · rw [htid, hshare]
    cases stage with
    | intake | admitted => exact .inl hfits
    | committed | sent acknowledged => exact hsafe.elim
    | raised => exact hfits.elim
    | settled =>
      refine hfits.imp_right fun hcache ↦ ⟨rfl, ?_⟩
      refine Program.withstands_bind (keeps_refl _) ?_
      refine (withstands_sweep (appendHalts_append) hcache).mono ?_ fun _ _ hfalse ↦ hfalse
      exact fun failures fin hfin later hlate ↦
        ⟨failures, rfl, hfin.imp_left hlate.closed⟩

theorem Racing.submitter (hans : start.environment.submits 0 req = .accepted order none)
    (hrace : Racing cfg req why start order stage swept pool)
    (hnext : pool.threads .submitter = .call op rest)
    (hgate : swept = true → ∀ asked, op = .riskCheck asked →
      ClosedGate asked (pool.shared.environment.risks 0)) :
    Racing cfg req why start order (stage.next cfg op (exec cfg op pool.shared).1) swept
      (pool.step (exec cfg) .submitter) := by
  have hruns := hrace.runs
  rw [hnext] at hruns
  have hallow : stage.Allows req op := hruns.1
  have hother : (pool.step (exec cfg) .submitter).threads .halter = pool.threads .halter :=
    step_threads_of_ne (by decide)
  refine ⟨?_, ?_, fun hwait ↦ ?_, fun hswept ↦ ?_⟩
  · rw [step_threads_self hnext]
    exact hruns.2 _
  · rw [step_shared hnext]
    exact fits_next hans hallow hrace.fits
  · rw [hother, step_shared hnext]
    exact (hrace.waiting hwait).imp_right (.imp_left killActive_exec)
  · exact (hrace.sweeping hswept).submitter hallow hrace.fits hnext (hgate hswept)

theorem Racing.halter (hrace : Racing cfg req why start order stage swept pool)
    (hnext : pool.threads .halter = .call op rest) (hsafe : isSnapshot op = true → stage.Safe) :
    Racing cfg req why start order stage (swept || isSnapshot op)
      (pool.step (exec cfg) .halter) := by
  have hother : (pool.step (exec cfg) .halter).threads .submitter = pool.threads .submitter :=
    step_threads_of_ne (by decide)
  have hruns : Runs cfg req stage ((pool.step (exec cfg) .halter).threads .submitter) := by
    rw [hother]
    exact hrace.runs
  cases swept with
  | false =>
    rcases hrace.waiting rfl with htid | ⟨hact, htid⟩
    · rw [htid] at hnext
      cases hnext
      have hshare : (pool.step (exec cfg) .halter).shared =
          (exec cfg (.setKill why) pool.shared).2 := step_shared htid
      refine ⟨hruns, ?_, fun _ ↦ .inr ⟨?_, ?_⟩, fun hswept ↦ by cases hswept⟩
      · rw [hshare]
        exact fits_exec trivial hrace.fits
      · rw [hshare]
        rfl
      · exact step_threads_self htid
    · rw [htid] at hnext
      cases hnext
      refine ⟨hruns, ?_, fun hwait ↦ (by cases hwait), fun _ ↦ ?_⟩
      · rw [step_shared htid]
        exact hrace.fits
      · exact sweeping_of_snapshot (hsafe rfl) hrace.fits hact htid
  | true =>
    have hsweep := hrace.sweeping rfl
    have hhalt := hsweep.halts
    rw [hnext] at hhalt
    refine ⟨hruns, ?_, fun hwait ↦ (by cases hwait), fun _ ↦ hsweep.halter hnext⟩
    rw [step_shared hnext]
    exact fits_exec (harmless_of_haltAction hhalt.1) hrace.fits

theorem racing_of_race (hans : start.environment.submits 0 req = .accepted order none)
    (hrace : Race cfg (racers cfg req why start) stage swept pool) :
    Racing cfg req why start order stage swept pool := by
  induction hrace with
  | start => exact racing_start ⟨rfl, rfl⟩
  | submitter hrace hnext hgate ih => exact ih.submitter hans hnext hgate
  | halter hrace hnext hsafe ih => exact ih.halter hnext hsafe

end Race

def Finished {Output : Type} : EngineProgram Output → Prop
  | .call _ _ => False
  | _ => True

/-- Unless `trip` lists the orders while a submission is under way, no order is left working
unreported after the halt. -/
theorem halted_order_not_working {cfg : EngineConfig} {req : OrderRequest} {why : String}
    {start : World} {order : Order} {stage : Stage} {swept : Bool} {pool : RacePool}
    (hanswer : start.environment.submits 0 req = .accepted order none)
    (hrace : Race cfg (racers cfg req why start) stage swept pool)
    (hdone : ∀ party, Finished (pool.threads party)) :
    pool.shared.venueAccepted = start.venueAccepted ∨ Closed order.orderId pool.shared ∨
      ∃ failures, pool.threads .halter = .ret (.inr failures) ∧ order.orderId ∈ failures := by
  have hracing := racing_of_race hanswer hrace
  have hhalted := hdone .halter
  cases swept with
  | false =>
    rcases hracing.waiting rfl with hthread | ⟨-, hthread⟩
    · rw [hthread] at hhalted
      exact hhalted.elim
    · rw [hthread] at hhalted
      exact hhalted.elim
  | true =>
    rcases (hracing.sweeping rfl).accounted with hpend | ⟨-, hfirm⟩
    · exact .inl hpend.1
    · cases hthread : pool.threads .halter with
      | call op rest =>
        rw [hthread] at hhalted
        exact hhalted.elim
      | raise err =>
        rw [hthread] at hfirm
        exact (hfirm _ (keeps_refl _ _)).elim
      | ret out =>
        rw [hthread] at hfirm
        obtain ⟨failures, rfl, hrep⟩ := hfirm _ (keeps_refl _ _)
        exact .inr (hrep.imp_right fun hfailed ↦ ⟨failures, rfl, hfailed⟩)

instance : (stage : Stage) → Decidable stage.Safe
  | .committed => .isFalse id
  | .sent _ => .isFalse id
  | .intake => .isTrue trivial
  | .admitted => .isTrue trivial
  | .settled => .isTrue trivial
  | .raised => .isTrue trivial

instance {Output : Type} : (prog : EngineProgram Output) → Decidable (Finished prog)
  | .call _ _ => .isFalse id
  | .ret _ => .isTrue trivial
  | .raise _ => .isTrue trivial

instance (target : String) (world : World) : Decidable (Closed target world) :=
  decidable_of_iff ((world.cache.getOrder target).any fun order ↦ order.status.isTerminal) (by
    unfold Closed
    cases world.cache.getOrder target <;> simp)

def isRiskCheck : Op → Bool
  | .riskCheck _ => true
  | _ => false

def staysSafe (cfg : EngineConfig) : Stage → Bool → RacePool → List Party → Bool
  | _, _, _, [] => true
  | stage, swept, pool, .submitter :: rest =>
    match pool.threads .submitter with
    | .call op _ =>
      !(swept && isRiskCheck op) &&
        staysSafe cfg (stage.next cfg op (exec cfg op pool.shared).1) swept
          (pool.step (exec cfg) .submitter) rest
    | _ => staysSafe cfg stage swept (pool.step (exec cfg) .submitter) rest
  | stage, swept, pool, .halter :: rest =>
    match pool.threads .halter with
    | .call op _ =>
      (!isSnapshot op || decide stage.Safe) &&
        staysSafe cfg stage (swept || isSnapshot op) (pool.step (exec cfg) .halter) rest
    | _ => staysSafe cfg stage swept (pool.step (exec cfg) .halter) rest

theorem race_runSchedule {cfg : EngineConfig} {start pool : RacePool} {stage : Stage} {swept : Bool}
    {sched : List Party} (hrace : Race cfg start stage swept pool)
    (hsafe : staysSafe cfg stage swept pool sched = true) :
    ∃ last done, Race cfg start last done (pool.runSchedule (exec cfg) sched) := by
  induction sched generalizing stage swept pool with
  | nil => exact ⟨stage, swept, hrace⟩
  | cons party rest ih =>
    cases party with
    | submitter =>
      unfold staysSafe at hsafe
      split at hsafe
      next op next hnext =>
        rw [Bool.and_eq_true] at hsafe
        refine ih (.submitter hrace hnext fun hswept asked hop ↦ ?_) hsafe.2
        rw [hswept, hop] at hsafe
        cases hsafe.1
      next hfin => exact ih (by rwa [step_of_finished hfin]) hsafe
    | halter =>
      unfold staysSafe at hsafe
      split at hsafe
      next op next hnext =>
        rw [Bool.and_eq_true] at hsafe
        refine ih (.halter hrace hnext fun hsnapshot ↦ ?_) hsafe.2
        simpa [hsnapshot] using hsafe.1
      next hfin => exact ih (by rwa [step_of_finished hfin]) hsafe

def purchase : OrderRequest :=
  OrderRequest.plain ⟨"NSE:INFY"⟩ .buy .market 10 none Decimal.ten_pos

def acknowledging : World :=
  World.constructed (.obliging fun req ↦ .accepted (createOrder req "order-1" .ack 0) none)

def tripAfter (count : ℕ) : RacePool :=
  (racers .standard purchase "halt" acknowledging).runSchedule (exec .standard)
    (List.replicate count .submitter ++ List.replicate 12 .halter ++ List.replicate 12 .submitter)

def reportedBy (pool : RacePool) : Option (List String) :=
  match pool.threads .halter with
  | .ret (.inr failures) => some failures
  | _ => none

theorem sent_order_left_working :
    Finished ((tripAfter 3).threads .submitter) ∧ Finished ((tripAfter 3).threads .halter) ∧
      (tripAfter 3).shared.venueAccepted.length = 1 ∧
      ((tripAfter 3).shared.cache.getOrder "order-1").map Order.status = some .ack ∧
      reportedBy (tripAfter 3) = some [] := by
  decide +kernel

theorem cached_order_closed :
    (tripAfter 4).shared.venueAccepted = acknowledging.venueAccepted ∨
      Closed "order-1" (tripAfter 4).shared ∨
      ∃ failures, (tripAfter 4).threads .halter = .ret (.inr failures) ∧
        "order-1" ∈ failures := by
  have hsafe : staysSafe .standard .intake false (racers .standard purchase "halt" acknowledging)
      (List.replicate 4 .submitter ++ List.replicate 12 .halter ++ List.replicate 12 .submitter) =
        true := by
    decide +kernel
  obtain ⟨stage, swept, hrace⟩ := race_runSchedule .start hsafe
  have hanswer : acknowledging.environment.submits 0 purchase =
      .accepted (createOrder purchase "order-1" .ack 0) none := rfl
  have hdone : ∀ party, Finished ((tripAfter 4).threads party) := by
    intro party
    cases party <;> decide +kernel
  exact halted_order_not_working hanswer hrace hdone

end Tradex.Execution.KillRace

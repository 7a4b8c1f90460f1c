import Tradex.Execution.Halting
import Tradex.Execution.PipelineActions

/-!
# The keys behind the orders of the book

An accepted order is stamped with the key of its submission.
-/

namespace Tradex.Execution.KeyStamps

open Tradex.Domain Engine Program

def StampsCompleted (world : World) : Prop :=
  ∀ oid cid, world.cidForOrder.get oid = some cid →
    world.guard.completed.get cid.key ≠ none

def NeverFills (env : Environment) : Prop :=
  ∀ index req order fill, env.submits index req = .accepted order fill → fill = none

structure StampRegular (world : World) : Prop where
  stamps : StampsCompleted world
  venue : NeverFills world.environment

def NoStamp : Op → Prop
  | .stampCid _ _ => False
  | _ => True

section Actions

variable {cfg : EngineConfig} {world : World} {after : World}

theorem StampsCompleted.frame (hstmp : StampsCompleted world)
    (hcid : ∀ oid cid, after.cidForOrder.get oid = some cid →
      world.cidForOrder.get oid = some cid)
    (hcompl : ∀ key, world.guard.completed.get key ≠ none →
      after.guard.completed.get key ≠ none) : StampsCompleted after :=
  fun oid cid hget ↦ hcompl _ (hstmp oid cid (hcid _ _ hget))

theorem StampRegular.frame (hreg : StampRegular world)
    (hcid : after.cidForOrder = world.cidForOrder)
    (hcompl : after.guard.completed = world.guard.completed)
    (hsub : after.environment.submits = world.environment.submits) : StampRegular after where
  stamps := hreg.stamps.frame (fun _ _ hget ↦ hcid ▸ hget) fun _ hkey ↦ hcompl ▸ hkey
  venue := by
    unfold NeverFills
    rw [hsub]
    exact hreg.venue

theorem completed_checkAndReserve {guard : MemoryIdempotencyGuard} {cid : CorrelationId}
    {hash : Option String} :
    (guard.checkAndReserve cid hash).2.completed = guard.completed := by
  rcases guard.checkAndReserve_cases with ⟨ans, -, heq⟩ | ⟨-, -, heq⟩
  · rw [heq]
  · rw [heq]
    rfl

theorem regular_exec (op : Op) (world : World) (hfree : NoStamp op) (hreg : StampRegular world) :
    StampRegular (exec cfg op world).2 := by
  refine World.kept_exec _ (fun _ _ _ _ ↦ hreg.frame rfl rfl rfl)
    (fun _ _ _ _ _ _ ↦ hreg.frame rfl rfl rfl) fun hplain ↦ ?_
  cases op with
  | stampCid oid cid => exact hfree.elim
  | checkAndReserve cid hash => exact hreg.frame rfl completed_checkAndReserve rfl
  | recordResult cid res =>
    refine ⟨hreg.stamps.frame (fun _ _ ↦ id) fun key hkey ↦ ?_, hreg.venue⟩
    rw [exec, MemoryIdempotencyGuard.get_completed_recordResult]
    split
    · exact Option.some_ne_none _
    · exact hkey
  | popCid oid =>
    refine ⟨hreg.stamps.frame (fun other cid hget ↦ ?_) fun _ ↦ id, hreg.venue⟩
    rw [exec, Dict.get_erase] at hget
    split at hget
    · cases hget
    · exact hget
  | venueSubmit req => exact ⟨hreg.stamps, fun index ↦ hreg.venue (index + 1)⟩
  | _ => first | exact hplain.elim | exact hreg.frame rfl rfl rfl

def StampFree {Output : Type} (prog : EngineProgram Output) : Prop :=
  prog.Performs NoStamp fun _ ↦ True

theorem StampFree.keeps {Output : Type} {prog : EngineProgram Output}
    (hfree : StampFree prog) : Program.Keeps (exec cfg) StampRegular prog :=
  keeps_of_performs regular_exec hfree

end Actions

section

variable {cfg : EngineConfig} {Input Output : Type}

theorem stampFree_act {op : Op} (hop : NoStamp op) : StampFree (act op) :=
  performs_act hop fun _ ↦ trivial

theorem stampFree_ofExcept {out : Except TradingError Output} : StampFree (ofExcept out) :=
  performs_ofExcept fun _ _ ↦ trivial

theorem StampFree.bind {prog : EngineProgram Input} {next : Input → EngineProgram Output}
    (hprog : StampFree prog) (hnext : ∀ val, StampFree (next val)) :
    StampFree (prog >>= next) :=
  composes_performs.bind hprog hnext

theorem stampFree_sweep (op : Op) (hsweep : SweepAction op) : StampFree (act op) := by
  cases op with
  | stampCid oid cid => exact hsweep.elim
  | _ => exact stampFree_act trivial

theorem stampFree_releaseSubmitKey (oid : String) : StampFree (releaseSubmitKey cfg oid) := by
  refine performs_weaken performs_releaseSubmitKey fun op hhalt ↦ ?_
  cases op with
  | stampCid oid cid => exact hhalt
  | _ => trivial

theorem stampFree_append (ev : DomainEvent) : StampFree (append cfg ev) :=
  Parts.append composes_performs stampFree_sweep stampFree_releaseSubmitKey ev

theorem stampFree_releaseReservation {resv : Option CorrelationId} :
    StampFree (releaseReservation cfg resv) :=
  Parts.releaseReservation composes_performs (fun _ ↦ stampFree_act trivial) resv

theorem stampFree_recordResult (cid : Option CorrelationId)
    (res : IdempotencyResult) : StampFree (recordResult cfg cid res) :=
  Parts.recordResult composes_performs (fun _ _ ↦ stampFree_act trivial) cid res

theorem stampFree_reserveOwn (cid : Option CorrelationId) (hash : String) :
    StampFree (reserveOwn cfg cid hash) :=
  Parts.reserveOwn composes_performs (fun _ _ ↦ stampFree_act trivial) cid hash

variable {req : OrderRequest} {resv : Option CorrelationId} {oid : String}

theorem stampFree_makeOrder {status : OrderStatus} : StampFree (makeOrder req status) :=
  (stampFree_act (by trivial)).bind fun _ ↦ trivial

theorem stampFree_rejectIntake {why : String} : StampFree (rejectIntake cfg req why resv) :=
  (stampFree_releaseReservation).bind fun _ ↦
    stampFree_makeOrder.bind fun _ ↦
      (stampFree_act (by trivial)).bind fun _ ↦ (stampFree_act (by trivial)).bind fun _ ↦
        (stampFree_append _).bind fun _ ↦ trivial

theorem performs_checkKey :
    (checkKey cfg req).Performs NoStamp fun key ↦
      ∀ resv, key = .proceed resv → resv ≠ none → cfg.hasGuard = true := by
  have hans : ∀ res : IdempotencyResult,
      ∀ resv, KeyCheck.answered res = .proceed resv → resv ≠ none →
        cfg.hasGuard = true := fun _ _ heq ↦ nomatch heq
  have hnone : ∀ resv, KeyCheck.proceed none = .proceed resv → resv ≠ none →
      cfg.hasGuard = true := by
    intro resv heq hsome
    cases heq
    exact absurd rfl hsome
  unfold checkKey
  split
  · exact hnone
  · split
    · rename_i hguard
      refine performs_act_bind (by trivial) fun ans ↦ ?_
      split
      · exact fun _ _ _ ↦ hguard
      · exact hans _
      · exact hans _
      · trivial
    · exact hnone

theorem stampFree_riskRejected : StampFree (riskRejected cfg req resv) :=
  stampFree_makeOrder.bind fun _ ↦ (stampFree_act (by trivial)).bind fun _ ↦
    (stampFree_releaseReservation).bind fun _ ↦ (stampFree_act (by trivial)).bind fun _ ↦
      (stampFree_append _).bind fun _ ↦ (stampFree_append _).bind fun _ ↦ trivial

theorem stampFree_riskGate : StampFree (riskGate cfg req resv) := by
  unfold riskGate
  split
  · refine (stampFree_act (by trivial)).bind fun verdict ↦ ?_
    split
    · exact (stampFree_releaseReservation).bind fun _ ↦ trivial
    · exact stampFree_riskRejected.bind fun _ ↦ trivial
    · refine (stampFree_append _).bind fun durable ↦ ?_
      split
      · trivial
      · exact (stampFree_releaseReservation).bind fun _ ↦ trivial
  · trivial

theorem stampFree_submissionRaised {err : TradingError} {latch : Option Bool} :
    StampFree (submissionRaised cfg req resv err latch) := by
  unfold submissionRaised
  split
  · exact (stampFree_append _).bind fun _ ↦ stampFree_makeOrder.bind fun _ ↦
      stampFree_ofExcept.bind fun _ ↦ (stampFree_act (by trivial)).bind fun _ ↦
        (stampFree_append _).bind fun _ ↦ StampFree.bind (Parts.tripKillSwitch
          composes_performs stampFree_sweep stampFree_releaseSubmitKey _) fun _ ↦ trivial
  · exact stampFree_rejectIntake

theorem stampFree_cancel {cid : Option CorrelationId} : StampFree (cancel cfg oid cid) :=
  Parts.cancelWith composes_performs stampFree_sweep stampFree_releaseSubmitKey stampFree_append
    oid cid (stampFree_reserveOwn cid)
    (stampFree_releaseReservation) (stampFree_recordResult cid)

theorem stampFree_modify : StampFree (Engine.modify cfg oid req) := by
  have hbody : StampFree (modifyBody cfg oid req) :=
    Parts.modifyBody composes_performs stampFree_append stampFree_sweep
      (fun _ ↦ stampFree_act trivial) (fun _ _ ↦ stampFree_act trivial) oid req
  have hreleasing : StampFree (releasingOnFailure cfg req.correlationId
      (modifyBody cfg oid req)) :=
    composes_performs.tryCatch hbody fun _ ↦ StampFree.bind (stampFree_releaseReservation)
      fun _ ↦ trivial
  refine (stampFree_reserveOwn _ _).bind fun replay ↦ ?_
  split
  · trivial
  · exact hreleasing.bind fun _ ↦ (stampFree_recordResult _ _).bind fun _ ↦ trivial

theorem stampFree_applyFill {fill : Fill} {charge : Option Decimal} :
    StampFree (Engine.applyFill cfg fill charge) := by
  refine Parts.applyFill composes_performs (fun op hbook ↦ ?_) stampFree_append fill charge
  cases op with
  | stampCid oid cid => exact hbook.elim
  | _ => exact stampFree_act trivial

end

section

variable {cfg : EngineConfig}

theorem keeps_stamped (hguard : cfg.hasGuard = true) {order : Order} {cid : CorrelationId}
    {res : IdempotencyResult} :
    Program.Keeps (exec cfg) StampRegular (do
      act (.stampCid order.orderId cid)
      recordResult cfg (some cid) res
      pure res : EngineProgram IdempotencyResult) := by
  intro world hreg
  simp only [wp_bind, wp_act, exec, recordResult, hguard, if_true]
  refine ⟨fun oid other hget ↦ ?_, hreg.venue⟩
  rw [MemoryIdempotencyGuard.get_completed_recordResult]
  rw [Dict.get_set] at hget
  split
  · exact Option.some_ne_none _
  · rename_i hother
    split at hget
    · cases hget
      exact absurd rfl hother
    · exact hreg.stamps oid other hget

variable {req : OrderRequest} {resv : Option CorrelationId}

section

variable (hguard : resv ≠ none → cfg.hasGuard = true)

include hguard

theorem keeps_acceptOrder {order : Order} :
    Program.Keeps (exec cfg) StampRegular (acceptOrder cfg req resv order none) := by
  refine (stampFree_act (by trivial)).keeps.bind fun _ ↦ ?_
  refine (stampFree_act (by trivial)).keeps.bind fun _ ↦ ?_
  refine (stampFree_append _).keeps.bind fun placed ↦ ?_
  split
  · refine (stampFree_append _).keeps.bind fun acknowledged ↦ ?_
    split
    · cases resv with
      | none => exact StampFree.keeps ((stampFree_recordResult none _).bind fun _ ↦ trivial)
      | some cid => exact keeps_stamped (hguard (Option.some_ne_none _))
    · exact keeps_raise _
  · exact keeps_raise _

theorem keeps_callVenue : Program.Keeps (exec cfg) StampRegular (callVenue cfg req resv) := by
  intro world hreg
  have hafter : StampRegular (world.venueSubmit req).2 :=
    @regular_exec cfg (.venueSubmit req) world trivial hreg
  simp only [callVenue, wp_bind, wp_act, exec]
  cases hout : (world.venueSubmit req).1 with
  | accepted order fill =>
    obtain rfl : fill = none := hreg.venue 0 req order fill hout
    exact keeps_acceptOrder hguard _ hafter
  | raised err latch venueHolds => exact stampFree_submissionRaised.keeps _ hafter

theorem keeps_afterReservation :
    Program.Keeps (exec cfg) StampRegular (afterReservation cfg req resv) := by
  refine stampFree_riskGate.keeps.bind fun rejected ↦ ?_
  split
  · exact keeps_pure _
  · split
    · exact stampFree_rejectIntake.keeps
    · refine (stampFree_append _).keeps.bind fun durable ↦ ?_
      split
      · exact keeps_callVenue hguard
      · exact StampFree.keeps ((stampFree_releaseReservation).bind fun _ ↦ trivial)

end

theorem keeps_submit : Program.Keeps (exec cfg) StampRegular (submit cfg req) := by
  have hbody : Program.Keeps (exec cfg) StampRegular (runPipelineBody cfg req) := by
    refine (StampFree.keeps (Parts.intakeRefusal composes_performs (stampFree_act trivial)
      (stampFree_act trivial))).bind fun refusal ↦ ?_
    split
    · exact stampFree_rejectIntake.keeps
    · intro world hreg
      rw [wp_bind]
      refine wp_mono
        (wp_of_performs regular_exec performs_checkKey hreg) ?_
        fun _ _ hfin ↦ hfin
      rintro key fin ⟨hkey, hfin⟩
      cases key with
      | answered res => exact hfin
      | proceed resv => exact keeps_afterReservation (hkey resv rfl) fin hfin
  exact hbody.tryCatch fun _ ↦ StampFree.keeps ((stampFree_act (by trivial)).bind fun _ ↦ trivial)

theorem keeps_call {call : EngineCall} : Program.Keeps (exec cfg) StampRegular (call.program cfg) := by
  have hdone : ∀ _ : IdempotencyResult,
      Program.Keeps (exec cfg) StampRegular (pure () : EngineProgram Unit) :=
    fun _ ↦ keeps_pure ()
  cases call with
  | submit req => exact keeps_submit.bind hdone
  | cancel oid cid => exact stampFree_cancel.keeps.bind hdone
  | modify oid req => exact stampFree_modify.keeps.bind hdone
  | inbound fill charge => exact stampFree_applyFill.keeps

inductive Reached (cfg : EngineConfig) (start : World) : World → Prop where
  | start : Reached cfg start start
  | call {world : World} (call : EngineCall) (hreached : Reached cfg start world) :
      Reached cfg start (call.run cfg world).2

theorem regular_reached {start world : World} (hstart : StampRegular start)
    (hreach : Reached cfg start world) : StampRegular world := by
  induction hreach with
  | start => exact hstart
  | call call _ ih => exact keeps_call.run ih

theorem regular_of_unstamped {world : World} (hstmp : world.cidForOrder = Dict.empty)
    (hvenue : NeverFills world.environment) : StampRegular world := by
  refine ⟨fun oid cid hget ↦ ?_, hvenue⟩
  rw [hstmp] at hget
  cases hget

end

variable {cfg : EngineConfig} {key : String} {world : World}

structure Reserves (key : String) (world : World) : Prop where
  reserved : key ∈ world.guard.reserved
  unstamped : ∀ orderId cid, world.cidForOrder.get orderId = some cid →
    cid.key ≠ key

theorem Reserves.frame {after : World} (hresv : Reserves key world)
    (hguard : after.guard = world.guard) (hcid : after.cidForOrder = world.cidForOrder) :
    Reserves key after := by
  refine ⟨?_, ?_⟩
  · rw [hguard]
    exact hresv.reserved
  · rw [hcid]
    exact hresv.unstamped

theorem reserves_sweep (op : Op) (world : World) (hsweep : SweepAction op)
    (hresv : Reserves key world) : Reserves key (exec cfg op world).2 := by
  refine World.kept_exec _ (fun _ _ _ _ ↦ hresv.frame rfl rfl)
    (fun _ _ _ _ _ _ ↦ hresv.frame rfl rfl) fun hplain ↦ ?_
  cases op <;> first | exact hplain.elim | exact hsweep.elim | exact hresv.frame rfl rfl

theorem keptByHalting_reserves : KeptByHalting cfg (Reserves key) where
  action := reserves_sweep
  release := by
    intro oid world hresv
    have hpop : Reserves key (exec cfg (.popCid oid) world).2 := by
      refine ⟨hresv.reserved, fun other cid hget ↦ ?_⟩
      rw [exec, Dict.get_erase] at hget
      split at hget
      · cases hget
      · exact hresv.unstamped other cid hget
    simp only [releaseSubmitKey, wp_bind, wp_act, exec]
    cases hstamp : world.cidForOrder.get oid with
    | none => exact hpop
    | some cid =>
      dsimp only
      split
      · refine ⟨(MemoryIdempotencyGuard.mem_reserved_release _ _ _).2
          ⟨fun hsame ↦ ?_, hresv.reserved⟩, hpop.unstamped⟩
        exact hresv.unstamped oid cid hstamp hsame.symm
      · exact hpop

theorem reserves_of_regular {after : World} (hreg : StampRegular world)
    (hstmp : after.cidForOrder = world.cidForOrder) (hnew : world.guard.completed.get key = none)
    (hresv : key ∈ after.guard.reserved) : Reserves key after := by
  refine ⟨hresv, fun oid cid hget hsame ↦ ?_⟩
  rw [hstmp] at hget
  rw [← hsame] at hnew
  exact hreg.stamps oid cid hget hnew

end Tradex.Execution.KeyStamps

import Tradex.Execution.HaltingActions
import Tradex.Foundation.Interference

/-!
# The parts of the pipeline

A property of programs that composes holds of a part of the pipeline if it holds of
the actions that the part performs. Each part is taken apart here once, for all such
properties.
-/

namespace Tradex.Execution.Engine

open Tradex.Domain

def SweepAction : Op → Prop
  | .killActive => True
  | .setKill _ => True
  | .getOrder _ => True
  | .allOrders => True
  | .updateOrder _ => True
  | .publish _ => True
  | .venueCancel _ => True
  | .venueCancelSuper _ => True
  | .storeAppend _ => True
  | _ => False

def BookingAction : Op → Prop
  | .seenFill _ => True
  | .getOrder _ => True
  | .computeFee _ => True
  | .requireCash _ _ => True
  | .recordFill _ => True
  | .applyFillEffect _ _ => True
  | .warnOverfill _ => True
  | .updateOrder _ => True
  | .publish _ => True
  | _ => False

section Properties

variable {allowed : Op → Prop}

theorem composes_performs : Program.Composes fun {Output} (prog : EngineProgram Output) ↦
    prog.Performs allowed fun _ ↦ True where
  pure _ := trivial
  raise _ := trivial
  bind hprog hnext := performs_then hprog fun val _ ↦ hnext val
  tryCatch := Program.performs_tryCatch

theorem composes_performsIf {possible : (op : Op) → op.Res → Prop} :
    Program.Composes fun {Output} (prog : EngineProgram Output) ↦
      prog.PerformsIf possible allowed where
  pure _ := trivial
  raise _ := trivial
  bind := Program.performsIf_bind
  tryCatch := Program.performsIf_tryCatch

end Properties

namespace Parts

variable {prop : {Output : Type} → EngineProgram Output → Prop}
  (hcomp : Program.Composes prop) {cfg : EngineConfig}

include hcomp

section

variable (hact : ∀ op, SweepAction op → prop (act op)) {persist : DomainEvent → EngineProgram Bool}

include hact

theorem venueCancel (order : Order) (oid : String) : prop (Engine.venueCancel cfg order oid) := by
  unfold Engine.venueCancel
  split
  · split
    · exact hcomp.bind (hact _ trivial) fun ans ↦ hcomp.ofExcept ans
    · exact hcomp.raise _
  · split
    · exact hcomp.bind (hact _ trivial) fun ans ↦ hcomp.ofExcept ans
    · exact hcomp.pure _

variable (hrel : ∀ oid, prop (releaseSubmitKey cfg oid))
  (hpersist : ∀ ev, prop (persist ev))

include hpersist

theorem cancelAtVenue (oid : String) : prop (Engine.cancelAtVenue cfg persist oid) := by
  refine hcomp.bind (hact _ trivial) fun found ↦ ?_
  split
  · exact hcomp.raise _
  · exact hcomp.bind (hcomp.ofExcept _) fun _ ↦ hcomp.bind (hpersist _) fun _ ↦
      hcomp.bind (venueCancel hcomp hact _ _) fun _ ↦ hcomp.pure _

include hrel

theorem cancelWith (oid : String) (cid : Option CorrelationId)
    (hresv : ∀ hash, prop (reserveOwn cfg cid hash))
    (hreturn : prop (releaseReservation cfg cid))
    (hrec : ∀ res, prop (recordResult cfg cid res)) :
    prop (Engine.cancelWith cfg persist oid cid) := by
  refine hcomp.bind (hresv _) fun replay ↦ ?_
  split
  · exact hcomp.pure _
  · refine hcomp.bind (hcomp.tryCatch (cancelAtVenue hcomp hact hpersist oid)
      fun _ ↦ hcomp.bind hreturn fun _ ↦ hcomp.raise _) fun cancelled ↦ ?_
    refine hcomp.bind (hact _ trivial) fun _ ↦ ?_
    refine hcomp.bind (hact _ trivial) fun _ ↦ ?_
    exact hcomp.bind (hpersist _) fun _ ↦ hcomp.bind (hrel oid) fun _ ↦
      hcomp.bind (hrec _) fun _ ↦ hcomp.pure _

theorem cancelAll (orders : List Order) : prop (Engine.cancelAll cfg persist orders) := by
  induction orders with
  | nil => exact hcomp.pure _
  | cons order rest ih =>
    have hcanc := cancelWith hcomp hact hrel hpersist order.orderId none
      (fun _ ↦ hcomp.pure _) (hcomp.pure _) fun _ ↦ hcomp.pure _
    have hrest : ∀ failed : List String, prop (do
        let others ← Engine.cancelAll cfg persist rest
        pure (failed ++ others) : EngineProgram (List String)) :=
      fun _ ↦ hcomp.bind ih fun _ ↦ hcomp.pure _
    unfold Engine.cancelAll
    split
    · exact hrest []
    · exact hcomp.bind (hcomp.tryCatch (hcomp.bind hcanc fun _ ↦ hcomp.pure _)
        fun _ ↦ hcomp.pure _) hrest

theorem tripWith (why : String) : prop (Engine.tripWith cfg persist why) :=
  hcomp.bind (hact _ trivial) fun _ ↦ hcomp.bind (hact _ trivial) fun orders ↦
    cancelAll hcomp hact hrel hpersist orders

omit hrel hpersist

theorem appendWith {trip : String → EngineProgram (List String)}
    (htrip : ∀ why, prop (trip why)) (ev : DomainEvent) :
    prop (Engine.appendWith cfg trip ev) := by
  have hreport : ∀ err, prop
      (do act (.publish (.errorOccurred err)); pure false : EngineProgram Bool) :=
    fun err ↦ hcomp.bind (hact _ trivial) fun _ ↦ hcomp.pure _
  unfold Engine.appendWith
  split
  · refine hcomp.bind (hact _ trivial) fun ans ↦ ?_
    split
    · exact hcomp.pure _
    · unfold appendFailed
      split
      · refine hcomp.bind (hact _ trivial) fun active ↦ ?_
        split
        · exact hreport _
        · exact hcomp.bind (htrip _) fun _ ↦ hreport _
      · exact hcomp.pure _
  · exact hcomp.pure _

include hrel

theorem appendAt (depth : ℕ) (ev : DomainEvent) : prop (Engine.appendAt cfg depth ev) := by
  induction depth generalizing ev with
  | zero =>
    exact appendWith hcomp hact
      (fun why ↦ hcomp.bind (hact (.setKill why) trivial) fun _ ↦ hcomp.pure _) ev
  | succ depth ih => exact appendWith hcomp hact (tripWith hcomp hact hrel ih) ev

theorem append (ev : DomainEvent) : prop (Engine.append cfg ev) :=
  appendAt hcomp hact hrel cfg.tripDepth ev

theorem tripKillSwitch (why : String) : prop (Engine.tripKillSwitch cfg why) :=
  tripWith hcomp hact hrel (append hcomp hact hrel) why

end

theorem releaseReservation (hact : ∀ cid, prop (act (.releaseOwn cid)))
    (resv : Option CorrelationId) : prop (Engine.releaseReservation cfg resv) := by
  unfold Engine.releaseReservation
  split
  · split
    · exact hact _
    · exact hcomp.pure _
  · exact hcomp.pure _

theorem recordResult (hact : ∀ cid res, prop (act (.recordResult cid res)))
    (cid : Option CorrelationId) (res : IdempotencyResult) :
    prop (Engine.recordResult cfg cid res) := by
  unfold Engine.recordResult
  split
  · split
    · exact hact _ _
    · exact hcomp.pure _
  · exact hcomp.pure _

theorem reserveOwn (hact : ∀ cid hash, prop (act (.checkAndReserve cid hash)))
    (cid : Option CorrelationId) (hash : String) :
    prop (Engine.reserveOwn cfg cid hash) := by
  unfold Engine.reserveOwn
  split
  · exact hcomp.pure _
  · split
    · refine hcomp.bind (hact _ _) fun ans ↦ ?_
      split
      · exact hcomp.pure _
      · exact hcomp.pure _
      · exact hcomp.raise _
    · exact hcomp.pure _

theorem intakeRefusal (hkill : prop (act .killActive)) (hready : prop (act .feedReady)) :
    prop (Engine.intakeRefusal cfg) := by
  have hrest : ∀ ready : Bool, prop
      (if !ready then pure (some "feed_not_ready")
        else if cfg.requireRisk && !cfg.hasRisk then pure (some "RISK_UNBOUND")
        else pure none : EngineProgram (Option String)) := by
    intro ready
    split
    · exact hcomp.pure _
    · split <;> exact hcomp.pure _
  refine hcomp.bind hkill fun active ↦ ?_
  split
  · exact hcomp.pure _
  · split
    · exact hcomp.pure _
    · dsimp only
      split
      · exact hcomp.bind hready hrest
      · exact hrest true

theorem afterCaching (hpersist : ∀ ev, prop (Engine.append cfg ev)) (order : Order)
    (hpub : prop (act (.publish (.orderPlaced order))))
    (hstamp : ∀ cid, prop (act (.stampCid order.orderId cid)))
    {resv : Option CorrelationId} {res : IdempotencyResult}
    (hrec : prop (Engine.recordResult cfg resv res)) :
    prop (do
      act (.publish (.orderPlaced order))
      let placed ← Engine.append cfg (.orderPlaced order)
      if placed then
        let acknowledged ← Engine.append cfg (.brokerOrderAcknowledged order)
        if acknowledged then
          match resv with
          | some cid => act (.stampCid order.orderId cid)
          | none => pure ()
          Engine.recordResult cfg resv res
          pure res
        else .raise (.runtime "order_ack_not_durable")
      else .raise (.runtime "order_placed_not_durable") : EngineProgram IdempotencyResult) := by
  have hcompl := hcomp.bind hrec fun _ ↦ hcomp.pure res
  refine hcomp.bind hpub fun _ ↦ hcomp.bind (hpersist _) fun placed ↦ ?_
  split
  · refine hcomp.bind (hpersist _) fun acknowledged ↦ ?_
    split
    · cases resv with
      | none => exact hcompl
      | some cid => exact hcomp.bind (hstamp cid) fun _ ↦ hcompl
    · exact hcomp.raise _
  · exact hcomp.raise _

theorem modifyBody (hpersist : ∀ ev, prop (Engine.append cfg ev))
    (hact : ∀ op, SweepAction op → prop (act op))
    (hrisk : ∀ req, prop (act (.riskCheck req)))
    (hmodify : ∀ oid req, prop (act (.venueModify oid req))) (oid : String)
    (req : OrderRequest) : prop (Engine.modifyBody cfg oid req) := by
  have hchk : prop (modifyRisk cfg oid req) := by
    unfold modifyRisk
    split
    · refine hcomp.bind (hrisk _) fun verdict ↦ ?_
      split
      · exact hcomp.raise _
      · exact hcomp.pure _
      · exact hcomp.raise _
    · exact hcomp.pure _
  have hrec : ∀ order, prop (recordModified cfg order) := fun order ↦
    hcomp.bind (hact _ trivial) fun _ ↦ hcomp.bind (hact _ trivial) fun _ ↦
      hcomp.bind (hpersist _) fun _ ↦ hcomp.pure _
  refine hcomp.bind (hact _ trivial) fun found ↦ ?_
  split
  · exact hcomp.raise _
  · split
    · exact hcomp.raise _
    · refine hcomp.bind hchk fun _ ↦ ?_
      split
      · exact hcomp.bind (hmodify _ _) fun ans ↦
          hcomp.bind (hcomp.ofExcept ans) fun _ ↦ hrec _
      · exact hrec _

theorem advanceOrder (hwarn : ∀ warning, prop (act (.warnOverfill warning)))
    (hupd : ∀ order, prop (act (.updateOrder order))) (old : Option Order)
    (fill : Fill) : prop (Engine.advanceOrder old fill) := by
  have hfill : ∀ order, prop (do
      let filled ← Program.ofExcept (filledOrder order fill)
      act (.updateOrder filled)
      pure filled : EngineProgram Order) := fun order ↦
    hcomp.bind (hcomp.ofExcept _) fun _ ↦
      hcomp.bind (hupd _) fun _ ↦ hcomp.pure _
  unfold Engine.advanceOrder onOrderFilled
  split
  · refine hcomp.bind ?_ fun _ ↦ hcomp.pure _
    split
    · exact hcomp.bind (hwarn _) fun _ ↦ hfill _
    · exact hfill _
  · exact hcomp.bind (hcomp.ofExcept _) fun _ ↦ hupd _

theorem applyFill (hact : ∀ op, BookingAction op → prop (act op))
    (hpersist : ∀ ev, prop (Engine.append cfg ev)) (fill : Fill)
    (charge : Option Decimal) : prop (Engine.applyFill cfg fill charge) := by
  have hfee : prop (recordedOrComputedFee cfg fill charge) := by
    unfold recordedOrComputedFee Engine.computeFee
    split
    · exact hcomp.pure _
    · split
      · exact hcomp.pure _
      · exact hcomp.bind (hact _ trivial) fun ans ↦ hcomp.ofExcept ans
  have hcash : ∀ fee, prop (requireCashForFill cfg fill fee) := by
    intro fee
    unfold requireCashForFill
    split
    · exact hcomp.pure _
    · refine hcomp.bind (hact _ trivial) fun ans ↦ ?_
      split
      · exact hcomp.pure _
      · exact hcomp.bind (hact _ trivial) fun _ ↦ hcomp.raise _
  have heffect : ∀ fee, prop (applyFillEffect cfg fill fee) := by
    intro fee
    unfold applyFillEffect
    split
    · exact hcomp.pure _
    · exact hcomp.bind (hact _ trivial) fun ans ↦ hcomp.ofExcept ans
  refine hcomp.bind (hact _ trivial) fun seen ↦ ?_
  split
  · exact hcomp.pure _
  · refine hcomp.bind (hact _ trivial) fun old ↦ ?_
    split
    · exact hcomp.pure _
    · refine hcomp.bind hfee fun fee ↦ hcomp.bind (hcash fee) fun _ ↦
        hcomp.bind (hpersist _) fun durable ↦ ?_
      split
      · exact hcomp.bind (hact _ trivial) fun _ ↦ hcomp.bind (heffect fee) fun _ ↦
          advanceOrder hcomp (fun _ ↦ hact _ trivial) (fun _ ↦ hact _ trivial) old fill
      · exact hcomp.pure _

end Parts

structure KeptByHalting (cfg : EngineConfig) (kept : World → Prop) : Prop where
  action : ∀ op world, SweepAction op → kept world → kept (exec cfg op world).2
  release : ∀ orderId, Program.Keeps (exec cfg) kept (releaseSubmitKey cfg orderId)

namespace KeptByHalting

variable {cfg : EngineConfig} {kept : World → Prop}

theorem act (hkept : KeptByHalting cfg kept) (op : Op) (hsweep : SweepAction op) :
    Program.Keeps (exec cfg) kept (Engine.act op) :=
  fun world hworld ↦ hkept.action op world hsweep hworld

theorem append (hkept : KeptByHalting cfg kept) (ev : DomainEvent) :
    Program.Keeps (exec cfg) kept (Engine.append cfg ev) :=
  Parts.append Program.composes_keeps hkept.act hkept.release ev

theorem tripKillSwitch (hkept : KeptByHalting cfg kept) (why : String) :
    Program.Keeps (exec cfg) kept (Engine.tripKillSwitch cfg why) :=
  Parts.tripKillSwitch Program.composes_keeps hkept.act hkept.release why

end KeptByHalting

end Tradex.Execution.Engine

import Tradex.Execution.Engine
import Tradex.Foundation.Protocol

/-!
# The actions of the kill switch

Which actions the kill switch, a cancellation without a key and the failure path of an
append may perform: none of them calls the venue with an order, books a fill, or
persists anything but cancellations.
-/

namespace Tradex.Execution.Engine

open Tradex.Domain Program

def HaltAction : Op → Prop
  | .killActive => True
  | .setKill _ => True
  | .getOrder _ => True
  | .allOrders => True
  | .updateOrder order => order.status = .cancelled
  | .publish _ => True
  | .popCid _ => True
  | .releaseSubmitKey _ => True
  | .venueCancel _ => True
  | .venueCancelSuper _ => True
  | .storeAppend (.cancelRequested _) => True
  | .storeAppend (.orderCancelled order) => order.status = .cancelled
  | _ => False

variable {cfg : EngineConfig} {ev : DomainEvent}

section Performs

variable {cfg : EngineConfig} {append : DomainEvent → EngineProgram Bool} {allowed : Op → Prop}

theorem performs_act {op : Op} (hallow : allowed op) {post : op.Res → Prop}
    (hpost : ∀ ans, post ans) : Program.Performs allowed (act op) post :=
  ⟨hallow, hpost⟩

variable {Output : Type}

theorem performs_act_bind {op : Op} (hallow : allowed op)
    {next : op.Res → EngineProgram Output} {post : Output → Prop}
    (hnext : ∀ ans, Program.Performs allowed (next ans) post) :
    Program.Performs allowed (act op >>= next) post :=
  performs_bind (performs_act hallow hnext)

theorem performs_then {Input : Type} {first : EngineProgram Input}
    {next : Input → EngineProgram Output} {middle : Input → Prop} {post : Output → Prop}
    (hfst : Program.Performs allowed first middle)
    (hnext : ∀ val, middle val → Program.Performs allowed (next val) post) :
    Program.Performs allowed (first >>= next) post :=
  performs_bind (performs_mono hfst hnext)

def AppendHalts (append : DomainEvent → EngineProgram Bool) : Prop :=
  ∀ ev, HaltAction (.storeAppend ev) → Program.Performs HaltAction (append ev) fun _ ↦ True

variable {oid : String} {trip : String → EngineProgram (List String)}

theorem performs_venueCancel {order : Order} :
    Program.Performs HaltAction (venueCancel cfg order oid) fun _ ↦ True := by
  unfold venueCancel
  split
  · split
    · refine performs_act_bind (by trivial) (fun ans ↦ ?_)
      exact performs_ofExcept fun _ _ ↦ trivial
    · trivial
  · split
    · refine performs_act_bind (by trivial) (fun ans ↦ ?_)
      exact performs_ofExcept fun _ _ ↦ trivial
    · trivial

theorem performs_cancelAtVenue (happ : AppendHalts append) :
    Program.Performs HaltAction (cancelAtVenue cfg append oid)
      fun cancelled ↦ cancelled.status = .cancelled := by
  refine performs_act_bind (by trivial) (fun found ↦ ?_)
  cases found with
  | none => trivial
  | some order =>
    refine performs_bind (performs_ofExcept fun cancelled htrans ↦ ?_)
    have hstat : cancelled.status = .cancelled := by rw [(transitionTo_ok htrans).2]
    refine performs_then (happ _ trivial) fun _ _ ↦ ?_
    refine performs_then performs_venueCancel fun _ _ ↦ ?_
    exact hstat

theorem performs_releaseSubmitKey :
    Program.Performs HaltAction (releaseSubmitKey cfg oid) fun _ ↦ True := by
  refine performs_act_bind (by trivial) (fun submitKey ↦ ?_)
  cases submitKey with
  | none => trivial
  | some cid =>
    dsimp only
    split
    · exact performs_act (by trivial) fun _ ↦ trivial
    · trivial

theorem performs_cancelWith_none (happ : AppendHalts append) :
    Program.Performs HaltAction (cancelWith cfg append oid none) fun _ ↦ True := by
  refine performs_bind (performs_pure.2 ?_)
  refine performs_then (performs_tryCatch (performs_cancelAtVenue happ)
    fun _ ↦ trivial) fun cancelled hstat ↦ ?_
  refine performs_act_bind hstat (fun _ ↦ ?_)
  refine performs_act_bind (by trivial) (fun _ ↦ ?_)
  refine performs_then (happ _ hstat) fun _ _ ↦ ?_
  exact performs_then performs_releaseSubmitKey fun _ _ ↦ trivial

theorem performs_cancelAll (happ : AppendHalts append) {orders : List Order} :
    Program.Performs HaltAction (cancelAll cfg append orders) fun _ ↦ True := by
  induction orders with
  | nil => trivial
  | cons order rest ih =>
    have hrest : ∀ failed : List String, Program.Performs HaltAction
        (do let others ← cancelAll cfg append rest; pure (failed ++ others)) fun _ ↦ True :=
      fun failed ↦ performs_then ih fun _ _ ↦ trivial
    unfold cancelAll
    split
    · exact hrest []
    · have hcanc : Program.Performs HaltAction
          (tryCatch (fun _ ↦ pure [order.orderId]) do
            let _ ← cancelWith cfg append order.orderId none
            pure []) fun _ ↦ True :=
        performs_tryCatch
          (performs_then (performs_cancelWith_none happ) fun _ _ ↦ trivial)
          fun _ ↦ trivial
      exact performs_then hcanc fun failed _ ↦ hrest failed

theorem performs_tripWith (happ : AppendHalts append) (why : String) :
    Program.Performs HaltAction (tripWith cfg append why) fun _ ↦ True := by
  refine performs_act_bind (by trivial) (fun _ ↦ ?_)
  refine performs_act_bind (by trivial) (fun orders ↦ ?_)
  exact performs_cancelAll happ

variable (htrip : ∀ why, Program.Performs HaltAction (trip why) fun _ ↦ True)

include htrip in
theorem performs_appendFailed {err : TradingError} :
    Program.Performs HaltAction (appendFailed cfg trip err) fun durable ↦ durable = false := by
  have hreport : Program.Performs HaltAction
      (do act (.publish (.errorOccurred err)); pure false : EngineProgram Bool)
      fun durable ↦ durable = false :=
    performs_act_bind (by trivial) fun _ ↦ rfl
  unfold appendFailed
  split
  · refine performs_act_bind (by trivial) fun active ↦ ?_
    split
    · exact hreport
    · exact performs_then (htrip _) fun _ _ ↦ hreport
  · exact performs_pure.2 rfl

include htrip in
theorem appendHalts_appendWith : AppendHalts (appendWith cfg trip) := by
  intro ev hev
  unfold appendWith
  split
  · refine performs_act_bind hev fun ans ↦ ?_
    cases ans with
    | ok _ => trivial
    | error err => exact performs_mono (performs_appendFailed htrip) fun _ _ ↦ trivial
  · trivial

def tripAt (cfg : EngineConfig) : ℕ → String → EngineProgram (List String)
  | 0, why => do act (.setKill why); pure []
  | depth + 1, why => tripWith cfg (appendAt cfg depth) why

theorem appendAt_eq (depth : ℕ) : appendAt cfg depth = appendWith cfg (tripAt cfg depth) := by
  cases depth with
  | zero | succ depth => rfl

theorem performs_tripAt (depth : ℕ) (why : String) :
    Program.Performs HaltAction (tripAt cfg depth why) fun _ ↦ True := by
  induction depth generalizing why with
  | zero => exact performs_act_bind (by trivial) fun _ ↦ trivial
  | succ depth ih =>
    refine performs_tripWith ?_ why
    rw [appendAt_eq]
    exact appendHalts_appendWith ih

theorem appendHalts_append : AppendHalts (Engine.append cfg) := by
  intro ev hev
  rw [Engine.append, appendAt_eq]
  exact appendHalts_appendWith (performs_tripAt cfg.tripDepth) ev hev

theorem performs_append (hev : allowed (.storeAppend ev))
    (hhalt : ∀ op, HaltAction op → allowed op) :
    Program.Performs allowed (Engine.append cfg ev) fun _ ↦ True := by
  rw [Engine.append, appendAt_eq]
  unfold appendWith
  split
  · refine performs_act_bind hev fun ans ↦ ?_
    cases ans with
    | ok _ => trivial
    | error err =>
      exact performs_mono (performs_weaken
        (performs_appendFailed (performs_tripAt cfg.tripDepth)) hhalt) fun _ _ ↦ trivial
  · trivial

theorem performs_tripKillSwitch {why : String} :
    Program.Performs HaltAction (tripKillSwitch cfg why) fun _ ↦ True :=
  performs_tripWith (appendHalts_append) why

end Performs

theorem follows_append {Phase : Type} {protocol : Protocol Op Op.Res Phase} {phase : Phase}
    {post : Phase → Except TradingError Bool → Prop}
    (hallow : protocol.allowed phase (.storeAppend ev))
    (hquiet : ∀ err, protocol.Quiet (protocol.next phase (.storeAppend ev) (.error err))
      HaltAction) (hplain : cfg.hasStore = false → post phase (.ok true))
    (hdur : ∀ done, post (protocol.next phase (.storeAppend ev) (.ok done)) (.ok true))
    (hfail : ∀ err out, out ≠ .ok true →
      post (protocol.next phase (.storeAppend ev) (.error err)) out) :
    protocol.Follows phase (append cfg ev) post := by
  rw [Engine.append, appendAt_eq]
  unfold appendWith
  split
  · refine ⟨hallow, fun ans ↦ ?_⟩
    cases ans with
    | ok done => exact hdur done
    | error err =>
      refine Protocol.follows_mono (Protocol.follows_of_performs (hquiet err)
        (performs_appendFailed (performs_tripAt cfg.tripDepth))) ?_
      rintro fin out ⟨rfl, hret⟩
      refine hfail err out fun htrue ↦ ?_
      exact absurd (hret true htrue) Bool.true_eq_false.mp
  · rename_i hstore
    exact hplain (Bool.eq_false_iff.2 hstore)

end Tradex.Execution.Engine

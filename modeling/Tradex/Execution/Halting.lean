import Tradex.Execution.EngineRules

/-!
# Appends, cancellations and the kill switch

A failed append may trip the kill switch, which cancels every open order, and each cancellation
appends in turn.
-/

namespace Tradex.Execution

open Tradex.Domain Program

inductive HaltStep (world : World) : World → Prop where
  | control (guard : MemoryIdempotencyGuard) (cidForOrder : Dict String CorrelationId)
      (killActive : Bool) (killReason : String) (orderIndex : Dict CorrelationId String)
      (appends cancels : Answers (Except TradingError Unit)) :
      HaltStep world { world with
        guard, cidForOrder, killActive, killReason, orderIndex
        environment := { world.environment with appends := appends, cancels := cancels } }
  | logged (event : DomainEvent) (hcontrol : event.reportedFill = none) :
      HaltStep world { world with log := world.log ++ [event] }
  | cancelled (order : Order) (hcached : world.cache.getOrder order.orderId = some order)
      (hlegal : OrderStatus.cancelled ∈ legalTransitions order.status) :
      HaltStep world
        { world with cache := world.cache.updateOrder { order with status := .cancelled } }

def Halts : World → World → Prop := Relation.ReflTransGen HaltStep

variable {order : Order} {middle : World}

namespace Halts

variable {world final : World}

theorem refl (world : World) : Halts world world := Relation.ReflTransGen.refl

theorem single (hstep : HaltStep world final) : Halts world final :=
  Relation.ReflTransGen.single hstep

theorem trans (hfst : Halts world middle) (hrest : Halts middle final) :
    Halts world final := Relation.ReflTransGen.trans hfst hrest

theorem control {guard : MemoryIdempotencyGuard} {cidForOrder : Dict String CorrelationId}
    {killActive : Bool} {killReason : String} {orderIndex : Dict CorrelationId String}
    {appends cancels : Answers (Except TradingError Unit)} :
    Halts world { world with
      guard, cidForOrder, killActive, killReason, orderIndex
      environment := { world.environment with appends := appends, cancels := cancels } } :=
  single (.control guard cidForOrder killActive killReason orderIndex appends cancels)

theorem induct {prop : World → Prop}
    (hstep : ∀ before after, HaltStep before after → prop before → prop after)
    (hhalt : Halts world final) (hstart : prop world) : prop final := by
  induction hhalt with
  | refl => exact hstart
  | tail _ hlast ih => exact hstep _ _ hlast ih

theorem frame (hhalt : Halts world final) :
    final.cache.positions = world.cache.positions ∧ final.ledger = world.ledger ∧
      final.accrued = world.accrued ∧ final.dedup = world.dedup ∧
      final.overfills = world.overfills ∧ final.booked = world.booked ∧
      final.log.filterMap DomainEvent.reportedFill = world.log.filterMap DomainEvent.reportedFill ∧
      final.environment.submits = world.environment.submits ∧
      final.environment.uuids = world.environment.uuids := by
  induction hhalt with
  | refl => simp
  | tail _ hlast ih =>
    cases hlast with
    | control guard cidForOrder killActive killReason orderIndex appends cancels
    | cancelled order hcache hlegal => exact ih
    | logged ev hctl => simpa [hctl] using ih

theorem getOrder_cases (hhalt : Halts world final) (oid : String) :
    final.cache.getOrder oid = world.cache.getOrder oid ∨
      ∃ order, world.cache.getOrder oid = some order ∧
        final.cache.getOrder oid = some { order with status := .cancelled } := by
  induction hhalt with
  | refl => exact .inl rfl
  | tail _ hlast ih =>
    cases hlast with
    | control guard cidForOrder killActive killReason orderIndex appends cancels
    | logged ev hctl => exact ih
    | cancelled moved hmove hlegal =>
      simp only [TradingCache.getOrder_updateOrder]
      split
      next hsame =>
        rw [hsame] at hmove
        rw [hmove] at ih
        rcases ih with hkept | ⟨order, hcache, hcanc⟩
        · exact .inr ⟨moved, hkept.symm, rfl⟩
        · cases hcanc
          exact .inr ⟨order, hcache, rfl⟩
      next => exact ih

theorem getOrder_eq_none (hhalt : Halts world final) {oid : String}
    (hnone : world.cache.getOrder oid = none) : final.cache.getOrder oid = none := by
  obtain hsame | ⟨order, hcache, -⟩ := hhalt.getOrder_cases oid
  · exact hsame.trans hnone
  · cases hnone.symm.trans hcache

end Halts

variable (cfg : EngineConfig)

def appendedLog (log : List DomainEvent) (ev : DomainEvent) : List DomainEvent :=
  if cfg.hasStore then log ++ [ev] else log

def Environment.afterAppend (env : Environment) : Environment :=
  if cfg.hasStore then { env with appends := env.appends.rest } else env

def Environment.AppendFails (env : Environment) : Prop :=
  cfg.hasStore = true ∧ ∃ err, env.appends 0 = .error err

def Environment.Durable (env : Environment) : Prop :=
  ∀ index, env.appends index = .ok ()

variable {env : Environment}

theorem Environment.Durable.not_appendFails
    (hdur : env.Durable) (cfg : EngineConfig) : ¬ env.AppendFails cfg := by
  rintro ⟨-, err, herr⟩
  rw [hdur 0] at herr
  cases herr

theorem Environment.Durable.afterAppend (hdur : env.Durable) (cfg : EngineConfig) :
    env.afterAppend cfg = env := by
  have hrest : env.appends.rest = env.appends := by
    funext index
    rw [Answers.rest, hdur, hdur]
  unfold Environment.afterAppend
  rw [hrest]
  split <;> rfl

namespace World

variable {world : World}

@[simp] theorem publish_errorOccurred {err : TradingError} :
    world.publish (.errorOccurred err) = world := rfl

@[simp] theorem publish_orderRejected (world : World) (order : Order) (why : String) :
    world.publish (.orderRejected order why) = world := rfl

@[simp] theorem publish_orderModified :
    world.publish (.orderModified order) = world := rfl

@[simp] theorem publish_orderFilled {fill : Fill} {charge : Option Decimal} :
    world.publish (.orderFilled fill charge) = world := rfl

theorem publish_eq (world : World) (ev : DomainEvent) :
    ∃ orderIndex, world.publish ev = { world with orderIndex := orderIndex } := by
  unfold publish
  split
  · split <;> exact ⟨_, rfl⟩
  · split <;> exact ⟨_, rfl⟩
  · exact ⟨world.orderIndex, rfl⟩

/-- Whether an action writes a field that depends on an answer or on what is booked. -/
def Plain : Op → Prop
  | .storeAppend _ | .computeFee _ | .publish _ | .applyFillEffect _ _ => False
  | _ => True

theorem kept_exec {cfg : EngineConfig} {op : Op} (kept : World → Prop)
    (hwrites : ∀ log accrued orderIndex appends, kept { world with
      log, accrued, orderIndex, environment := { world.environment with appends } })
    (hbooks : ∀ fill fee, op = .applyFillEffect fill fee →
      ∀ cache ledger booked, kept { world with cache, ledger, booked })
    (hplain : Plain op → kept (exec cfg op world).2) : kept (exec cfg op world).2 := by
  cases op with
  | storeAppend ev =>
    simp only [exec, storeAppend]
    split <;> exact hwrites _ _ _ _
  | computeFee fill =>
    simp only [exec, computeFee]
    split <;> exact hwrites _ _ _ _
  | publish ev =>
    obtain ⟨orderIndex, hpub⟩ := publish_eq world ev
    simp only [exec, hpub]
    exact hwrites _ _ _ _
  | applyFillEffect fill fee =>
    have hbook := hbooks fill fee rfl
    simp only [exec, applyFillEffect]
    split
    · exact hbook _ _ _
    · split <;> exact hbook _ _ _
  | _ => exact hplain trivial

theorem halts_publish (world : World) (ev : DomainEvent) : Halts world (world.publish ev) := by
  obtain ⟨orderIndex, heq⟩ := world.publish_eq ev
  rw [heq]
  exact Halts.control

end World

namespace Engine

def HaltingAppend (cfg : EngineConfig) (append : DomainEvent → EngineProgram Bool) : Prop :=
  ∀ ev world, ev.reportedFill = none →
    Program.wp (exec cfg) (append ev) (fun _ final ↦ Halts world final) (fun _ _ ↦ False) world

variable {trip : String → EngineProgram (List String)}

section Cancel

variable {cfg : EngineConfig} {append : DomainEvent → EngineProgram Bool} {world : World}
  {oid : String}

theorem halts_cancelAtVenue (happ : HaltingAppend cfg append) :
    wp (exec cfg) (cancelAtVenue cfg append oid)
      (fun cancelled final ↦ Halts world final ∧
        ∃ order, world.cache.getOrder oid = some order ∧
          OrderStatus.cancelled ∈ legalTransitions order.status ∧
          cancelled = { order with status := .cancelled })
      (fun _ ↦ Halts world) world := by
  simp only [cancelAtVenue, wp_bind, wp_act, exec]
  cases hcache : world.cache.getOrder oid with
  | none => exact Halts.refl world
  | some order =>
    simp only [wp_bind, wp_ofExcept]
    cases htrans : order.transitionTo .cancelled none with
    | error err => exact Halts.refl world
    | ok cancelled =>
      obtain ⟨hlegal, rfl⟩ := transitionTo_ok htrans
      refine wp_mono (happ (.cancelRequested oid) world rfl) ?_ (fun _ _ hfalse ↦ hfalse.elim)
      intro _ middle hmid
      refine wp_venueCancel (fun cancels ↦ ?_) (fun err cancels ↦ hmid.trans Halts.control)
      exact ⟨hmid.trans Halts.control, order, rfl, hlegal, rfl⟩

theorem halts_updateCancelled (hhalt : Halts world middle)
    (hcache : world.cache.getOrder oid = some order)
    (hlegal : OrderStatus.cancelled ∈ legalTransitions order.status) :
    Halts world
      { middle with cache := middle.cache.updateOrder { order with status := .cancelled } } := by
  have hkey := TradingCache.orderId_of_getOrder hcache
  obtain hsame | ⟨found, hfound, hcanc⟩ := hhalt.getOrder_cases oid
  · rw [hcache, ← hkey] at hsame
    exact hhalt.trans (Halts.single (.cancelled order hsame hlegal))
  · cases hcache.symm.trans hfound
    rw [← hkey] at hcanc
    rw [TradingCache.updateOrder_of_getOrder hcanc]
    exact hhalt

section

variable (happ : HaltingAppend cfg append)

include happ

theorem halts_cancelWith
    {cid : Option CorrelationId} :
    wp (exec cfg) (cancelWith cfg append oid cid)
      (fun _ ↦ Halts world) (fun _ ↦ Halts world) world := by
  simp only [cancelWith, wp_bind]
  refine wp_reserveOwn (fun replay guard ↦ ?_) (fun err guard ↦ Halts.control)
  have hresv : Halts world { world with guard := guard } := Halts.control
  cases replay with
  | some res => exact hresv
  | none =>
    simp only [wp_bind, wp_releasingOnFailure]
    refine wp_mono (halts_cancelAtVenue happ) ?_ ?_
    · rintro cancelled middle ⟨hmid, order, hcache, hlegal, rfl⟩
      simp only [wp_act, exec]
      have hupd := halts_updateCancelled hmid hcache hlegal
      have hpub := hupd.trans
        (World.halts_publish _ (.orderCancelled { order with status := .cancelled }))
      refine wp_mono (happ _ _ rfl) ?_ (fun _ _ hfalse ↦ hfalse.elim)
      intro _ logged hlog
      refine wp_releaseSubmitKey fun guard cidForOrder ↦ ?_
      simp only [wp_recordResult]
      exact hresv.trans (hpub.trans (hlog.trans Halts.control))
    · intro err middle hmid
      exact hresv.trans (hmid.trans Halts.control)

theorem halts_cancelAll {orders : List Order} :
    wp (exec cfg) (cancelAll cfg append orders) (fun _ ↦ Halts world) (fun _ _ ↦ False) world := by
  induction orders generalizing world with
  | nil => exact Halts.refl world
  | cons order rest ih =>
    have hrest : ∀ middle, Halts world middle →
        wp (exec cfg) (cancelAll cfg append rest) (fun _ ↦ Halts world)
          (fun _ _ ↦ False) middle := by
      intro middle hmid
      exact wp_mono ih (fun _ _ hfin ↦ hmid.trans hfin) (fun _ _ hfalse ↦ hfalse)
    simp only [cancelAll, wp_bind, wp_ite, wp_tryCatch]
    split
    · exact hrest world (Halts.refl world)
    · exact wp_mono (halts_cancelWith happ)
        (fun _ middle hmid ↦ hrest middle hmid) (fun _ middle hmid ↦ hrest middle hmid)

theorem halts_tripWith {why : String} :
    wp (exec cfg) (tripWith cfg append why) (fun _ ↦ Halts world) (fun _ _ ↦ False) world := by
  refine wp_mono (halts_cancelAll happ) ?_ (fun _ _ hfalse ↦ hfalse)
  intro _ final hfin
  have hset : Halts world { world with killActive := true, killReason := why } := Halts.control
  exact hset.trans hfin

end

theorem wp_appendWith
    (htrip : ∀ why world, wp (exec cfg) (trip why) (fun _ ↦ Halts world)
      (fun _ _ ↦ False) world)
    {ev : DomainEvent} {post : Bool → World → Prop} {fail : TradingError → World → Prop}
    (hdur : ¬ world.environment.AppendFails cfg → post true { world with
      log := appendedLog cfg world.log ev, environment := world.environment.afterAppend cfg })
    (hhalt : ∀ final, world.environment.AppendFails cfg → Halts world final → post false final) :
    wp (exec cfg) (appendWith cfg trip ev) post fail world := by
  unfold appendWith
  cases hstore : cfg.hasStore with
  | false =>
    have hkept := hdur fun hfail ↦ by cases hstore.symm.trans hfail.1
    simpa [appendedLog, Environment.afterAppend, hstore] using hkept
  | true =>
    simp only [if_true, wp_bind, wp_act, exec, World.storeAppend]
    cases hans : world.environment.appends 0 with
    | ok _ =>
      have hkept := hdur fun hfail ↦ by cases hans.symm.trans hfail.2.choose_spec
      simpa [appendedLog, Environment.afterAppend, hstore] using hkept
    | error err =>
      have hfail : world.environment.AppendFails cfg := ⟨hstore, err, hans⟩
      simp only [appendFailed, wp_bind, wp_ite]
      split
      · simp only [wp_act]
        split
        · exact hhalt _ hfail Halts.control
        · refine wp_mono (htrip _ _) ?_ (fun _ _ hfalse ↦ hfalse.elim)
          intro _ middle hmid
          exact hhalt _ hfail (Halts.control.trans hmid)
      · exact hhalt _ hfail Halts.control

end Cancel

variable {cfg : EngineConfig} {world : World}

theorem haltingAppend_of_trip
    (htrip : ∀ why world, wp (exec cfg) (trip why) (fun _ ↦ Halts world)
      (fun _ _ ↦ False) world) : HaltingAppend cfg (appendWith cfg trip) := by
  intro ev world hctl
  refine wp_appendWith htrip (fun _ ↦ ?_) (fun final _ hfin ↦ hfin)
  unfold appendedLog Environment.afterAppend
  split
  · exact (Halts.single (.logged ev hctl)).trans Halts.control
  · exact Halts.control

theorem haltingAppend_appendAt {depth : ℕ} : HaltingAppend cfg (appendAt cfg depth) := by
  induction depth with
  | zero =>
    refine haltingAppend_of_trip fun why world ↦ ?_
    exact Halts.control
  | succ depth ih => exact haltingAppend_of_trip fun why world ↦ halts_tripWith ih

variable {ev : DomainEvent} {fail : TradingError → World → Prop} {post : Bool → World → Prop}

theorem wp_append
    (hdur : ¬ world.environment.AppendFails cfg → post true { world with
      log := appendedLog cfg world.log ev, environment := world.environment.afterAppend cfg })
    (hhalt : ∀ final, world.environment.AppendFails cfg → Halts world final → post false final) :
    wp (exec cfg) (append cfg ev) post fail world := by
  unfold append
  cases cfg.tripDepth with
  | zero =>
    refine wp_appendWith (fun why world ↦ ?_) hdur hhalt
    exact Halts.control
  | succ depth =>
    exact wp_appendWith (fun why world ↦ halts_tripWith haltingAppend_appendAt) hdur hhalt

theorem wp_append_durable (hdur : world.environment.Durable)
    (hpost : post true { world with log := appendedLog cfg world.log ev }) :
    wp (exec cfg) (append cfg ev) post fail world := by
  refine wp_append (fun _ ↦ ?_) (fun final hfail _ ↦ absurd hfail (hdur.not_appendFails cfg))
  rw [hdur.afterAppend cfg]
  exact hpost

theorem halts_tripKillSwitch {why : String} :
    wp (exec cfg) (tripKillSwitch cfg why) (fun _ ↦ Halts world) (fun _ _ ↦ False) world :=
  halts_tripWith haltingAppend_appendAt

theorem halts_append (hctl : ev.reportedFill = none) :
    wp (exec cfg) (append cfg ev) (fun _ ↦ Halts world) (fun _ _ ↦ False) world :=
  haltingAppend_appendAt ev world hctl

end Engine

end Tradex.Execution

import Tradex.Strategy.NextOpen

/-!
# Stopped strategies

A stop or an unregistration drops subscriptions and does not touch the queue of
deferred orders, which all other handlers flush. A stopped strategy sends nothing more
where it left no deferred order behind.
-/

namespace Tradex.Strategy.Session

open Tradex.Domain Tradex.Analytics List

variable {Venue : Type} {cfg : EngineConfig} {host : Host Venue}

def pendingSnapshot (engine : StrategyEngine) : List PendingOrder := engine.pending.values.flatten

def Halts (sid : String) : Call → Prop
  | .stop stopped _ => stopped = sid
  | .unregister removed => removed = sid
  | _ => False

def LeavesUnregistered (sid : String) : Call → Prop
  | .register strat => strat.strategyId ≠ sid
  | _ => True

structure Silent (strategyId : String) (earlier : List Submission) (session : Session Venue) :
    Prop where
  unsubscribed : ∀ strategy ∈ session.engine.subscriptions, strategy.strategyId ≠ strategyId
  keeps : Keeps earlier (fun _ entry ↦ entry.strategyId ≠ strategyId)
    (fun submission ↦ submission.request.strategyId ≠ some strategyId) session.engine

variable {sid : String} {prior : List Submission} {sess : Session Venue}

theorem signalAnswers_other {strat : TradingStrategy} (hother : strat.strategyId ≠ sid)
    (occ : Occasion) (res : Option Signal) :
    SignalAnswers cfg (fun _ entry ↦ entry.strategyId ≠ sid)
      (fun sub ↦ sub.request.strategyId ≠ some sid) strat occ
      res where
  deferred := by
    rintro - entry hent - -
    rwa [hent]
  submitted := by
    rintro - req sig price - hcarry
    simpa [hcarry.strategyId] using hother

section

variable (hsil : Silent sid prior sess)

include hsil

theorem Silent.handle {strat : TradingStrategy} (hother : strat.strategyId ≠ sid)
    (ev : MarketEvent) (occ : Occasion) :
    Silent sid prior (handle cfg host ev occ sess strat) where
  unsubscribed := by
    have hkept : (Session.handle cfg host ev occ sess strat).engine.subscriptions =
        sess.engine.subscriptions :=
      congrArg Wiring.subscriptions wiring_handle
    rw [hkept]
    exact hsil.unsubscribed
  keeps := by
    have hsig : ∀ res, SignalAnswers cfg (fun _ entry ↦ entry.strategyId ≠ sid)
        (fun sub ↦ sub.request.strategyId ≠ some sid) strat occ
        res :=
      signalAnswers_other hother occ
    cases ev with
    | candle bar =>
      refine hsil.keeps.onBar ?_ (fun _ _ hent ↦ hent) (hsig _)
      rintro - entry hent req hcarry
      simpa [hcarry.strategyId] using hent
    | quote tick => exact hsil.keeps.onQuote hsig
    | depth book => exact hsil.keeps.onDepth hsig

theorem Silent.congr {engine : StrategyEngine} {venue : Venue}
    (hsubs : engine.subscriptions ⊆ sess.engine.subscriptions)
    (hpend : engine.pending = sess.engine.pending)
    (hsubmissions : engine.submissions = sess.engine.submissions) :
    Silent sid prior (⟨engine, venue⟩ : Session Venue) where
  unsubscribed strat hmem := hsil.unsubscribed strat (hsubs hmem)
  keeps := hsil.keeps.congr hpend hsubmissions

theorem Silent.publish (ev : MarketEvent) : Silent sid prior (sess.publish cfg host ev) := by
  refine foldl_invariant (Silent sid prior) (hsil.congr (fun _ hmem ↦ hmem) rfl rfl) ?_
  intro st strat hstrat hst
  exact hst.handle (hsil.unsubscribed strat hstrat) ev _

theorem Silent.step {call : Call} (hcall : LeavesUnregistered sid call) :
    Silent sid prior (step cfg host sess call) := by
  cases call with
  | publish ev => exact hsil.publish ev
  | publishFill fill =>
    have hengine : (sess.publishFill cfg host fill).engine = sess.engine := engine_publishFill
    exact ⟨hengine ▸ hsil.unsubscribed, hengine ▸ hsil.keeps⟩
  | register strat =>
    refine ⟨fun registered hmem ↦ ?_, hsil.keeps.congr rfl rfl⟩
    rcases mem_append.mp hmem with hpre | hnew
    · exact hsil.unsubscribed registered hpre
    · rw [mem_singleton.mp hnew]
      exact hcall
  | unregister removed | stop stopped workingOrders =>
      exact hsil.congr filter_sublist.subset rfl rfl
  | pause paused =>
    unfold Session.step pauseStrategy
    dsimp only
    split
    · exact hsil.congr (fun _ hmem ↦ hmem) rfl rfl
    · exact hsil
  | resume resumed => exact hsil.congr (fun _ hmem ↦ hmem) rfl rfl
  | disposeAll =>
    exact ⟨fun _ hmem ↦ (by cases hmem), fun hrows ↦ (by cases hrows), hsil.keeps.submissions⟩

theorem Silent.run {calls : List Call} (hcalls : ∀ call ∈ calls, LeavesUnregistered sid call) :
    Silent sid prior (sess.run cfg host calls) :=
  foldl_invariant (Silent sid prior) hsil fun _ call hcall hst ↦ hst.step (hcalls call hcall)

end

theorem silent_of_halts {call : Call} (hhalt : Halts sid call)
    (hclear : ∀ entry ∈ pendingSnapshot sess.engine, entry.strategyId ≠ sid) :
    Silent sid sess.engine.submissions (step cfg host sess call) := by
  have hpend : ∀ {instr rows}, sess.engine.pending.get instr = some rows →
      ∀ entry ∈ rows, entry.strategyId ≠ sid := by
    intro instr rows hrows entry hent
    exact hclear entry (mem_flatten.mpr ⟨rows, Dict.mem_values_of_get hrows, hent⟩)
  cases call with
  | stop stopped workingOrders | unregister removed =>
    cases hhalt
    exact ⟨fun strat hmem ↦ by simpa using (mem_filter.mp hmem).2, hpend,
      [], (append_nil _).symm, fun _ hmem ↦ (by cases hmem)⟩
  | publish _ | publishFill _ | register _ | pause _ | resume _ | disposeAll => cases hhalt

/-- A strategy stopped with no deferred order pending submits nothing afterwards. -/
theorem stopped_strategy_sends_nothing {call : Call} (hhalts : Halts sid call)
    (hclear : ∀ entry ∈ pendingSnapshot sess.engine, entry.strategyId ≠ sid)
    {calls : List Call} (hcalls : ∀ later ∈ calls, LeavesUnregistered sid later) :
    ∃ added, (run cfg host (step cfg host sess call) calls).engine.submissions =
        sess.engine.submissions ++ added ∧
      ∀ sub ∈ added, sub.request.strategyId ≠ some sid :=
  ((silent_of_halts hhalts hclear).run hcalls).keeps.submissions

def afterSignal : Session Unit :=
  run notionalConfig oneBuyer ⟨StrategyEngine.empty, ()⟩
    [.register beta, .register alpha, .publish (.candle (flatCandle 100 1))]

def nextBar (sess : Session Unit) : Session Unit :=
  run notionalConfig oneBuyer sess [.publish (.candle (flatCandle 101 2))]

def sentBy (sess : Session Unit) : List (Option String) :=
  sess.engine.submissions.map fun sub ↦ sub.request.strategyId

theorem stopped_strategy_order_submitted :
    let after := step notionalConfig oneBuyer afterSignal
    sentBy (nextBar (after (.stop "alpha" none))) = [some "alpha"] ∧
      sentBy (nextBar (after (.unregister "alpha"))) = [some "alpha"] ∧ sentBy afterSignal = [] := by
  decide +kernel

theorem stopped_after_fill_sends_nothing :
    ∃ added,
      (run notionalConfig oneBuyer
          (step notionalConfig oneBuyer (nextBar afterSignal) (.stop "alpha" none))
          [.publish (.candle (flatCandle 102 1)),
            .publish (.candle (flatCandle 103 3))]).engine.submissions =
        (nextBar afterSignal).engine.submissions ++ added ∧
      ∀ sub ∈ added, sub.request.strategyId ≠ some "alpha" :=
  stopped_strategy_sends_nothing (show Halts "alpha" (.stop "alpha" none) from rfl)
    (by decide +kernel) fun later hlater ↦ by
      rcases mem_cons.mp hlater with rfl | hlater
      · trivial
      · rw [mem_singleton.mp hlater]
        trivial

end Tradex.Strategy.Session

import Tradex.Strategy.Engine

/-!
# Rules of the strategy engine

A handler leaves the wiring alone. It submits deferred orders of the candle's instrument, drops
stale ones, and defers or submits the signal of its own strategy.
-/

namespace Tradex.Strategy

open Tradex.Domain Tradex.Analytics

structure Wiring where
  strategies : Dict String TradingStrategy
  router : SubscriptionRouter
  subscriptions : List TradingStrategy
  gated : Finset String
  eventCount : ℕ
  candles : List Candle

def StrategyEngine.wiring (engine : StrategyEngine) : Wiring where
  strategies := engine.strategies
  router := engine.router
  subscriptions := engine.subscriptions
  gated := engine.gated
  eventCount := engine.eventCount
  candles := engine.candles

structure Frame where
  wiring : Wiring
  analytics : AnalyticsRuntime
  readings : List Reading

def StrategyEngine.frame (engine : StrategyEngine) : Frame where
  wiring := engine.wiring
  analytics := engine.analytics
  readings := engine.readings

namespace Session

variable {Venue : Type} {cfg : EngineConfig} {host : Host Venue}

variable (cfg) in
theorem run_readIndicator {Output : Type} (series : BarKey)
    (prog : Program IndicatorRequest (fun _ ↦ Except TradingError IndicatorResult) TradingError
      Output) (engine : StrategyEngine) :
    ∃ analytics reads, (prog.run (readIndicator cfg series) engine).2 =
      { engine with analytics := analytics, readings := reads } := by
  induction prog generalizing engine with
  | ret val | raise err => exact ⟨engine.analytics, engine.readings, rfl⟩
  | call req rest ih =>
    obtain ⟨analytics, reads, hrun⟩ :=
      ih (readIndicator cfg series req engine).1 (readIndicator cfg series req engine).2
    exact ⟨analytics, reads, hrun⟩

variable (cfg host) in
theorem callOnBar_engine {strat : TradingStrategy} {candle : Candle} {sess : Session Venue} :
    ∃ analytics reads, (callOnBar cfg host strat candle sess).2.engine =
      { sess.engine with analytics := analytics, readings := reads } := by
  obtain ⟨analytics, reads, hrun⟩ := run_readIndicator cfg (barKey candle)
    (host.onBar strat (sess.makeContext cfg host candle.instrument sess.engine.barCount
      (some candle.timestamp) (if cfg.hasAnalytics then some (barKey candle) else none)) candle
      sess.venue) sess.engine
  refine ⟨analytics, reads, ?_⟩
  rw [← hrun]
  simp only [callOnBar]
  split <;> rfl

variable {sess : Session Venue} {sub : Submission} {candle : Candle} {during : Occasion}
  {engine : StrategyEngine} {occ : Occasion} {sig : Signal} {strat : TradingStrategy}
  {res : Option Signal} {wider : Instrument → PendingOrder → Prop} {sid : String}

@[simp] theorem frame_place : (sess.place cfg host sid sub).engine.frame = sess.engine.frame := by
  unfold place
  split
  · dsimp only
    split <;> rfl
  · rfl

@[simp] theorem frame_flushEntry {pending : PendingOrder} :
    (flushEntry cfg host candle during sess pending).engine.frame = sess.engine.frame := by
  unfold flushEntry
  split
  · rfl
  · exact frame_place

theorem foldl_cancelStale (rows : List PendingOrder) (engine : StrategyEngine) :
    ∃ ordersExpired outbox, rows.foldl cancelStale engine =
      { engine with ordersExpired := ordersExpired, outbox := outbox } := by
  induction rows generalizing engine with
  | nil => exact ⟨engine.ordersExpired, engine.outbox, rfl⟩
  | cons entry rest ih =>
    obtain ⟨ordersExpired, outbox, hfold⟩ := ih (cancelStale engine entry)
    exact ⟨ordersExpired, outbox, hfold⟩

structure Swept (before after : StrategyEngine) : Prop where
  kept : ∃ ordersExpired outbox, after =
    { before with ordersExpired := ordersExpired, outbox := outbox, pending := after.pending }
  queues : ∀ {instrument entries}, after.pending.get instrument = some entries →
    ∃ earlier, before.pending.get instrument = some earlier ∧ entries ⊆ earlier

theorem Swept.refl (engine : StrategyEngine) : Swept engine engine where
  kept := ⟨engine.ordersExpired, engine.outbox, rfl⟩
  queues hrows := ⟨_, hrows, fun _ hmem ↦ hmem⟩

theorem Swept.trans {first second third : StrategyEngine} (hfst : Swept first second)
    (hsnd : Swept second third) : Swept first third where
  kept := by
    obtain ⟨_, _, heq⟩ := hfst.kept
    obtain ⟨ordersExpired, outbox, hlast⟩ := hsnd.kept
    refine ⟨ordersExpired, outbox, ?_⟩
    rw [hlast, heq]
  queues hrows := by
    obtain ⟨middle, hmid, hinner⟩ := hsnd.queues hrows
    obtain ⟨prior, hprior, houter⟩ := hfst.queues hmid
    exact ⟨prior, hprior, fun _ hmem ↦ houter (hinner hmem)⟩

theorem swept_sweepInstrument {instr : Instrument} :
    Swept engine (sweepInstrument cfg engine instr) where
  kept := by
    obtain ⟨ordersExpired, outbox, hfold⟩ := foldl_cancelStale
      (((engine.pending.get instr).getD []).filter (isStale cfg engine)) engine
    simp [sweepInstrument, hfold]
  queues := by
    intro other rows hrows
    simp only [sweepInstrument] at hrows
    split at hrows
    · rw [Dict.get_erase] at hrows
      split at hrows
      · cases hrows
      · exact ⟨rows, hrows, fun _ hmem ↦ hmem⟩
    · rename_i hsurvivors
      rw [Dict.get_set] at hrows
      split at hrows
      · rename_i hother
        cases hrows
        cases hqueue : engine.pending.get instr with
        | none => simp [hqueue] at hsurvivors
        | some prior => exact ⟨prior, hother ▸ hqueue, by simp⟩
      · exact ⟨rows, hrows, fun _ hmem ↦ hmem⟩

theorem swept_sweepStalePending : Swept engine (sweepStalePending cfg engine) := by
  unfold sweepStalePending
  split
  · exact Swept.refl engine
  · refine foldl_invariant (Swept engine) (Swept.refl engine) ?_
    intro st instr _ hswept
    exact hswept.trans swept_sweepInstrument

@[simp] theorem frame_sweepStalePending : (sweepStalePending cfg engine).frame = engine.frame := by
  obtain ⟨ordersExpired, outbox, hkept⟩ := swept_sweepStalePending.kept
  rw [hkept]
  rfl

@[simp] theorem frame_flushPending :
    (sess.flushPending cfg host candle during).engine.frame = sess.engine.frame := by
  unfold flushPending
  split
  · rfl
  · rw [frame_sweepStalePending]
    refine foldl_invariant (fun st : Session Venue ↦
      st.engine.frame = sess.engine.frame) rfl ?_
    intro st entry _ hkept
    rw [frame_flushEntry, hkept]

@[simp] theorem frame_deferSignal :
    (sess.deferSignal cfg host strat occ sig).engine.frame = sess.engine.frame := by
  unfold deferSignal
  split
  · rfl
  · split <;> rfl

@[simp] theorem frame_submitSignal :
    (sess.submitSignal cfg host strat occ sig).engine.frame = sess.engine.frame := by
  unfold submitSignal
  split
  · rfl
  · split
    · rfl
    · exact frame_place

@[simp] theorem frame_maybePublishOrder :
    (sess.maybePublishOrder cfg host strat occ res).engine.frame = sess.engine.frame := by
  unfold maybePublishOrder
  split
  · rfl
  · split
    · rw [frame_deferSignal]
      rfl
    · rw [frame_submitSignal]
      rfl

@[simp] theorem frame_beginBar :
    (sess.beginBar cfg host candle occ).engine.frame = sess.engine.frame := by
  unfold beginBar
  split
  · rw [frame_flushPending]
    rfl
  · rfl

theorem wiring_ingestCandle : (ingestCandle cfg candle engine).wiring = engine.wiring := by
  unfold ingestCandle
  split <;> rfl

theorem wiring_callOnBar :
    (callOnBar cfg host strat candle sess).2.engine.wiring = sess.engine.wiring := by
  obtain ⟨analytics, reads, hcall⟩ := callOnBar_engine cfg host
  rw [hcall]
  rfl

theorem wiring_maybePublishOrder :
    (sess.maybePublishOrder cfg host strat occ res).engine.wiring = sess.engine.wiring :=
  congrArg Frame.wiring frame_maybePublishOrder

theorem wiring_beginBar : (sess.beginBar cfg host candle occ).engine.wiring = sess.engine.wiring :=
  congrArg Frame.wiring frame_beginBar

theorem wiring_onBar :
    (onBar cfg host candle occ sess strat).engine.wiring = sess.engine.wiring := by
  unfold onBar
  split
  · rfl
  · dsimp only
    split
    · rw [wiring_maybePublishOrder, wiring_callOnBar, wiring_ingestCandle, wiring_beginBar]
    · exact wiring_beginBar

theorem wiring_onQuote {quote : Quote} :
    (onQuote cfg host quote occ sess strat).engine.wiring = sess.engine.wiring := by
  unfold onQuote
  dsimp only
  split
  · rfl
  · split
    · rw [wiring_maybePublishOrder]
      rfl
    · rfl

theorem wiring_onDepth {depth : Depth} :
    (onDepth cfg host depth occ sess strat).engine.wiring = sess.engine.wiring := by
  unfold onDepth
  split
  · rfl
  · split
    · split
      · rw [wiring_maybePublishOrder]
      · rfl
    · rfl

theorem wiring_handle {ev : MarketEvent} :
    (handle cfg host ev occ sess strat).engine.wiring = sess.engine.wiring := by
  cases ev with
  | candle bar => exact wiring_onBar
  | quote tick => exact wiring_onQuote
  | depth book => exact wiring_onDepth

structure Keeps (earlier : List Submission) (queued : Instrument → PendingOrder → Prop)
    (sent : Submission → Prop) (engine : StrategyEngine) : Prop where
  pending : ∀ {instrument entries}, engine.pending.get instrument = some entries →
    ∀ entry ∈ entries, queued instrument entry
  submissions : ∃ added, engine.submissions = earlier ++ added ∧
    ∀ submission ∈ added, sent submission

variable {prior : List Submission} {queued : Instrument → PendingOrder → Prop}
  {sent : Submission → Prop}

structure Carries (request : OrderRequest) (strategyId : String) (signal : Signal)
    (price : Price) : Prop where
  strategyId : request.strategyId = some strategyId
  instrument : request.instrument = signal.instrument.instrument
  price : request.price = some price

theorem Keeps.mono (hkeeps : Keeps prior queued sent engine)
    (hwider : ∀ instr entry, queued instr entry → wider instr entry) :
    Keeps prior wider sent engine where
  pending hrows entry hent := hwider _ entry (hkeeps.pending hrows entry hent)
  submissions := hkeeps.submissions

theorem Keeps.congr {engine other : StrategyEngine} (hkeeps : Keeps prior queued sent engine)
    (hpend : other.pending = engine.pending)
    (hsubs : other.submissions = engine.submissions) : Keeps prior queued sent other where
  pending hrows := hkeeps.pending (hpend ▸ hrows)
  submissions := hsubs ▸ hkeeps.submissions

theorem Keeps.place (hkeeps : Keeps prior queued sent sess.engine) (hsent : sent sub) :
    Keeps prior queued sent (sess.place cfg host sid sub).engine := by
  have happ : Keeps prior queued sent
      { sess.engine with submissions := sess.engine.submissions ++ [sub] } :=
    { pending := hkeeps.pending
      submissions := by
        obtain ⟨added, hadded, hall⟩ := hkeeps.submissions
        refine ⟨added ++ [sub], by simp [hadded], ?_⟩
        intro other hother
        rcases List.mem_append.mp hother with hpre | hnew
        · exact hall other hpre
        · rw [List.mem_singleton.mp hnew]
          exact hsent }
  unfold Session.place
  split
  · dsimp only
    split
    · exact happ
    · exact happ.congr rfl rfl
  · exact hkeeps.congr rfl rfl

theorem Keeps.flushEntry {entry : PendingOrder} (hkeeps : Keeps prior queued sent sess.engine)
    (hsent : ∀ req, Carries req entry.strategyId entry.signal candle.openPrice →
      sent ⟨req, entry.signal, entry.emitted, during⟩) :
    Keeps prior queued sent (flushEntry cfg host candle during sess entry).engine := by
  unfold Session.flushEntry
  split
  · exact hkeeps
  · rename_i req hbuilt
    obtain ⟨hstrat, hinstr, hprice⟩ := fields_of_buildRequest hbuilt
    exact hkeeps.place (hsent req ⟨hstrat, hinstr, hprice⟩)

theorem Keeps.swept {before after : StrategyEngine} (hkeeps : Keeps prior queued sent before)
    (hswept : Swept before after) : Keeps prior queued sent after where
  pending hrows entry hent := by
    obtain ⟨queue, hqueue, hsubset⟩ := hswept.queues hrows
    exact hkeeps.pending hqueue entry (hsubset hent)
  submissions := by
    obtain ⟨_, _, hkept⟩ := hswept.kept
    rw [hkept]
    exact hkeeps.submissions

variable (hkeeps : Keeps prior queued sent sess.engine)

include hkeeps

theorem Keeps.flushPending
    (hsent : ∀ entry, queued candle.instrument entry → ∀ req,
      Carries req entry.strategyId entry.signal candle.openPrice →
      sent ⟨req, entry.signal, entry.emitted, during⟩) :
    Keeps prior (fun instr entry ↦ queued instr entry ∧ instr ≠ candle.instrument) sent
      (sess.flushPending cfg host candle during).engine := by
  unfold Session.flushPending
  split
  · rename_i hnil
    refine ⟨fun hrows ↦ ?_, hkeeps.submissions⟩
    rw [Dict.get, List.isEmpty_iff.mp hnil] at hrows
    cases hrows
  · refine Keeps.swept ?_ swept_sweepStalePending
    refine foldl_invariant (fun st : Session Venue ↦
      Keeps prior (fun instr entry ↦ queued instr entry ∧ instr ≠ candle.instrument) sent
        st.engine) ⟨fun hrows entry hent ↦ ?_, hkeeps.submissions⟩ ?_
    · rw [Dict.get_erase] at hrows
      split at hrows
      · cases hrows
      · rename_i hother
        exact ⟨hkeeps.pending hrows entry hent, fun heq ↦ hother heq.symm⟩
    · intro st entry hent hst
      refine hst.flushEntry (hsent entry ?_)
      cases hqueue : sess.engine.pending.get candle.instrument with
      | none => simp [hqueue] at hent
      | some rows =>
        rw [hqueue] at hent
        exact hkeeps.pending hqueue entry hent

theorem Keeps.deferSignal
    (hqueued : ∀ entry : PendingOrder, entry.strategyId = strat.strategyId →
      entry.signal = sig → entry.emitted = occ →
      queued sig.instrument.instrument entry) :
    Keeps prior queued sent (sess.deferSignal cfg host strat occ sig).engine := by
  unfold Session.deferSignal
  split
  · exact hkeeps
  · split
    · exact hkeeps
    · refine ⟨fun hrows entry hent ↦ ?_, hkeeps.submissions⟩
      rw [Dict.get_set] at hrows
      split at hrows
      · rename_i hinstr
        cases hrows
        rw [← hinstr]
        rcases List.mem_append.mp hent with hprior | hnew
        · cases hqueue : sess.engine.pending.get sig.instrument.instrument with
          | none => simp [hqueue] at hprior
          | some rows =>
            rw [hqueue] at hprior
            exact hkeeps.pending hqueue entry hprior
        · rw [List.mem_singleton.mp hnew]
          exact hqueued _ rfl rfl rfl
      · exact hkeeps.pending hrows entry hent

theorem Keeps.submitSignal
    (hsent : ∀ req price, Carries req strat.strategyId sig price →
      sent ⟨req, sig, occ, occ⟩) :
    Keeps prior queued sent (sess.submitSignal cfg host strat occ sig).engine := by
  unfold Session.submitSignal
  split
  · exact hkeeps
  · rename_i price _
    split
    · exact hkeeps
    · rename_i req hbuilt
      obtain ⟨hstrat, hinstr, hprice⟩ := fields_of_buildRequest hbuilt
      exact hkeeps.place (hsent req price ⟨hstrat, hinstr, hprice⟩)

structure SignalAnswers (cfg : EngineConfig) (queued : Instrument → PendingOrder → Prop)
    (sent : Submission → Prop) (strategy : TradingStrategy) (occasion : Occasion)
    (result : Option Signal) : Prop where
  deferred : cfg.fillReference = .nextOpen → ∀ entry : PendingOrder,
    entry.strategyId = strategy.strategyId → result = some entry.signal →
    entry.emitted = occasion → queued entry.signal.instrument.instrument entry
  submitted : cfg.fillReference = .signalClose → ∀ request signal price, result = some signal →
    Carries request strategy.strategyId signal price →
    sent ⟨request, signal, occasion, occasion⟩

theorem Keeps.maybePublishOrder (hanswers : SignalAnswers cfg queued sent strat occ res) :
    Keeps prior queued sent (sess.maybePublishOrder cfg host strat occ res).engine := by
  unfold Session.maybePublishOrder
  split
  · exact hkeeps
  · rename_i sig
    split
    · rename_i href
      refine Keeps.deferSignal (hkeeps.congr rfl rfl) ?_
      rintro entry hstrat rfl hemit
      exact hanswers.deferred href entry hstrat rfl hemit
    · rename_i href
      refine Keeps.submitSignal (hkeeps.congr rfl rfl) ?_
      intro req price hcarry
      exact hanswers.submitted href req sig price rfl hcarry

def FlushAnswers (cfg : EngineConfig) (queued : Instrument → PendingOrder → Prop)
    (sent : Submission → Prop) (candle : Candle) (occ : Occasion) : Prop :=
  cfg.fillReference = .nextOpen → ∀ entry, queued candle.instrument entry → ∀ req,
    Carries req entry.strategyId entry.signal candle.openPrice →
    sent ⟨req, entry.signal, entry.emitted, occ⟩

theorem Keeps.beginBar (hflush : FlushAnswers cfg queued sent candle occ) :
    Keeps prior queued sent (sess.beginBar cfg host candle occ).engine := by
  unfold Session.beginBar
  split
  · rename_i href
    have hcnt : Keeps prior queued sent
        { sess.engine with barCount := sess.engine.barCount + 1 } := hkeeps.congr rfl rfl
    exact (Keeps.flushPending hcnt (hflush href)).mono fun _ _ hboth ↦ hboth.1
  · exact hkeeps.congr rfl rfl

def barResult (cfg : EngineConfig) (host : Host Venue) (candle : Candle) (occ : Occasion)
    (sess : Session Venue) (strat : TradingStrategy) : Option Signal :=
  if strat.strategyId ∈ sess.engine.gated then none
  else
    let begun := sess.beginBar cfg host candle occ
    if begun.engine.router.delivers strat.strategyId .candle candle.instrument then
      (callOnBar cfg host strat candle ⟨ingestCandle cfg candle begun.engine, begun.venue⟩).1
    else none

theorem Keeps.onBar (hflush : FlushAnswers cfg queued sent candle occ)
    (hwider : ∀ instr entry, queued instr entry → wider instr entry)
    (hanswers : SignalAnswers cfg wider sent strat occ
      (barResult cfg host candle occ sess strat)) :
    Keeps prior wider sent (onBar cfg host candle occ sess strat).engine := by
  unfold Session.onBar
  unfold barResult at hanswers
  split
  · exact hkeeps.mono hwider
  · rename_i hopen
    rw [if_neg hopen] at hanswers
    dsimp only at hanswers ⊢
    have hbegun : Keeps prior wider sent (sess.beginBar cfg host candle occ).engine :=
      (hkeeps.beginBar hflush).mono hwider
    split
    · rename_i hdelivers
      rw [if_pos hdelivers] at hanswers
      refine Keeps.maybePublishOrder ?_ hanswers
      obtain ⟨analytics, reads, hcall⟩ := callOnBar_engine cfg host
      rw [hcall]
      unfold ingestCandle
      split
      · exact hbegun.congr rfl rfl
      · exact hbegun.congr rfl rfl
    · exact hbegun

variable (hanswers : ∀ res, SignalAnswers cfg queued sent strat occ res)

include hanswers in
theorem Keeps.onQuote {quote : Quote} :
    Keeps prior queued sent (onQuote cfg host quote occ sess strat).engine := by
  unfold Session.onQuote
  dsimp only
  split
  · exact hkeeps.congr rfl rfl
  · split
    · exact Keeps.maybePublishOrder (hkeeps.congr rfl rfl) (hanswers _)
    · exact hkeeps.congr rfl rfl

include hanswers in
theorem Keeps.onDepth {depth : Depth} :
    Keeps prior queued sent (onDepth cfg host depth occ sess strat).engine := by
  unfold Session.onDepth
  split
  · exact hkeeps
  · split
    · split
      · exact Keeps.maybePublishOrder hkeeps (hanswers _)
      · exact hkeeps
    · exact hkeeps

end Session

end Tradex.Strategy

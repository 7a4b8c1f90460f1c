import Tradex.Foundation.Causality
import Tradex.Foundation.StableSort
import Tradex.Replay.Backtest
import Tradex.Strategy.NextOpen

/-!
# Backtests do not look ahead

A run reads the candles of its whole data to mark open positions, but only those up to the candle's
own time.
-/

namespace Tradex.Replay

open Tradex.Domain Tradex.Execution Tradex.Strategy BacktestState ReplayEvent List

variable {Memory Risk Source : Type} {rig : Rig Memory Risk Source}
  {st next final : BacktestState Memory Risk Source}

def candlesOf (instr : Instrument) (data : List ReplayEvent) : List Candle :=
  data.filterMap fun ev ↦
    match ev with
    | .candle bar => if bar.instrument = instr then some bar else none
    | _ => none

variable {data : List ReplayEvent} {instr : Instrument} {res : BacktestResult}
  {opening : Opening Memory Risk Source} {events : List ReplayEvent}

theorem get_candlesById : ((candlesById data).get instr).getD [] = candlesOf instr data := by
  suffices hfold : ∀ series : Dict Instrument (List Candle),
      ((data.foldl collectCandle series).get instr).getD [] =
        (series.get instr).getD [] ++ candlesOf instr data by
    rw [candlesById, hfold, Dict.get_empty, Option.getD_none, nil_append]
  induction data with
  | nil => simp [candlesOf]
  | cons ev rest ih =>
    intro series
    rw [foldl_cons, ih]
    cases ev with
    | candle bar =>
      by_cases hinstr : bar.instrument = instr
      · subst hinstr
        simp [candlesOf, collectCandle]
      · simp [candlesOf, collectCandle, Dict.get_set_of_ne hinstr, hinstr]
    | quote tick | fill trade => simp [candlesOf, collectCandle]

variable {limit : ℤ}

theorem filter_candlesOf :
    (candlesOf instr data).filter (fun bar ↦ bar.timestamp ≤ limit) =
      candlesOf instr (upTo timestamp limit data) := by
  rw [candlesOf, candlesOf, upTo, filter_filterMap, filterMap_filter]
  congr 1
  funext ev
  cases ev with
  | candle bar =>
    by_cases hinstr : bar.instrument = instr <;>
      by_cases htime : bar.timestamp ≤ limit <;>
      simp [hinstr, htime, timestamp, Option.filter]
  | quote tick | fill trade => simp

theorem causal_markToMarket :
    Causal timestamp fun data instant ↦
      markToMarket (candlesById data) (some instant) := by
  intro first second limit hagree
  have hknown : ∀ data pos, knownClose (((candlesById data).get pos).getD [])
      (some limit) = (candlesOf pos (upTo timestamp limit data)).getLast? := by
    intro data pos
    rw [get_candlesById, knownClose, filter_candlesOf]
  have hadd : addMarked (candlesById first) (some limit) =
      addMarked (candlesById second) (some limit) := by
    funext total pos
    rw [addMarked, addMarked, hknown, hknown, hagree]
  funext positions
  simp [markToMarket, hadd]

theorem onFill_frame {st : BacktestState Memory Risk Source} {fill : Fill} :
    ∃ legs brackets lots, st.onFill fill =
      { st with
        recordedFillObjects := st.recordedFillObjects ++ [fill]
        recordedFills := st.recordedFills ++ [fillRecord fill legs]
        activeBrackets := brackets
        lotOpenedAt := lots } := by
  unfold onFill registerBracket releaseBracket stampLot
  dsimp only
  repeat' split
  all_goals exact ⟨_, _, _, rfl⟩

theorem bookAction_frame {old : Position} {action : CorporateAction}
    (hbook : st.bookAction rig old action = .ok next) :
    ∃ sess brackets, next = { st with session := sess, activeBrackets := brackets } := by
  unfold bookAction bookSplit bookDividend rebaseBracket at hbook
  repeat' split at hbook
  all_goals cases hbook
  all_goals exact ⟨_, _, rfl⟩

/-- What marking and booking an action keep is kept by all that are due. -/
theorem applyCaFor_invariant {asOf : ℤ} {kept : BacktestState Memory Risk Source → Prop}
    (hstart : kept st)
    (hmark : ∀ {st} instr identity, kept st →
      kept (st.markApplied instr identity))
    (hbook : ∀ {st old action next}, kept st →
      st.desk.world.cache.getPosition old.instrument = some old →
      st.bookAction rig old action = .ok next → kept next)
    (happly : st.applyCaFor rig asOf = .ok next) : kept next := by
  unfold applyCaFor at happly
  split at happly
  · cases happly
    exact hstart
  · refine foldlM_invariant hstart (fun _ hst hdue ↦ ?_) happly
    unfold applyActionsDue at hdue
    split at hdue
    · cases hdue
    · refine foldlM_invariant hst (fun _ hst happly ↦ ?_) hdue
      unfold applyAction bookOwed at happly
      split at happly
      · cases happly
        exact hst
      · split at happly
        · cases happly
          exact hmark _ _ hst
        next old hold =>
          have hname := TradingCache.instrument_of_getPosition hold
          split at happly
          · cases happly
            exact hmark _ _ hst
          · exact hbook (hmark _ _ hst) (hname ▸ hold) happly

def ReplayEvent.isCandle : ReplayEvent → Bool
  | .candle _ => true
  | _ => false

def FillRecord.facts (record : FillRecord) : ℤ × Instrument × OrderSide × Price × Decimal :=
  (record.time, record.instrument, record.side, record.price, record.quantity)

def factsOf (fill : Fill) : ℤ × Instrument × OrderSide × Price × Decimal :=
  (fill.timestamp, fill.instrument, fill.side, fill.price, fill.quantity)

/-- What was recorded is kept, every new fill has a new row, and the curve has `count` more points. -/
def Extends (count : ℕ) (before after : BacktestState Memory Risk Source) : Prop :=
  ∃ fills records points, after.recordedFillObjects = before.recordedFillObjects ++ fills ∧
    after.recordedFills = before.recordedFills ++ records ∧
    (records.filter (!·.rejected)).map FillRecord.facts = fills.map factsOf ∧
    after.equityCurve = before.equityCurve ++ points ∧ points.length = count

namespace Extends

variable {count more : ℕ}

theorem refl (st : BacktestState Memory Risk Source) : Extends 0 st st := ⟨[], [], [], by simp⟩

theorem trans (hfirst : Extends count st next) (hsnd : Extends more next final) :
    Extends (count + more) st final := by
  obtain ⟨fills, records, points, hfills, hrecs, hmatch, hcurve, hlen⟩ := hfirst
  obtain ⟨fills', records', points', hfills', hrecs', hmatch', hcurve', hlen'⟩ := hsnd
  refine ⟨fills ++ fills', records ++ records', points ++ points', ?_⟩
  simp [hfills, hrecs, hcurve, hfills', hrecs', hcurve', hmatch, hmatch', hlen, hlen']

theorem onFill (fill : Fill) : Extends 0 st (st.onFill fill) := by
  obtain ⟨legs, brackets, lots, hfill⟩ := onFill_frame
  rw [hfill]
  exact ⟨[fill], [fillRecord fill legs], [], by simp [fillRecord, FillRecord.facts, factsOf]⟩

theorem deliver (ev : DomainEvent) : Extends 0 st (st.deliver rig ev) := by
  unfold BacktestState.deliver
  split
  · exact refl st
  · rename_i fill charge
    have hinbound : Extends 0 st (st.applyInbound rig fill charge) := refl st
    exact hinbound.trans (onFill fill)
  · exact ⟨[], [_], [], (append_nil _).symm, rfl, rfl, (append_nil _).symm, rfl⟩
  · unfold BacktestState.onPipelineError
    split
    · exact refl st
    · exact refl st
  · exact refl st

theorem drain (budget : ℕ) : Extends 0 st (drain rig budget st) := by
  induction budget generalizing st with
  | zero => exact refl st
  | succ budget ih =>
    unfold drain
    split
    · exact refl st
    · rename_i ev rest hbacklog
      have hwait : Extends 0 st (st.withBacklog rest) := refl st
      exact (hwait.trans (deliver ev)).trans ih

theorem publish (ev : DomainEvent) : Extends 0 st (st.publish rig ev) :=
  have hwait : Extends 0 st (st.withBacklog (st.desk.backlog ++ [ev])) := refl st
  hwait.trans (drain _)

theorem publishMarket (ev : MarketEvent) : Extends 0 st (st.publishMarket rig ev) :=
  have hdeliv : Extends 0 st (st.deliverMarket rig ev) := refl st
  hdeliv.trans (drain _)

theorem execute (op : Op) : Extends 0 st (BacktestState.execute rig op st).2 := by
  unfold BacktestState.execute
  split
  · exact publish _
  · exact refl st

theorem run {Output : Type} (prog : EngineProgram Output) :
    Extends 0 st (prog.run (BacktestState.execute rig) st).2 := by
  induction prog generalizing st with
  | ret val | raise err => exact refl st
  | call op rest ih => exact (execute op).trans (ih _)

theorem submit {req : OrderRequest} (hsub : st.submit rig req = .ok next) : Extends 0 st next := by
  unfold BacktestState.submit at hsub
  have hrun : Extends 0 st ((Engine.submit rig.engine.executionConfig req).run
    (BacktestState.execute rig) st).2 := run _
  generalize (Engine.submit rig.engine.executionConfig req).run
    (BacktestState.execute rig) st = ans at hsub hrun
  obtain ⟨out, after⟩ := ans
  cases out with
  | error err => cases hsub
  | ok res =>
    cases hsub
    exact hrun

theorem applyCaFor {asOf : ℤ} (happly : st.applyCaFor rig asOf = .ok next) : Extends 0 st next :=
  applyCaFor_invariant (refl st) (fun _ _ hst ↦ hst)
    (fun hst _ hbook ↦ by
      obtain ⟨sess, brackets, rfl⟩ := bookAction_frame hbook
      exact hst) happly

theorem captureRecorded (instr : Instrument) : Extends 0 st (st.captureRecorded rig instr) := by
  unfold BacktestState.captureRecorded
  split
  · exact refl st
  · refine foldlRecOn _ _ (refl st) fun cur hcur recorded _ ↦ ?_
    have hbridged : Extends 0 cur (cur.bridge instr recorded) := by
      unfold BacktestState.bridge
      split
      · exact refl cur
      · exact refl cur
    exact hcur.trans hbridged

variable {candle : Candle}

theorem flushBridgePending
    (hflush : st.flushBridgePending rig candle = .ok next) : Extends 0 st next := by
  unfold BacktestState.flushBridgePending at hflush
  split at hflush
  · cases hflush
    exact refl st
  · rename_i sig rest hqueued
    have hpop : Extends 0 st (st.popBridge candle.instrument rest) := refl st
    unfold BacktestState.bridgeSignal at hflush
    split at hflush
    · cases hflush
      exact hpop
    · exact hpop.trans (submit hflush)

theorem maybeProtectiveExit
    (hexit : st.maybeProtectiveExit rig candle = .ok next) : Extends 0 st next := by
  have hbegun : Extends 0 st (st.beginExit candle.instrument) := refl st
  unfold BacktestState.maybeProtectiveExit at hexit
  split at hexit
  · cases hexit
    exact refl st
  · split at hexit
    · cases hexit
      exact refl st
    · split at hexit
      · cases hexit
        exact refl st
      · split at hexit
        · cases hexit
        · exact hbegun.trans (submit hexit)

end Extends

variable {ev : ReplayEvent} {mark : List Position → Decimal}
  {marks : ReplayEvent → List Position → Decimal}

theorem extends_process (hproc : st.process rig mark ev = .ok next) :
    Extends (if ev.isCandle then 1 else 0) st next := by
  cases ev with
  | candle bar =>
    obtain ⟨adjusted, hadj, hproc⟩ := except_bind_eq_ok hproc
    obtain ⟨flushed, hflush, hproc⟩ := except_bind_eq_ok hproc
    obtain ⟨exited, hexit, hproc⟩ := except_bind_eq_ok hproc
    cases hproc
    have hclock : Extends 0 st (st.setClock bar.timestamp) := Extends.refl st
    have hcapt : Extends 0 flushed (flushed.publishMarket rig (.candle bar)).captureClaimed :=
      (Extends.publishMarket (.candle bar))
    have hpoint : Extends 1 exited (exited.appendEquity mark) :=
      ⟨[], [], [_], (append_nil _).symm, (append_nil _).symm, rfl, rfl, rfl⟩
    exact ((((hclock.trans (.applyCaFor hadj)).trans (.flushBridgePending hflush)).trans
      hcapt).trans ((Extends.captureRecorded bar.instrument).trans
        (.maybeProtectiveExit hexit))).trans hpoint
  | quote tick =>
    cases hproc
    have hclock : Extends 0 st (st.setClock tick.timestamp) := Extends.refl st
    have hcapt : Extends 0 st
        ((st.setClock tick.timestamp).publishMarket rig (.quote tick)).captureClaimed :=
      hclock.trans (Extends.publishMarket (.quote tick))
    exact hcapt.trans (Extends.captureRecorded tick.instrument)
  | fill trade =>
    cases hproc
    exact Extends.publish (.orderFilled trade none)

theorem step_of_open (hopen : st.pipelineErrors = []) (hstep : st.step rig mark ev = .ok next) :
    ∃ after, st.process rig mark ev = .ok after ∧ next = after.journalled st ev := by
  rw [step, hopen, isEmpty_nil] at hstep
  obtain ⟨after, hproc, hnext⟩ := except_map_eq_ok hstep
  exact ⟨after, hproc, hnext.symm⟩

theorem finish_eq_ok {preSignals : ℕ} (hfin : rig.finish preSignals st = .ok res) :
    st.pipelineErrors = [] ∧ rig.report preSignals st = res := by
  unfold Rig.finish at hfin
  split at hfin
  · rename_i hopen
    exact ⟨hopen, Except.ok.inj hfin⟩
  · cases hfin

structure Journalled (capital : Decimal) (state : BacktestState Memory Risk Source) : Prop where
  fills : state.recordedFillObjects = state.journal.flatMap JournalEntry.fills
  records : state.recordedFills = state.journal.flatMap JournalEntry.records
  curve : state.equityCurve = capital :: state.journal.flatMap JournalEntry.points

theorem Journalled.step {capital : Decimal} (hjour : Journalled capital st)
    (hstep : st.step rig mark ev = .ok next) : Journalled capital next := by
  by_cases hopen : st.pipelineErrors = []
  · obtain ⟨after, hproc, rfl⟩ := step_of_open hopen hstep
    obtain ⟨fills, records, points, hfills, hrecs, -, hcurve, -⟩ := extends_process hproc
    constructor
    · rw [BacktestState.journalled, flatMap_append, ← hjour.fills, hfills]
      simp
    · rw [BacktestState.journalled, flatMap_append, ← hjour.records, hrecs]
      simp
    · rw [BacktestState.journalled, flatMap_append, ← cons_append, ← hjour.curve, hcurve]
      simp
  · rw [BacktestState.step, if_neg (by simpa using hopen)] at hstep
    cases hstep
    exact hjour

theorem result_eq_journal {engine : BacktestEngine Risk Source} {script : Script Memory}
    (hrun : engine.run script opening data = .ok res) :
    res.equityCurve = engine.initialCapital :: res.journal.flatMap JournalEntry.points ∧
      res.fillRecords = (res.journal.flatMap JournalEntry.fills).insertionSort
        (fun first second ↦ first.timestamp ≤ second.timestamp) ∧
      res.fills = (res.journal.flatMap JournalEntry.records).insertionSort
        (fun first second ↦ first.time ≤ second.time) := by
  obtain ⟨sizer, -, hrun⟩ := except_bind_eq_ok hrun
  obtain ⟨final, hloop, hfin⟩ := except_bind_eq_ok hrun
  have hjour : Journalled engine.initialCapital final := by
    exact foldlM_invariant ⟨rfl, rfl, rfl⟩ (fun _ hst hstep ↦ hst.step hstep) hloop
  obtain ⟨-, rfl⟩ := finish_eq_ok hfin
  refine ⟨hjour.curve, ?_, ?_⟩
  · rw [Rig.report, hjour.fills]
  · rw [Rig.report, hjour.records]

theorem foldlM_step_of_failed (hfail : st.pipelineErrors ≠ []) :
    events.foldlM (fun st ev ↦ st.step rig (marks ev) ev) st = .ok st := by
  induction events with
  | nil => rfl
  | cons ev rest ih =>
    have hstep : st.step rig (marks ev) ev = .ok st := by rw [step, if_neg (by simpa using hfail)]
    rw [foldlM_cons, hstep]
    exact ih

variable (hfold : events.foldlM (fun st ev ↦ st.step rig (marks ev) ev) st = .ok
    final) (hfinal : final.pipelineErrors = [])

include hfold hfinal in
theorem pipelineErrors_of_foldlM : st.pipelineErrors = [] := by
  by_contra hfail
  rw [foldlM_step_of_failed hfail] at hfold
  cases hfold
  exact hfail hfinal

include hfold hfinal in
theorem extends_foldlM : Extends (events.countP isCandle) st final := by
  induction events generalizing st with
  | nil =>
    cases hfold
    exact Extends.refl _
  | cons ev rest ih =>
    have hopen := pipelineErrors_of_foldlM hfold hfinal
    obtain ⟨next, hstep, hrest⟩ := except_bind_eq_ok hfold
    obtain ⟨after, hproc, rfl⟩ := step_of_open hopen hstep
    have hafter := extends_process hproc
    have hjour : Extends _ st (after.journalled st ev) := hafter
    rw [countP_cons, add_comm]
    exact hjour.trans (ih hrest)

include hfold hfinal in
theorem journal_foldlM :
    ∃ rows, final.journal = st.journal ++ rows ∧ rows.length = events.length := by
  induction events generalizing st with
  | nil =>
    cases hfold
    exact ⟨[], by simp⟩
  | cons ev rest ih =>
    have hopen := pipelineErrors_of_foldlM hfold hfinal
    obtain ⟨next, hstep, hrest⟩ := except_bind_eq_ok hfold
    obtain ⟨after, -, rfl⟩ := step_of_open hopen hstep
    obtain ⟨rows, hrows, hlen⟩ := ih hrest
    rw [journalled, append_assoc, singleton_append] at hrows
    exact ⟨_, hrows, by rw [length_cons, hlen, length_cons]⟩

theorem journal_take {early later : List ReplayEvent} (hnil : st.journal = [])
    (hfold : (early ++ later).foldlM (fun st ev ↦ st.step rig (marks ev) ev)
      st = .ok final) (hfinal : final.pipelineErrors = []) :
    ∃ reached, early.foldlM (fun st ev ↦ st.step rig (marks ev) ev) st =
        .ok reached ∧ final.journal.take early.length = reached.journal := by
  rw [foldlM_append] at hfold
  obtain ⟨reached, hreach, hlate⟩ := except_bind_eq_ok hfold
  refine ⟨reached, hreach, ?_⟩
  obtain ⟨rows, hrows, -⟩ := journal_foldlM hlate hfinal
  obtain ⟨first, hfst, hlen⟩ := journal_foldlM hreach (pipelineErrors_of_foldlM hlate hfinal)
  rw [hnil, nil_append] at hfst
  rw [hrows, ← hlen, ← hfst, take_left]

theorem exists_state_upTo (hordered : OrderedBy timestamp data)
    (hloop : rig.loop opening data = .ok final) (hfinal : final.pipelineErrors = []) :
    ∃ reached, (upTo timestamp limit data).foldlM
        (fun st ev ↦
          st.step rig (markToMarket (candlesById data) (some ev.timestamp)) ev)
        (rig.start opening) = .ok reached ∧
      final.journal.take (upTo timestamp limit data).length = reached.journal := by
  have hfold : (upTo timestamp limit data ++
      data.filter fun ev ↦ limit < ev.timestamp).foldlM
      (fun st ev ↦
        st.step rig (markToMarket (candlesById data) (some ev.timestamp)) ev)
      (rig.start opening) = .ok final := by
    rw [upTo_append_after hordered]
    exact hloop
  have hnil : (rig.start opening).journal = [] := rfl
  exact journal_take hnil hfold hfinal

/-- What a backtest does up to an instant depends only on the data up to that instant. -/
theorem no_look_ahead (engine : BacktestEngine Risk Source) (script : Script Memory)
    (opening : Opening Memory Risk Source) {first second : List ReplayEvent}
    (hfirst : OrderedBy ReplayEvent.timestamp first)
    (hsnd : OrderedBy ReplayEvent.timestamp second) {limit : ℤ}
    (hagree : upTo ReplayEvent.timestamp limit first = upTo ReplayEvent.timestamp limit second)
    {firstResult secondResult : BacktestResult}
    (hrunFirst : engine.run script opening first = .ok firstResult)
    (hrunSecond : engine.run script opening second = .ok secondResult) :
    firstResult.journal.take (upTo ReplayEvent.timestamp limit first).length =
      secondResult.journal.take (upTo ReplayEvent.timestamp limit second).length := by
  obtain ⟨sizer, hsizer, hrunFirst⟩ := except_bind_eq_ok hrunFirst
  obtain ⟨otherSizer, hother, hrunSecond⟩ := except_bind_eq_ok hrunSecond
  obtain rfl : sizer = otherSizer := Except.ok.inj (hsizer.symm.trans hother)
  obtain ⟨final, hloop, hfin⟩ := except_bind_eq_ok hrunFirst
  obtain ⟨otherFinal, hotherLoop, hotherFinish⟩ := except_bind_eq_ok hrunSecond
  obtain ⟨hopen, rfl⟩ := finish_eq_ok hfin
  obtain ⟨hotherOpen, rfl⟩ := finish_eq_ok hotherFinish
  obtain ⟨reached, hreached, htake⟩ := exists_state_upTo hfirst hloop hopen
  obtain ⟨otherReached, hotherReached, hotherTake⟩ :=
    exists_state_upTo hsnd hotherLoop hotherOpen
  have hsame : reached = otherReached := by
    have hstates := causal_markToMarket.foldlM_upTo_eq hagree
      (fun mark (st : BacktestState Memory Risk Source) ev ↦
        st.step { engine := engine, script := script, sizer := sizer } mark ev)
      (Rig.start { engine := engine, script := script, sizer := sizer } opening)
    exact Except.ok.inj (hreached.symm.trans (hstates.trans hotherReached))
  exact htake.trans ((congrArg journal hsame).trans hotherTake.symm)

def demoPlatform : Platform where
  float := Price.q2
  date instant := instant
  parseExDate _ := .ok 0
  instant text := if text = "1" then 1 else if text = "2" then 2 else 3
  numberText _ := ""
  digest text := text
  symbol instr := instr.instrumentId

def demoEngine : BacktestEngine Unit SimulatedSource where
  platform := demoPlatform
  strategyPlatform :=
    { runId := "run"
      digest := fun text ↦ text
      stampText := fun _ ↦ ""
      isoText := fun instant ↦ if instant = 1 then "1" else if instant = 2 then "2" else "3"
      compute := ⟨id, fun _ _ ↦ .ok []⟩ }
  fillSource := simulatedFillSource demoPlatform none
  stopGapBps_nonneg := by decide +kernel

def demoScript : Script Unit where
  strategy := Session.alpha
  onBar _ candle _ :=
    .ret (if candle.timestamp = 1 then
      some { instrument := Session.infy, direction := .buy } else none, ())
  onQuote _ _ _ := (none, ())
  onFill _ _ _ := ()
  signals _ := []

def demoOpening : Opening Unit Unit SimulatedSource where
  memory := ()
  risk := ()
  source := { uuids := fun _ ↦ "order", wallClock := fun _ ↦ 0 }
  clock := 0
  environment := Environment.obliging fun _ ↦ .raised (.other "") none false

def risingData : List ReplayEvent :=
  [.candle (Session.flatCandle 100 1), .candle (Session.flatCandle 101 2),
    .candle (Session.flatCandle 105 3)]

def fallingData : List ReplayEvent :=
  [.candle (Session.flatCandle 100 1), .candle (Session.flatCandle 101 2),
    .candle (Session.flatCandle 90 3), .candle (Session.flatCandle 80 4)]

theorem purchase_does_not_look_ahead :
    ∃ rising falling,
      demoEngine.run demoScript demoOpening risingData = .ok rising ∧
        demoEngine.run demoScript demoOpening fallingData = .ok falling ∧
        rising.journal.take 2 = falling.journal.take 2 ∧
        (rising.journal.take 2).map (fun entry ↦ (entry.fills.length, entry.points.length)) =
          [(0, 1), (1, 1)] := by
  have hfills : (demoEngine.run demoScript demoOpening risingData).toOption.map (fun res ↦
      (res.journal.take 2).map fun entry ↦ (entry.fills.length, entry.points.length)) =
      some [(0, 1), (1, 1)] := by decide +kernel
  have hsome : (demoEngine.run demoScript demoOpening fallingData).toOption.isSome = true := by
    decide +kernel
  obtain ⟨rising, hrising, hfills⟩ := Option.map_eq_some_iff.1 hfills
  obtain ⟨falling, hfalling⟩ := Option.isSome_iff_exists.1 hsome
  have hsame := no_look_ahead demoEngine demoScript demoOpening (by decide +kernel)
    (by decide +kernel) (by decide +kernel : upTo timestamp 2 risingData =
      upTo timestamp 2 fallingData) (eq_ok_of_toOption hrising) (eq_ok_of_toOption hfalling)
  exact ⟨rising, falling, eq_ok_of_toOption hrising, eq_ok_of_toOption hfalling, hsame, hfills⟩

/-- The curve has a point for each candle after the opening one, and the accepted rows restate the
fills. -/
theorem run_bookkeeping {engine : BacktestEngine Risk Source} {script : Script Memory}
    (hrun : engine.run script opening data = .ok res) :
    (res.equityCurve.head? = some engine.initialCapital ∧
      res.equityCurve.length = data.countP isCandle + 1) ∧
    (res.fills.filter (!·.rejected)).map FillRecord.facts = res.fillRecords.map factsOf := by
  obtain ⟨sizer, -, hrun⟩ := except_bind_eq_ok hrun
  obtain ⟨final, hloop, hfin⟩ := except_bind_eq_ok hrun
  obtain ⟨hopen, rfl⟩ := finish_eq_ok hfin
  obtain ⟨fills, records, points, hfills, hrecs, hmatch, hcurve, hlen⟩ :=
    extends_foldlM hloop hopen
  simp only [Rig.start, nil_append, singleton_append] at hfills hrecs hcurve
  have : Std.Total fun first second : FillRecord ↦ first.time ≤ second.time :=
    ⟨fun _ _ ↦ le_total _ _⟩
  have : IsTrans FillRecord fun first second ↦ first.time ≤ second.time := ⟨fun _ _ _ ↦ le_trans⟩
  refine ⟨by simp [Rig.report, hcurve, hlen], ?_⟩
  -- both lists are sorted by the first fact, and sorting keeps the order of equal times
  simp only [Rig.report, hfills, hrecs]
  rw [filter_insertionSort, map_insertionSort _ (fun first second ↦ first.1 ≤ second.1),
    map_insertionSort _ (fun first second ↦ first.1 ≤ second.1), hmatch]
  · exact fun _ _ _ _ ↦ Iff.rfl
  · exact fun _ _ _ _ ↦ Iff.rfl

theorem purchase_kept_in_books : ∃ res, demoEngine.run demoScript demoOpening risingData = .ok res ∧
    res.equityCurve.length = 4 ∧
      (res.fills.filter (!·.rejected)).map FillRecord.facts = res.fillRecords.map factsOf := by
  have hsome : (demoEngine.run demoScript demoOpening risingData).toOption.isSome = true := by
    decide +kernel
  obtain ⟨res, hres⟩ := Option.isSome_iff_exists.1 hsome
  have hbooks := run_bookkeeping (eq_ok_of_toOption hres)
  exact ⟨res, eq_ok_of_toOption hres, hbooks.1.2, hbooks.2⟩

end Tradex.Replay

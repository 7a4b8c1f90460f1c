import Tradex.Replay.NoLookAhead

/-!
# Reused strategies

A run counts the signals that are on its strategy when it starts. The bridge for
recorded signals does not use the count, so an earlier signal is traded again when an event of its
instrument arrives before the run has claimed a signal of its own.
-/

namespace Tradex.Replay

open Tradex.Domain Tradex.Execution Tradex.Strategy BacktestState List

variable {Memory Risk Source : Type}

def Script.withPrior (script : Script Memory) (prior : List (ℕ × Signal)) : Script Memory :=
  { script with signals := fun memory ↦ prior ++ script.signals memory }

def Rig.withPrior (rig : Rig Memory Risk Source) (prior : List (ℕ × Signal)) :
    Rig Memory Risk Source :=
  { rig with script := rig.script.withPrior prior }

def ReplayEvent.captured : ReplayEvent → Option Instrument
  | .candle bar => some bar.instrument
  | .quote tick => some tick.instrument
  | .fill _ => none

section

variable {rig : Rig Memory Risk Source} {prior : List (ℕ × Signal)}
  {st : BacktestState Memory Risk Source}

theorem drain_withPrior {budget : ℕ} :
    drain (rig.withPrior prior) budget st = drain rig budget st := by
  induction budget generalizing st with
  | zero => rfl
  | succ budget ih =>
    unfold drain
    split
    · rfl
    · exact ih

theorem publishMarket_withPrior {ev : MarketEvent} :
    st.publishMarket (rig.withPrior prior) ev = st.publishMarket rig ev :=
  drain_withPrior

theorem publish_withPrior {ev : DomainEvent} :
    st.publish (rig.withPrior prior) ev = st.publish rig ev :=
  drain_withPrior

theorem submit_withPrior {req : OrderRequest} :
    st.submit (rig.withPrior prior) req = st.submit rig req := by
  have hexecute : execute (rig.withPrior prior) = execute rig := by
    funext op st
    cases op with
    | publish ev => exact Prod.ext rfl publish_withPrior
    | _ => rfl
  unfold submit
  rw [hexecute]
  rfl

variable {candle : Candle}

theorem flushBridgePending_withPrior :
    st.flushBridgePending (rig.withPrior prior) candle = st.flushBridgePending rig candle := by
  unfold flushBridgePending bridgeSignal
  simp only [submit_withPrior]
  rfl

theorem maybeProtectiveExit_withPrior :
    st.maybeProtectiveExit (rig.withPrior prior) candle = st.maybeProtectiveExit rig candle := by
  unfold maybeProtectiveExit
  simp only [submit_withPrior]
  rfl

theorem captureRecorded_withPrior {instr : Instrument}
    (hprior : st.claimed = false → ∀ recorded ∈ prior, recorded.2.instrument.instrument ≠ instr) :
    st.captureRecorded (rig.withPrior prior) instr = st.captureRecorded rig instr := by
  unfold captureRecorded
  split
  · rfl
  next hunclaimed =>
    have hforeign := hprior (Bool.eq_false_iff.2 hunclaimed)
    have hskip : prior.foldl (fun st ↦ st.bridge instr) st = st := by
      clear hprior
      induction prior with
      | nil => rfl
      | cons recorded prior ih =>
        rw [foldl_cons, bridge, if_pos (.inr (hforeign recorded mem_cons_self))]
        exact ih fun other hmem ↦ hforeign other (mem_cons_of_mem _ hmem)
    change (prior ++ rig.script.signals st.desk.memory).foldl _ st = _
    rw [foldl_append, hskip]

/-- The state in which the strategy has had the event and its recorded signals are looked at. -/
def called (rig : Rig Memory Risk Source) (st : BacktestState Memory Risk Source) :
    ReplayEvent → Except TradingError (BacktestState Memory Risk Source)
  | .candle bar => do
    let adjusted ← (st.setClock bar.timestamp).applyCaFor rig bar.timestamp
    let flushed ← adjusted.flushBridgePending rig bar
    pure (flushed.publishMarket rig (.candle bar)).captureClaimed
  | .quote tick => .ok ((st.setClock tick.timestamp).publishMarket rig (.quote tick)).captureClaimed
  | .fill _ => .ok st

/-- No candle or quote of an instrument with an earlier signal comes before the run has claimed a
signal of its own. -/
def passesOver (rig : Rig Memory Risk Source) (marks : ReplayEvent → List Position → Decimal)
    (prior : List (ℕ × Signal)) :
    List ReplayEvent → BacktestState Memory Risk Source → Bool
  | [], _ => true
  | ev :: data, st =>
    (match called rig st ev with
      | .ok after => after.claimed ||
        prior.all fun recorded ↦ ev.captured ≠ some recorded.2.instrument.instrument
      | .error _ => true) &&
    match st.step rig (marks ev) ev with
      | .ok next => passesOver rig marks prior data next
      | .error _ => true

theorem process_withPrior {ev : ReplayEvent} {mark : List Position → Decimal}
    (hprior : ∀ after, called rig st ev = .ok after → after.claimed = false →
      ∀ recorded ∈ prior, ev.captured ≠ some recorded.2.instrument.instrument) :
    st.process (rig.withPrior prior) mark ev = st.process rig mark ev := by
  have hcapture : ∀ instr, ev.captured = some instr → ∀ after, called rig st ev = .ok after →
      after.captureRecorded (rig.withPrior prior) instr = after.captureRecorded rig instr := by
    refine fun instr hev after hcalled ↦ captureRecorded_withPrior fun hunclaimed recorded hmem ↦ ?_
    intro hsame
    exact hprior after hcalled hunclaimed recorded hmem (hsame ▸ hev)
  cases ev with
  | candle bar =>
    have hactions : ∀ st : BacktestState Memory Risk Source, st.applyCaFor
        (rig.withPrior prior) bar.timestamp = st.applyCaFor rig bar.timestamp := fun _ ↦ rfl
    simp only [process, processCandle, hactions, flushBridgePending_withPrior,
      publishMarket_withPrior, maybeProtectiveExit_withPrior]
    refine except_bind_congr fun adjusted hadjusted ↦ except_bind_congr fun flushed hflushed ↦ ?_
    have hcalled : called rig st (.candle bar) =
        .ok (flushed.publishMarket rig (.candle bar)).captureClaimed := by
      simp only [called, hadjusted, hflushed, bind, Except.bind]
      rfl
    rw [hcapture bar.instrument rfl _ hcalled]
  | quote tick =>
    simp only [process, processQuote, publishMarket_withPrior]
    rw [hcapture tick.instrument rfl _ rfl]
  | fill trade =>
    unfold process processFill
    simp [publish_withPrior]

theorem foldlM_withPrior {marks : ReplayEvent → List Position → Decimal} {data : List ReplayEvent}
    (hprior : passesOver rig marks prior data st = true) :
    data.foldlM (fun st ev ↦ st.step (rig.withPrior prior) (marks ev) ev) st =
      data.foldlM (fun st ev ↦ st.step rig (marks ev) ev) st := by
  induction data generalizing st with
  | nil => rw [foldlM_nil, foldlM_nil]
  | cons ev data ih =>
    rw [passesOver, Bool.and_eq_true_iff] at hprior
    obtain ⟨hnow, hlater⟩ := hprior
    have hstep : st.step (rig.withPrior prior) (marks ev) ev =
        st.step rig (marks ev) ev := by
      unfold step
      rw [process_withPrior fun after hcalled hunclaimed ↦ ?_]
      rw [hcalled] at hnow
      simpa [hunclaimed] using hnow
    rw [foldlM_cons, hstep]
    refine except_bind_congr fun next hnext ↦ ih ?_
    rw [hnext] at hlater
    exact hlater

end

/-- A run passes over earlier signals if it does so from its opening state, with its sizer. -/
def BacktestEngine.passesOver (engine : BacktestEngine Risk Source) (script : Script Memory)
    (opening : Opening Memory Risk Source) (data : List ReplayEvent) (prior : List (ℕ × Signal)) :
    Bool :=
  match engine.resolveSizer with
  | .ok sizer =>
    let rig : Rig Memory Risk Source := ⟨engine, script, sizer⟩
    Replay.passesOver rig (fun ev ↦ markToMarket (candlesById data) (some ev.timestamp)) prior data
      (rig.start opening)
  | .error _ => true

/-- Signals left on a reused strategy change nothing if its own are claimed before theirs could be.
-/
theorem earlier_signals_ignored (engine : BacktestEngine Risk Source) (script : Script Memory)
    (opening : Opening Memory Risk Source) (data : List ReplayEvent) (prior : List (ℕ × Signal))
    (hprior : engine.passesOver script opening data prior = true) :
    engine.run (script.withPrior prior) opening data = engine.run script opening data := by
  refine except_bind_congr fun sizer hsizer ↦ ?_
  rw [BacktestEngine.passesOver, hsizer] at hprior
  let rig : Rig Memory Risk Source := ⟨engine, script, sizer⟩
  have hloop : (rig.withPrior prior).loop opening data = rig.loop opening data :=
    foldlM_withPrior hprior
  change ((rig.withPrior prior).loop opening data >>= _) = _
  rw [hloop]
  refine bind_congr fun final ↦ ?_
  unfold Rig.finish
  split
  · simp only [Rig.report, Script.withPrior]
    simp
  · rfl

def quietScript : Script Unit :=
  { demoScript with onBar := fun _ _ _ ↦ .ret (none, ()) }

def earlierPurchase (instrumentId : String) : ℕ × Signal :=
  (0, { instrument := { Session.infy with instrument := ⟨instrumentId⟩ }, direction := .buy })

theorem earlier_signal_passed_over :
    demoEngine.run (demoScript.withPrior
        [earlierPurchase Session.infy.instrument.instrumentId]) demoOpening risingData =
      demoEngine.run demoScript demoOpening risingData :=
  earlier_signals_ignored demoEngine demoScript demoOpening risingData _ (by decide +kernel)

theorem earlier_signal_traded :
    (demoEngine.run (quietScript.withPrior
        [earlierPurchase Session.infy.instrument.instrumentId]) demoOpening risingData).toOption.map
        (fun res ↦ res.fillRecords.length) = some 1 ∧
      (demoEngine.run quietScript demoOpening risingData).toOption.map
        (fun res ↦ res.fillRecords.length) = some 0 :=
  ⟨by decide +kernel, by decide +kernel⟩

end Tradex.Replay

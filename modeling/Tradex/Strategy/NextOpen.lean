import Tradex.Strategy.EngineRules

/-!
# Signals that wait for the next open

Every handler of a candle flushes the queue that all strategies share, so a signal deferred for the
candle's own instrument is submitted by the next running handler, at the open of the candle that
produced it.
-/

namespace Tradex.Strategy.Session

open Tradex.Domain Tradex.Analytics

variable {Venue : Type} {cfg : EngineConfig} {host : Host Venue}

def AtLaterOpen (sub : Submission) : Prop :=
  ∃ candle, sub.during.event = .candle candle ∧
    candle.instrument = sub.signal.instrument.instrument ∧
    sub.request.price = some candle.openPrice ∧
    ∀ source, sub.emitted.event = .candle source →
      source.instrument = sub.signal.instrument.instrument →
      sub.emitted.number < sub.during.number

def FillsAtLaterOpen (engine : StrategyEngine) : Prop :=
  ∀ sub ∈ engine.submissions, AtLaterOpen sub

def WaitsForLast (cfg : EngineConfig) (host : Host Venue) (candle : Candle)
    (occ : Occasion) : List TradingStrategy → Session Venue → Prop
  | [], _ => True
  | strat :: rest, sess =>
    ((∃ later ∈ rest, later.strategyId ∉ sess.engine.gated) →
      ∀ sig ∈ barResult cfg host candle occ sess strat,
        sig.instrument.instrument ≠ candle.instrument) ∧
    WaitsForLast cfg host candle occ rest (onBar cfg host candle occ sess strat)

def OrderlyCall (cfg : EngineConfig) (host : Host Venue) (sess : Session Venue) :
    Call → Prop
  | .publish (.candle candle) =>
    WaitsForLast cfg host candle ⟨sess.engine.eventCount, .candle candle⟩
      sess.engine.subscriptions
      ⟨announce (.candle candle) sess.engine, sess.venue⟩
  | _ => True

def OrderlyRun (cfg : EngineConfig) (host : Host Venue) : Session Venue → List Call → Prop
  | _, [] => True
  | sess, call :: rest =>
    OrderlyCall cfg host sess call ∧ OrderlyRun cfg host (step cfg host sess call) rest

instance decidableWaitsForLast (candle : Candle) (occ : Occasion) :
    ∀ (strategies : List TradingStrategy) (sess : Session Venue),
      Decidable (WaitsForLast cfg host candle occ strategies sess)
  | [], _ => .isTrue trivial
  | strat :: rest, sess =>
    have := decidableWaitsForLast candle occ rest
      (onBar cfg host candle occ sess strat)
    inferInstanceAs (Decidable (_ ∧ _))

instance decidableOrderlyCall (sess : Session Venue) :
    ∀ call, Decidable (OrderlyCall cfg host sess call)
  | .publish (.candle _) => inferInstanceAs (Decidable (WaitsForLast _ _ _ _ _ _))
  | .publish (.quote _) => .isTrue trivial
  | .publish (.depth _) => .isTrue trivial
  | .publishFill _ => .isTrue trivial
  | .register _ => .isTrue trivial
  | .unregister _ => .isTrue trivial
  | .pause _ => .isTrue trivial
  | .resume _ => .isTrue trivial
  | .stop _ _ => .isTrue trivial
  | .disposeAll => .isTrue trivial

instance decidableOrderlyRun : ∀ (sess : Session Venue) (calls : List Call),
    Decidable (OrderlyRun cfg host sess calls)
  | _, [] => .isTrue trivial
  | sess, call :: rest =>
    have := decidableOrderlyRun (step cfg host sess call) rest
    inferInstanceAs (Decidable (_ ∧ _))

def EmittedBefore (num : ℕ) (instr : Instrument) (entry : PendingOrder) : Prop :=
  entry.signal.instrument.instrument = instr ∧ entry.emitted.number < num

def Unfilled (candle : Candle) (num : ℕ) (instr : Instrument) (entry : PendingOrder) :
    Prop :=
  entry.signal.instrument.instrument = instr ∧ entry.emitted.number ≤ num ∧
    (instr = candle.instrument → entry.emitted.number < num)

variable {candle : Candle} {num : ℕ} {sess : Session Venue} {instr : Instrument}
  {strat : TradingStrategy} {strategies : List TradingStrategy} {entry : PendingOrder}

theorem emittedBefore_succ_of_unfilled (hunfil : Unfilled candle num instr entry) :
    EmittedBefore (num + 1) instr entry :=
  ⟨hunfil.1, Nat.lt_succ_of_le hunfil.2.1⟩

theorem flushAnswers_unfilled {candle : Candle} {num : ℕ} :
    FlushAnswers cfg (Unfilled candle num) AtLaterOpen candle ⟨num, .candle candle⟩ := by
  rintro - entry ⟨hinstr, -, hprior⟩ req hcarry
  exact ⟨candle, rfl, hinstr.symm, hcarry.price, fun _ _ _ ↦ hprior rfl⟩

variable (href : cfg.fillReference = .nextOpen) {occ : Occasion} {ev : MarketEvent}

include href in
theorem signalAnswers_emittedBefore
    (strat : TradingStrategy) (num : ℕ) (ev : MarketEvent) (res : Option Signal) :
    SignalAnswers cfg (EmittedBefore (num + 1)) AtLaterOpen strat ⟨num, ev⟩
      res where
  deferred := by
    rintro - entry - - hemit
    exact ⟨rfl, by simp [hemit]⟩
  submitted hclose := by simp [href] at hclose

include href in
theorem signalAnswers_unfilled {res : Option Signal}
    (hother : ∀ sig ∈ res, sig.instrument.instrument ≠ candle.instrument) :
    SignalAnswers cfg (Unfilled candle num) AtLaterOpen strat ⟨num, .candle candle⟩
      res where
  deferred := by
    rintro - entry - hres hemit
    exact ⟨rfl, by simp [hemit], fun heq ↦ absurd heq (hother entry.signal hres)⟩
  submitted hclose := by simp [href] at hclose

theorem foldl_onBar_of_gated (hgated : ∀ strat ∈ strategies, strat.strategyId ∈ sess.engine.gated) :
    strategies.foldl (onBar cfg host candle occ) sess = sess := by
  induction strategies with
  | nil => rfl
  | cons strat rest ih =>
    have hfst : onBar cfg host candle occ sess strat = sess := by
      unfold onBar
      rw [if_pos (hgated strat List.mem_cons_self)]
    rw [List.foldl_cons, hfst]
    exact ih fun other hother ↦ hgated other (List.mem_cons_of_mem strat hother)

theorem gated_onBar {candle : Candle} :
    (onBar cfg host candle occ sess strat).engine.gated = sess.engine.gated :=
  congrArg Wiring.gated wiring_onBar

include href in
theorem keeps_foldl_onBar (hkeep : Keeps [] (Unfilled candle num) AtLaterOpen sess.engine)
    (hwaits : WaitsForLast cfg host candle ⟨num, .candle candle⟩ strategies sess) :
    Keeps [] (EmittedBefore (num + 1)) AtLaterOpen
      (strategies.foldl (onBar cfg host candle ⟨num, .candle candle⟩) sess).engine := by
  induction strategies generalizing sess with
  | nil => exact hkeep.mono fun _ _ ↦ emittedBefore_succ_of_unfilled
  | cons strat rest ih =>
    obtain ⟨hquiet, hrest⟩ := hwaits
    rw [List.foldl_cons]
    by_cases hrun : ∃ later ∈ rest, later.strategyId ∉ sess.engine.gated
    · refine ih ?_ hrest
      exact hkeep.onBar flushAnswers_unfilled (fun _ _ hqueued ↦ hqueued)
        (signalAnswers_unfilled href (hquiet hrun))
    · -- No running handler follows, so this one's own signal stays in the queue.
      have hgated : ∀ later ∈ rest, later.strategyId ∈
          (onBar cfg host candle ⟨num, .candle candle⟩ sess strat).engine.gated := by
        intro later hlate
        rw [gated_onBar]
        by_contra hopen
        exact hrun ⟨later, hlate, hopen⟩
      rw [foldl_onBar_of_gated hgated]
      exact hkeep.onBar flushAnswers_unfilled
        (fun _ _ ↦ emittedBefore_succ_of_unfilled)
        (signalAnswers_emittedBefore href strat num _ _)

theorem eventCount_publish :
    (sess.publish cfg host ev).engine.eventCount = sess.engine.eventCount + 1 := by
  have hwire : (sess.publish cfg host ev).engine.wiring =
      (announce ev sess.engine).wiring := by
    refine foldl_invariant (fun st : Session Venue ↦
      st.engine.wiring = (announce ev sess.engine).wiring) rfl ?_
    intro st strat _ hst
    rw [wiring_handle, hst]
  exact congrArg Wiring.eventCount hwire

def Waiting (sess : Session Venue) : Prop :=
  Keeps [] (EmittedBefore sess.engine.eventCount) AtLaterOpen sess.engine

include href in
theorem waiting_publish (hwait : Waiting sess) (hord : OrderlyCall cfg host sess (.publish ev)) :
    Waiting (sess.publish cfg host ev) := by
  unfold Waiting
  rw [eventCount_publish]
  have hlate : Keeps [] (EmittedBefore (sess.engine.eventCount + 1)) AtLaterOpen
      sess.engine :=
    hwait.mono fun _ _ hpre ↦ ⟨hpre.1, hpre.2.trans (Nat.lt_succ_self _)⟩
  cases ev with
  | candle bar =>
    have hunfil : Keeps [] (Unfilled bar sess.engine.eventCount) AtLaterOpen sess.engine :=
      hwait.mono fun _ _ hpre ↦ ⟨hpre.1, hpre.2.le, fun _ ↦ hpre.2⟩
    exact keeps_foldl_onBar href (hunfil.congr rfl rfl) hord
  | quote tick =>
    refine foldl_invariant (fun st : Session Venue ↦
      Keeps [] (EmittedBefore (sess.engine.eventCount + 1)) AtLaterOpen st.engine)
      (hlate.congr rfl rfl) ?_
    intro st strat _ hst
    exact hst.onQuote (signalAnswers_emittedBefore href strat _ _)
  | depth book =>
    refine foldl_invariant (fun st : Session Venue ↦
      Keeps [] (EmittedBefore (sess.engine.eventCount + 1)) AtLaterOpen st.engine)
      (hlate.congr rfl rfl) ?_
    intro st strat _ hst
    exact hst.onDepth (signalAnswers_emittedBefore href strat _ _)

theorem engine_publishFill {fill : Fill} :
    (sess.publishFill cfg host fill).engine = sess.engine := by
  refine foldl_invariant (fun st : Session Venue ↦ st.engine = sess.engine) rfl ?_
  intro st strat _ hst
  rw [← hst]
  unfold onFill
  split
  · rfl
  · split <;> rfl

section

variable (href : cfg.fillReference = .nextOpen)

include href

theorem waiting_step {call : Call} (hwait : Waiting sess) (hord : OrderlyCall cfg host sess call) :
    Waiting (step cfg host sess call) := by
  cases call with
  | publish ev => exact waiting_publish href hwait hord
  | publishFill fill =>
    unfold Waiting step
    rw [engine_publishFill]
    exact hwait
  | pause sid =>
    unfold Waiting step pauseStrategy
    dsimp only
    split
    · exact hwait.congr rfl rfl
    · exact hwait
  | disposeAll => exact ⟨fun hrows ↦ (by cases hrows), hwait.submissions⟩
  | _ => exact hwait.congr rfl rfl

theorem waiting_run {calls : List Call} (hwait : Waiting sess)
    (hord : OrderlyRun cfg host sess calls) : Waiting (sess.run cfg host calls) := by
  induction calls generalizing sess with
  | nil => exact hwait
  | cons call rest ih =>
    obtain ⟨hcall, hrest⟩ := hord
    exact ih (waiting_step href hwait hcall) hrest

/-- In an orderly run each deferred signal fills at the open of a later candle of its instrument. -/
theorem fills_at_later_open (venue : Venue)
    {calls : List Call} (hord : OrderlyRun cfg host ⟨StrategyEngine.empty, venue⟩ calls) :
    FillsAtLaterOpen (run cfg host ⟨StrategyEngine.empty, venue⟩ calls).engine := by
  have hstart : Waiting (⟨StrategyEngine.empty, venue⟩ : Session Venue) :=
    ⟨fun hentries ↦ (by cases hentries), [], rfl, fun sub hmem ↦ (by cases hmem)⟩
  obtain ⟨added, hadded, hall⟩ := (waiting_run href hstart hord).submissions
  unfold FillsAtLaterOpen
  rw [hadded]
  exact hall

end

def infy : ListedInstrument where
  instrument := ⟨"NSE:INFY"⟩
  symbol := "INFY"
  assetClass := .equity

def flatCandle (price : ℕ) (timestamp : ℤ) : Candle where
  instrument := infy.instrument
  timeframe := .m1
  openPrice := Price.ofNat price
  high := Price.ofNat price
  low := Price.ofNat price
  close := Price.ofNat price
  volume := 0
  timestamp := timestamp

def notionalConfig : EngineConfig where
  sizer :=
    { maxOrderValue := Amount.ofNat 100000 (Nat.succ_pos _)
      tickSize := sizingFallbackTick
      riskFraction := none
      equity := none
      hasEquitySource := false
      fallbackNotional := some (Amount.ofNat 10000 (by decide))
      contracts := none
      label := "notional" }
  runId := "run"
  digest seed := seed
  stampText _ := ""
  isoText _ := ""
  compute := ⟨id, fun _ _ ↦ .ok []⟩

def oneBuyer : Host Unit where
  onBar strat _ candle _ :=
    .ret (if strat.strategyId = "alpha" ∧ candle.timestamp = 1 then
      some { instrument := infy, direction := .buy } else none, ())
  onQuote _ _ _ _ := (none, ())
  onDepth _ _ _ _ := (none, ())
  onFill _ _ _ _ := ()
  submit _ _ := (.ok (), ())
  cancel _ _ := (.ok (), ())
  equity _ := .missing
  positions _ := []
  balance _ := { amount := 0 }

def alpha : TradingStrategy := { strategyId := "alpha" }

def beta : TradingStrategy := { strategyId := "beta" }

def engineAfter (calls : List Call) : StrategyEngine :=
  (run notionalConfig oneBuyer ⟨StrategyEngine.empty, ()⟩ calls).engine

theorem signal_fills_on_its_own_bar :
    ¬FillsAtLaterOpen (engineAfter
      [.register alpha, .register beta, .publish (.candle (flatCandle 100 1))]) := by
  intro hfills
  have hsent : (engineAfter [.register alpha, .register beta,
      .publish (.candle (flatCandle 100 1))]).submissions.map
        (fun sub ↦ (sub.emitted, sub.during.number, sub.signal.instrument.instrument)) =
      [(⟨0, .candle (flatCandle 100 1)⟩, 0, infy.instrument)] := by decide +kernel
  obtain ⟨sub, hsubs, hfields⟩ := List.map_eq_singleton_iff.mp hsent
  simp only [Prod.mk.injEq] at hfields
  obtain ⟨hemit, hduring, hinstrument⟩ := hfields
  obtain ⟨candle, -, -, -, hlater⟩ := hfills sub (hsubs ▸ List.mem_singleton.mpr rfl)
  have hless := hlater (flatCandle 100 1) (by rw [hemit]) hinstrument.symm
  rw [hemit, hduring] at hless
  exact absurd hless (lt_irrefl 0)

theorem last_signal_fills_later :
    let engine := engineAfter [.register beta, .register alpha,
      .publish (.candle (flatCandle 100 1)), .publish (.candle (flatCandle 101 2))]
    engine.submissions.length = 1 ∧ FillsAtLaterOpen engine :=
  ⟨by decide +kernel, fills_at_later_open rfl () (by decide +kernel)⟩

end Tradex.Strategy.Session

import Tradex.Strategy.NextOpen

/-!
# The series behind an indicator

Every handler that a candle reaches feeds it to the one bar store.
-/

namespace Tradex.Strategy.Session

open Tradex.Domain Tradex.Analytics List

variable {Venue : Type} {cfg : EngineConfig} {host : Host Venue}

def placeBar (candle : Candle) : List Candle → List Candle
  | [] => [candle]
  | bar :: rest =>
    if candle.timestamp < bar.timestamp then candle :: bar :: rest
    else if candle.timestamp = bar.timestamp then candle :: rest
    else bar :: placeBar candle rest

def publishedSeries (key : BarKey) (published : List Candle) : List Candle :=
  published.filter fun bar ↦ barKey bar = key

def canonicalSeries (key : BarKey) (published : List Candle) : List Candle :=
  (publishedSeries key published).foldl (fun series bar ↦ placeBar bar series) []

def FaithfulReadings (compute : ComputeIndicator) (reads : List Reading) : Prop :=
  ∀ reading ∈ reads,
    reading.result = compute reading.request (canonicalSeries reading.series reading.published)

def InTime (prior later : Candle) : Prop :=
  barKey prior = barKey later → prior.timestamp < later.timestamp

instance decidableInTime (prior later : Candle) : Decidable (InTime prior later) :=
  inferInstanceAs (Decidable (_ → _))

variable {candle : Candle} {occ : Occasion} {sess : Session Venue} {engine : StrategyEngine}

theorem placeBar_of_later {series : List Candle}
    (hlate : ∀ bar ∈ series, bar.timestamp < candle.timestamp) :
    placeBar candle series = series ++ [candle] := by
  induction series with
  | nil => rfl
  | cons bar rest ih =>
    have hbar := hlate bar mem_cons_self
    have hrest := ih fun other hother ↦ hlate other (mem_cons_of_mem bar hother)
    simp [placeBar, hbar.not_gt, hbar.ne', hrest]

theorem foldl_placeBar_of_increasing {placed series : List Candle}
    (hincr : (placed ++ series).Pairwise fun prior later ↦
      prior.timestamp < later.timestamp) :
    series.foldl (fun series bar ↦ placeBar bar series) placed = placed ++ series := by
  induction series generalizing placed with
  | nil => simp
  | cons bar rest ih =>
    have hlate : ∀ prior ∈ placed, prior.timestamp < bar.timestamp := by
      intro prior hprior
      exact (pairwise_append.mp hincr).2.2 prior hprior bar mem_cons_self
    rw [foldl_cons, placeBar_of_later hlate, ih (by simpa using hincr)]
    simp

variable {key : BarKey} {published : List Candle} {strat : TradingStrategy}
  {strategies : List TradingStrategy}

theorem canonicalSeries_of_inTime (hinTime : published.Pairwise InTime) :
    canonicalSeries key published = publishedSeries key published := by
  refine foldl_placeBar_of_increasing ?_
  rw [nil_append]
  unfold publishedSeries
  rw [pairwise_filter]
  refine hinTime.imp ?_
  intro prior later hin hprior hlate
  exact hin ((of_decide_eq_true hprior).trans (of_decide_eq_true hlate).symm)

theorem publishedSeries_append :
    publishedSeries key (published ++ [candle]) =
      if barKey candle = key then publishedSeries key published ++ [candle]
      else publishedSeries key published := by
  by_cases hkey : barKey candle = key
  · simp [publishedSeries, hkey]
  · simp [publishedSeries, hkey]

def Receives (wiring : Wiring) (instr : Instrument) (strat : TradingStrategy) : Bool :=
  strat.strategyId ∉ wiring.gated &&
    wiring.router.delivers strat.strategyId .candle instr

theorem frame_onBar_of_not_receives
    (hnot : Receives sess.engine.wiring candle.instrument strat = false) :
    (onBar cfg host candle occ sess strat).engine.frame = sess.engine.frame := by
  unfold onBar
  split
  · rfl
  · rename_i hopen
    have hrouter : (sess.beginBar cfg host candle occ).engine.router =
        sess.engine.router :=
      congrArg Wiring.router wiring_beginBar
    have hblock : sess.engine.router.delivers strat.strategyId .candle
        candle.instrument = false :=
      (Bool.and_eq_false_iff.mp hnot).resolve_left fun hclose ↦
        of_decide_eq_false hclose hopen
    dsimp only
    rw [hrouter, hblock]
    exact frame_beginBar

theorem frame_foldl_onBar_of_not_receives
    (hnone : ∀ strat ∈ strategies,
      Receives sess.engine.wiring candle.instrument strat = false) :
    (strategies.foldl (onBar cfg host candle occ) sess).engine.frame = sess.engine.frame := by
  refine foldl_invariant (fun st : Session Venue ↦
    st.engine.frame = sess.engine.frame) rfl ?_
  intro st strat hstrat hst
  have hwire : st.engine.wiring = sess.engine.wiring := congrArg Frame.wiring hst
  rw [frame_onBar_of_not_receives (hwire ▸ hnone strat hstrat), hst]

def Asks {Output : Type} (requests : Set IndicatorRequest) :
    Program IndicatorRequest (fun _ ↦ Except TradingError IndicatorResult) TradingError Output →
      Prop
  | .ret _ => True
  | .raise _ => True
  | .call req rest => req ∈ requests ∧ ∀ ans, Asks requests (rest ans)

structure Fed (compute : ComputeIndicator) (requests : Set IndicatorRequest) (frame : Frame) :
    Prop where
  series : ∀ key, (∃ strategy ∈ frame.wiring.subscriptions,
      Receives frame.wiring key.1 strategy = true) →
    frame.analytics.store.candles key = publishedSeries key frame.wiring.candles
  coherent : Coherent compute requests frame.analytics
  readings : FaithfulReadings compute frame.readings

variable {requests : Set IndicatorRequest}

theorem fed_run_readIndicator {Output : Type}
    {prog : Program IndicatorRequest (fun _ ↦ Except TradingError IndicatorResult)
      TradingError Output}
    (hkeys : KeysDetermine cfg.compute requests) (hasks : Asks requests prog)
    (hfed : Fed cfg.compute requests engine.frame)
    (hseries : engine.analytics.store.series.get key = some (engine.analytics.store.candles key))
    (hcanonical : engine.analytics.store.candles key = canonicalSeries key engine.candles) :
    Fed cfg.compute requests (prog.run (readIndicator cfg key) engine).2.frame := by
  induction prog generalizing engine with
  | ret val | raise err => exact hfed
  | call req rest ih =>
    obtain ⟨hreq, hrest⟩ := hasks
    obtain ⟨hres, hstore, hcoh⟩ := indicator_spec hfed.coherent hkeys hreq hseries
    refine ih _ (hrest _) ?_ ?_ ?_
    · refine ⟨?_, hcoh, ?_⟩
      · intro other hother
        exact (congrArg (fun store ↦ BarStore.candles store other) hstore).trans
          (hfed.series other hother)
      · intro reading hread
        rcases mem_append.mp hread with hprior | hnew
        · exact hfed.readings reading hprior
        · rw [mem_singleton.mp hnew]
          exact hres.trans (congrArg (cfg.compute req) hcanonical)
    · exact hstore.symm ▸ hseries
    · exact hstore.symm ▸ hcanonical

def announced (candle : Candle) (engine : StrategyEngine) : Frame :=
  (announce (.candle candle) engine).frame

theorem Fed.ingest (hfed : Fed cfg.compute requests engine.frame) (candle : Candle) :
    Fed cfg.compute requests
      { announced candle engine with analytics := engine.analytics.ingest candle } where
  series := by
    intro key hrecv
    change (engine.analytics.store.ingest candle).candles key =
      publishedSeries key (engine.candles ++ [candle])
    rw [BarStore.candles_ingest, publishedSeries_append]
    have hpre : engine.analytics.store.candles key = publishedSeries key engine.candles :=
      hfed.series key hrecv
    rw [hpre]
  coherent := hfed.coherent.ingest candle
  readings := hfed.readings

theorem frame_callOnBar :
    (callOnBar cfg host strat candle sess).2.engine.frame =
      ((host.onBar strat (sess.makeContext cfg host candle.instrument
        sess.engine.barCount (some candle.timestamp)
        (if cfg.hasAnalytics then some (barKey candle) else none)) candle sess.venue).run
          (readIndicator cfg (barKey candle)) sess.engine).2.frame := by
  simp only [callOnBar]
  split <;> rfl

variable (hstats : cfg.hasAnalytics = true) (hkeys : KeysDetermine cfg.compute requests)
  (hasks : ∀ strat context candle venue, Asks requests (host.onBar strat context candle
    venue))

include hstats hkeys hasks in
theorem fed_onBar_of_receives (hfed : Fed cfg.compute requests engine.frame)
    (hinTime : (engine.candles ++ [candle]).Pairwise InTime)
    (hframe : sess.engine.frame = announced candle engine)
    (hmem : strat ∈ engine.subscriptions)
    (hrecv : Receives engine.wiring candle.instrument strat = true) :
    Fed cfg.compute requests (onBar cfg host candle occ sess strat).engine.frame := by
  have hbegun : (sess.beginBar cfg host candle occ).engine.frame =
      announced candle engine :=
    frame_beginBar.trans hframe
  have hopen : strat.strategyId ∉ sess.engine.gated := by
    have hgated : sess.engine.gated = engine.gated :=
      congrArg (fun frame ↦ frame.wiring.gated) hframe
    rw [hgated]
    exact of_decide_eq_true (Bool.and_eq_true_iff.mp hrecv).1
  have hdelivers : (sess.beginBar cfg host candle occ).engine.router.delivers
      strat.strategyId .candle candle.instrument = true := by
    have hrouter : (sess.beginBar cfg host candle occ).engine.router = engine.router :=
      congrArg (fun frame ↦ frame.wiring.router) hbegun
    rw [hrouter]
    exact (Bool.and_eq_true_iff.mp hrecv).2
  unfold onBar
  rw [if_neg hopen]
  rw [if_pos hdelivers, frame_maybePublishOrder, frame_callOnBar]
  generalize hfedEngine :
    ingestCandle cfg candle (sess.beginBar cfg host candle occ).engine = fedEngine
  have hfedFrame : fedEngine.frame =
      { announced candle engine with analytics := engine.analytics.ingest candle } := by
    have hbegunAnalytics : (sess.beginBar cfg host candle occ).engine.analytics =
        engine.analytics := congrArg Frame.analytics hbegun
    have hbegunWiring := congrArg Frame.wiring hbegun
    have hbegunReadings := congrArg Frame.readings hbegun
    rw [← hfedEngine, ingestCandle, if_pos hstats, ← hbegunAnalytics]
    exact congrArg₂ (fun wiring reads ↦ Frame.mk wiring
      ((sess.beginBar cfg host candle occ).engine.analytics.ingest candle) reads)
      hbegunWiring hbegunReadings
  have hcompl := hfed.ingest candle
  have hanalyticsEq : fedEngine.analytics = engine.analytics.ingest candle :=
    congrArg Frame.analytics hfedFrame
  have hcandles : fedEngine.candles = engine.candles ++ [candle] :=
    congrArg (fun frame ↦ frame.wiring.candles) hfedFrame
  refine fed_run_readIndicator hkeys (hasks _ _ _ _) (hfedFrame ▸ hcompl) ?_ ?_
  · rw [hanalyticsEq]
    change (engine.analytics.store.ingest candle).series.get (barKey candle) =
      some ((engine.analytics.store.ingest candle).candles (barKey candle))
    rw [BarStore.candles_ingest, BarStore.get_series_ingest, if_pos rfl, if_pos rfl]
  · rw [hanalyticsEq, hcandles, canonicalSeries_of_inTime hinTime]
    exact hcompl.series (barKey candle) ⟨strat, hmem, hrecv⟩

theorem none_or_split_of_length_filter_le_one {Item : Type} {hasIt : Item → Bool}
    {items : List Item} (hone : (items.filter hasIt).length ≤ 1) :
    (∀ item ∈ items, hasIt item = false) ∨
      ∃ before item after, items = before ++ item :: after ∧ hasIt item = true ∧
        (∀ other ∈ before, hasIt other = false) ∧ ∀ other ∈ after, hasIt other = false := by
  by_cases hnone : ∀ item ∈ items, hasIt item = false
  · exact .inl hnone
  · simp only [not_forall, Bool.not_eq_false] at hnone
    obtain ⟨item, hmem, hitem⟩ := hnone
    obtain ⟨before, after, rfl⟩ := append_of_mem hmem
    rw [filter_append, filter_cons_of_pos hitem, length_append, length_cons] at hone
    have hpre : before.filter hasIt = [] := eq_nil_of_length_eq_zero (by omega)
    have hafter : after.filter hasIt = [] := eq_nil_of_length_eq_zero (by omega)
    refine .inr ⟨before, item, after, rfl, hitem, ?_, ?_⟩
    · intro other hother
      simpa using filter_eq_nil_iff.mp hpre other hother
    · intro other hother
      simpa using filter_eq_nil_iff.mp hafter other hother

theorem fed_announced_of_unreceived (hfed : Fed cfg.compute requests engine.frame)
    (hnone : ∀ strat ∈ engine.subscriptions,
      Receives engine.wiring candle.instrument strat = false) :
    Fed cfg.compute requests (announced candle engine) where
  series := by
    intro key hreceiver
    change engine.analytics.store.candles key = publishedSeries key (engine.candles ++ [candle])
    have hother : barKey candle ≠ key := by
      rintro rfl
      obtain ⟨strat, hmem, hrecv⟩ := hreceiver
      exact Bool.false_ne_true ((hnone strat hmem).symm.trans hrecv)
    rw [publishedSeries_append, if_neg hother]
    exact hfed.series key hreceiver
  coherent := hfed.coherent
  readings := hfed.readings

include hstats hkeys hasks in
theorem fed_publish (hfed : Fed cfg.compute requests sess.engine.frame)
    (hinTime : (sess.engine.candles ++ [candle]).Pairwise InTime)
    (hone : (sess.engine.subscriptions.filter
      (Receives sess.engine.wiring candle.instrument)).length ≤ 1) :
    Fed cfg.compute requests (sess.publish cfg host (.candle candle)).engine.frame := by
  let occ : Occasion := ⟨sess.engine.eventCount, .candle candle⟩
  let begun : Session Venue := ⟨announce (.candle candle) sess.engine, sess.venue⟩
  change Fed cfg.compute requests
    (sess.engine.subscriptions.foldl (onBar cfg host candle occ) begun).engine.frame
  rcases none_or_split_of_length_filter_le_one hone with
    hnone | ⟨before, strat, after, hsplit, hrecv, hpre, hafter⟩
  · have hkept : (sess.engine.subscriptions.foldl (onBar cfg host candle occ)
        begun).engine.frame = announced candle sess.engine :=
      frame_foldl_onBar_of_not_receives hnone
    rw [hkept]
    exact fed_announced_of_unreceived hfed hnone
  · have hmem : strat ∈ sess.engine.subscriptions := by simp [hsplit]
    have hkept : (before.foldl (onBar cfg host candle occ) begun).engine.frame =
        announced candle sess.engine :=
      frame_foldl_onBar_of_not_receives hpre
    rw [hsplit, foldl_append, foldl_cons]
    have hread : Fed cfg.compute requests (onBar cfg host candle occ
        (before.foldl (onBar cfg host candle occ) begun) strat).engine.frame :=
      fed_onBar_of_receives hstats hkeys hasks hfed hinTime hkept hmem hrecv
    rw [frame_foldl_onBar_of_not_receives]
    · exact hread
    · intro other hother
      have hwire : (before.foldl (onBar cfg host candle occ) begun).engine.wiring =
          (announced candle sess.engine).wiring := congrArg Frame.wiring hkept
      rw [wiring_onBar, hwire]
      exact hafter other hother

def publishAll (cfg : EngineConfig) (host : Host Venue) (candles : List Candle)
    (sess : Session Venue) : Session Venue :=
  candles.foldl (fun st candle ↦ st.publish cfg host (.candle candle)) sess

theorem wiring_publish :
    (sess.publish cfg host (.candle candle)).engine.wiring =
      (announced candle sess.engine).wiring := by
  refine foldl_invariant (fun st : Session Venue ↦
    st.engine.wiring = (announced candle sess.engine).wiring) rfl ?_
  intro st strat _ hst
  rw [wiring_handle, hst]

include hstats hkeys hasks in
theorem fed_publishAll {candles : List Candle} (hfed : Fed cfg.compute requests sess.engine.frame)
    (hinTime : (sess.engine.candles ++ candles).Pairwise InTime)
    (hone : ∀ candle ∈ candles, (sess.engine.subscriptions.filter
      (Receives sess.engine.wiring candle.instrument)).length ≤ 1) :
    Fed cfg.compute requests (publishAll cfg host candles sess).engine.frame := by
  induction candles generalizing sess with
  | nil => exact hfed
  | cons candle rest ih =>
    have hwire : (sess.publish cfg host (.candle candle)).engine.wiring =
        (announced candle sess.engine).wiring := wiring_publish
    have hcandles : (sess.publish cfg host (.candle candle)).engine.candles =
        sess.engine.candles ++ [candle] := congrArg Wiring.candles hwire
    have hordered : (sess.engine.candles ++ [candle]).Pairwise InTime := by
      refine hinTime.sublist ?_
      simp
    have hnext := fed_publish hstats hkeys hasks hfed hordered (hone candle mem_cons_self)
    refine ih hnext ?_ ?_
    · rw [hcandles]
      simpa using hinTime
    · intro later hlate
      have hsubs : (sess.publish cfg host (.candle candle)).engine.subscriptions =
          sess.engine.subscriptions := congrArg Wiring.subscriptions hwire
      rw [hwire, hsubs]
      exact hone later (mem_cons_of_mem candle hlate)

def registered (strategies : List TradingStrategy) : StrategyEngine :=
  strategies.foldl (fun engine strat ↦ register strat engine) StrategyEngine.empty

structure BarsComeOnce (strategies : List TradingStrategy) (candles : List Candle) : Prop where
  oneReader : ∀ candle ∈ candles, ((registered strategies).subscriptions.filter
    (Receives (registered strategies).wiring candle.instrument)).length ≤ 1
  inTime : candles.Pairwise InTime

theorem registered_unread :
    (registered strategies).analytics = AnalyticsRuntime.empty ∧
      (registered strategies).readings = [] ∧ (registered strategies).candles = [] :=
  foldl_invariant (fun engine : StrategyEngine ↦ engine.analytics = AnalyticsRuntime.empty ∧
    engine.readings = [] ∧ engine.candles = []) ⟨rfl, rfl, rfl⟩
    fun _ _ _ hengine ↦ hengine

/-- Indicators are computed over the published bars if each bar reaches one strategy, once and in
order. -/
theorem indicators_see_each_bar_once (hstats : cfg.hasAnalytics = true)
    (hkeys : KeysDetermine cfg.compute requests)
    (hasks : ∀ strat context candle venue,
      Asks requests (host.onBar strat context candle venue))
    {strategies : List TradingStrategy} {candles : List Candle}
    (honce : BarsComeOnce strategies candles) (venue : Venue) :
    FaithfulReadings cfg.compute
      (publishAll cfg host candles ⟨registered strategies, venue⟩).engine.readings := by
  obtain ⟨hempty, hunread, hnone⟩ := registered_unread
  have hstart : Fed cfg.compute requests (registered strategies).frame := by
    refine ⟨fun key _ ↦ ?_, ?_, ?_⟩
    · change (registered strategies).analytics.store.candles key =
        publishedSeries key (registered strategies).candles
      rw [hempty, hnone]
      rfl
    · change Coherent cfg.compute requests (registered strategies).analytics
      rw [hempty]
      exact fun _ _ _ _ _ hcache ↦ by cases hcache
    · change FaithfulReadings cfg.compute (registered strategies).readings
      rw [hunread]
      intro reading hmem
      cases hmem
  refine (fed_publishAll hstats hkeys hasks hstart ?_ honce.oneReader).readings
  rw [hnone]
  exact honce.inTime

def smaRequest : IndicatorRequest := ⟨"sma", []⟩

def plotCloses : ComputeIndicator where
  lower text := String.ofList (text.toList.map Char.toLower)
  apply req candles :=
    if req.name = "sma" then
      .ok [("value", candles.map fun bar ↦ some bar.close.value.toRat)]
    else .error (.value ("unknown indicator: " ++ req.name))

def closesConfig : EngineConfig := { notionalConfig with compute := plotCloses }

def readers (requests : List IndicatorRequest) : Host Unit :=
  { oneBuyer with
    onBar := fun _ _ _ _ ↦
      requests.foldr (fun req rest ↦ .call req fun _ ↦ rest) (.ret (none, ())) }

def readingsOf (requests : List IndicatorRequest) (bars : List Candle)
    (strategies : List TradingStrategy) : List Reading :=
  (publishAll closesConfig (readers requests) bars ⟨registered strategies, ()⟩).engine.readings

def ReadingsAgree (reads : List Reading) : Prop :=
  ∀ reading ∈ reads, reading.result.toOption =
    (plotCloses reading.request (canonicalSeries reading.series reading.published)).toOption

instance decidableReadingsAgree (reads : List Reading) : Decidable (ReadingsAgree reads) :=
  inferInstanceAs (Decidable (∀ reading ∈ reads, _ = _))

theorem readings_not_over_published_bars :
    ¬FaithfulReadings plotCloses (readingsOf [smaRequest] [flatCandle 100 1] [alpha, beta]) ∧
      ¬FaithfulReadings plotCloses
        (readingsOf [smaRequest] [flatCandle 100 1, flatCandle 101 1] [alpha]) ∧
      ¬FaithfulReadings plotCloses
        (readingsOf [smaRequest, ⟨"SMA", []⟩] [flatCandle 100 1] [alpha]) := by
  have hdiffer : ∀ reads, ¬ReadingsAgree reads → ¬FaithfulReadings plotCloses reads :=
    fun _ hnot htrue ↦ hnot fun reading hread ↦ congrArg Except.toOption (htrue reading hread)
  exact ⟨hdiffer _ (by decide +kernel), hdiffer _ (by decide +kernel), hdiffer _ (by decide +kernel)⟩

theorem separate_readers_see_each_bar_once :
    FaithfulReadings plotCloses (readingsOf [smaRequest]
      [flatCandle 100 1, { flatCandle 50 1 with instrument := ⟨"NSE:TCS"⟩ }, flatCandle 101 2]
      [{ alpha with instruments := [⟨"NSE:INFY"⟩] }, { beta with instruments := [⟨"NSE:TCS"⟩] }]) := by
  have hkeys : KeysDetermine closesConfig.compute {smaRequest} := by
    rintro first rfl second rfl series -
    rfl
  have hasks : ∀ strat context candle venue,
      Asks {smaRequest} ((readers [smaRequest]).onBar strat context candle venue) :=
    fun _ _ _ _ ↦ ⟨rfl, fun _ ↦ trivial⟩
  exact indicators_see_each_bar_once rfl hkeys hasks ⟨by decide +kernel, by decide +kernel⟩ ()

end Tradex.Strategy.Session

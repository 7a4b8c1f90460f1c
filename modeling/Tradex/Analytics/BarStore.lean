import Tradex.Domain.Market
import Tradex.Foundation.Dict
import Tradex.Foundation.Program

/-!
# The bar store and the indicator cache

The candle series that strategies read indicators from, and the cache of results, which are kept
with the number of feeds at which they were computed.
-/

namespace Tradex.Analytics

open Tradex.Domain

abbrev BarKey := Instrument × Timeframe

def barKey (candle : Candle) : BarKey := (candle.instrument, candle.timeframe)

structure BarStore where
  series : Dict BarKey (List Candle)
  versions : Dict BarKey ℕ

namespace BarStore

def empty : BarStore := ⟨Dict.empty, Dict.empty⟩

variable (store : BarStore)

def version (key : BarKey) : ℕ := (store.versions.get key).getD 0

def candles (key : BarKey) : List Candle := (store.series.get key).getD []

def ingest (candle : Candle) : BarStore where
  versions := store.versions.set (barKey candle) (store.version (barKey candle) + 1)
  series :=
    match store.series.get (barKey candle) with
    | none => store.series.set (barKey candle) [candle]
    | some candles => store.series.set (barKey candle) (candles ++ [candle])

variable {candle : Candle} {key : BarKey} {store : BarStore}

theorem version_ingest :
    (store.ingest candle).version key =
      if barKey candle = key then store.version key + 1 else store.version key := by
  simp only [version, ingest, Dict.get_set]
  by_cases hkey : barKey candle = key
  · simp [hkey]
  · simp [hkey]

theorem get_series_ingest :
    (store.ingest candle).series.get key =
      if barKey candle = key then some (store.candles key ++ [candle])
      else store.series.get key := by
  unfold ingest candles
  cases hseries : store.series.get (barKey candle) with
  | none | some prior =>
    simp only [Dict.get_set]
    by_cases hkey : barKey candle = key
    · simp [← hkey, hseries]
    · simp [hkey]

end BarStore

inductive ParamValue where
  | none
  | bool (value : Bool)
  | int (value : ℤ)
  | float (value : ℚ)
  | text (value : String)
  | list (items : List ParamValue)
  | tuple (items : List ParamValue)

inductive FrozenToken where
  | none
  | number (value : ℚ)
  | text (value : String)
  | openSequence
  | closeSequence
deriving DecidableEq

mutual

def freeze : ParamValue → List FrozenToken
  | .none => [.none]
  | .bool val => [.number (if val then 1 else 0)]
  | .int val => [.number val]
  | .float val => [.number val]
  | .text val => [.text val]
  | .list items => .openSequence :: freezeAll items ++ [.closeSequence]
  | .tuple items => .openSequence :: freezeAll items ++ [.closeSequence]

def freezeAll : List ParamValue → List FrozenToken
  | [] => []
  | item :: rest => freeze item ++ freezeAll rest

end

structure IndicatorRequest where
  name : String
  params : List (String × ParamValue)

abbrev IndicatorResult := List (String × List (Option ℚ))

structure CacheKey where
  series : BarKey
  name : String
  params : List (String × List FrozenToken)
deriving DecidableEq

/-- The indicator engine, together with the interpreter's `lower`. -/
structure ComputeIndicator where
  lower : String → String
  apply : IndicatorRequest → List Candle → Except TradingError IndicatorResult

instance : CoeFun ComputeIndicator fun _ ↦
    IndicatorRequest → List Candle → Except TradingError IndicatorResult :=
  ⟨ComputeIndicator.apply⟩

def ComputeIndicator.cacheKey (compute : ComputeIndicator) (series : BarKey)
    (req : IndicatorRequest) : CacheKey where
  series := series
  name := compute.lower req.name
  params := req.params.map fun param ↦ (param.1, freeze param.2)

abbrev IndicatorCache := Dict CacheKey (ℕ × IndicatorResult)

def storeComputed (cache : IndicatorCache) (key : CacheKey) (version : ℕ) :
    Except TradingError IndicatorResult → Except TradingError IndicatorResult × IndicatorCache
  | .ok res => (.ok res, cache.set key (version, res))
  | .error err => (.error err, cache)

def getOrCompute (cache : IndicatorCache) (key : CacheKey) (version : ℕ)
    (computed : Except TradingError IndicatorResult) :
    Except TradingError IndicatorResult × IndicatorCache :=
  match cache.get key with
  | some (cachedVersion, res) =>
    if cachedVersion = version then (.ok res, cache)
    else storeComputed cache key version computed
  | none => storeComputed cache key version computed

structure AnalyticsRuntime where
  store : BarStore
  cache : IndicatorCache

namespace AnalyticsRuntime

def empty : AnalyticsRuntime := ⟨BarStore.empty, Dict.empty⟩

def ingest (runtime : AnalyticsRuntime) (candle : Candle) : AnalyticsRuntime :=
  { runtime with store := runtime.store.ingest candle }

def indicator (compute : ComputeIndicator) (series : BarKey) (req : IndicatorRequest)
    (runtime : AnalyticsRuntime) : Except TradingError IndicatorResult × AnalyticsRuntime :=
  match runtime.store.series.get series with
  | none => (.ok [], runtime)
  | some candles =>
    let ans := getOrCompute runtime.cache (compute.cacheKey series req)
      (runtime.store.version series) (compute req candles)
    (ans.1, { runtime with cache := ans.2 })

end AnalyticsRuntime

def KeysDetermine (compute : ComputeIndicator) (requests : Set IndicatorRequest) : Prop :=
  ∀ first ∈ requests, ∀ second ∈ requests, ∀ series,
    compute.cacheKey series first = compute.cacheKey series second →
      compute first = compute second

def Coherent (compute : ComputeIndicator) (requests : Set IndicatorRequest)
    (runtime : AnalyticsRuntime) : Prop :=
  ∀ req ∈ requests, ∀ series version res,
    runtime.cache.get (compute.cacheKey series req) = some (version, res) →
    version ≤ runtime.store.version series ∧
      (version = runtime.store.version series →
        compute req (runtime.store.candles series) = .ok res)

variable {compute : ComputeIndicator} {requests : Set IndicatorRequest} {runtime : AnalyticsRuntime}

namespace BarStore

theorem candles_ingest {store : BarStore} {candle : Candle} {key : BarKey} :
    (store.ingest candle).candles key =
      if barKey candle = key then store.candles key ++ [candle] else store.candles key := by
  rw [candles, get_series_ingest]
  split <;> rfl

end BarStore

theorem Coherent.ingest (hcoh : Coherent compute requests runtime) (candle : Candle) :
    Coherent compute requests (runtime.ingest candle) := by
  intro req hreq series version res hcache
  obtain ⟨hle, hcur⟩ := hcoh req hreq series version res hcache
  simp only [AnalyticsRuntime.ingest, BarStore.version_ingest, BarStore.candles_ingest]
  by_cases hkey : barKey candle = series
  · rw [if_pos hkey]
    exact ⟨by omega, fun heq ↦ by omega⟩
  · rw [if_neg hkey, if_neg hkey]
    exact ⟨hle, hcur⟩

variable {req : IndicatorRequest} (hcoh : Coherent compute requests runtime)
  (hkeys : KeysDetermine compute requests) (hreq : req ∈ requests)

include hcoh hkeys hreq in
theorem Coherent.storeComputed (series : BarKey) :
    (storeComputed runtime.cache (compute.cacheKey series req) (runtime.store.version series)
        (compute req (runtime.store.candles series))).1 =
      compute req (runtime.store.candles series) ∧
    Coherent compute requests
      { runtime with
        cache := (Analytics.storeComputed runtime.cache (compute.cacheKey series req)
          (runtime.store.version series) (compute req (runtime.store.candles series))).2 } := by
  cases hres : compute req (runtime.store.candles series) with
  | error err => exact ⟨rfl, hcoh⟩
  | ok res =>
    refine ⟨rfl, ?_⟩
    intro other hother otherSeries version cached hcache
    simp only [Analytics.storeComputed, Dict.get_set] at hcache
    split at hcache
    · rename_i hkey
      cases hcache
      have hseries : series = otherSeries := congrArg CacheKey.series hkey
      subst hseries
      refine ⟨le_rfl, fun _ ↦ ?_⟩
      rw [← hkeys req hreq other hother series hkey]
      exact hres
    · exact hcoh other hother otherSeries version cached hcache

include hcoh hkeys hreq in
theorem indicator_spec {series : BarKey}
    (hfed : runtime.store.series.get series = some (runtime.store.candles series)) :
    (runtime.indicator compute series req).1 =
        compute req (runtime.store.candles series) ∧
      (runtime.indicator compute series req).2.store = runtime.store ∧
      Coherent compute requests (runtime.indicator compute series req).2 := by
  have hstore := hcoh.storeComputed hkeys hreq series
  unfold AnalyticsRuntime.indicator getOrCompute
  rw [hfed]
  cases hcache : runtime.cache.get (compute.cacheKey series req) with
  | none => exact ⟨hstore.1, rfl, hstore.2⟩
  | some entry =>
    obtain ⟨version, res⟩ := entry
    dsimp only
    by_cases hver : version = runtime.store.version series
    · rw [if_pos hver]
      have hcur := (hcoh req hreq series version res hcache).2 hver
      exact ⟨hcur.symm, rfl, hcoh⟩
    · rw [if_neg hver]
      exact ⟨hstore.1, rfl, hstore.2⟩

end Tradex.Analytics

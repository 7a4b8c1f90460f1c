import Mathlib.Tactic.Linarith
import Tradex.Domain.Market

/-!
# Starting and seeking a replay

A start tears the earlier run down before it builds the new one. A seek looks for the requested bar
on the epoch's grid, while the bars are on the grid of the session.
-/

namespace Tradex.Runtime

open Tradex.Domain List

inductive ReplayState
  | idle
  | created
  | running
  | paused
  | stopped
  | done
  | error
deriving DecidableEq

structure ReplayStartParams where
  instrument : String
  timeframe : Timeframe
  paused : Bool := false
deriving DecidableEq

inductive ControlFrame
  | started (runId instrument interval : String) (startTime : Option ℤ) (totalBars : ℕ)
  | stopped (runId : Option String)
  | error (message : String) (runId : Option String)
deriving DecidableEq

/-- `feeding` says that the feed task is neither done nor cancelled. -/
structure RunState where
  runId : String
  params : ReplayStartParams
  candles : List Candle
  targetKeys : List ℤ
  paused : Bool
  feeding : Bool := true
deriving DecidableEq

/-- `held` are the run ids in the guard, if there is one. -/
structure ReplayController where
  state : ReplayState := .idle
  run : Option RunState := none
  held : Option (Finset String) := none
  stopAckSent : Bool := false
  frames : List ControlFrame := []
deriving DecidableEq

/-- What a start meets: its run id, and what building the aggregator and the guard raise. -/
structure Starting where
  runId : String
  aggregatorError : Option String := none
  guardError : Option String := none

section Grid

variable (tf : Timeframe) (candle : Candle)

def targetKey : ℤ := chartTime (bucketStart candle.timestamp tf.intervalSeconds)

def keysFrom : Option ℤ → List ℤ → List ℤ
  | _, [] => []
  | last, key :: rest =>
    if last = some key then keysFrom last rest else key :: keysFrom (some key) rest

def targetKeys (candles : List Candle) : List ℤ := keysFrom none (candles.map (targetKey tf))

def candleEpoch (stamp : ℤ) : ℤ := (stamp - istOffset * 1000000).tdiv 1000000

def epochFloor : ℤ :=
  candleEpoch candle.timestamp - candleEpoch candle.timestamp % tf.intervalSeconds

end Grid

inductive SeekTarget
  | index (index : ℤ)
  | startTime (time : ℤ)

inductive SeekError
  | outOfRange (name : String) (high : ℤ)
  | unknownKey (key : ℤ)

namespace RunState

variable (run : RunState)

/-- When no candle is found, a position in `targetKeys` stands in for one in `candles`. -/
def indexForKey (key : ℤ) : Except SeekError ℕ :=
  let floors := run.candles.map (epochFloor run.params.timeframe)
  if key ∈ floors then .ok (floors.idxOf key)
  else if key ∈ run.targetKeys then .ok (run.targetKeys.idxOf key)
  else .error (.unknownKey key)

def barKey (index : ℕ) : ℤ := run.targetKeys.getD index 0

def keyOf : SeekTarget → Except SeekError ℤ
  | .index index =>
    if 0 ≤ index ∧ index < run.targetKeys.length then .ok (run.barKey index.toNat)
    else .error (.outOfRange "replay_seek index" (run.targetKeys.length - 1))
  | .startTime time =>
    if 0 ≤ time ∧ time ≤ 10 ^ 12 then .ok time
    else .error (.outOfRange "replay_seek start_time" (10 ^ 12))

def seekIndex (target : SeekTarget) : Except SeekError ℕ := do
  let key ← run.keyOf target
  let index ← run.indexForKey key
  if run.candles.length ≤ index then throw (.unknownKey key)
  return index

end RunState

def SeekError.text : SeekError → String
  | .outOfRange name high => name ++ " must be between 0 and " ++ toString high
  | .unknownKey key => toString key

namespace ReplayController

variable (controller : ReplayController)

def emit (frame : ControlFrame) : ReplayController :=
  { controller with frames := controller.frames ++ [frame] }

def stopCurrent (silent : Bool) : ReplayController :=
  match controller.run with
  | none =>
    if silent || controller.stopAckSent then controller
    else { controller.emit (.stopped none) with stopAckSent := true }
  | some run =>
    let stopped := { controller with
      run := none
      held := controller.held.map (·.erase run.runId)
      state := .stopped }
    if silent then stopped else { stopped.emit (.stopped run.runId) with stopAckSent := true }

def checkDataset : Except String (List Candle) → Except String (List Candle)
  | .error msg => .error msg
  | .ok [] => .error "replay dataset is empty"
  | .ok candles =>
    if candles.all fun candle ↦ candle.timeframe = .m1 then .ok candles
    else .error "replay dataset must contain M1 candles"

variable (params : ReplayStartParams) (around : Starting)

def begin (candles : List Candle) : ReplayController :=
  let keys := targetKeys params.timeframe candles
  { controller with
    run := some ⟨around.runId, params, candles, keys, params.paused, true⟩
    held := controller.held.map (insert around.runId)
    stopAckSent := false
    state := if params.paused then .paused else .running }.emit
      (.started around.runId params.instrument params.timeframe.value keys.head? keys.length)

def start (loaded : Except String (List Candle)) : Except String String × ReplayController :=
  match checkDataset loaded with
  | .error msg => (.error msg, controller.emit (.error msg none))
  | .ok candles =>
    let cleared := controller.stopCurrent true
    match around.aggregatorError, around.guardError with
    | some exc, _ => (.error exc, cleared.emit (.error ("cannot start replay bars: " ++ exc) none))
    | none, some exc => (.error exc, cleared.emit (.error ("cannot start replay: " ++ exc) none))
    | none, none => (.ok around.runId, cleared.begin params around candles)

def seek (target : SeekTarget) : Except String Unit × ReplayController :=
  if controller.state = .idle then (.error "cannot seek a replay that is idle", controller)
  else
    match controller.run with
    | none => (.ok (), controller.emit (.error "replay_seek needs an active replay" none))
    | some run =>
      match run.seekIndex target with
      | .error exc =>
        let refused := controller.emit (.error exc.text run.runId)
        if controller.state = .stopped then (.error "cannot stop a replay that is stopped", refused)
        else (.ok (), refused.stopCurrent false)
      | .ok index =>
        match (controller.stopCurrent true).start run.params around
          (.ok (run.candles.drop index)) with
        | (.ok _, after) => (.ok (), after)
        | (.error exc, after) =>
          (.error exc, after.emit (.error "replay seek restart failed" run.runId))

variable {controller : ReplayController} {params : ReplayStartParams} {around : Starting}
  {run : RunState}

/-- A refused start leaves the earlier run as it was exactly when the dataset was the reason. -/
theorem refused_start_harmless_iff {loaded : Except String (List Candle)} {msg : String}
    (hrun : controller.run = some run)
    (hrsd : (controller.start params around loaded).1 = .error msg) :
    ((controller.start params around loaded).2.run = some run ∧
      (controller.start params around loaded).2.state = controller.state ∧
      (controller.start params around loaded).2.held = controller.held) ↔
        ∃ refusal, checkDataset loaded = .error refusal := by
  have hgone : (controller.stopCurrent true).run = none := by
    unfold stopCurrent
    grind [emit]
  unfold start at hrsd ⊢
  grind [emit]

def minuteCandle (minute : ℤ) : Candle :=
  ⟨⟨"NSE:SBIN"⟩, .m1, .ofNat 100, .ofNat 100, .ofNat 100, .ofNat 100, 1,
    (marketOpenWall + 60 * minute) * 10 ^ 6⟩

def hourlyRun : RunState :=
  let candles := [0, 1, 60].map minuteCandle
  ⟨"first", ⟨"NSE:SBIN", .h1, false⟩, candles, targetKeys .h1 candles, false, true⟩

def playing : ReplayController where
  state := .running
  run := some hourlyRun
  held := some {"first"}

theorem empty_start_harmless :
    (playing.start hourlyRun.params ⟨"second", none, none⟩ (.ok [])).2.run = some hourlyRun ∧
      (playing.start hourlyRun.params ⟨"second", none, none⟩ (.ok [])).2.state = .running ∧
      (playing.start hourlyRun.params ⟨"second", none, none⟩ (.ok [])).2.held = some {"first"} :=
  (refused_start_harmless_iff rfl rfl).mpr ⟨_, rfl⟩

theorem refused_start_ends_run :
    playing.start hourlyRun.params ⟨"second", some "no bars", none⟩ (.ok hourlyRun.candles) =
      (.error "no bars", ⟨.stopped, none, some ∅, false,
        [.error "cannot start replay bars: no bars" none]⟩) := by
  rfl

end ReplayController

/-! ## Where a seek lands -/

section Grid

variable {tf : Timeframe} {candle : Candle} {key : ℤ} {keys rest : List ℤ} {last : Option ℤ}

theorem mem_of_mem_keysFrom (hkey : key ∈ keysFrom last keys) : key ∈ keys := by
  induction keys generalizing last with
  | nil => exact hkey
  | cons first rest ih => grind [keysFrom]

/-- A key that has not occurred opens a bar, whatever went before it. -/
theorem keysFrom_append (hnew : key ∉ keys) (hlast : last ≠ some key) :
    keysFrom last (keys ++ key :: rest) = keysFrom last keys ++ keysFrom none (key :: rest) := by
  induction keys generalizing last with
  | nil => simp [keysFrom, hlast]
  | cons first keys ih =>
    have hfst : some first ≠ some key := by grind
    grind [keysFrom]

theorem keysFrom_drop (hkey : key ∈ keys) :
    keysFrom none (keys.drop (keys.idxOf key)) =
      (keysFrom none keys).drop ((keysFrom none keys).idxOf key) := by
  obtain ⟨before, rest, rfl, hnew⟩ := eq_append_cons_of_mem hkey
  have hold : key ∉ keysFrom none before := mt mem_of_mem_keysFrom hnew
  rw [keysFrom_append hnew (by simp), idxOf_append_of_notMem hnew, idxOf_append_of_notMem hold]
  simp [keysFrom]

theorem targetKey_eq (hwidth : tf.intervalSeconds < dayWall) :
    targetKey tf candle = marketOpenWall - istOffset +
      (toWallSeconds candle.timestamp - marketOpenWall) / tf.intervalSeconds *
        tf.intervalSeconds := by
  have hweek : tf.intervalSeconds ≠ weekWall := (hwidth.trans (by decide)).ne
  rw [targetKey, chartTime, bucketStart, bucketWallSeconds, if_neg hwidth.ne, if_neg hweek]
  ring

theorem epochFloor_eq (hwidth : tf = .m1 ∨ tf = .m5 ∨ tf = .m15)
    (hstamp : istOffset * 1000000 ≤ candle.timestamp) :
    epochFloor tf candle = targetKey tf candle := by
  have hwall : candleEpoch candle.timestamp = toWallSeconds candle.timestamp - istOffset := by
    rw [candleEpoch, toWallSeconds, Int.tdiv_eq_ediv_of_nonneg (by linarith),
      Int.tdiv_eq_ediv_of_nonneg (hstamp.trans' (by decide))]
    unfold istOffset
    omega
  rw [epochFloor, hwall]
  rcases hwidth with rfl | rfl | rfl <;>
  · rw [targetKey_eq (by decide)]
    simp only [istOffset, marketOpenWall, Timeframe.intervalSeconds]
    omega

theorem epochFloor_ne (hwidth : tf = .m30 ∨ tf = .h1) {other : Candle} :
    epochFloor tf candle ≠ targetKey tf other := by
  rcases hwidth with rfl | rfl <;>
  · rw [targetKey_eq (by decide)]
    simp only [epochFloor, istOffset, marketOpenWall, Timeframe.intervalSeconds]
    omega

end Grid

theorem length_keysFrom {keys : List ℤ} {last : Option ℤ} :
    (keysFrom last keys).length ≤ keys.length := by
  induction keys generalizing last with
  | nil => exact le_rfl
  | cons first rest ih => grind [keysFrom]

namespace RunState

variable (run : RunState)

def firstIn (key : ℤ) : ℕ := (run.candles.map (targetKey run.params.timeframe)).idxOf key

structure Lands (index : ℕ) (after : ReplayController) (next : RunState) : Prop where
  current : after.run = some next
  candles : next.candles = run.candles.drop (run.firstIn (run.barKey index))
  keys : next.targetKeys = run.targetKeys.drop index
  reported : after.frames.getLast? = some (.started next.runId next.params.instrument
    next.params.timeframe.value (some (run.barKey index)) next.targetKeys.length)

section Landing

variable {run} {controller : ReplayController} {around : Starting} {index : ℕ} {key : ℤ}

theorem seek_eq (hlive : controller.state ≠ .idle) (hrun : controller.run = some run)
    (hmins : ∀ candle ∈ run.candles, candle.timeframe = .m1)
    (hindex : index < run.targetKeys.length)
    (hstarts : around.aggregatorError = none ∧ around.guardError = none) {pos : ℕ}
    (hpos : pos < run.candles.length)
    (hfind : run.indexForKey (run.barKey index) = .ok pos) :
    (controller.seek around (.index index)).2 =
      ((controller.stopCurrent true).stopCurrent true).begin run.params around
        (run.candles.drop pos) := by
  have hseek : run.seekIndex (.index index) = .ok pos := by
    have hkey : run.keyOf (.index index) = .ok (run.barKey index) :=
      if_pos (by simpa using hindex)
    rw [seekIndex, hkey]
    change (run.indexForKey (run.barKey index) >>= _) = _
    rw [hfind]
    exact if_neg hpos.not_ge
  have hchk : ReplayController.checkDataset (.ok (run.candles.drop pos)) =
      .ok (run.candles.drop pos) := by
    have hall : ∀ candle ∈ run.candles.drop pos, candle.timeframe = .m1 :=
      fun candle hmem ↦ hmins candle (mem_of_mem_drop hmem)
    rw [drop_eq_getElem_cons hpos] at hall ⊢
    exact if_pos (by simpa using hall)
  simp [ReplayController.seek, hlive, hrun, hseek, ReplayController.start, hchk, hstarts]

variable (hkeys : run.targetKeys = Runtime.targetKeys run.params.timeframe run.candles)

include hkeys

theorem exists_indexForKey (hkey : key ∈ run.targetKeys) :
    ∃ pos < run.candles.length, run.indexForKey key = .ok pos := by
  have hle : run.targetKeys.length ≤ run.candles.length := by
    rw [hkeys]
    exact length_keysFrom.trans_eq (length_map _)
  unfold indexForKey
  by_cases hfloor : key ∈ run.candles.map (epochFloor run.params.timeframe)
  · exact ⟨_, by simpa using idxOf_lt_length_of_mem hfloor, if_pos hfloor⟩
  · exact ⟨_, (idxOf_lt_length_of_mem hkey).trans_le hle, by rw [if_neg hfloor, if_pos hkey]⟩

theorem mem_of_mem_targetKeys (hkey : key ∈ run.targetKeys) :
    key ∈ run.candles.map (targetKey run.params.timeframe) :=
  mem_of_mem_keysFrom (hkeys ▸ hkey)

theorem targetKeys_drop_firstIn (hkey : key ∈ run.targetKeys) :
    Runtime.targetKeys run.params.timeframe (run.candles.drop (run.firstIn key)) =
      run.targetKeys.drop (run.targetKeys.idxOf key) := by
  rw [hkeys, Runtime.targetKeys, map_drop]
  exact keysFrom_drop (mem_of_mem_targetKeys hkeys hkey)

/-- A seek lands on the bar's first candle exactly when the search answers it, which it always does
up to fifteen minutes. -/
theorem seek_lands_iff (hlive : controller.state ≠ .idle) (hrun : controller.run = some run)
    (hmins : ∀ candle ∈ run.candles, candle.timeframe = .m1)
    (hindex : index < run.targetKeys.length)
    (hstarts : around.aggregatorError = none ∧ around.guardError = none) :
    ((∃ next, run.Lands index (controller.seek around (.index index)).2 next) ↔
      run.indexForKey (run.barKey index) =
          .ok (run.firstIn (run.barKey index)) ∧
        run.targetKeys.idxOf (run.barKey index) = index) ∧
    (run.params.timeframe = .m1 ∨ run.params.timeframe = .m5 ∨ run.params.timeframe = .m15 →
      (∀ candle ∈ run.candles, istOffset * 1000000 ≤ candle.timestamp) →
        run.indexForKey (run.barKey index) =
          .ok (run.firstIn (run.barKey index))) ∧
    (run.params.timeframe = .m30 ∨ run.params.timeframe = .h1 →
      run.indexForKey (run.barKey index) =
        .ok (run.targetKeys.idxOf (run.barKey index))) := by
  have hkey : run.barKey index ∈ run.targetKeys := by simp [barKey, hindex]
  obtain ⟨pos, hlt, hfound⟩ := exists_indexForKey hkeys hkey
  have hfirst := mem_of_mem_targetKeys hkeys hkey
  have hfirstLt : run.firstIn (run.barKey index) < run.candles.length := by
    simpa [firstIn] using idxOf_lt_length_of_mem hfirst
  have hdrop := targetKeys_drop_firstIn hkeys hkey
  rw [seek_eq hlive hrun hmins hindex hstarts hlt hfound]
  refine ⟨⟨?_, ?_⟩, fun hfine hstmp ↦ ?_, fun hcoarse ↦ ?_⟩
  · rintro ⟨next, hcurr, hcandles, hnew, -⟩
    obtain rfl := Option.some.inj hcurr
    have hsame : pos = run.firstIn (run.barKey index) := by
      have := congrArg length hcandles
      simp only [length_drop] at this
      omega
    subst hsame
    refine ⟨hfound, ?_⟩
    have := congrArg length (hdrop.symm.trans hnew)
    have := idxOf_lt_length_of_mem hkey
    simp only [length_drop] at *
    omega
  · rintro ⟨hat, hsame⟩
    obtain rfl := Except.ok.inj (hfound.symm.trans hat)
    rw [hsame] at hdrop
    refine ⟨_, rfl, rfl, hdrop, ?_⟩
    have hhead : (run.targetKeys.drop index).head? = some (run.barKey index) := by
      simp [barKey, head?_drop, hindex]
    simp only [ReplayController.begin, ReplayController.emit, getLast?_concat, hdrop, hhead]
  · have hfloors : run.candles.map (epochFloor run.params.timeframe) =
        run.candles.map (targetKey run.params.timeframe) :=
      map_congr_left fun candle hmem ↦ epochFloor_eq hfine (hstmp candle hmem)
    rw [indexForKey, hfloors]
    exact if_pos hfirst
  · obtain ⟨candle, -, hcandle⟩ := mem_map.mp hfirst
    rw [indexForKey, if_neg, if_pos hkey]
    rw [← hcandle]
    simp [epochFloor_ne hcoarse]

end Landing

open ReplayController

def fiveMinuteRun : RunState :=
  let candles := [0, 1, 5, 6, 10].map minuteCandle
  ⟨"first", ⟨"NSE:SBIN", .m5, false⟩, candles, Runtime.targetKeys .m5 candles, false, true⟩

theorem seek_lands_on_second_bar : ∃ next, fiveMinuteRun.Lands 1
    (({ playing with run := some fiveMinuteRun }).seek ⟨"second", none, none⟩ (.index 1)).2 next :=
  (seek_lands_iff rfl (by decide) rfl (by decide) (by decide) ⟨rfl, rfl⟩).1.mpr ⟨rfl, by decide⟩

theorem seek_starts_in_first_bar :
    hourlyRun.targetKeys = [13500, 17100] ∧
      (playing.seek ⟨"second", none, none⟩ (.index 1)).2.frames =
        [.started "second" "NSE:SBIN" "1h" (some 13500) 2] := by
  decide

end RunState

end Tradex.Runtime

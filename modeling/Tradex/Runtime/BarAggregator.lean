import Tradex.Domain.Timeframe
import Tradex.Foundation.Recency
import Mathlib.Algebra.Order.Field.Rat

/-!
# The bar aggregator

Prints of one instrument are collected into bars of one timeframe: a print of a later bar closes the
open bucket, a print of an earlier bar is late and may revise it, unless a fill was booked against
it.
-/

namespace Tradex.Runtime

open Tradex.Domain

inductive BarSource
  | live
  | sim
  | backtest
deriving DecidableEq, Repr

inductive QuoteSource
  | member (source : BarSource)
  | text (name : String)
deriving DecidableEq, Repr

structure BarFrame where
  instrument : String
  timeframe : String
  time : ℤ
  «open» : ℚ
  high : ℚ
  low : ℚ
  close : ℚ
  volume : ℚ
  closed : Bool
  source : QuoteSource := .member .live
  runId : Option String := none
  provisional : Bool := false
  feedId : Option String := none
  connectionGeneration : Option ℤ := none
  qualityFlags : List String := []
deriving DecidableEq

structure Bucket where
  start : ℤ
  «open» : ℚ
  high : ℚ
  low : ℚ
  close : ℚ
  volume : ℚ
deriving DecidableEq

def Bucket.absorb (bucket : Bucket) (price volume : ℚ) : Bucket :=
  { bucket with
    high := max bucket.high price
    low := min bucket.low price
    close := price
    volume := bucket.volume + volume }

structure RevisedBar where
  frame : BarFrame
  reason : String
  windowClosesAt : ℚ
  barRevisions : ℕ
deriving DecidableEq

inductive Emission
  | bar (frame : BarFrame)
  | revised (bar : RevisedBar)
deriving DecidableEq

def Emission.frame : Emission → BarFrame
  | .bar frame => frame
  | .revised revision => revision.frame

abbrev BarKey := String × String × ℤ

structure BookedFillLedger where
  maxsize : ℕ
  closedAt : Dict BarKey Bucket
  filled : Dict BarKey Unit
  revisions : Dict BarKey ℕ
  maxsize_pos : 1 ≤ maxsize

namespace BookedFillLedger

def new (maxsize : ℤ := 8192) : BookedFillLedger where
  maxsize := max 1 maxsize.toNat
  closedAt := .empty
  filled := .empty
  revisions := .empty
  maxsize_pos := le_max_left 1 maxsize.toNat

variable (ledger : BookedFillLedger) (key : BarKey)

def recordClosed (bar : Bucket) : BookedFillLedger :=
  { ledger with closedAt := (ledger.closedAt.setLast key bar).trim ledger.maxsize }

def isClosed : Bool := (ledger.closedAt.get key).isSome

def original : Option Bucket := ledger.closedAt.get key

def revisionCount : ℕ :=
  (ledger.revisions.get key).getD 0

def setOriginal (bar : Bucket) : BookedFillLedger :=
  { ledger with
    closedAt := ledger.closedAt.setLast key bar
    revisions := ledger.revisions.set key (ledger.revisionCount key + 1) }

def markFilled : BookedFillLedger :=
  { ledger with filled := (ledger.filled.setLast key ()).trim ledger.maxsize }

def hasFill : Bool := (ledger.filled.get key).isSome

end BookedFillLedger

inductive DropReason
  | bookedFill
  | windowExpired
  | stale
deriving DecidableEq, Repr

inductive Entry
  | emitted (emission : Emission)
  | marked (time : ℤ)
deriving DecidableEq

structure BarAggregator where
  instrumentId : String
  timeframe : Timeframe
  runId : Option String
  feedId : Option String
  connectionGeneration : Option ℤ
  qualityFlags : List String
  bucket : Option Bucket
  source : QuoteSource
  disposed : Bool
  provisionalDefault : Bool
  provisional : Bool
  hasStreamedBucket : Bool
  seededClosedStart : Option ℤ
  lastFormingEmit : Option ℚ
  lastClosed : Option ℤ
  lateWindow : ℚ
  metrics : Option (DropReason → ℕ)
  ledger : BookedFillLedger
  lastRevised : Option ℤ
  revisions : ℕ
  lateTicksApplied : ℕ
  lateTicksDropped : ℕ
  closedMono : Dict ℤ ℚ
  history : List Entry

structure Tick where
  stamp : ℤ
  price : ℚ
  volume : Option ℚ
  source : QuoteSource := .text "live"
deriving DecidableEq

structure Surroundings where
  now : ℚ
  afterClose : ℚ
  books : Emission → Bool

namespace BarAggregator

def new (instrumentId : String) (tf : Timeframe) (ledger : BookedFillLedger := .new)
    (provisional : Bool := false) (lateTickWindow : ℤ := 60) (runId : Option String := none)
    (feedId : Option String := none) (connectionGeneration : Option ℤ := none)
    (qualityFlags : List String := []) (metrics : Option (DropReason → ℕ) := none) :
    BarAggregator where
  instrumentId := instrumentId
  timeframe := tf
  runId := runId
  feedId := feedId
  connectionGeneration := connectionGeneration
  qualityFlags := qualityFlags
  bucket := none
  source := .member .live
  disposed := false
  provisionalDefault := provisional
  provisional := provisional
  hasStreamedBucket := false
  seededClosedStart := none
  lastFormingEmit := none
  lastClosed := none
  lateWindow := lateTickWindow
  metrics := metrics
  ledger := ledger
  lastRevised := none
  revisions := 0
  lateTicksApplied := 0
  lateTicksDropped := 0
  closedMono := .empty
  history := []

variable (agg : BarAggregator) (time : ℤ)

def key : BarKey :=
  (agg.instrumentId, agg.timeframe.value, time)

def mark : BarAggregator :=
  { agg with
    ledger := agg.ledger.markFilled (agg.key time)
    history := agg.history ++ [.marked time] }

def markFilled (frame : BarFrame) : Except String BarAggregator :=
  if frame.instrument ≠ agg.instrumentId ∨
      frame.timeframe ≠ agg.timeframe.value then
    .error "cannot mark a bar from another aggregator as filled"
  else .ok (agg.mark frame.time)

def send (emission : Emission) : BarAggregator :=
  { agg with history := agg.history ++ [.emitted emission] }

def onFrame (books : Emission → Bool) (emission : Emission) : BarAggregator :=
  if books emission then (agg.send emission).mark emission.frame.time
  else agg.send emission

def frameOf (bucket : Bucket) (closed : Bool) : BarFrame where
  instrument := agg.instrumentId
  timeframe := agg.timeframe.value
  time := chartTime bucket.start
  «open» := bucket.open
  high := bucket.high
  low := bucket.low
  close := bucket.close
  volume := bucket.volume
  closed := closed
  source := agg.source
  runId := agg.runId
  provisional := agg.provisional
  feedId := agg.feedId
  connectionGeneration := agg.connectionGeneration
  qualityFlags := agg.qualityFlags

def recordClosed (agg : BarAggregator) (bucket : Bucket) (closedAt : ℚ) : BarAggregator :=
  let time := chartTime bucket.start
  { agg with
    ledger := agg.ledger.recordClosed (agg.key time) bucket
    closedMono := (agg.closedMono.set time closedAt).retain
      fun closed ↦ closedAt ≤ closed + agg.lateWindow }

variable (around : Surroundings)

def emit (bucket : Bucket) (closed : Bool) : BarAggregator :=
  if closed then
    { (agg.recordClosed bucket around.now).onFrame around.books
        (.bar (agg.frameOf bucket true)) with
      lastClosed := some (chartTime bucket.start)
      bucket := none
      lastFormingEmit := some around.afterClose }
  else agg.onFrame around.books (.bar (agg.frameOf bucket false))

def countLateDrop (why : DropReason) : BarAggregator :=
  { agg with
    lateTicksDropped := agg.lateTicksDropped + 1
    metrics := agg.metrics.map fun count ↦
      Function.update count why (count why + 1) }

variable (tick : Tick)

def startOf : ℤ :=
  bucketStart tick.stamp agg.timeframe.intervalSeconds

def firstPrint : Bucket :=
  ⟨agg.startOf tick, tick.price, tick.price, tick.price, tick.price, tick.volume.getD 0⟩

def setBucket (bucket : Bucket) (source : QuoteSource) (provisional : Bool) : BarAggregator :=
  { agg with
    source := source
    provisional := provisional
    bucket := some bucket
    hasStreamedBucket := true }

def reopen : BarAggregator :=
  let bucket := agg.firstPrint tick
  ({ agg with lastFormingEmit := none }.setBucket bucket tick.source
    agg.provisionalDefault).emit around bucket false

def behindRevised : Bool :=
  agg.lastRevised.any fun newest ↦ time < newest

def windowClosesAt (now : ℚ) : Option ℚ :=
  match agg.closedMono.get time with
  | none => none
  | some closed => if closed + agg.lateWindow < now then none else some (closed + agg.lateWindow)

def storeRevision (revised : Bucket) : BarAggregator :=
  { agg with
    ledger := agg.ledger.setOriginal (agg.key time) revised
    lastRevised := some time
    revisions := agg.revisions + 1
    lateTicksApplied := agg.lateTicksApplied + 1 }

def revisedFrame (revised : Bucket) (source : QuoteSource) : BarFrame where
  instrument := agg.instrumentId
  timeframe := agg.timeframe.value
  time := time
  «open» := revised.open
  high := revised.high
  low := revised.low
  close := revised.close
  volume := revised.volume
  closed := true
  source := source
  runId := agg.runId
  provisional := agg.provisionalDefault
  feedId := agg.feedId
  connectionGeneration := agg.connectionGeneration
  qualityFlags := agg.qualityFlags

def sendRevision (original : Bucket) (closesAt : ℚ) : BarAggregator :=
  let time := chartTime (agg.startOf tick)
  let revised := original.absorb tick.price (tick.volume.getD 0)
  let stored := agg.storeRevision time revised
  stored.onFrame around.books
    (.revised
      { frame := agg.revisedFrame time revised tick.source
        reason := "late_tick"
        windowClosesAt := closesAt
        barRevisions := stored.ledger.revisionCount (agg.key time) })

def reviseClosed : BarAggregator :=
  let time := chartTime (agg.startOf tick)
  if agg.ledger.hasFill (agg.key time) then agg.countLateDrop .bookedFill
  else if agg.ledger.isClosed (agg.key time) = false then
    agg.reopen around tick
  else if agg.behindRevised time then agg.countLateDrop .stale
  else
    match agg.windowClosesAt time around.now,
        agg.ledger.original (agg.key time) with
    | some closesAt, some original => agg.sendRevision around tick original closesAt
    | _, _ => agg.countLateDrop .windowExpired

def formingDue (startingNew : Bool) : Bool :=
  decide (tick.source = .member .sim) || startingNew ||
    agg.lastFormingEmit.all fun last ↦ 1 ≤ around.now - last

def sendForming (bucket : Bucket) (startingNew : Bool) : BarAggregator :=
  if agg.formingDue around tick startingNew then
    { agg with lastFormingEmit := some around.now }.emit around bucket false
  else agg

def beforeSeed : Bool :=
  agg.seededClosedStart.any fun seeded ↦ agg.startOf tick ≤ seeded

def startBucket : BarAggregator :=
  if agg.beforeSeed tick then agg.countLateDrop .windowExpired
  else
    let bucket := agg.firstPrint tick
    (agg.setBucket bucket tick.source
      (if agg.hasStreamedBucket then false else agg.provisionalDefault)).sendForming
        around tick bucket true

def absorbPrint (bucket : Bucket) : BarAggregator :=
  let absorbed := bucket.absorb tick.price (tick.volume.getD 0)
  (agg.setBucket absorbed tick.source agg.provisional).sendForming
    around tick absorbed false

def closeBefore (bucket : Bucket) : BarAggregator :=
  { agg with source := tick.source }.emit around bucket true

def onQuote : BarAggregator :=
  if agg.disposed then agg
  else
    match agg.bucket with
    | none => agg.startBucket around tick
    | some bucket =>
      if agg.startOf tick < bucket.start then agg.reviseClosed around tick
      else if bucket.start < agg.startOf tick then
        (agg.closeBefore around tick bucket).startBucket around tick
      else agg.absorbPrint around tick bucket

def flush : BarAggregator :=
  if agg.disposed then agg
  else
    match agg.bucket with
    | none => agg
    | some bucket => agg.emit around bucket true

inductive Call
  | onQuote (around : Surroundings) (tick : Tick)
  | flush (around : Surroundings)
  | markFilled (frame : BarFrame)

def call : Call → BarAggregator
  | .onQuote around tick => agg.onQuote around tick
  | .flush around => agg.flush around
  | .markFilled frame =>
    match agg.markFilled frame with
    | .ok marked => marked
    | .error _ => agg

def run (calls : List Call) : BarAggregator :=
  calls.foldl call agg

variable {agg : BarAggregator} {around : Surroundings} {tick : Tick} {bucket : Bucket}
  {books : Emission → Bool} {emission : Emission} {other : Tick}

theorem onFrame_frame : (agg.onFrame books emission).timeframe = agg.timeframe ∧
    (agg.onFrame books emission).seededClosedStart = agg.seededClosedStart := by
  unfold onFrame
  split <;> exact ⟨rfl, rfl⟩

theorem startOf_closeBefore :
    (agg.closeBefore around tick bucket).startOf other = agg.startOf other := by
  have htf : (agg.closeBefore around tick bucket).timeframe = agg.timeframe := onFrame_frame.1
  rw [startOf, startOf, htf]

theorem beforeSeed_closeBefore :
    (agg.closeBefore around tick bucket).beforeSeed other = agg.beforeSeed other := by
  have hseed : (agg.closeBefore around tick bucket).seededClosedStart =
      agg.seededClosedStart := onFrame_frame.2
  simp [beforeSeed, hseed, startOf_closeBefore]

section

variable (hlive : agg.disposed = false)

include hlive

theorem onQuote_of_none (hbkt : agg.bucket = none) :
    agg.onQuote around tick = agg.startBucket around tick := by
  simp [onQuote, hlive, hbkt]

variable (hbkt : agg.bucket = some bucket)

include hbkt

theorem onQuote_of_late (hlate : agg.startOf tick < bucket.start) :
    agg.onQuote around tick = agg.reviseClosed around tick := by
  simp [onQuote, hlive, hbkt, hlate]

theorem onQuote_of_later (hlate : bucket.start < agg.startOf tick) :
    agg.onQuote around tick = (agg.closeBefore around tick bucket).startBucket around tick := by
  simp [onQuote, hlive, hbkt, hlate, hlate.not_gt]

theorem onQuote_of_same (hsame : agg.startOf tick = bucket.start) :
    agg.onQuote around tick = agg.absorbPrint around tick bucket := by
  simp [onQuote, hlive, hbkt, hsame]

theorem flush_of_some : agg.flush around = agg.emit around bucket true := by
  simp [flush, hlive, hbkt]

end

theorem flush_of_idle (hidle : agg.disposed = true ∨ agg.bucket = none) :
    agg.flush around = agg := by
  rcases hidle with hdisposed | hbkt
  · simp [flush, hdisposed]
  · simp [flush, hbkt]

theorem call_markFilled {agg : BarAggregator} {frame : BarFrame} :
    agg.call (.markFilled frame) = agg.mark frame.time ∨ agg.call (.markFilled frame) = agg := by
  by_cases hother : frame.instrument ≠ agg.instrumentId ∨ frame.timeframe ≠ agg.timeframe.value
  · exact .inr (by simp [call, markFilled, if_pos hother])
  · exact .inl (by simp [call, markFilled, if_neg hother])

end BarAggregator

end Tradex.Runtime

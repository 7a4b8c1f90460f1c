import Tradex.Runtime.FrozenBars

/-!
# Every print in one place

An accounting assigns every print to its bar, the open bucket or the dropped ones.
Prints are lost by closing a bar of which a version was sent before, and by a late
print of a bar that the ledger does not hold. If no call does either, every run has an
accounting.
-/

namespace Tradex.Runtime

open Tradex.Domain List

structure Ohlcv where
  «open» : ℚ
  high : ℚ
  low : ℚ
  close : ℚ
  volume : ℚ
deriving DecidableEq

def Bucket.ohlcv (bucket : Bucket) : Ohlcv :=
  ⟨bucket.open, bucket.high, bucket.low, bucket.close, bucket.volume⟩

def BarFrame.ohlcv (frame : BarFrame) : Ohlcv :=
  ⟨frame.open, frame.high, frame.low, frame.close, frame.volume⟩

def Tick.size (tick : Tick) : ℚ := tick.volume.getD 0

def summary : List Tick → Option Ohlcv
  | [] => none
  | first :: rest => some
      { «open» := first.price
        high := (rest.map Tick.price).foldl max first.price
        low := (rest.map Tick.price).foldl min first.price
        close := (rest.getLastD first).price
        volume := ((first :: rest).map Tick.size).sum }

@[simp] theorem summary_nil : summary [] = none := rfl

theorem summary_eq_none_iff {ticks : List Tick} : summary ticks = none ↔ ticks = [] := by
  cases ticks <;> simp [summary]

variable {bucket : Bucket}

theorem summary_concat {ticks : List Tick} {tick : Tick}
    (hticks : summary ticks = some bucket.ohlcv) :
    summary (ticks ++ [tick]) = some (bucket.absorb tick.price tick.size).ohlcv := by
  cases ticks with
  | nil => cases hticks
  | cons first rest =>
    simp only [summary, Bucket.ohlcv, Option.some.injEq, Ohlcv.mk.injEq] at hticks
    obtain ⟨hopen, hhigh, hlow, -, hvolume⟩ := hticks
    simp [summary, Bucket.ohlcv, Bucket.absorb, ← hopen, ← hhigh, ← hlow, ← hvolume, add_assoc]

def Entry.version (time : ℤ) : Entry → Option BarFrame
  | .emitted emission =>
    if emission.frame.closed = true ∧ emission.frame.time = time then some emission.frame
    else none
  | .marked _ => none

def latest (history : List Entry) (time : ℤ) : Option BarFrame :=
  (history.filterMap (Entry.version time)).getLast?

theorem latest_concat (history : List Entry) (entry : Entry) (time : ℤ) :
    latest (history ++ [entry]) time = (entry.version time).or (latest history time) := by
  rw [latest]
  cases hver : entry.version time with
  | none => simp [hver, latest]
  | some frame => simp [hver]

variable {time published : ℤ} {emission : Emission}

theorem latest_publish {history : List Entry} {bar : Ohlcv}
    (hclose : emission.frame.closed = true) (htime : emission.frame.time = published)
    (hbar : emission.frame.ohlcv = bar) :
    (latest (history ++ [.emitted emission]) time).map BarFrame.ohlcv =
      if published = time then some bar else (latest history time).map BarFrame.ohlcv := by
  rw [latest_concat]
  by_cases hpub : published = time <;> simp [Entry.version, hclose, htime, hpub, hbar]

inductive Place
  | bar
  | forming
  | dropped (reason : DropReason)
deriving DecidableEq

def Place.settled : Place → Place
  | .forming => .bar
  | place => place

def Place.isDropped : Place → Bool
  | .dropped _ => true
  | _ => false

abbrev Accounting := List (Tick × Place)

def Tick.barTime (tf : Timeframe) (tick : Tick) : ℤ :=
  chartTime (bucketStart tick.stamp tf.intervalSeconds)

namespace Accounting

def inBar (tf : Timeframe) (time : ℤ) (entry : Tick × Place) : Bool :=
  decide (entry.2 = .bar) && decide (entry.1.barTime tf = time)

def isForming (entry : Tick × Place) : Bool := decide (entry.2 = .forming)

variable (acct : Accounting)

def barTicks (tf : Timeframe) (time : ℤ) : List Tick :=
  (acct.filter (inBar tf time)).map Prod.fst

def formingTicks : List Tick :=
  (acct.filter isForming).map Prod.fst

def settle : Accounting :=
  acct.map fun entry ↦ (entry.1, entry.2.settled)

def droppedCount : ℕ :=
  acct.countP fun entry ↦ entry.2.isDropped

def droppedFor (why : DropReason) : ℕ :=
  acct.countP fun entry ↦ decide (entry.2 = .dropped why)

def ticks : List Tick := acct.map Prod.fst

variable {acct : Accounting} {tf : Timeframe} {tick : Tick} {time : ℤ} {place : Place}

@[simp] theorem ticks_append {acct more : Accounting} :
    (acct ++ more).ticks = acct.ticks ++ more.ticks := map_append

theorem barTicks_concat_bar :
    Accounting.barTicks (acct ++ [(tick, .bar)]) tf time =
      if tick.barTime tf = time then acct.barTicks tf time ++ [tick]
      else acct.barTicks tf time := by
  by_cases htime : tick.barTime tf = time <;> simp [barTicks, inBar, htime]

theorem barTicks_concat_of_ne (hplace : place ≠ .bar) :
    Accounting.barTicks (acct ++ [(tick, place)]) tf time = acct.barTicks tf time := by
  simp [barTicks, inBar, hplace]

theorem formingTicks_concat_of_ne (hplace : place ≠ .forming) :
    Accounting.formingTicks (acct ++ [(tick, place)]) = acct.formingTicks := by
  simp [formingTicks, isForming, hplace]

variable {entry : Tick × Place}

theorem droppedCount_concat :
    Accounting.droppedCount (acct ++ [entry]) =
      acct.droppedCount + if entry.2.isDropped then 1 else 0 := by
  rw [droppedCount, countP_append, countP_singleton, droppedCount]

variable {why : DropReason}

theorem droppedFor_concat :
    Accounting.droppedFor (acct ++ [entry]) why =
      acct.droppedFor why + if entry.2 = .dropped why then 1 else 0 := by
  rw [droppedFor, countP_append, droppedFor]
  simp

@[simp] theorem ticks_settle : acct.settle.ticks = acct.ticks := by
  simp [ticks, settle]

@[simp] theorem droppedCount_settle : acct.settle.droppedCount = acct.droppedCount := by
  rw [droppedCount, settle, countP_map]
  apply countP_congr
  intro entry _
  cases hplace : entry.2 <;> simp [hplace, Place.settled, Place.isDropped]

@[simp] theorem droppedFor_settle : acct.settle.droppedFor why = acct.droppedFor why := by
  rw [droppedFor, settle, countP_map]
  apply countP_congr
  intro entry _
  cases hplace : entry.2 <;> simp [hplace, Place.settled]

@[simp] theorem formingTicks_settle : acct.settle.formingTicks = [] := by
  simp only [formingTicks, settle, map_eq_nil_iff, filter_eq_nil_iff, mem_map]
  rintro _ ⟨entry, -, rfl⟩
  cases entry.2 <;> simp [isForming, Place.settled]

theorem eq_map_bar (hform : acct.formingTicks = []) (hdropped : acct.droppedCount = 0) :
    acct = acct.ticks.map fun tick ↦ (tick, .bar) := by
  rw [formingTicks, map_eq_nil_iff, filter_eq_nil_iff] at hform
  rw [droppedCount, countP_eq_zero] at hdropped
  have hbar : ∀ entry ∈ acct, (entry.1, Place.bar) = entry := by
    intro entry hent
    have hnotForming := hform entry hent
    have hnotDropped := hdropped entry hent
    obtain ⟨tick, place⟩ := entry
    cases place with
    | bar => rfl
    | forming => simp [isForming] at hnotForming
    | dropped why => simp [Place.isDropped] at hnotDropped
  calc
    acct = acct.map id := (map_id acct).symm
    _ = acct.map fun entry ↦ (entry.1, Place.bar) :=
      map_congr_left fun entry hent ↦ (hbar entry hent).symm
    _ = acct.ticks.map fun tick ↦ (tick, .bar) := by
      rw [ticks, map_map]
      rfl

theorem barTicks_settle (hform : ∀ tick ∈ acct.formingTicks, tick.barTime tf = time)
    (hbar : acct.barTicks tf time = []) (other : ℤ) :
    acct.settle.barTicks tf other =
      if time = other then acct.formingTicks else acct.barTicks tf other := by
  have hmap : acct.settle.barTicks tf other =
      (acct.filter fun entry ↦
        inBar tf other (entry.1, entry.2.settled)).map Prod.fst := by
    simp [barTicks, settle, filter_map, Function.comp_def]
  have htime : ∀ entry ∈ acct, entry.2 = .forming → entry.1.barTime tf = time := by
    intro entry hent hplace
    apply hform
    exact mem_map_of_mem (mem_filter.2 ⟨hent, by simp [isForming, hplace]⟩)
  rw [hmap]
  split
  next heq =>
    subst heq
    rw [barTicks, map_eq_nil_iff, filter_eq_nil_iff] at hbar
    congr 1
    apply filter_congr
    intro entry hent
    have hgone := hbar entry hent
    cases hplace : entry.2 with
    | bar => simpa [inBar, isForming, hplace, Place.settled] using hgone
    | forming => simp [inBar, isForming, Place.settled, hplace, htime entry hent hplace]
    | dropped why => simp [inBar, isForming, Place.settled, hplace]
  next hne =>
    congr 1
    apply filter_congr
    intro entry hent
    cases hplace : entry.2 with
    | bar | dropped why => simp [inBar, Place.settled, hplace]
    | forming => simp [inBar, htime entry hent hplace, hne]

end Accounting

namespace BarAggregator

variable {agg : BarAggregator} {acct : Accounting}

structure Accounts (agg : BarAggregator) (accounting : Accounting) : Prop where
  bars : ∀ time, (latest agg.history time).map BarFrame.ohlcv =
    summary (accounting.barTicks agg.timeframe time)
  forming : agg.bucket.map Bucket.ohlcv = summary accounting.formingTicks
  formingBar : ∀ bucket ∈ agg.bucket, ∀ tick ∈ accounting.formingTicks,
    agg.startOf tick = bucket.start
  dropped : agg.lateTicksDropped = accounting.droppedCount
  counters : ∀ count ∈ agg.metrics, ∀ reason, count reason = accounting.droppedFor reason

structure Balanced (agg : BarAggregator) (accounting : Accounting) : Prop
    extends Accounts agg accounting where
  live : agg.disposed = false
  retained : ∀ time bucket, agg.ledger.original (agg.key time) = some bucket →
    (latest agg.history time).map BarFrame.ohlcv = some bucket.ohlcv

def carried (agg : BarAggregator) : String × Timeframe × Option Bucket × ℕ ×
    Option (DropReason → ℕ) × Bool × Dict BarKey Bucket :=
  (agg.instrumentId, agg.timeframe, agg.bucket, agg.lateTicksDropped,
    agg.metrics, agg.disposed, agg.ledger.closedAt)

section

variable (hbal : agg.Balanced acct) {bucket : Bucket}

include hbal

theorem Balanced.of_same {changed : BarAggregator} (hcarry : changed.carried = agg.carried)
    (hlatest : ∀ time, latest changed.history time = latest agg.history time) :
    changed.Balanced acct := by
  simp only [carried, Prod.mk.injEq] at hcarry
  obtain ⟨hinstr, htf, hbkt, hdropped, hmetrics, hdisposed, hclose⟩ := hcarry
  constructor
  · constructor
    · intro time
      rw [hlatest, htf]
      exact hbal.bars time
    · rw [hbkt]
      exact hbal.forming
    · simp only [startOf, hbkt, htf]
      exact hbal.formingBar
    · rw [hdropped]
      exact hbal.dropped
    · rw [hmetrics]
      exact hbal.counters
  · rw [hdisposed]
    exact hbal.live
  · intro time bucket hkept
    rw [hlatest]
    simp only [BookedFillLedger.original, key, hclose, hinstr, htf] at hkept
    exact hbal.retained time bucket hkept

theorem Balanced.mark (time : ℤ) : (agg.mark time).Balanced acct :=
  hbal.of_same rfl fun other ↦ latest_concat agg.history (.marked time) other

theorem Balanced.onFrame_forming {frame : BarFrame} {books : Emission → Bool}
    (hopen : frame.closed = false) :
    (agg.onFrame books (.bar frame)).Balanced acct := by
  have hsent : (agg.send (.bar frame)).Balanced acct := by
    have hcarry : (agg.send (.bar frame)).carried = agg.carried := rfl
    refine hbal.of_same hcarry fun time ↦ ?_
    rw [send, latest_concat]
    simp [Entry.version, Emission.frame, hopen]
  unfold onFrame
  split
  · exact hsent.mark _
  · exact hsent

theorem Balanced.sendForming (around : Surroundings) (tick : Tick) (bucket : Bucket)
    (startingNew : Bool) :
    (agg.sendForming around tick bucket startingNew).Balanced acct := by
  unfold BarAggregator.sendForming
  split
  · have hnoted : ({ agg with lastFormingEmit := some around.now } :
        BarAggregator).Balanced acct := hbal.of_same rfl fun _ ↦ rfl
    exact hnoted.onFrame_forming rfl
  · exact hbal

theorem Balanced.countLateDrop (tick : Tick) (why : DropReason) :
    (agg.countLateDrop why).Balanced (acct ++ [(tick, .dropped why)]) := by
  constructor
  · constructor
    · intro time
      rw [Accounting.barTicks_concat_of_ne (by simp)]
      exact hbal.bars time
    · rw [Accounting.formingTicks_concat_of_ne (by simp)]
      exact hbal.forming
    · rw [Accounting.formingTicks_concat_of_ne (by simp)]
      exact hbal.formingBar
    · rw [Accounting.droppedCount_concat, ← hbal.dropped]
      rfl
    · intro count hcnt other
      obtain ⟨prior, hprior, rfl⟩ := Option.map_eq_some_iff.1 hcnt
      rw [Accounting.droppedFor_concat, ← hbal.counters prior hprior]
      by_cases hwhy : other = why
      · simp [hwhy]
      · have hwhy' : why ≠ other := fun heq ↦ hwhy heq.symm
        simp [hwhy, hwhy']
  · exact hbal.live
  · exact hbal.retained

theorem Balanced.setBucket {tick : Tick} (source : QuoteSource) (provisional : Bool)
    (hsummary : summary (acct.formingTicks ++ [tick]) = some bucket.ohlcv)
    (hstarts : ∀ other ∈ acct.formingTicks ++ [tick],
      agg.startOf other = bucket.start) :
    (agg.setBucket bucket source provisional).Balanced (acct ++ [(tick, .forming)]) := by
  have hform : Accounting.formingTicks (acct ++ [(tick, .forming)]) = acct.formingTicks ++ [tick] := by
    simp [Accounting.formingTicks, Accounting.isForming]
  constructor
  · constructor
    · intro time
      rw [Accounting.barTicks_concat_of_ne (by simp)]
      exact hbal.bars time
    · rw [hform, hsummary]
      rfl
    · rw [hform]
      rintro _ ⟨⟩
      exact hstarts
    · rw [Accounting.droppedCount_concat]
      exact hbal.dropped
    · intro count hcnt why
      rw [Accounting.droppedFor_concat]
      simpa using hbal.counters count hcnt why
  · exact hbal.live
  · exact hbal.retained

theorem Balanced.startBucket (around : Surroundings) (tick : Tick) (hclose : agg.bucket = none) :
    ∃ place, (agg.startBucket around tick).Balanced (acct ++ [(tick, place)]) := by
  have hnone : acct.formingTicks = [] := by
    rw [← summary_eq_none_iff, ← hbal.forming, hclose]
    rfl
  unfold BarAggregator.startBucket
  split
  · exact ⟨_, hbal.countLateDrop tick .windowExpired⟩
  · refine ⟨.forming, Balanced.sendForming ?_ around tick _ true⟩
    apply hbal.setBucket
    · rw [hnone]
      simp [summary, firstPrint, Bucket.ohlcv, Tick.size]
    · rw [hnone]
      simp [firstPrint]

theorem Balanced.absorbPrint (around : Surroundings) {tick : Tick}
    (hbkt : agg.bucket = some bucket) (hsame : agg.startOf tick = bucket.start) :
    (agg.absorbPrint around tick bucket).Balanced (acct ++ [(tick, .forming)]) := by
  have hsummary : summary acct.formingTicks = some bucket.ohlcv := by
    rw [← hbal.forming, hbkt]
    rfl
  refine Balanced.sendForming ?_ around tick _ false
  apply hbal.setBucket
  · exact summary_concat hsummary
  · intro other hother
    rcases mem_append.1 hother with hform | hlast
    · exact hbal.formingBar bucket hbkt other hform
    · rw [mem_singleton.1 hlast]
      exact hsame

end

/-! ## Versions of bars -/

variable {kept : Bucket}

theorem original_of_setLast {other : ℤ} {bar : Bucket}
    (hkept : (agg.ledger.closedAt.setLast (agg.key time) bar).get
      (agg.key other) = some kept) :
    if time = other then bar = kept
    else agg.ledger.original (agg.key other) = some kept := by
  rw [Dict.get_setLast] at hkept
  by_cases htime : time = other
  · rw [if_pos (congrArg agg.key htime)] at hkept
    rw [if_pos htime]
    exact Option.some.inj hkept
  · have hkey : agg.key time ≠ agg.key other := fun heq ↦ htime (key_inj.1 heq)
    rw [if_neg hkey] at hkept
    rw [if_neg htime]
    exact hkept

section

variable (hbal : agg.Balanced acct) {around : Surroundings}

include hbal

theorem Balanced.retained_publish {bar : Bucket}
    (hclose : emission.frame.closed = true) (htime : emission.frame.time = published)
    (hbar : emission.frame.ohlcv = bar.ohlcv)
    (hkept : (agg.ledger.closedAt.setLast (agg.key published) bar).get
      (agg.key time) = some kept) :
    (latest (agg.history ++ [.emitted emission]) time).map BarFrame.ohlcv = some kept.ohlcv := by
  have horig := original_of_setLast hkept
  rw [latest_publish hclose htime hbar]
  by_cases hpub : published = time
  · rw [if_pos hpub] at horig
    rw [if_pos hpub, horig]
  · rw [if_neg hpub] at horig
    rw [if_neg hpub]
    exact hbal.retained time kept horig

theorem Balanced.emit_closed (around : Surroundings) (hbkt : agg.bucket = some bucket)
    (hfst : latest agg.history (chartTime bucket.start) = none) :
    (agg.emit around bucket true).Balanced acct.settle := by
  have hform : summary acct.formingTicks = some bucket.ohlcv := by
    rw [← hbal.forming, hbkt]
    rfl
  have htimes : ∀ tick ∈ acct.formingTicks,
      tick.barTime agg.timeframe = chartTime bucket.start := fun tick htick ↦
    congrArg chartTime (hbal.formingBar bucket hbkt tick htick)
  have hnil : acct.barTicks agg.timeframe (chartTime bucket.start) = [] := by
    rw [← summary_eq_none_iff, ← hbal.bars, hfst]
    rfl
  have hclose : ({ (agg.recordClosed bucket around.now).send
      (.bar (agg.frameOf bucket true)) with
        lastClosed := some (chartTime bucket.start)
        bucket := none
        lastFormingEmit := some around.afterClose } : BarAggregator).Balanced acct.settle := by
    constructor
    · constructor
      · intro time
        have hbars := Accounting.barTicks_settle htimes hnil time
        refine (latest_publish rfl rfl rfl).trans ?_
        refine Eq.trans ?_ (congrArg summary hbars.symm)
        by_cases htime : chartTime bucket.start = time
        · rw [if_pos htime, hform]
          exact if_pos htime
        · rw [if_neg htime, ← hbal.bars]
          exact if_neg htime
      · rw [Accounting.formingTicks_settle]
        rfl
      · simp
      · rw [Accounting.droppedCount_settle]
        exact hbal.dropped
      · simp only [Accounting.droppedFor_settle]
        exact hbal.counters
    · exact hbal.live
    · intro time kept hkept
      exact hbal.retained_publish rfl rfl rfl (Dict.get_of_get_trim hkept)
  unfold emit onFrame
  simp only [if_true]
  split
  · exact hclose.mark _
  · exact hclose

theorem Balanced.sendRevision (around : Surroundings) {tick : Tick} {original : Bucket}
    (closesAt : ℚ)
    (horig : agg.ledger.original
      (agg.key (chartTime (agg.startOf tick))) = some original) :
    (agg.sendRevision around tick original closesAt).Balanced (acct ++ [(tick, .bar)]) := by
  have hsummary : summary (acct.barTicks agg.timeframe
      (chartTime (agg.startOf tick))) = some original.ohlcv := by
    rw [← hbal.bars]
    exact hbal.retained _ _ horig
  have hbars : ∀ time, summary (Accounting.barTicks (acct ++ [(tick, .bar)])
      agg.timeframe time) =
        if chartTime (agg.startOf tick) = time then
          some (original.absorb tick.price tick.size).ohlcv
        else (latest agg.history time).map BarFrame.ohlcv := by
    intro time
    rw [Accounting.barTicks_concat_bar]
    by_cases htime : chartTime (agg.startOf tick) = time
    · subst htime
      rw [if_pos rfl]
      exact (congrArg summary (if_pos rfl)).trans (summary_concat hsummary)
    · rw [if_neg htime, hbal.bars]
      exact congrArg summary (if_neg htime)
  have hsent : ∀ emission : Emission, emission.frame = agg.revisedFrame
      (chartTime (agg.startOf tick)) (original.absorb tick.price tick.size) tick.source →
      ((agg.storeRevision (chartTime (agg.startOf tick))
        (original.absorb tick.price tick.size)).send emission).Balanced
          (acct ++ [(tick, .bar)]) := by
    intro emission hframe
    have hclose : emission.frame.closed = true := by rw [hframe]; rfl
    have htime : emission.frame.time = chartTime (agg.startOf tick) := by rw [hframe]; rfl
    have hbar : emission.frame.ohlcv = (original.absorb tick.price tick.size).ohlcv := by
      rw [hframe]; rfl
    constructor
    · constructor
      · intro time
        refine (latest_publish hclose htime hbar).trans ?_
        exact (hbars time).symm
      · rw [Accounting.formingTicks_concat_of_ne (by simp)]
        exact hbal.forming
      · rw [Accounting.formingTicks_concat_of_ne (by simp)]
        exact hbal.formingBar
      · rw [Accounting.droppedCount_concat]
        exact hbal.dropped
      · intro count hcnt why
        rw [Accounting.droppedFor_concat]
        simpa using hbal.counters count hcnt why
    · exact hbal.live
    · intro time kept hkept
      exact hbal.retained_publish hclose htime hbar hkept
  unfold BarAggregator.sendRevision onFrame
  simp only
  split
  · exact (hsent _ rfl).mark _
  · exact hsent _ rfl

theorem Balanced.reviseClosed (around : Surroundings) {tick : Tick}
    (hknown : agg.ledger.hasFill (agg.key (chartTime (agg.startOf tick))) = true
      ∨ agg.ledger.isClosed (agg.key (chartTime (agg.startOf tick))) = true) :
    ∃ place, (agg.reviseClosed around tick).Balanced (acct ++ [(tick, place)]) := by
  simp only [BarAggregator.reviseClosed]
  split
  · exact ⟨_, hbal.countLateDrop tick .bookedFill⟩
  rename_i hfill
  rw [if_neg (by simp [hknown.resolve_left hfill])]
  split
  · exact ⟨_, hbal.countLateDrop tick .stale⟩
  split
  next closesAt original _ horig => exact ⟨_, hbal.sendRevision around closesAt horig⟩
  · exact ⟨_, hbal.countLateDrop tick .windowExpired⟩

def Call.tick : Call → Option Tick
  | .onQuote _ tick => some tick
  | .flush _ => none
  | .markFilled _ => none

def Call.Conserves (agg : BarAggregator) : Call → Prop
  | .onQuote _ tick =>
    ∀ bucket ∈ agg.bucket,
      (agg.startOf tick < bucket.start →
        agg.ledger.hasFill (agg.key (chartTime (agg.startOf tick))) = true ∨
        agg.ledger.isClosed (agg.key (chartTime (agg.startOf tick))) = true) ∧
      (bucket.start < agg.startOf tick →
        latest agg.history (chartTime bucket.start) = none)
  | .flush _ => ∀ bucket ∈ agg.bucket, latest agg.history (chartTime bucket.start) = none
  | .markFilled _ => True

instance (call : Call) : Decidable (call.Conserves agg) :=
  match call with
  | .onQuote _ _ => inferInstanceAs (Decidable (∀ bucket ∈ agg.bucket, _))
  | .flush _ => inferInstanceAs (Decidable (∀ bucket ∈ agg.bucket, _))
  | .markFilled _ => inferInstanceAs (Decidable True)

theorem Balanced.closeBefore (around : Surroundings) (tick : Tick) (hbkt : agg.bucket = some bucket)
    (hfst : latest agg.history (chartTime bucket.start) = none) :
    (agg.closeBefore around tick bucket).Balanced acct.settle := by
  have hsourced : ({ agg with source := tick.source } : BarAggregator).Balanced
      acct := hbal.of_same rfl fun _ ↦ rfl
  exact hsourced.emit_closed around hbkt hfst

theorem Balanced.onQuote {tick : Tick} (hcons : Call.Conserves agg (.onQuote around tick)) :
    ∃ after, after.ticks = acct.ticks ++ [tick] ∧ (agg.onQuote around tick).Balanced after := by
  cases hbkt : agg.bucket with
  | none =>
    rw [onQuote_of_none hbal.live hbkt]
    obtain ⟨place, hplace⟩ := hbal.startBucket around tick hbkt
    exact ⟨_, Accounting.ticks_append, hplace⟩
  | some bucket =>
    obtain ⟨hknown, hfst⟩ := hcons bucket hbkt
    rcases lt_trichotomy (agg.startOf tick) bucket.start with hlate | hsame | hlater
    · rw [onQuote_of_late hbal.live hbkt hlate]
      obtain ⟨place, hplace⟩ := hbal.reviseClosed around (hknown hlate)
      exact ⟨_, Accounting.ticks_append, hplace⟩
    · rw [onQuote_of_same hbal.live hbkt hsame]
      exact ⟨_, Accounting.ticks_append, hbal.absorbPrint around hbkt hsame⟩
    · rw [onQuote_of_later hbal.live hbkt hlater]
      have hclose := hbal.closeBefore around tick hbkt (hfst hlater)
      obtain ⟨place, hplace⟩ := hclose.startBucket around tick rfl
      refine ⟨_, ?_, hplace⟩
      rw [Accounting.ticks_append, Accounting.ticks_settle]
      rfl

theorem Balanced.flush (hcons : Call.Conserves agg (.flush around)) :
    ∃ after, after.ticks = acct.ticks ∧ (agg.flush around).Balanced after := by
  cases hbkt : agg.bucket with
  | none =>
    rw [flush_of_idle (.inr hbkt)]
    exact ⟨acct, rfl, hbal⟩
  | some bucket =>
    rw [flush_of_some hbal.live hbkt]
    exact ⟨_, Accounting.ticks_settle, hbal.emit_closed around hbkt (hcons bucket hbkt)⟩

theorem Balanced.call {call : Call} (hcons : call.Conserves agg) :
    ∃ after, after.ticks = acct.ticks ++ call.tick.toList ∧ (agg.call call).Balanced after := by
  cases call with
  | onQuote around tick => exact hbal.onQuote hcons
  | flush around =>
    obtain ⟨after, hticks, hafter⟩ := hbal.flush hcons
    exact ⟨after, hticks.trans (append_nil _).symm, hafter⟩
  | markFilled frame =>
    refine ⟨acct, (append_nil _).symm, ?_⟩
    rcases call_markFilled with hmark | href
    · rw [hmark]
      exact hbal.mark frame.time
    · rw [href]
      exact hbal

def ticksOf (calls : List Call) : List Tick := calls.filterMap Call.tick

def ConservesAll : BarAggregator → List Call → Prop
  | _, [] => True
  | agg, first :: rest => first.Conserves agg ∧ ConservesAll (agg.call first) rest

instance : ∀ (agg : BarAggregator) (calls : List Call),
    Decidable (ConservesAll agg calls)
  | _, [] => inferInstanceAs (Decidable True)
  | agg, first :: rest =>
    have : Decidable (ConservesAll (agg.call first) rest) := instDecidableConservesAll _ rest
    inferInstanceAs (Decidable (_ ∧ _))

theorem Balanced.run {calls : List Call} (hcons : ConservesAll agg calls) :
    ∃ after, after.ticks = acct.ticks ++ ticksOf calls ∧ (agg.run calls).Balanced after := by
  induction calls generalizing agg acct with
  | nil => exact ⟨acct, (append_nil _).symm, hbal⟩
  | cons first rest ih =>
    obtain ⟨middle, hmid, hcalled⟩ := hbal.call hcons.1
    obtain ⟨after, hafter, hrun⟩ := ih hcalled hcons.2
    refine ⟨after, ?_, hrun⟩
    rw [hafter, hmid]
    cases htick : first.tick <;> simp [ticksOf, htick]

end

structure Fresh (agg : BarAggregator) : Prop where
  live : agg.disposed = false
  bucket : agg.bucket = none
  history : agg.history = []
  dropped : agg.lateTicksDropped = 0
  counters : ∀ count ∈ agg.metrics, ∀ reason, count reason = 0
  ledger : ∀ time, agg.ledger.original (agg.key time) = none

theorem Fresh.balanced (hnew : agg.Fresh) : agg.Balanced [] where
  bars := by simp [hnew.history, latest, Accounting.barTicks]
  forming := by simp [hnew.bucket, Accounting.formingTicks]
  formingBar := by simp [hnew.bucket]
  dropped := hnew.dropped
  counters := hnew.counters
  live := hnew.live
  retained := by
    intro time bucket hkept
    rw [hnew.ledger] at hkept
    cases hkept

/-- Every print of a run is in exactly one bar or is accounted for as dropped, if no call reopens a
sent bar. -/
theorem run_accounts (hfresh : agg.Fresh) (calls : List Call)
    (hconserves : ConservesAll agg calls) :
    ∃ acct, acct.ticks = ticksOf calls ∧
      (agg.run calls).Accounts acct := by
  obtain ⟨acct, hticks, hbal⟩ := hfresh.balanced.run hconserves
  exact ⟨acct, hticks, hbal.toAccounts⟩

def revisingCalls : List Call :=
  [.onQuote (quietAt 0) (morningPrint 0 100 1), .onQuote (quietAt 60) (morningPrint 60 101 1),
    .onQuote (quietAt 62) (morningPrint 30 150 2), .flush (quietAt 120)]

theorem revised_bar_accounted :
    ConservesAll (new "NSE:TEST" .m1 (.new 8192)) revisingCalls ∧
      ∃ acct, acct.ticks = ticksOf revisingCalls ∧
        ((new "NSE:TEST" .m1 (.new 8192)).run revisingCalls).Accounts acct :=
  have hconserves : ConservesAll (new "NSE:TEST" .m1 (.new 8192)) revisingCalls := by decide +kernel
  ⟨hconserves, run_accounts ⟨rfl, rfl, rfl, rfl, by simp [new], fun _ ↦ rfl⟩ _ hconserves⟩

def flushedTwice : List Call :=
  [.onQuote (quietAt 0) (morningPrint 0 100 1), .flush (quietAt 1),
    .onQuote (quietAt 2) (morningPrint 30 150 2), .flush (quietAt 3)]

theorem first_print_lost :
    ¬ ∃ acct, acct.ticks = ticksOf flushedTwice ∧
      ((new "NSE:TEST" .m1 (.new 8192)).run flushedTwice).Accounts acct := by
  rintro ⟨acct, hticks, haccs⟩
  have hnone : acct.formingTicks = [] := by
    rw [← summary_eq_none_iff, ← haccs.forming]
    rfl
  have hzero : acct.droppedCount = 0 := by
    rw [← haccs.dropped]
    rfl
  have hplaces : acct = (ticksOf flushedTwice).map fun tick ↦ (tick, .bar) := by
    rw [← hticks]
    exact Accounting.eq_map_bar hnone hzero
  subst hplaces
  exact absurd (haccs.bars 1780288200) (by decide +kernel)

end BarAggregator

end Tradex.Runtime

import Tradex.Foundation.Dict
import Mathlib.Data.List.Sort
import Mathlib.Algebra.Order.BigOperators.Group.List
import Mathlib.Algebra.Order.Ring.Int

/-!
# The gap scan and the convergence of a sync

A sync scans the lake for missing session minutes, fetches them and scans again until a scan finds
nothing. Clock readings are Indian ones: instants in microseconds, and stamps in whole minutes.
-/

namespace Tradex.MarketData

open List

def minuteMicros : ℤ := 60000000

def marketOpen : ℤ := 555

def marketClose : ℤ := 930

def last1m : ℤ := 914

def floorMinute (instant : ℤ) : ℤ := instant / minuteMicros

variable (minute : ℤ)

def date : ℤ := minute / 1440

def time : ℤ := minute % 1440

def combine (day time : ℤ) : ℤ := 1440 * day + time

/-- The day of the week of a day since 1970-01-01, from Monday. -/
def weekday (day : ℤ) : ℤ := (day + 3) % 7

def closedBefore (holidays : List ℤ) : ℕ → ℤ → ℤ
  | 0, closed => closed
  | tries + 1, closed =>
    if 5 ≤ weekday (date closed) ∨ date closed ∈ holidays then
      closedBefore holidays tries (combine (date closed - 1) last1m)
    else if last1m < time closed then combine (date closed) last1m
    else if time closed < marketOpen then
      closedBefore holidays tries (combine (date closed - 1) last1m)
    else closed

def lastClosed (now : ℤ) (holidays : List ℤ) : ℤ :=
  closedBefore holidays 10 (floorMinute now - 1)

def capTime : ℤ :=
  if last1m < time minute then combine (date minute) last1m else minute

/-- The minutes that can already have been sent. An end at midnight means the
whole of its day. -/
def servableBounds (start stop now : ℤ) (holidays : List ℤ) : Option (ℤ × ℤ) :=
  let lo := combine (date (floorMinute start)) marketOpen
  let asked :=
    if stop % (1440 * minuteMicros) = 0 then combine (date (floorMinute stop)) last1m
    else floorMinute stop
  let hi := capTime (min (capTime asked) (lastClosed now holidays))
  if hi < lo then none else some (lo, hi)

def span (lo hi : ℤ) : List ℤ := (List.range (hi + 1 - lo).toNat).map fun offset : ℕ ↦ lo + offset

theorem mem_span {lo hi val : ℤ} : val ∈ span lo hi ↔ lo ≤ val ∧ val ≤ hi := by
  simp only [span, mem_map, mem_range]
  constructor
  · omega
  · intro hval
    exact ⟨(val - lo).toNat, by omega, by omega⟩

def sessionOf (start stop : ℤ) (holidays : List ℤ) (day : ℤ) : List ℤ :=
  if weekday day < 5 ∧ day ∉ holidays then
    span (max (combine day marketOpen) start) (min (combine day marketClose) stop)
  else []

def sessionGrid (start stop : ℤ) (holidays : List ℤ) : List ℤ :=
  (span (date start) (date stop)).flatMap (sessionOf start stop holidays)

theorem mem_sessionGrid {start stop minute : ℤ} {holidays : List ℤ} (hstart : start ≤ minute)
    (hstop : minute ≤ stop) (hweekday : weekday (date minute) < 5)
    (hholiday : date minute ∉ holidays) (hopen : marketOpen ≤ time minute)
    (hclose : time minute ≤ marketClose) : minute ∈ sessionGrid start stop holidays := by
  refine mem_flatMap.2 ⟨date minute, mem_span.2 ?_, ?_⟩
  · simp only [date]
    omega
  · rw [sessionOf, if_pos ⟨hweekday, hholiday⟩, mem_span]
    simp only [combine, date, time] at hopen hclose ⊢
    omega

def runsFrom (first last : ℤ) : List ℤ → List (ℤ × ℤ)
  | [] => [(first, last)]
  | stamp :: rest =>
    if stamp ≠ last + 1 then (first, last) :: runsFrom stamp stamp rest
    else runsFrom first stamp rest

def runs : List ℤ → List (ℤ × ℤ)
  | [] => []
  | stamp :: rest => runsFrom stamp stamp rest

def runLength (run : ℤ × ℤ) : ℤ := run.2 - run.1 + 1

theorem runsFrom_ne_nil (first last : ℤ) (stamps : List ℤ) : runsFrom first last stamps ≠ [] := by
  induction stamps generalizing first last with
  | nil => simp [runsFrom]
  | cons stamp rest ih =>
    rw [runsFrom]
    split
    · simp
    · exact ih first stamp

variable {stamps : List ℤ}

theorem runs_eq_nil_iff : runs stamps = [] ↔ stamps = [] := by
  cases stamps with
  | nil => simp [runs]
  | cons stamp rest => simp [runs, runsFrom_ne_nil]

variable {run : ℤ × ℤ}

theorem runLength_pos_of_mem_runsFrom {first last : ℤ}
    (hle : first ≤ last) (hrun : run ∈ runsFrom first last stamps) : 0 < runLength run := by
  -- a run is opened at one stamp and grows one minute at a time
  induction stamps generalizing first last with
  | nil =>
    obtain rfl : run = (first, last) := by simpa [runsFrom] using hrun
    simp only [runLength]
    omega
  | cons stamp rest ih =>
    rw [runsFrom] at hrun
    split at hrun
    · rcases mem_cons.1 hrun with rfl | hrest
      · simp only [runLength]
        omega
      · exact ih le_rfl hrest
    · exact ih (by omega) hrun

theorem runLength_pos (hrun : run ∈ runs stamps) : 0 < runLength run := by
  cases stamps with
  | nil => simp [runs] at hrun
  | cons stamp rest => exact runLength_pos_of_mem_runsFrom le_rfl hrun

structure Row where
  timeframe : String
  timestamp : ℤ
deriving DecidableEq

/-- The rows stored under each symbol. -/
abbrev Lake := String → List Row

def inSession (instant : ℤ) : Bool :=
  let clock := instant % (1440 * minuteMicros)
  weekday (date (floorMinute instant)) < 5 ∧
    marketOpen * minuteMicros ≤ clock ∧ clock ≤ marketClose * minuteMicros

variable (lake : Lake) (symbol : String)

def Lake.read : List Row :=
  (lake symbol).filter fun row ↦ inSession row.timestamp

def Lake.readWindow (start stop : ℤ) (tf : String) : List Row :=
  (lake.read symbol).filter fun row ↦
    (start * minuteMicros ≤ row.timestamp ∧ row.timestamp ≤ stop * minuteMicros) ∧
      row.timeframe = tf

def Lake.lastStored : Option ℤ :=
  ((lake.read symbol).map Row.timestamp).max?

/-- The lake holds the one-minute bar of a stamp. -/
def Lake.Holds (minute : ℤ) : Prop :=
  ∃ row ∈ lake symbol, row.timeframe = "1m" ∧ row.timestamp = minute * minuteMicros

variable {Instrument : Type}

structure SyncConfig where
  minGapStamps : ℤ := 1
  includeOpenStamps : Bool := true
  tailDays : Option ℤ := none

structure SymbolScan (Instrument : Type) where
  symbol : String
  instrument : Instrument
  gaps : List (ℤ × ℤ)
  subThresholdStamps : ℤ

structure GapScan (Instrument : Type) where
  gaps : List (Instrument × List (ℤ × ℤ)) := []
  subThresholdSymbols : List String := []

variable (cfg : SyncConfig)

def scanStart (lake : Lake) (symbol : String) (start : ℤ) : ℤ :=
  match cfg.tailDays, lake.lastStored symbol with
  | some days, some last => max start (combine (date (floorMinute last) - days) 0)
  | _, _ => start

/-- The runs that are long enough, and the number of stamps in the others. -/
def floorGaps (minGapStamps : ℤ) (gaps : List (ℤ × ℤ)) : List (ℤ × ℤ) × ℤ :=
  if 1 < minGapStamps then
    (gaps.filter fun run ↦ minGapStamps ≤ runLength run,
      ((gaps.filter fun run ↦ runLength run < minGapStamps).map runLength).sum)
  else (gaps, 0)

def isEdge : Bool :=
  time minute = marketOpen ∨ time minute = marketClose ∨ last1m < time minute

def runOrder (first second : ℤ × ℤ) : Prop :=
  first.1 < second.1 ∨ first.1 = second.1 ∧ first.2 ≤ second.2

instance : DecidableRel runOrder := fun first second ↦
  inferInstanceAs (Decidable (first.1 < second.1 ∨ first.1 = second.1 ∧ first.2 ≤ second.2))

def missingStamps (start stop : ℤ) (holidays : List ℤ) : List ℤ :=
  (sessionGrid start stop holidays).filter fun minute ↦
    minute * minuteMicros ∉ (lake.readWindow symbol start stop "1m").map Row.timestamp

/-- Scan one instrument. The stamps after 15:14 are never gaps, and the stamp of
the open is one only on request. -/
def scanOne (lake : Lake) (symbol : Instrument → String) (start stop : ℤ)
    (holidays : List ℤ) (instr : Instrument) : Option (SymbolScan Instrument) :=
  let from_ := scanStart cfg lake (symbol instr) start
  match missingStamps lake (symbol instr) from_ stop holidays with
  | [] => none
  | missing =>
    let floored :=
      floorGaps cfg.minGapStamps (runs (missing.filter fun minute ↦ !isEdge minute))
    let opens := missing.filter fun minute ↦ time minute = marketOpen
    some
      { symbol := symbol instr
        instrument := instr
        gaps :=
          if cfg.includeOpenStamps then (floored.1 ++ runs opens).insertionSort runOrder
          else floored.1
        subThresholdStamps := floored.2 }

def GapDetector.scan (lake : Lake) (symbol : Instrument → String)
    (start stop : ℤ) (holidays : List ℤ) (instrs : List Instrument) : GapScan Instrument :=
  let records := instrs.filterMap (scanOne cfg lake symbol start stop holidays)
  { gaps :=
      (records.filter fun record ↦ record.gaps ≠ []).map fun record ↦
        (record.instrument, record.gaps)
    subThresholdSymbols :=
      (records.filter fun record ↦ record.subThresholdStamps ≠ 0).map SymbolScan.symbol }

structure SyncReport where
  requested : ℕ
  fetched : ℕ := 0
  written : ℕ := 0
  failed : Dict String String := Dict.empty
  converged : Bool := false
  resumable : Bool := false
  underFloored : List String := []

/-- A service with what its environment answers in each pass: whether the budget
is spent, and what a fetch of the given ranges reports and leaves in the lake. -/
structure SyncService (Instrument : Type) where
  config : SyncConfig
  symbol : Instrument → String
  spent : ℕ → Bool
  sync : ℕ → List (Instrument × List (ℤ × ℤ)) → Lake → SyncReport × Lake

structure Window where
  start : ℤ
  stop : ℤ
  now : ℤ
  holidays : List ℤ

def Window.bounds (window : Window) : Option (ℤ × ℤ) :=
  servableBounds window.start window.stop window.now window.holidays

/-- Holes inside a session first, then whole sessions, then bare opens, and the
symbol that misses the most minutes first. -/
def priority (ranges : List (ℤ × ℤ)) : ℤ × ℤ :=
  let stamps := (ranges.map runLength).sum
  if ranges.all fun range ↦ range.1 = range.2 ∧ time range.1 = marketOpen then (2, -stamps)
  else if ranges.any fun range ↦ 300 ≤ range.2 - range.1 then (1, -stamps)
  else (0, -stamps)

namespace SyncService

variable (service : SyncService Instrument) (window : Window) (instrs : List Instrument)

def scan (lake : Lake) : GapScan Instrument :=
  match window.bounds with
  | none => {}
  | some (lo, hi) =>
    GapDetector.scan service.config lake service.symbol lo hi window.holidays instrs

def absorb (progress part : SyncReport) : SyncReport :=
  { progress with
    fetched := progress.fetched + part.fetched
    written := progress.written + part.written
    failed := part.failed.entries.foldl (fun failed entry ↦ failed.set entry.1 entry.2)
      progress.failed }

def idle (part : SyncReport) : Bool :=
  part.fetched = 0 ∧ part.written = 0 ∧ part.failed.entries = []

/-- The passes that are left. The retried symbols are those that failed in an
earlier pass. -/
def convergeFrom : ℕ → SyncReport → List String → Lake → SyncReport × Lake
  | 0, progress, _, lake => ({ progress with resumable := true }, lake)
  | passes + 1, progress, retried, lake =>
    let found := service.scan window instrs lake
    if found.gaps.isEmpty then
      ({ progress with
          converged := found.subThresholdSymbols.isEmpty
          underFloored := found.subThresholdSymbols }, lake)
    else
      let fresh := (found.gaps.filter fun gap ↦ service.symbol gap.1 ∉ retried).insertionSort
        fun first second ↦ runOrder (priority first.2) (priority second.2)
      if fresh.isEmpty ∨ service.spent passes then ({ progress with resumable := true }, lake)
      else
        let ans := service.sync passes fresh lake
        let progress := absorb progress ans.1
        if ans.1.resumable ∨ idle ans.1 then
          ({ progress with resumable := true }, ans.2)
        else
          convergeFrom passes progress (retried ++ ans.1.failed.entries.map Prod.fst) ans.2

def converge (lake : Lake) : SyncReport × Lake :=
  service.convergeFrom window instrs 10 { requested := instrs.length } [] lake

variable {service window instrs} {lake : Lake} {holidays : List ℤ} {start stop minute : ℤ}

theorem floorGaps_eq_nil {minGapStamps : ℤ} {stamps : List ℤ}
    (hkept : (floorGaps minGapStamps (runs stamps)).1 = [])
    (hcnt : (floorGaps minGapStamps (runs stamps)).2 = 0) : stamps = [] := by
  by_contra hstmp
  have hruns : runs stamps ≠ [] := fun hnil ↦ hstmp (runs_eq_nil_iff.1 hnil)
  unfold floorGaps at hkept hcnt
  split at hkept
  · rename_i hfloor
    rw [if_pos hfloor] at hcnt
    -- every run fell under the floor, so the count is a sum of positive lengths
    have hshort : ∀ run ∈ runs stamps, runLength run < minGapStamps := fun run hrun ↦
      not_le.1 fun hle ↦ by simpa [hle] using filter_eq_nil_iff.1 hkept run hrun
    rw [filter_eq_self.2 fun run hrun ↦ decide_eq_true (hshort run hrun)] at hcnt
    have hpos : 0 < ((runs stamps).map runLength).sum := by
      refine sum_pos _ (fun length hlen ↦ ?_) (by simpa using hruns)
      obtain ⟨run, hrun, rfl⟩ := mem_map.1 hlen
      exact runLength_pos hrun
    omega
  · exact hruns hkept

theorem missingStamps_of_scanOne {cfg : SyncConfig} {symbol : Instrument → String}
    {instr : Instrument}
    (htail : cfg.tailDays = none) (hopens : cfg.includeOpenStamps = true)
    (hclean : ∀ record ∈ scanOne cfg lake symbol start stop holidays instr,
      record.gaps = [] ∧ record.subThresholdStamps = 0) (hlast : time minute ≤ last1m) :
    minute ∉ missingStamps lake (symbol instr) start stop holidays := by
  intro hmiss
  have hstart : scanStart cfg lake (symbol instr) start = start := by simp [scanStart, htail]
  unfold scanOne at hclean
  simp only [hstart] at hclean
  split at hclean
  · rename_i hnone
    simp [hnone] at hmiss
  · simp only [hopens, if_true, Option.mem_def, Option.some.injEq, forall_eq'] at hclean
    obtain ⟨hgaps, hcnt⟩ := hclean
    rw [← length_eq_zero_iff, length_insertionSort, length_eq_zero_iff,
      append_eq_nil_iff, runs_eq_nil_iff] at hgaps
    have hinterior := floorGaps_eq_nil hgaps.1 hcnt
    by_cases hopen : time minute = marketOpen
    · simpa [hopen] using filter_eq_nil_iff.1 hgaps.2 minute hmiss
    · have hedge : isEdge minute = false := by
        rw [isEdge, decide_eq_false_iff_not]
        simp only [marketClose, last1m] at hlast ⊢
        omega
      simpa [hedge] using filter_eq_nil_iff.1 hinterior minute hmiss

theorem holds_of_not_missing {symbol : String} (hgrid : minute ∈ sessionGrid start stop holidays)
    (hfind : minute ∉ missingStamps lake symbol start stop holidays) :
    lake.Holds symbol minute := by
  have hread : minute * minuteMicros ∈
      (lake.readWindow symbol start stop "1m").map Row.timestamp := by
    by_contra hgone
    exact hfind (mem_filter.2 ⟨hgrid, by simpa using hgone⟩)
  obtain ⟨row, hrow, hstamp⟩ := mem_map.1 hread
  obtain ⟨hrow, hkept⟩ := mem_filter.1 hrow
  have hframe : row.timeframe = "1m" := (of_decide_eq_true hkept).2
  exact ⟨row, mem_of_mem_filter hrow, hframe, hstamp⟩

/-- The session minutes of a window are in the lake. -/
def Complete (service : SyncService Instrument) (window : Window) (instrs : List Instrument)
    (lake : Lake) : Prop :=
  ∀ lo hi, window.bounds = some (lo, hi) → ∀ instr ∈ instrs, ∀ minute,
    lo ≤ minute → minute ≤ hi → weekday (date minute) < 5 → date minute ∉ window.holidays →
      marketOpen ≤ time minute → time minute ≤ last1m →
        lake.Holds (service.symbol instr) minute

variable (htail : service.config.tailDays = none) (hopens : service.config.includeOpenStamps = true)

include htail hopens in
theorem complete_of_scan (hgaps : (service.scan window instrs lake).gaps = [])
    (hfloored : (service.scan window instrs lake).subThresholdSymbols = []) :
    service.Complete window instrs lake := by
  intro lo hi hbounds instr hinstr minute hlo hhi hweekday hholiday hopen hlast
  simp only [scan, hbounds, GapDetector.scan, map_eq_nil_iff, filter_eq_nil_iff,
    mem_filterMap] at hgaps hfloored
  have hclose : time minute ≤ marketClose := hlast.trans (by decide)
  refine holds_of_not_missing (mem_sessionGrid hlo hhi hweekday hholiday hopen hclose)
    (missingStamps_of_scanOne htail hopens ?_ hlast)
  intro record hrec
  exact ⟨by simpa using hgaps record ⟨instr, hinstr, hrec⟩,
    by simpa using hfloored record ⟨instr, hinstr, hrec⟩⟩

include htail hopens in
theorem complete_of_convergeFrom {passes : ℕ} {progress : SyncReport}
    {retried : List String} (hprog : progress.converged = false) (hconv :
      (service.convergeFrom window instrs passes progress retried lake).1.converged = true) :
    service.Complete window instrs
      (service.convergeFrom window instrs passes progress retried lake).2 := by
  -- only the return after a scan without gaps reports convergence
  induction passes generalizing progress retried lake with
  | zero => simp [convergeFrom, hprog] at hconv
  | succ passes ih =>
    simp only [convergeFrom] at hconv ⊢
    split_ifs at hconv ⊢ with hgaps hstop hpart
    · exact complete_of_scan htail hopens (by simpa using hgaps) (by simpa using hconv)
    · simp [hprog] at hconv
    · simp [absorb, hprog] at hconv
    · exact ih hprog hconv

/-- A sync that scans from the start of its window and asks for the opens reports
convergence only over a complete lake. -/
theorem complete_of_converged (service : SyncService Instrument) (window : Window)
    (instrs : List Instrument) (lake : Lake) (htail : service.config.tailDays = none)
    (hopens : service.config.includeOpenStamps = true)
    (hconverged : (service.converge window instrs lake).1.converged = true) :
    service.Complete window instrs (service.converge window instrs lake).2 :=
  complete_of_convergeFrom htail hopens rfl hconverged

/-- The first three minutes of Monday 1970-01-05. -/
def firstMinutes : Lake := fun _ ↦ [555, 556, 557].map fun minute ↦
  { timeframe := "1m", timestamp := combine 4 minute * minuteMicros }

/-- A service for two symbols whose first fetch brings all that is missing. -/
def promptService : SyncService Bool where
  config := {}
  symbol first := if first then "TCS" else "INFY"
  spent _ := false
  sync _ _ _ := ({ requested := 1, fetched := 1, written := 2 }, firstMinutes)

/-- The three minutes, seen at ten o'clock. -/
def openingWindow : Window where
  start := combine 4 0 * minuteMicros
  stop := combine 4 557 * minuteMicros
  now := combine 4 600 * minuteMicros
  holidays := []

/-- One symbol is complete, the other has its first minute. -/
def gappyLake : Lake := fun symbol ↦
  if symbol = "TCS" then firstMinutes symbol else (firstMinutes symbol).take 1

theorem complete_after_one_fetch :
    (promptService.converge openingWindow [true, false] gappyLake).1.converged = true ∧
      promptService.Complete openingWindow [true, false]
        (promptService.converge openingWindow [true, false] gappyLake).2 :=
  ⟨by decide +kernel, complete_of_converged promptService openingWindow [true, false] gappyLake
    rfl rfl (by decide +kernel)⟩

end SyncService

end Tradex.MarketData

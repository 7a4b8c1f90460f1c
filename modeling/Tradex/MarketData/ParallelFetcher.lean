import Tradex.MarketData.BulkHistory

/-!
# Chunked history

A long request is cut into windows of at most the provider's number of days, and the answers are
stitched. Whether a request is long is judged by its whole days.
-/

namespace Tradex.MarketData

open Domain List

abbrev TimeRange := ℤ × ℤ

def dayMicros : ℤ := 86400 * 10 ^ 6

def windowsFrom (maxDays : ℕ) (cur stop : ℤ) : List TimeRange :=
  if _hopen : 0 < maxDays ∧ cur < stop then
    let next := min stop (cur + maxDays * dayMicros)
    (cur, next) :: windowsFrom maxDays next stop
  else []
termination_by (stop - cur).toNat
decreasing_by
  unfold dayMicros
  omega

def dateWindows (maxDays : ℕ) (window : TimeRange) : List TimeRange :=
  match windowsFrom maxDays window.1 window.2 with
  | [] => [window]
  | windows => windows

def maxDaysOf (broker : String) : ℕ := if broker = "dhan" then 90 else 30

def chunkCapFor (tf : Timeframe) (broker : String) : Option ℕ :=
  if tf = .d1 ∨ tf = .w1 then none else some (maxDaysOf broker)

def windowsFor (cap : Option ℕ) (window : TimeRange) :
    Option (List TimeRange) → Option (List TimeRange)
  | some ranges => some (ranges.flatMap (dateWindows (cap.getD 0)))
  | none =>
    match cap with
    | none => none
    | some maxDays =>
      if 0 < maxDays ∧ maxDays < (window.2 - window.1) / dayMicros then
        some (dateWindows maxDays window)
      else none

def unseen (seen : List ℤ) : List OhlcRow → List OhlcRow
  | [] => []
  | row :: rest =>
    if row.stamp ∈ seen then unseen seen rest else row :: unseen (row.stamp :: seen) rest

def stitchWindows (bars : List OhlcRow) (windows : List TimeRange) : List OhlcRow :=
  unseen [] ((windows.flatMap fun window ↦ within window.1 window.2 bars).insertionSort
    fun first second ↦ first.stamp ≤ second.stamp)

def nonempty (rows : List OhlcRow) (err : String) : Except String (List OhlcRow) :=
  if rows = [] then .error err else .ok rows

theorem getD_nonempty {rows : List OhlcRow} {err : String} :
    (nonempty rows err).toOption.getD [] = rows := by
  cases rows <;> rfl

structure HistoryRequest where
  broker : String
  instrumentId : String
  timeframe : Timeframe
  window : TimeRange
  ranges : Option (List TimeRange) := none

namespace HistoryRequest

variable (req : HistoryRequest) (bars : List OhlcRow)

def windows : Option (List TimeRange) :=
  windowsFor (chunkCapFor req.timeframe req.broker) req.window req.ranges

/-- The windows of the calls that the broker gets. -/
def calls : List TimeRange := req.windows.getD [req.window]

/-- What the broker's `bars` of the instrument are fetched to, or what is logged instead. -/
def fetch : Except String (List OhlcRow) :=
  match req.windows with
  | some windows => nonempty (stitchWindows bars windows)
      (req.broker ++ ": empty stitched series for " ++ req.instrumentId)
  | none => nonempty (within req.window.1 req.window.2 bars)
      (req.broker ++ ": empty series for " ++ req.instrumentId)

end HistoryRequest

def Covered (windows : List TimeRange) (stamp : ℤ) : Prop :=
  ∃ window ∈ windows, window.1 ≤ stamp ∧ stamp ≤ window.2

instance (windows : List TimeRange) (stamp : ℤ) : Decidable (Covered windows stamp) :=
  inferInstanceAs (Decidable (∃ window ∈ windows, _))

section Windows

variable {maxDays : ℕ} {cur stop stamp : ℤ} {window call : TimeRange}

theorem covered_windowsFrom (hdays : 0 < maxDays) (hopen : cur < stop) :
    Covered (windowsFrom maxDays cur stop) stamp ↔ cur ≤ stamp ∧ stamp ≤ stop := by
  fun_induction windowsFrom maxDays cur stop with
  | case1 cur hmore next ih =>
    have hnext : cur < next ∧ next ≤ stop := by
      unfold next dayMicros
      omega
    have hcons : Covered ((cur, next) :: windowsFrom maxDays next stop) stamp ↔
        cur ≤ stamp ∧ stamp ≤ next ∨ Covered (windowsFrom maxDays next stop) stamp := by
      simp [Covered]
    rw [hcons]
    by_cases hlast : next < stop
    · rw [ih hlast]
      omega
    · rw [windowsFrom, dif_neg (by omega)]
      simp only [Covered, not_mem_nil, false_and, exists_false, or_false]
      omega
  | case2 cur hdone => exact absurd ⟨hdays, hopen⟩ hdone

theorem span_of_mem_windowsFrom (hcall : call ∈ windowsFrom maxDays cur stop) :
    call.2 - call.1 ≤ maxDays * dayMicros := by
  fun_induction windowsFrom maxDays cur stop with
  | case1 cur hmore next ih =>
    rcases mem_cons.mp hcall with rfl | hrest
    · simp only [next]
      omega
    · exact ih hrest
  | case2 cur hdone => cases hcall

theorem dateWindows_eq : dateWindows maxDays window =
    if 0 < maxDays ∧ window.1 < window.2 then windowsFrom maxDays window.1 window.2
    else [window] := by
  rw [dateWindows, windowsFrom]
  split_ifs <;> rfl

theorem covered_dateWindows :
    Covered (dateWindows maxDays window) stamp ↔ window.1 ≤ stamp ∧ stamp ≤ window.2 := by
  rw [dateWindows_eq]
  split_ifs with hopen
  · exact covered_windowsFrom hopen.1 hopen.2
  · simp [Covered]

theorem span_of_mem_dateWindows (hdays : 0 < maxDays) (hcall : call ∈ dateWindows maxDays window) :
    call.2 - call.1 ≤ maxDays * dayMicros := by
  rw [dateWindows_eq] at hcall
  split_ifs at hcall with hopen
  · exact span_of_mem_windowsFrom hcall
  · rw [mem_singleton.mp hcall]
    have hpos : 0 ≤ maxDays * dayMicros := by
      unfold dayMicros
      omega
    omega

end Windows

section Stitching

variable {bars rows : List OhlcRow} {row : OhlcRow} {seen : List ℤ}
  {windows ranges : List TimeRange}

theorem mem_of_mem_unseen (hrow : row ∈ unseen seen rows) : row ∈ rows ∧ row.stamp ∉ seen := by
  induction rows generalizing seen with
  | nil => cases hrow
  | cons first rest ih => grind [unseen]

theorem exists_mem_unseen (hrow : row ∈ rows) (hnew : row.stamp ∉ seen) :
    ∃ kept ∈ unseen seen rows, kept.stamp = row.stamp := by
  induction rows generalizing seen with
  | nil => cases hrow
  | cons first rest ih => grind [unseen]

theorem pairwise_unseen (hrows : rows.Pairwise (·.stamp ≤ ·.stamp)) :
    (unseen seen rows).Pairwise (·.stamp < ·.stamp) := by
  induction rows generalizing seen with
  | nil => exact .nil
  | cons first rest ih =>
    obtain ⟨hfst, hrest⟩ := pairwise_cons.mp hrows
    unfold unseen
    split_ifs with hseen
    · exact ih hrest
    · refine pairwise_cons.mpr ⟨fun later hlate ↦ ?_, ih hrest⟩
      obtain ⟨hmem, hnew⟩ := mem_of_mem_unseen hlate
      have hne : later.stamp ≠ first.stamp := fun heq ↦ hnew (heq ▸ mem_cons_self)
      exact lt_of_le_of_ne (hfst later hmem) hne.symm

variable (hbars : bars.Pairwise (·.stamp < ·.stamp))

include hbars

theorem stitchWindows_eq (hsame : ∀ stamp, Covered windows stamp ↔ Covered ranges stamp) :
    stitchWindows bars windows = bars.filter fun row ↦ Covered ranges row.stamp := by
  have hmem : ∀ row, row ∈ (windows.flatMap fun window ↦ within window.1 window.2
      bars).insertionSort (fun first second ↦ first.stamp ≤ second.stamp) ↔
        row ∈ bars ∧ Covered ranges row.stamp := by
    intro row
    rw [← hsame]
    simp only [within, mem_insertionSort, mem_flatMap, mem_filter, decide_eq_true_eq, Covered]
    tauto
  have : Std.Antisymm fun first second : OhlcRow ↦ first.stamp < second.stamp :=
    ⟨fun _ _ hlt hgt ↦ absurd hgt hlt.asymm⟩
  have : Std.Irrefl fun first second : OhlcRow ↦ first.stamp < second.stamp := ⟨fun _ ↦ lt_irrefl _⟩
  have : Std.Total fun first second : OhlcRow ↦ first.stamp ≤ second.stamp :=
    ⟨fun _ _ ↦ le_total _ _⟩
  have : IsTrans OhlcRow fun first second ↦ first.stamp ≤ second.stamp := ⟨fun _ _ _ ↦ le_trans⟩
  refine Pairwise.eq_of_mem_iff (pairwise_unseen (pairwise_insertionSort _ _)) (hbars.filter _)
    fun row ↦ ?_
  rw [mem_filter, decide_eq_true_eq, ← hmem]
  constructor
  · exact fun hrow ↦ (mem_of_mem_unseen hrow).1
  · intro hrow
    obtain ⟨kept, hkept, hstamp⟩ := exists_mem_unseen hrow not_mem_nil
    have hbar := (hmem kept).mp (mem_of_mem_unseen hkept).1
    have hnodup : (bars.map OhlcRow.stamp).Nodup := pairwise_map.mpr (hbars.imp ne_of_lt)
    exact inj_on_of_nodup_map hnodup hbar.1 ((hmem row).mp hrow).1 hstamp ▸ hkept

end Stitching

namespace HistoryRequest

variable {req : HistoryRequest} {bars : List OhlcRow} {windows : List TimeRange}

theorem covered_of_windows (hwins : req.windows = some windows) (stamp : ℤ) :
    Covered windows stamp ↔ Covered (req.ranges.getD [req.window]) stamp := by
  unfold HistoryRequest.windows windowsFor at hwins
  cases hranges : req.ranges with
  | some ranges =>
    rw [hranges] at hwins
    obtain rfl := Option.some.inj hwins
    have hflat : Covered (ranges.flatMap (dateWindows ((chunkCapFor req.timeframe
        req.broker).getD 0))) stamp ↔ ∃ range ∈ ranges, Covered (dateWindows ((chunkCapFor
          req.timeframe req.broker).getD 0) range) stamp := by
      simp only [Covered, mem_flatMap]
      tauto
    simp only [hflat, covered_dateWindows]
    rfl
  | none =>
    rw [hranges] at hwins
    grind [covered_dateWindows, Covered]

theorem fetch_eq (hbars : bars.Pairwise (·.stamp < ·.stamp)) :
    (req.fetch bars).toOption.getD [] =
      bars.filter fun row ↦ Covered (req.ranges.getD [req.window]) row.stamp := by
  unfold fetch
  cases hwins : req.windows with
  | some windows =>
    rw [← stitchWindows_eq hbars (covered_of_windows hwins)]
    exact getD_nonempty
  | none =>
    have hranges : req.ranges = none := by
      unfold HistoryRequest.windows windowsFor at hwins
      grind
    refine getD_nonempty.trans ?_
    simp [hranges, within, Covered]

/-- From the open to the close, `days` days later. -/
def sessions (days : ℤ) : HistoryRequest where
  broker := "dhan"
  instrumentId := "NSE:SBIN"
  timeframe := .m1
  window := (33300 * 10 ^ 6, 55800 * 10 ^ 6 + days * dayMicros)

/-- The second bar stands where the two windows of four months meet, the third after them. -/
def quarterBars : List OhlcRow :=
  [⟨33300 * 10 ^ 6, 100, 101, 99, 100, 10⟩, ⟨33300 * 10 ^ 6 + 90 * dayMicros, 102, 103, 101, 102, 20⟩,
    ⟨33300 * 10 ^ 6 + 121 * dayMicros, 104, 105, 103, 104, 30⟩]

end HistoryRequest

end Tradex.MarketData

import Mathlib.Algebra.Order.Ring.Rat
import Tradex.Domain.Timeframe
import Tradex.Foundation.StableSort

/-!
# Bulk history and plain history

The plain provider filters the minutes of a window and resamples them. The bulk provider resamples
its whole frame, filters the starts of the buckets and labels what is left as minutes. A symbol that
its list mentions twice is read twice.
-/

namespace Tradex.MarketData

open Domain

structure OhlcRow where
  stamp : ℤ
  openPrice : ℚ
  high : ℚ
  low : ℚ
  close : ℚ
  volume : ℤ
deriving DecidableEq

structure OhlcBar extends OhlcRow where
  timeframe : Timeframe
deriving DecidableEq

/-- The session minutes of each symbol, in the order of its files. -/
abbrev ParquetStorage := String → List OhlcRow

def within (start finish : ℤ) (rows : List OhlcRow) : List OhlcRow :=
  rows.filter fun row ↦ start ≤ row.stamp ∧ row.stamp ≤ finish

/-- The rows of one symbol in the answer to a read of `symbols`, which opens the files of a symbol
once for each time it is mentioned and sorts what it finds. -/
def ParquetStorage.read (store : ParquetStorage) (symbols : List String) (start finish : ℤ)
    (symbol : String) : List OhlcRow :=
  (within start finish ((symbols.filter (· = symbol)).flatMap store)).insertionSort
    fun first second ↦ first.stamp ≤ second.stamp

def toCandles (rows : List OhlcRow) : List OhlcBar := rows.map fun row ↦ ⟨row, .m1⟩

def aggregateCandles (first : OhlcRow) (rest : List OhlcRow) : OhlcRow where
  stamp := (rest.getLastD first).stamp
  openPrice := first.openPrice
  high := (rest.map OhlcRow.high).foldl max first.high
  low := (rest.map OhlcRow.low).foldl min first.low
  close := (rest.getLastD first).close
  volume := ((first :: rest).map OhlcRow.volume).sum

variable (tf : Timeframe)

def bucketStamp (row : OhlcRow) : ℤ :=
  bucketStart row.stamp tf.intervalSeconds * 1000000

def bucketRow (rows : List OhlcRow) (start : ℤ) : Option OhlcRow :=
  match rows.filter fun row ↦ bucketStamp tf row = start with
  | [] => none
  | first :: rest => some { aggregateCandles first rest with stamp := start }

def bucketize (rows : List OhlcRow) : List OhlcRow :=
  (rows.map (bucketStamp tf)).eraseDups.filterMap (bucketRow tf rows)

def ParquetMarketProvider.history (store : ParquetStorage) (symbol : String) (tf : Timeframe)
    (start finish : ℤ) : List OhlcBar :=
  if tf = .m1 then toCandles (store.read [symbol] start finish symbol)
  else (bucketize tf (store.read [symbol] start finish symbol)).map fun row ↦ ⟨row, tf⟩

structure BulkPrefetchMarketProvider where
  bySymbol : String → Option (List OhlcRow)

namespace BulkPrefetchMarketProvider

def prefetch (store : ParquetStorage) (symbols : List String) (start finish : ℤ) :
    BulkPrefetchMarketProvider where
  bySymbol symbol :=
    if symbol ∈ symbols then some (store.read symbols start finish symbol) else none

def resampledFrame (tf : Timeframe) (rows : List OhlcRow) : List OhlcRow :=
  (bucketize tf rows).insertionSort fun first second ↦ first.stamp ≤ second.stamp

def history (provider : BulkPrefetchMarketProvider) (symbol : String) (tf : Timeframe)
    (start finish : ℤ) : List OhlcBar :=
  let rows := (provider.bySymbol symbol).getD []
  toCandles (within start finish (if tf = .m1 then rows else resampledFrame tf rows))

variable {tf : Timeframe} {rows bars : List OhlcRow} {row : OhlcRow}
  {first last start finish : ℤ}

theorem exists_mem_bucketize (tf : Timeframe) (hrow : row ∈ rows) :
    ∃ bar ∈ bucketize tf rows, bar.stamp = bucketStamp tf row := by
  have hstart : bucketStamp tf row ∈ (rows.map (bucketStamp tf)).eraseDups :=
    List.mem_eraseDups.2 (List.mem_map_of_mem hrow)
  have hbkt : row ∈ rows.filter fun other ↦
      bucketStamp tf other = bucketStamp tf row := by
    simpa using hrow
  obtain ⟨first, rest, hsplit⟩ := List.exists_cons_of_ne_nil (List.ne_nil_of_mem hbkt)
  exact ⟨_, List.mem_filterMap.2 ⟨_, hstart, by rw [bucketRow, hsplit]⟩, rfl⟩

theorem stamp_of_mem_bucketize (hbar : row ∈ bucketize tf rows) :
    ∃ minute ∈ rows, bucketStamp tf minute = row.stamp := by
  obtain ⟨start, hstart, hbkt⟩ := List.mem_filterMap.1 hbar
  obtain ⟨minute, hminute, rfl⟩ := List.mem_map.1 (List.mem_eraseDups.1 hstart)
  unfold bucketRow at hbkt
  split at hbkt
  · cases hbkt
  · cases hbkt
    exact ⟨minute, hminute, rfl⟩

theorem within_eq_nil_iff :
    within start finish rows = [] ↔ ∀ row ∈ rows, ¬ (start ≤ row.stamp ∧ row.stamp ≤ finish) := by
  simp [within]

theorem within_read (store : ParquetStorage) (symbols : List String) (symbol : String)
    (hfst : first ≤ start) (hlast : finish ≤ last) :
    within start finish (store.read symbols first last symbol) =
      store.read symbols start finish symbol := by
  have : Std.Total fun first second : OhlcRow ↦ first.stamp ≤ second.stamp :=
    ⟨fun _ _ ↦ le_total _ _⟩
  have : IsTrans OhlcRow fun first second ↦ first.stamp ≤ second.stamp := ⟨fun _ _ _ ↦ le_trans⟩
  simp only [within, ParquetStorage.read, filter_insertionSort, List.filter_filter,
    ← Bool.decide_and]
  congr 2
  funext row
  rw [decide_eq_decide]
  omega

theorem mem_read (store : ParquetStorage) {symbols : List String} {symbol : String}
    (hsym : symbol ∈ symbols) :
    row ∈ store.read symbols start finish symbol ↔
      row ∈ store symbol ∧ start ≤ row.stamp ∧ row.stamp ≤ finish := by
  simp only [ParquetStorage.read, within, List.mem_insertionSort, List.mem_filter,
    List.mem_flatMap, decide_eq_true_eq]
  refine and_congr_left' ⟨?_, fun hrow ↦ ⟨symbol, ⟨hsym, rfl⟩, hrow⟩⟩
  rintro ⟨mention, ⟨-, rfl⟩, hrow⟩
  exact hrow

theorem mentions (symbols : List String) (symbol : String) :
    symbols.filter (· = symbol) = List.replicate (symbols.count symbol) symbol := by
  rw [← List.filter_beq]
  rfl

/-- A read returns each minute once for each mention of its symbol. -/
theorem length_read (store : ParquetStorage) (symbols : List String) (symbol : String) :
    (store.read symbols start finish symbol).length =
      symbols.count symbol * (within start finish (store symbol)).length := by
  rw [ParquetStorage.read, List.length_insertionSort, mentions, within, List.filter_flatMap,
    List.length_flatMap]
  simp [within]

theorem bucketize_eq_nil_iff : bucketize tf rows = [] ↔ rows = [] := by
  constructor
  · intro hnone
    refine List.eq_nil_iff_forall_not_mem.2 fun row hrow ↦ ?_
    obtain ⟨bar, hbar, _⟩ := exists_mem_bucketize tf hrow
    exact List.not_mem_nil (hnone ▸ hbar)
  · rintro rfl
    rfl

theorem within_resampledFrame_eq_nil_iff :
    within start finish (resampledFrame tf rows) = [] ↔
      ∀ row ∈ rows, ¬ (start ≤ bucketStamp tf row ∧ bucketStamp tf row ≤ finish) := by
  simp only [within_eq_nil_iff, resampledFrame, List.mem_insertionSort]
  constructor
  · intro hnone row hrow
    obtain ⟨bar, hbar, hstamp⟩ := exists_mem_bucketize tf hrow
    exact hstamp ▸ hnone bar hbar
  · intro hnone bar hbar
    obtain ⟨row, hrow, hstamp⟩ := stamp_of_mem_bucketize hbar
    exact hstamp ▸ hnone row hrow

theorem toCandles_eq_map_iff (hmins : tf ≠ .m1) :
    (toCandles bars = rows.map fun row ↦ ⟨row, tf⟩) ↔ bars = [] ∧ rows = [] := by
  cases bars <;> cases rows <;> simp [toCandles, hmins.symm]

theorem read_eq_iff (store : ParquetStorage) {symbols : List String} {symbol : String} :
    store.read symbols start finish symbol = store.read [symbol] start finish symbol ↔
      symbols.count symbol = 1 ∨ within start finish (store symbol) = [] := by
  constructor
  · intro hsame
    have hlength := congrArg List.length hsame
    rw [length_read, length_read, List.count_singleton_self] at hlength
    rcases mul_eq_mul_right_iff.1 hlength with hone | hnone
    · exact .inl hone
    · exact .inr (List.length_eq_zero_iff.1 hnone)
  · rintro (hone | hnone)
    · simp only [ParquetStorage.read, mentions, hone, List.count_singleton_self]
    · refine (List.length_eq_zero_iff.1 ?_).trans (List.length_eq_zero_iff.1 ?_).symm <;>
        simp [length_read, hnone]

/-- The bulk provider agrees with the plain one for the minutes of a symbol that is mentioned once,
and else only over a window that holds neither a minute nor the start of a bucket. -/
theorem history_eq_iff (store : ParquetStorage) {symbols : List String} {symbol : String}
    (hsym : symbol ∈ symbols) (tf : Timeframe) (hfirst : first ≤ start)
    (hlast : finish ≤ last) :
    (prefetch store symbols first last).history symbol tf start finish =
        ParquetMarketProvider.history store symbol tf start finish ↔
      if tf = .m1 then
        symbols.count symbol = 1 ∨
          ∀ row ∈ store symbol, ¬ (start ≤ row.stamp ∧ row.stamp ≤ finish)
      else
        ∀ row ∈ store symbol, first ≤ row.stamp ∧ row.stamp ≤ last →
          ¬ (start ≤ bucketStamp tf row ∧ bucketStamp tf row ≤ finish) ∧
            ¬ (start ≤ row.stamp ∧ row.stamp ≤ finish) := by
  unfold history ParquetMarketProvider.history prefetch
  simp only [if_pos hsym, Option.getD_some]
  by_cases hmins : tf = .m1
  · have hinj : Function.Injective toCandles :=
      List.map_injective_iff.2 fun first second hsame ↦ congrArg OhlcBar.toOhlcRow hsame
    simp only [if_pos hmins]
    rw [hinj.eq_iff, within_read store symbols symbol hfirst hlast, read_eq_iff, within_eq_nil_iff]
  · -- The labels differ, so the two can only agree on having nothing.
    simp only [if_neg hmins]
    rw [toCandles_eq_map_iff hmins, bucketize_eq_nil_iff, within_resampledFrame_eq_nil_iff]
    simp only [mem_read store hsym, List.eq_nil_iff_forall_not_mem,
      mem_read store (List.mem_singleton_self symbol)]
    constructor
    · rintro ⟨hstarts, hrows⟩ row hrow hin
      exact ⟨hstarts row ⟨hrow, hin⟩, fun hwin ↦ hrows row ⟨hrow, hwin⟩⟩
    · intro hnone
      refine ⟨fun row hrow ↦ (hnone row hrow.1 hrow.2).1, fun row hrow ↦ ?_⟩
      exact (hnone row hrow.1 (by omega)).2 hrow.2

def twoMinutes : ParquetStorage := fun _ ↦
  [⟨33300000000, 100, 100, 100, 100, 1⟩, ⟨33540000000, 120, 120, 120, 120, 1⟩]

theorem minutes_agree :
    (prefetch twoMinutes ["TCS", "INFY"] 0 86400000000).history "TCS" .m1 33300000000 33540000000 =
      ParquetMarketProvider.history twoMinutes "TCS" .m1 33300000000 33540000000 :=
  (history_eq_iff twoMinutes (by simp) .m1 (by decide) (by decide)).2 (.inl (by decide))

/-- The bar of five minutes up to 09:16 closes at the price of 09:19, and the minutes of a symbol
that is mentioned twice come twice. -/
theorem bar_closes_after_window :
    ((prefetch twoMinutes ["TCS"] 0 86400000000).history "TCS" .m5 33300000000 33360000000 =
        [⟨⟨33300000000, 100, 120, 100, 120, 2⟩, .m1⟩] ∧
      ParquetMarketProvider.history twoMinutes "TCS" .m5 33300000000 33360000000 =
        [⟨⟨33300000000, 100, 100, 100, 100, 1⟩, .m5⟩]) ∧
    ((prefetch twoMinutes ["TCS", "TCS"] 0 86400000000).history "TCS" .m1 0 33360000000).length = 2 ∧
      (ParquetMarketProvider.history twoMinutes "TCS" .m1 0 33360000000).length = 1 := by
  decide +kernel

end BulkPrefetchMarketProvider

end Tradex.MarketData

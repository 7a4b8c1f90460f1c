import Mathlib
import Tradex.Foundation.Outcome
import Tradex.MarketData.BulkHistory
import Tradex.MarketData.GapScan

/-!
# What the datalake holds after its writes

An upsert replaces the rows of a month file whose keys it brings. The rows of a key that one frame
repeats are all kept.
-/

namespace Tradex.MarketData

open List

structure LakeKey where
  symbol : String
  timeframe : String
  timestamp : ℤ
deriving DecidableEq

structure LakeRow where
  key : LakeKey
  openPrice : ℚ
  high : ℚ
  low : ℚ
  close : ℚ
  volume : ℤ
deriving DecidableEq

def LakeRow.valid (row : LakeRow) : Bool :=
  row.openPrice ≤ row.high ∧ row.close ≤ row.high ∧ row.low ≤ row.openPrice ∧
    row.low ≤ row.close ∧ row.low ≤ row.high ∧ 0 < row.openPrice ∧ 0 < row.high ∧ 0 < row.low ∧
      0 < row.close ∧ 0 ≤ row.volume

def prepareFrame (frame : List LakeRow) : List LakeRow :=
  frame.filter fun row ↦ row.valid && inSession row.key.timestamp

/-- The number of the month that a stamp is in. -/
structure Months where
  index : ℤ → ℤ
  mono : Monotone index

/-- The rows in the file of each symbol and month. -/
abbrev MonthFiles := String → ℤ → List LakeRow

structure LakeQuery where
  symbols : List String
  start : ℤ
  stop : ℤ
  timeframe : String

section Lake

variable (months : Months)

/-- The loop writes the file of each group once, and the groups have different files. -/
def upsert (files : MonthFiles) (frame : List LakeRow) : MonthFiles := fun symbol month ↦
  let group := (prepareFrame frame).filter fun row ↦
    row.key.symbol = symbol ∧ months.index row.key.timestamp = month
  (files symbol month).filter (fun row ↦ row.key ∉ group.map LakeRow.key) ++ group

def upserts (frames : List (List LakeRow)) : MonthFiles :=
  frames.foldl (upsert months) fun _ _ ↦ []

namespace LakeQuery

variable (query : LakeQuery)

def read (files : MonthFiles) : List LakeRow :=
  ((query.symbols.flatMap fun symbol ↦
    (span (months.index query.start) (months.index query.stop)).flatMap (files symbol)).filter
      fun row ↦ (query.start ≤ row.key.timestamp ∧ row.key.timestamp ≤ query.stop) ∧
        row.key.timeframe = query.timeframe ∧ inSession row.key.timestamp).insertionSort
          fun first second ↦ first.key.symbol < second.key.symbol ∨
            first.key.symbol = second.key.symbol ∧ first.key.timestamp ≤ second.key.timestamp

def Asks (key : LakeKey) : Prop :=
  key.symbol ∈ query.symbols ∧ (query.start ≤ key.timestamp ∧ key.timestamp ≤ query.stop) ∧
    key.timeframe = query.timeframe

instance (key : LakeKey) : Decidable (query.Asks key) := inferInstanceAs (Decidable (_ ∧ _))

end LakeQuery

end Lake

section Writes

variable (frames : List (List LakeRow)) (key : LakeKey)

def written : List LakeRow → List LakeRow := fun frame ↦
  (prepareFrame frame).filter fun row ↦ row.key = key

def lastWritten : Option LakeRow := (frames.flatMap (written key)).getLast?

/-- The rows of the key in the last frame that has some. -/
def keptRows : List LakeRow :=
  frames.foldl (fun kept frame ↦ if written key frame = [] then kept else written key frame) []

end Writes

variable {months : Months} {frames : List (List LakeRow)} {key : LakeKey} {query : LakeQuery}

theorem keptRows_concat {frame : List LakeRow} : keptRows (frames ++ [frame]) key =
    if written key frame = [] then keptRows frames key else written key frame := by
  rw [keptRows, foldl_concat]
  rfl

theorem getLast_keptRows : (keptRows frames key).getLast? = lastWritten frames key := by
  induction frames using reverseRecOn with
  | nil => rfl
  | append_singleton frames frame ih =>
    rw [lastWritten, flatMap_append, flatMap_singleton, getLast?_append, ← lastWritten, ← ih,
      keptRows_concat]
    split_ifs with hnone
    · simp [hnone]
    · obtain ⟨row, hrow⟩ := Option.isSome_iff_exists.mp (getLast?_isSome.mpr hnone)
      rw [hrow]
      rfl

theorem rows_upsert {files : MonthFiles} {frame : List LakeRow} :
    (upsert months files frame key.symbol (months.index key.timestamp)).filter (·.key = key) =
      if written key frame = [] then
        (files key.symbol (months.index key.timestamp)).filter (·.key = key)
      else written key frame := by
  have hgroup : ((prepareFrame frame).filter fun row ↦ row.key.symbol = key.symbol ∧
      months.index row.key.timestamp = months.index key.timestamp).filter (·.key = key) =
        written key frame := by
    rw [filter_filter]
    refine filter_congr fun row _ ↦ ?_
    by_cases hkey : row.key = key <;> simp [hkey]
  simp only [upsert]
  generalize (prepareFrame frame).filter _ = group at hgroup ⊢
  have hmem : key ∈ group.map LakeRow.key ↔ written key frame ≠ [] := by
    simp [← hgroup, filter_eq_nil_iff]
  rw [filter_append, hgroup, filter_filter]
  split_ifs with hnone
  · rw [hnone, append_nil]
    exact filter_congr fun row _ ↦ by grind
  · rw [filter_eq_nil_iff.mpr fun row _ ↦ by grind, nil_append]

theorem rows_upserts :
    (upserts months frames key.symbol (months.index key.timestamp)).filter (·.key = key) =
      keptRows frames key := by
  induction frames using reverseRecOn with
  | nil => rfl
  | append_singleton frames frame ih =>
    rw [upserts, foldl_concat, rows_upsert, keptRows_concat, ← ih]
    rfl

theorem filed_upserts {symbol : String} {month : ℤ} :
    ∀ row ∈ upserts months frames symbol month, row.key.symbol = symbol ∧
      months.index row.key.timestamp = month ∧ inSession row.key.timestamp = true := by
  induction frames using reverseRecOn with
  | nil => simp [upserts]
  | append_singleton frames frame ih =>
    intro row hrow
    rw [upserts, foldl_concat] at hrow
    rcases mem_append.mp hrow with hold | hnew
    · exact ih row (mem_filter.mp hold).1
    · simp only [prepareFrame, mem_filter, Bool.and_eq_true, decide_eq_true_eq] at hnew
      exact ⟨hnew.2.1, hnew.2.2, hnew.1.2.2⟩

theorem flatMap_eq_of_eq_nil {Item Output : Type} [DecidableEq Item] {items : List Item}
    (item : Item) {outputs : Item → List Output}
    (hnil : ∀ other ∈ items, other ≠ item → outputs other = []) :
    items.flatMap outputs = (replicate (items.count item) (outputs item)).flatten := by
  induction items with
  | nil => rfl
  | cons first rest ih =>
    rw [flatMap_cons, ih fun other hother ↦ hnil other (mem_cons_of_mem first hother)]
    by_cases hfst : first = item
    · rw [hfst, count_cons_self, replicate_succ, flatten_cons]
    · rw [hnil first mem_cons_self hfst, count_cons_of_ne hfst, nil_append]

theorem nodup_span {lo hi : ℤ} : (span lo hi).Nodup := nodup_range.map fun _ _ hsame ↦ by omega

theorem filter_months (hfrom : query.start ≤ key.timestamp) (hto : key.timestamp ≤ query.stop) :
    ((span (months.index query.start) (months.index query.stop)).flatMap
      (upserts months frames key.symbol)).filter (·.key = key) = keptRows frames key := by
  rw [filter_flatMap, flatMap_eq_of_eq_nil (months.index key.timestamp), rows_upserts,
    count_eq_one_of_mem nodup_span (mem_span.mpr ⟨months.mono hfrom, months.mono hto⟩)]
  · simp
  · refine fun month _ hmonth ↦ filter_eq_nil_iff.mpr fun row hrow ↦ ?_
    have hfiled := (filed_upserts row hrow).2.1
    grind

theorem filter_read :
    (query.read months (upserts months frames)).filter (·.key = key) ~
      if query.Asks key then (replicate (query.symbols.count key.symbol)
        (keptRows frames key)).flatten
      else [] := by
  refine ((perm_insertionSort _ _).filter _).trans ?_
  have hmem : ∀ row ∈ query.symbols.flatMap fun symbol ↦ (span (months.index query.start)
      (months.index query.stop)).flatMap (upserts months frames symbol),
        row.key.symbol ∈ query.symbols ∧ inSession row.key.timestamp = true := by
    intro row hrow
    obtain ⟨symbol, hsym, hrow⟩ := mem_flatMap.mp hrow
    obtain ⟨month, -, hrow⟩ := mem_flatMap.mp hrow
    obtain ⟨rfl, -, hsess⟩ := filed_upserts row hrow
    exact ⟨hsym, hsess⟩
  rw [filter_filter]
  split_ifs with hasks
  · obtain ⟨-, ⟨hfrom, hto⟩, htf⟩ := hasks
    rw [filter_congr fun row hrow ↦ show _ = decide (row.key = key) from ?_, filter_flatMap,
      flatMap_eq_of_eq_nil key.symbol, filter_months hfrom hto]
    · refine fun symbol _ hsym ↦ filter_eq_nil_iff.mpr fun row hrow ↦ ?_
      obtain ⟨month, -, hrow⟩ := mem_flatMap.mp hrow
      have hfiled := (filed_upserts row hrow).1
      grind
    · have := hmem row hrow
      grind
  · rw [filter_eq_nil_iff.mpr]
    intro row hrow
    have := hmem row hrow
    grind [LakeQuery.Asks]

/-- A read is the last-write map on its window exactly when each key is kept once and its symbol
asked once. -/
theorem read_last_write_iff (months : Months) (frames : List (List LakeRow)) (query : LakeQuery) :
    (∀ key, (query.read months (upserts months frames)).filter (·.key = key) =
        if query.Asks key then (lastWritten frames key).toList else []) ↔
      ∀ key, query.Asks key → keptRows frames key ≠ [] →
        query.symbols.count key.symbol = 1 ∧ (keptRows frames key).length = 1 := by
  refine forall_congr' fun key ↦ ?_
  have hread := @filter_read months frames key query
  rw [← getLast_keptRows]
  by_cases hasks : query.Asks key
  · simp only [hasks, if_true, true_imp_iff] at hread ⊢
    constructor
    · intro hlast hkept
      have hlen := hread.length_eq
      obtain ⟨row, hrow⟩ := Option.isSome_iff_exists.mp (getLast?_isSome.mpr hkept)
      rw [hlast, hrow] at hlen
      simpa [eq_comm (a := 1)] using hlen
    · intro hone
      by_cases hkept : keptRows frames key = []
      · rw [hkept] at hread ⊢
        exact Perm.eq_nil (by simpa using hread)
      · obtain ⟨hcount, hlen⟩ := hone hkept
        obtain ⟨row, hrow⟩ := length_eq_one_iff.mp hlen
        rw [hcount, hrow] at hread
        rw [hrow]
        exact perm_singleton.mp (by simpa using hread)
  · simp only [hasks, if_false, false_imp_iff, iff_true] at hread ⊢
    exact hread.eq_nil

def thirtyDays : Months where
  index stamp := stamp / (30 * 86400 * 10 ^ 6)
  mono _ _ := Int.ediv_le_ediv (by decide)

def openingRow (close : ℚ) : LakeRow :=
  ⟨⟨"INFY", "1m", marketOpen * minuteMicros⟩, 100, 102, 99, close, 10⟩

theorem repeated_key_read_twice :
    LakeQuery.read thirtyDays ⟨["INFY"], 0, 86400 * 10 ^ 6, "1m"⟩
        (upserts thirtyDays [[openingRow 100, openingRow 101]]) =
      [openingRow 100, openingRow 101] := by
  decide +kernel

end Tradex.MarketData

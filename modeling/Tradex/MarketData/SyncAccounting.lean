import Tradex.MarketData.LakeWrites

/-!
# What a scan asks for and what a read tells

The ranges that a scan reports are the missing minutes and no others. Two histories of writes are
told apart by a query only through the rows that they keep under its keys.
-/

namespace Tradex.MarketData

open List

/-! ## The minutes of a scan -/

def minutes (run : ℤ × ℤ) : List ℤ := span run.1 run.2

section Runs

variable {lo hi first last : ℤ} {stamps : List ℤ} {gaps : List (ℤ × ℤ)}

theorem span_concat (hle : lo ≤ hi + 1) : span lo (hi + 1) = span lo hi ++ [hi + 1] := by
  obtain ⟨count, hcount⟩ : ∃ count : ℕ, hi + 1 - lo = count := ⟨(hi + 1 - lo).toNat, by omega⟩
  have hnext : (hi + 1 + 1 - lo).toNat = count + 1 := by omega
  have hlast : lo + count = hi + 1 := by omega
  rw [span, span, hnext, hcount, Int.toNat_natCast, range_succ, map_append, map_singleton, hlast]

theorem span_self : span lo lo = [lo] := by
  simp [span]

theorem expand_runsFrom (hle : first ≤ last) :
    (runsFrom first last stamps).flatMap minutes = span first last ++ stamps := by
  induction stamps generalizing first last with
  | nil => simp [runsFrom, minutes]
  | cons stamp rest ih =>
    rw [runsFrom]
    split_ifs with hnext
    · rw [flatMap_cons, ih le_rfl, span_self, singleton_append, minutes]
    · obtain rfl : stamp = last + 1 := by omega
      rw [ih (by omega), span_concat (by omega), append_assoc, singleton_append]

theorem expand_runs : (runs stamps).flatMap minutes = stamps := by
  cases stamps with
  | nil => rfl
  | cons stamp rest => rw [runs, expand_runsFrom le_rfl, span_self, singleton_append]

theorem length_expand (hgaps : ∀ run ∈ gaps, 0 < runLength run) :
    ((gaps.flatMap minutes).length : ℤ) = (gaps.map runLength).sum := by
  induction gaps with
  | nil => rfl
  | cons run rest ih =>
    have hrun := hgaps run mem_cons_self
    rw [flatMap_cons, length_append, Nat.cast_add, ih fun run hrun ↦ hgaps run (.tail _ hrun),
      map_cons, sum_cons, minutes, span, length_map, length_range]
    unfold runLength at hrun ⊢
    omega

theorem expand_floorGaps (minGapStamps : ℤ) : ∃ small : List ℤ,
    (small.length : ℤ) = (floorGaps minGapStamps (runs stamps)).2 ∧
      (floorGaps minGapStamps (runs stamps)).1.flatMap minutes ++ small ~ stamps := by
  unfold floorGaps
  split_ifs with hfloor
  · refine ⟨_, length_expand fun run hrun ↦ runLength_pos (mem_of_mem_filter hrun), ?_⟩
    rw [← flatMap_append]
    have hsplit := filter_append_perm (fun run ↦ decide (minGapStamps ≤ runLength run)) (runs stamps)
    simp only [← decide_not, not_le] at hsplit
    exact (hsplit.flatMap_right minutes).trans (.of_eq expand_runs)
  · exact ⟨[], rfl, by rw [append_nil, expand_runs]⟩

end Runs

theorem nodup_sessionGrid {start stop : ℤ} {holidays : List ℤ} :
    (sessionGrid start stop holidays).Nodup := by
  have hdate : ∀ day, ∀ minute ∈ sessionOf start stop holidays day, date minute = day := by
    intro day minute hminute
    unfold sessionOf at hminute
    split_ifs at hminute
    · rw [mem_span] at hminute
      simp only [combine, marketOpen, marketClose, date] at hminute ⊢
      omega
    · cases hminute
  refine nodup_flatMap.mpr ⟨fun day _ ↦ ?_, nodup_span.imp fun {day other} hne ↦ ?_⟩
  · unfold sessionOf
    split_ifs
    · exact nodup_span
    · exact nodup_nil
  · exact disjoint_left.mpr fun minute hday hother ↦
      hne ((hdate day minute hday).symm.trans (hdate other minute hother))

/-- The reported gaps and the sub-threshold count are together the missing session minutes, each
once. -/
theorem scanOne_accounts {Instrument : Type} (cfg : SyncConfig) (lake : Lake)
    (symbol : Instrument → String) (start stop : ℤ) (holidays : List ℤ) (instr : Instrument) :
    let record := scanOne cfg lake symbol start stop holidays instr
    let asked := (record.elim [] SymbolScan.gaps).flatMap minutes
    ∃ small : List ℤ, (small.length : ℤ) = record.elim 0 SymbolScan.subThresholdStamps ∧
      (asked ++ small).Nodup ∧ asked ++ small ~ (missingStamps lake (symbol instr)
        (scanStart cfg lake (symbol instr) start) stop holidays).filter fun minute ↦
          !isEdge minute || (cfg.includeOpenStamps && decide (time minute = marketOpen)) := by
  unfold scanOne
  dsimp only
  split
  · rename_i hnone
    exact ⟨[], rfl, nodup_nil, by rw [hnone]; rfl⟩
  · simp only [Option.elim_some]
    generalize hmissing : missingStamps lake (symbol instr) _ stop holidays = missing
    have hnd : missing.Nodup := hmissing ▸ nodup_sessionGrid.filter _
    obtain ⟨small, hsmall, hkept⟩ := @expand_floorGaps (missing.filter (!isEdge ·)) cfg.minGapStamps
    refine ⟨small, hsmall, (and_iff_right_of_imp fun hperm ↦ hperm.nodup_iff.mpr
      (hnd.filter _)).mpr ?_⟩
    by_cases hopens : cfg.includeOpenStamps = true
    · have hedges : ∀ minute, decide (time minute = marketOpen) = true → isEdge minute = true := by
        simp +contextual [isEdge]
      have hfiltered := filter_append_perm (!isEdge ·) (missing.filter fun minute ↦
        !isEdge minute || decide (time minute = marketOpen))
      rw [filter_filter, filter_filter] at hfiltered
      simp only [hopens, if_true, Bool.true_and]
      refine .trans ?_ hfiltered
      refine (((perm_insertionSort _ _).flatMap_right _).append_right _).trans ?_
      rw [flatMap_append, expand_runs, append_assoc]
      refine (perm_append_comm.append_left _).trans ?_
      rw [← append_assoc]
      refine (hkept.append_right _).trans (.of_eq ?_)
      congr 1 <;> refine filter_congr fun minute _ ↦ ?_ <;> grind
    · simpa [hopens] using hkept

/-! ## What a query can tell of the writes -/

section Histories

variable {months : Months} {frames others : List (List LakeRow)} {key : LakeKey} {query : LakeQuery}

theorem key_of_mem_keptRows (months : Months) {row : LakeRow} (hrow : row ∈ keptRows frames key) :
    row.key = key := by
  rw [← @rows_upserts months] at hrow
  simpa using (mem_filter.mp hrow).2

theorem count_read (row : LakeRow) : (query.read months (upserts months frames)).count row =
    if query.Asks row.key then
      query.symbols.count row.key.symbol * (keptRows frames row.key).count row
    else 0 := by
  have hread := (@filter_read months frames row.key query).count_eq row
  rw [count_filter (by simp)] at hread
  rw [hread]
  split_ifs
  · rw [count_flatten, map_replicate, sum_replicate, nsmul_eq_mul, Nat.cast_id]
  · rfl

/-- Two histories of writes read alike exactly when they keep the same rows under every key asked
for. -/
theorem reads_agree_iff (months : Months) (frames others : List (List LakeRow)) (query : LakeQuery) :
    query.read months (upserts months frames) ~ query.read months (upserts months others) ↔
      ∀ key, query.Asks key → keptRows frames key ~ keptRows others key := by
  simp only [perm_iff_count, count_read]
  constructor
  · intro hsame key hasks row
    by_cases hkey : row.key = key
    · subst hkey
      have hname : 0 < query.symbols.count row.key.symbol := count_pos_iff.mpr hasks.1
      simpa [hasks, hname.ne'] using hsame row
    · rw [count_eq_zero_of_not_mem (mt (key_of_mem_keptRows months) hkey),
        count_eq_zero_of_not_mem (mt (key_of_mem_keptRows months) hkey)]
  · intro hkept row
    split_ifs with hasks
    · rw [hkept row.key hasks row]
    · rfl

end Histories

end Tradex.MarketData

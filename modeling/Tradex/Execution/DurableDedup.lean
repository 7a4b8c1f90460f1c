import Mathlib.Data.List.DropRight
import Tradex.Execution.Idempotency

/-!
# Fill deduplication over a durable store

The cache takes a fingerprint before the store does, and keeps it when the store's insert raises.
-/

namespace Tradex.Execution

open Tradex.Domain List

namespace FillDedup

/-- The distinct fingerprints in the order of their last use. -/
def lastUses (keys : List Fingerprint) : List Fingerprint :=
  keys.foldl (fun used key ↦ used.filter (· ≠ key) ++ [key]) []

def recent (maxSize : ℕ) (keys : List Fingerprint) : FillDedup :=
  ⟨(lastUses keys).rtake maxSize, maxSize⟩

variable {keys items : List Fingerprint} {key : Fingerprint} {maxSize : ℕ}

theorem lastUses_concat : lastUses (keys ++ [key]) = (lastUses keys).filter (· ≠ key) ++ [key] := by
  simp [lastUses]

theorem nodup_lastUses : (lastUses keys).Nodup := by
  induction keys using reverseRecOn with
  | nil => exact nodup_nil
  | append_singleton keys key ih =>
    rw [lastUses_concat, ← concat_eq_append]
    apply (ih.filter _).concat
    simp

theorem mem_lastUses : key ∈ lastUses keys ↔ key ∈ keys := by
  induction keys using reverseRecOn with
  | nil => rfl
  | append_singleton keys last ih =>
    rw [lastUses_concat]
    grind

theorem filter_ne_of_notMem (hkey : key ∉ items) : items.filter (· ≠ key) = items :=
  filter_eq_self.2 (by grind)

theorem length_filter_ne (hnd : items.Nodup) (hkey : key ∈ items) :
    (items.filter (· ≠ key)).length + 1 = items.length := by
  have herase : items.erase key = items.filter (· ≠ key) := by
    rw [hnd.erase_eq_filter]
    grind
  rw [← herase, length_erase_add_one hkey]

/-- A hit moves one key of the cache to its end, a miss moves the cache by one place. -/
theorem checkAndRecord_recent {fill : Fill} :
    ((recent maxSize keys).checkAndRecord fill).2 =
      recent maxSize (keys ++ [fingerprint fill]) := by
  have hnd : (lastUses keys).Nodup := nodup_lastUses
  unfold recent checkAndRecord
  rw [lastUses_concat]
  generalize hlru : (lastUses keys).rtake maxSize = lru
  obtain ⟨older, holder⟩ : ∃ older, lastUses keys = older ++ lru :=
    ⟨_, by rw [← hlru, rtake]; exact (take_append_drop _ _).symm⟩
  have hlen : lru.length = min maxSize (older.length + lru.length) := by
    rw [← length_append, ← holder, ← hlru, rtake, length_drop]
    omega
  rw [holder] at hnd ⊢
  rw [rtake]
  by_cases hkey : fingerprint fill ∈ lru
  · have hpast : fingerprint fill ∉ older := fun h ↦ disjoint_of_nodup_append hnd h hkey
    have hsame := length_filter_ne hnd.of_append_right hkey
    rw [if_pos hkey, filter_append, filter_ne_of_notMem hpast, append_assoc, drop_left' (by grind)]
    rfl
  · rw [if_neg hkey, filter_append, filter_ne_of_notMem hkey, append_assoc]
    generalize hfront : older.filter (· ≠ fingerprint fill) = front
    dsimp only
    split
    next hfull =>
      have hmore : (front ++ (lru ++ [fingerprint fill])).length - maxSize = front.length + 1 := by
        grind
      rw [hmore, drop_length_add_append, drop_one]
    next hroom =>
      have hnone : older = [] := eq_nil_of_length_eq_zero (by grind)
      rw [← hfront, hnone, filter_nil, nil_append]
      grind

end FillDedup

/-- `store` lists the fingerprints of the account's table; backtest and paper have none. -/
structure DurableFillDedup where
  lru : FillDedup
  store : Option (List Fingerprint)
deriving DecidableEq

/-- A call, with what the insert raises should it be reached. -/
structure DedupCall where
  fill : Fill
  raises : Option String := none

namespace DurableFillDedup

open FillDedup

def checkAndRecord (dedup : DurableFillDedup) (call : DedupCall) :
    Except String Bool × DurableFillDedup :=
  match dedup.lru.checkAndRecord call.fill with
  | (true, lru) => (.ok true, { dedup with lru := lru })
  | (false, lru) =>
    match dedup.store, call.raises with
    | none, _ => (.ok false, ⟨lru, none⟩)
    | some rows, some err => (.error err, ⟨lru, some rows⟩)
    | some rows, none =>
      (.ok (decide (fingerprint call.fill ∈ rows)), ⟨lru, some (rows.insert (fingerprint call.fill))⟩)

def new (maxSize : ℕ) (store : Option (List Fingerprint)) : DurableFillDedup :=
  ⟨⟨[], maxSize⟩, store⟩

def after (dedup : DurableFillDedup) (calls : List DedupCall) : DurableFillDedup :=
  calls.foldl (fun dedup call ↦ (dedup.checkAndRecord call).2) dedup

def keysOf (calls : List DedupCall) : List Fingerprint :=
  calls.map fun call ↦ fingerprint call.fill

variable {maxSize : ℕ} {store : Option (List Fingerprint)} {calls : List DedupCall}
  {dedup : DurableFillDedup} {call : DedupCall}

theorem checkAndRecord_of_mem (hkey : fingerprint call.fill ∈ dedup.lru.lru) :
    dedup.checkAndRecord call =
      (.ok true, { dedup with lru := (dedup.lru.checkAndRecord call.fill).2 }) := by
  unfold checkAndRecord FillDedup.checkAndRecord
  rw [if_pos hkey]

theorem checkAndRecord_of_notMem (hkey : fingerprint call.fill ∉ dedup.lru.lru) :
    dedup.checkAndRecord call =
      match dedup.store, call.raises with
      | none, _ => (.ok false, ⟨(dedup.lru.checkAndRecord call.fill).2, none⟩)
      | some rows, some err => (.error err, ⟨(dedup.lru.checkAndRecord call.fill).2, some rows⟩)
      | some rows, none => (.ok (decide (fingerprint call.fill ∈ rows)),
          ⟨(dedup.lru.checkAndRecord call.fill).2, some (rows.insert (fingerprint call.fill))⟩) := by
  unfold checkAndRecord FillDedup.checkAndRecord
  rw [if_neg hkey]

theorem lru_checkAndRecord :
    (dedup.checkAndRecord call).2.lru = (dedup.lru.checkAndRecord call.fill).2 := by
  by_cases hkey : fingerprint call.fill ∈ dedup.lru.lru
  · rw [checkAndRecord_of_mem hkey]
  · rw [checkAndRecord_of_notMem hkey]
    split <;> rfl

theorem lru_after : ((new maxSize store).after calls).lru = recent maxSize (keysOf calls) := by
  induction calls using reverseRecOn with
  | nil => simp [after, new, keysOf, lastUses, recent]
  | append_singleton calls call ih =>
    rw [after, foldl_concat, ← after, lru_checkAndRecord, ih, checkAndRecord_recent, keysOf, keysOf,
      map_append, map_singleton]

/-- A key that the cache holds has been offered to the store before. -/
theorem store_after (hok : ∀ call ∈ calls, call.raises = none) :
    (((new maxSize store).after calls).store = none ↔ store = none) ∧
      ∀ key, (∃ rows ∈ ((new maxSize store).after calls).store, key ∈ rows) ↔
        ∃ rows ∈ store, key ∈ rows ∨ key ∈ keysOf calls := by
  induction calls using reverseRecOn with
  | nil => simp [after, new, keysOf]
  | append_singleton calls call ih =>
    have hlru := (lru_after : ((new maxSize store).after calls).lru = _)
    have hcall : call.raises = none := hok call (by simp)
    have hkeys : keysOf (calls ++ [call]) = keysOf calls ++ [fingerprint call.fill] := by
      simp [keysOf]
    have ih := ih (by grind)
    rw [after, foldl_concat, ← after, hkeys]
    generalize (new maxSize store).after calls = dedup at *
    by_cases hkey : fingerprint call.fill ∈ dedup.lru.lru
    · have hheld := mem_lastUses.1 (mem_of_mem_drop (hlru ▸ hkey))
      have hsame : ∀ key, key ∈ keysOf calls ++ [fingerprint call.fill] ↔ key ∈ keysOf calls := by
        grind
      rw [checkAndRecord_of_mem hkey]
      simpa only [hsame] using ih
    · rw [checkAndRecord_of_notMem hkey, hcall]
      cases hrows : dedup.store <;> cases store <;> simp [hrows] at ih ⊢
      grind

theorem fst_retry {fill retry : Fill} {err : String}
    (hlru : dedup.lru = recent maxSize (keysOf calls))
    (hraise : (dedup.checkAndRecord ⟨fill, some err⟩).1 = .error err)
    (hsame : fingerprint retry = fingerprint fill) :
    (((dedup.checkAndRecord ⟨fill, some err⟩).2.checkAndRecord ⟨retry, none⟩).1 = .ok false ↔
      maxSize = 0 ∧ ∀ rows ∈ dedup.store, fingerprint fill ∉ rows) := by
  have hkey : fingerprint fill ∉ dedup.lru.lru := by
    intro hkey
    rw [checkAndRecord_of_mem hkey] at hraise
    cases hraise
  have hkept : (dedup.lru.checkAndRecord fill).2.lru =
      ((lastUses (keysOf calls)).filter (· ≠ fingerprint fill) ++ [fingerprint fill]).rtake
        maxSize := by
    rw [hlru, checkAndRecord_recent, recent, lastUses_concat]
  have hstep := @checkAndRecord_of_notMem dedup ⟨fill, some err⟩ hkey
  cases hrows : dedup.store with
  | none =>
    rw [hstep, hrows] at hraise
    cases hraise
  | some rows =>
    rw [hstep, hrows]
    cases maxSize with
    | zero =>
      rw [rtake_zero] at hkept
      rw [checkAndRecord_of_notMem (by simp [hkept])]
      simp [hsame]
    | succ size =>
      rw [rtake_concat_succ] at hkept
      rw [checkAndRecord_of_mem (by simp [hkept, hsame])]
      simp

/-- After an insert that raised the fill counts as seen; otherwise the answers are those of the
table and the last uses. -/
theorem dedup_atomic_iff (maxSize : ℕ) (store : Option (List Fingerprint)) (calls : List DedupCall)
    (fill retry : Fill) :
    (∀ err, (((new maxSize store).after calls).checkAndRecord ⟨fill, some err⟩).1 =
        .error err → fingerprint retry = fingerprint fill →
      (((((new maxSize store).after calls).checkAndRecord ⟨fill, some err⟩).2.checkAndRecord
          ⟨retry, none⟩).1 = .ok false ↔
        maxSize = 0 ∧
          ∀ rows ∈ ((new maxSize store).after calls).store, fingerprint fill ∉ rows)) ∧
    ((∀ call ∈ calls, call.raises = none) →
      ((((new maxSize store).after calls).checkAndRecord ⟨fill, none⟩).1 = .ok true ↔
        (∃ rows ∈ store, fingerprint fill ∈ rows ∨ fingerprint fill ∈ keysOf calls) ∨
          fingerprint fill ∈ (lastUses (keysOf calls)).rtake maxSize)) := by
  have hlru := (lru_after : ((new maxSize store).after calls).lru = _)
  refine ⟨fun err ↦ fst_retry hlru, fun hok ↦ ?_⟩
  obtain ⟨hnone, hrows⟩ := (store_after hok : (((new maxSize store).after calls).store = none ↔ _) ∧ _)
  rw [← hrows]
  change _ ↔ _ ∨ fingerprint fill ∈ (recent maxSize (keysOf calls)).lru
  rw [← hlru]
  generalize (new maxSize store).after calls = dedup at *
  by_cases hkey : fingerprint fill ∈ dedup.lru.lru
  · rw [checkAndRecord_of_mem hkey]
    grind
  · rw [checkAndRecord_of_notMem hkey]
    cases hstore : dedup.store <;> grind

def lockedOut : Fill where
  orderId := "order-1"
  instrument := ⟨"NSE:INFY"⟩
  side := .buy
  quantity := 10
  price := .ofNat 100

theorem fill_lost_to_locked_database :
    let first := (new 50000 (some [])).checkAndRecord ⟨lockedOut, some "database is locked"⟩
    first.1 = .error "database is locked" ∧
      (first.2.checkAndRecord ⟨lockedOut, none⟩).1 = .ok true := by
  decide +kernel

/-! ## Restarts -/

/-- What the fills of one process are answered, and the rows that survive it. -/
def serve : DurableFillDedup → List Fill → List (Except String Bool) × Option (List Fingerprint)
  | dedup, [] => ([], dedup.store)
  | dedup, fill :: rest =>
    let ans := dedup.checkAndRecord ⟨fill, none⟩
    ((ans.1 :: (serve ans.2 rest).1), (serve ans.2 rest).2)

/-- Processes that follow each other over one store, each with an empty cache of its own size. -/
def serveAcross : Option (List Fingerprint) → List (ℕ × List Fill) → List (Except String Bool)
  | _, [] => []
  | store, (maxSize, fills) :: rest =>
    let served := serve (new maxSize store) fills
    served.1 ++ serveAcross served.2 rest

/-- The answers of the table alone. -/
def plainAnswers : List Fingerprint → List Fill → List (Except String Bool)
  | _, [] => []
  | rows, fill :: rest =>
    .ok (decide (fingerprint fill ∈ rows)) :: plainAnswers (rows.insert (fingerprint fill)) rest

variable {rows : List Fingerprint}

theorem checkAndRecord_backed (hstore : dedup.store = some rows) (hback : dedup.lru.lru ⊆ rows)
    (fill : Fill) : ∃ lru : FillDedup, lru.lru ⊆ rows.insert (fingerprint fill) ∧
      dedup.checkAndRecord ⟨fill, none⟩ = (.ok (decide (fingerprint fill ∈ rows)),
        ⟨lru, some (rows.insert (fingerprint fill))⟩) := by
  refine ⟨(dedup.lru.checkAndRecord fill).2, ?_, ?_⟩
  · intro key hkey
    rcases FillDedup.of_mem_checkAndRecord hkey with hold | rfl
    · exact mem_insert_of_mem (hback hold)
    · exact mem_insert_self
  · by_cases hkey : fingerprint fill ∈ dedup.lru.lru
    · rw [checkAndRecord_of_mem hkey]
      simp [hback hkey, hstore]
    · rw [checkAndRecord_of_notMem hkey, hstore]

theorem serve_backed (hstore : dedup.store = some rows) (hback : dedup.lru.lru ⊆ rows)
    (fills more : List Fill) : ∃ kept, (dedup.serve fills).2 = some kept ∧
      (dedup.serve fills).1 ++ plainAnswers kept more = plainAnswers rows (fills ++ more) := by
  induction fills generalizing dedup rows with
  | nil => exact ⟨rows, hstore, rfl⟩
  | cons fill rest ih =>
    obtain ⟨lru, hlru, hans⟩ := checkAndRecord_backed hstore hback fill
    obtain ⟨kept, hkept, hrest⟩ := @ih ⟨lru, _⟩ _ rfl hlru
    refine ⟨kept, ?_, ?_⟩
    · simp only [serve, hans, hkept]
    · simp only [serve, hans, cons_append, hrest, plainAnswers]

/-- Evictions and restarts never change an answer of the durable deduplication. -/
theorem serveAcross_eq (rows : List Fingerprint) (processes : List (ℕ × List Fill)) :
    serveAcross (some rows) processes = plainAnswers rows (processes.flatMap Prod.snd) := by
  induction processes generalizing rows with
  | nil => rfl
  | cons process rest ih =>
    obtain ⟨maxSize, fills⟩ := process
    obtain ⟨kept, hkept, hserve⟩ := @serve_backed (new maxSize (some rows)) rows rfl
      (nil_subset _) fills (rest.flatMap Prod.snd)
    rw [serveAcross, hkept, ih, hserve, flatMap_cons]

end DurableFillDedup

end Tradex.Execution

import Tradex.Execution.TamperEvidence

/-!
# Migrating a log that carries no digests

Each digest column is durable once it is added, the digests of the rows at the commit. A table that
has both columns is taken for a migrated one.
-/

namespace Tradex.Execution.EventStore

open List

structure EventTable where
  columns : List String
  rows : List EventRow

def addColumn (column : String) (table : EventTable) : EventTable :=
  { table with columns := table.columns ++ [column] }

variable (sha : Sha256)

def backfill : String → List EventRow → List EventRow
  | _, [] => []
  | prev, row :: rest =>
    if row.eventHash ≠ none ∧ row.prevHash = some prev then
      row :: backfill (row.eventHash.getD prev) rest
    else
      let prevValue := row.prevHash.getD prev
      let digest := rowHash sha row prevValue
      { row with prevHash := some prevValue, eventHash := some digest } :: backfill digest rest

variable (table : EventTable)

def chainColumns : List String := ["prev_hash", "event_hash"]

/-- The durable changes, in order. -/
def migrateLegacyRows : List (EventTable → EventTable) :=
  if ∀ column ∈ chainColumns, column ∈ table.columns then []
  else
    -- The updates of the rows are one transaction.
    (chainColumns.filter (· ∉ table.columns)).map addColumn ++
      [fun table ↦ { table with rows := backfill sha genesisHash table.rows }]

def crashed (changes : ℕ) : EventTable :=
  ((migrateLegacyRows sha table).take changes).foldl (fun table change ↦ change table) table

def reopened : EventTable :=
  (migrateLegacyRows sha table).foldl (fun table change ↦ change table) table

variable {sha table} {Event : Type} {store : Store Event} {events : List Event}

theorem rows_reopened (hmiss : ¬∀ column ∈ chainColumns, column ∈ table.columns) :
    (reopened sha table).rows = backfill sha genesisHash table.rows := by
  have hcols : ∀ (names : List String) (table : EventTable),
      ((names.map addColumn).foldl (fun table change ↦ change table) table).rows = table.rows := by
    intro names
    induction names with
    | nil => exact fun _ ↦ rfl
    | cons name names ih => exact fun table ↦ ih _
  rw [reopened, migrateLegacyRows, if_neg hmiss, foldl_append]
  exact congrArg (backfill sha genesisHash) (hcols _ table)

theorem reopened_of_columns (hcols : ∀ column ∈ chainColumns, column ∈ table.columns) :
    reopened sha table = table := by
  rw [reopened, migrateLegacyRows, if_pos hcols]
  rfl

theorem replay_backfill {rows : List EventRow} {prev : String} {previousHash : Option String}
    (hprevious : ∀ hash ∈ previousHash, prev = hash)
    (hraw : ∀ row ∈ rows, row.prevHash = none ∧ row.eventHash = none)
    (hdec : rows.map (decodeRow store) = events.map .ok) :
    replayFrom store "*" none previousHash (backfill store.sha prev rows) = .ok events := by
  induction rows generalizing prev previousHash events with
  | nil =>
    cases events with
    | nil => rfl
    | cons ev events => cases hdec
  | cons row rest ih =>
    cases events with
    | nil => cases hdec
    | cons ev events =>
      obtain ⟨⟨hprev, hown⟩, hrest⟩ := forall_mem_cons.mp hraw
      obtain ⟨hev, hevs⟩ := cons.inj hdec
      rw [backfill, if_neg (fun hhashed ↦ hhashed.1 hown), hprev]
      refine replayFrom_cons_eq_ok.mpr ⟨_, events, verifyRow_eq_ok.mpr ⟨rfl, ?_, ?_⟩,
        ih (by rintro _ ⟨⟩; rfl) hrest hevs, ?_⟩
      · exact ⟨prev, _, rfl, rfl, fun _ ↦ rfl⟩
      · exact fun hash hhash ↦ congrArg some (hprevious hash hhash)
      · exact ⟨ev, hev, rfl⟩

/-- A migration that crashed loses events exactly when both columns were added and no row was
updated. -/
theorem legacy_events_survive_iff (hcols : ∀ column ∈ chainColumns, column ∉ table.columns)
    (hraw : ∀ row ∈ table.rows, row.prevHash = none ∧ row.eventHash = none)
    (hdec : table.rows.map (decodeRow store) = events.map .ok) (changes : ℕ) :
    replay store (reopened store.sha (crashed store.sha table changes)).rows "*" none = .ok events ↔
      changes ≠ 2 ∨ table.rows = [] := by
  have hfilled : ∀ {rows}, rows = backfill store.sha genesisHash table.rows →
      replay store rows "*" none = .ok events := by
    rintro _ rfl
    exact replay_backfill nofun hraw hdec
  have hmissing : ¬∀ column ∈ chainColumns, column ∈ table.columns :=
    fun hall ↦ hcols "prev_hash" (by decide) (hall _ (by decide))
  have hchanges : chainColumns.filter (· ∉ table.columns) = chainColumns :=
    filter_eq_self.mpr fun column hcolumn ↦ decide_eq_true (hcols column hcolumn)
  rw [crashed, migrateLegacyRows, if_neg hmissing, hchanges]
  rcases changes with _ | _ | _ | changes
  · exact iff_of_true (hfilled (rows_reopened hmissing)) (.inl (by decide))
  · refine iff_of_true (hfilled (rows_reopened fun hall ↦ ?_)) (.inl (by decide))
    have hmem : "event_hash" ∈ table.columns ++ ["prev_hash"] := hall "event_hash" (by decide)
    exact hcols "event_hash" (by decide) (by simpa using hmem)
  · rw [reopened_of_columns (by simp [chainColumns, addColumn])]
    constructor
    · intro hrep
      refine .inr (eq_nil_iff_forall_not_mem.mpr fun row hrow ↦ ?_)
      obtain ⟨prevHash, eventHash, hprev, -⟩ := (replayFrom_eq_ok.mp hrep).1 row hrow
      cases hprev.symm.trans (hraw row hrow).1
    · intro hempty
      have hrows := hempty.resolve_left fun hne ↦ hne rfl
      apply hfilled
      change table.rows = _
      rw [hrows]
      rfl
  · refine iff_of_true (hfilled ?_) (.inl (by omega))
    rw [reopened_of_columns (by simp [chainColumns, addColumn])]
    simp [chainColumns, addColumn]

def legacyTable : EventTable where
  columns := ["sequence", "stream_id", "event_type", "event_id", "correlation_id", "payload",
    "created_at", "schema_version"]
  rows := [⟨1, "orders", "OrderFilled", "", none, "QQ==", "", 1, none, none⟩]

theorem interrupted_migration_unreadable :
    replay flagStore (reopened escapingSha (crashed escapingSha legacyTable 2)).rows "*" none =
      .error (.unhashed 1) := by
  decide +kernel

theorem half_migrated_recovered :
    replay flagStore (reopened escapingSha (crashed escapingSha legacyTable 1)).rows "*" none =
      .ok [true] :=
  (legacy_events_survive_iff (by decide) (by decide) (by decide +kernel) 1).mpr (.inl (by decide))

end Tradex.Execution.EventStore

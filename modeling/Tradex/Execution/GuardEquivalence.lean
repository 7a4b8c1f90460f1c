import Tradex.Execution.Idempotency

/-!
# The durable guard and the in-memory guard

The SQLite guard keeps one row per key, and a result is pickled and read back through an allow-list
without `uuid.UUID`.
-/

namespace Tradex.Execution

open Tradex.Domain MemoryIdempotencyGuard

inductive RowStatus where
  | reserved
  | completed
deriving DecidableEq

structure IdempotencyRow where
  status : RowStatus
  result : Option IdempotencyResult
  requestHash : Option String
deriving DecidableEq

abbrev SQLiteIdempotencyGuard := Dict String IdempotencyRow

def IdempotencyResult.decodable : IdempotencyResult → Bool
  | .receipt _ => true
  | .order recorded =>
    match recorded.correlationId with
    | some (.uuid _) => false
    | _ => true

namespace SQLiteIdempotencyGuard

def replay (key : String) (res : Option IdempotencyResult) : Except TradingError Reservation :=
  match res with
  | none => .error (.runtime ("idempotency key " ++ key ++
      " is completed without a durable result; refusing to submit or replay"))
  | some res =>
    if res.decodable then .ok (.duplicate res)
    else .error (.runtime ("idempotency key " ++ key ++
      " holds an unserializable result; refusing to replay"))

variable (guard : SQLiteIdempotencyGuard)

def checkAndReserve (cid : CorrelationId)
    (requestHash : Option String) : Except TradingError Reservation × SQLiteIdempotencyGuard :=
  let key := cid.key
  match guard.get key with
  | none => (.ok .fresh, guard.set key ⟨.reserved, none, requestHash⟩)
  | some row =>
    if hashMismatch row.requestHash requestHash then (.error (reuseMismatchError key), guard)
    else
      match row.status with
      | .completed => (replay key row.result, guard)
      | .reserved => (.error (.idempotencyInflight ("idempotency key " ++ key ++
          " is reserved but incomplete (crash between reserve and record?) — refusing to " ++
          "duplicate-submit; release() or reconcile manually")), guard)

def recordResult (cid : CorrelationId)
    (res : IdempotencyResult) : SQLiteIdempotencyGuard :=
  match guard.get cid.key with
  | none => guard
  | some row => guard.set cid.key { row with status := .completed, result := some res }

def release (cid : CorrelationId) : SQLiteIdempotencyGuard :=
  match guard.get cid.key with
  | some ⟨.reserved, _, _⟩ => guard.erase cid.key
  | _ => guard

end SQLiteIdempotencyGuard

namespace GuardEquivalence

inductive GuardCall where
  | checkAndReserve (correlationId : CorrelationId) (requestHash : Option String)
  | recordResult (correlationId : CorrelationId) (result : IdempotencyResult)
  | release (correlationId : CorrelationId)

inductive Outcome where
  | fresh
  | replayed (result : IdempotencyResult)
  | inflight
  | reuseMismatch
  | refused
  | done
deriving DecidableEq

def outcomeOf : Except TradingError Reservation → Outcome
  | .ok .fresh => .fresh
  | .ok (.duplicate res) => .replayed res
  | .error (.idempotencyInflight _) => .inflight
  | .error (.idempotencyKeyReuseMismatch _) => .reuseMismatch
  | .error _ => .refused

variable (guard : MemoryIdempotencyGuard)

def memoryStep : GuardCall → Outcome × MemoryIdempotencyGuard
  | .checkAndReserve cid requestHash =>
    let ans := guard.checkAndReserve cid requestHash
    (outcomeOf ans.1, ans.2)
  | .recordResult cid res => (.done, guard.recordResult cid res)
  | .release cid => (.done, guard.release cid)

def sqliteStep (guard : SQLiteIdempotencyGuard) : GuardCall → Outcome × SQLiteIdempotencyGuard
  | .checkAndReserve cid requestHash =>
    let ans := SQLiteIdempotencyGuard.checkAndReserve guard cid requestHash
    (outcomeOf ans.1, ans.2)
  | .recordResult cid res => (.done, SQLiteIdempotencyGuard.recordResult guard cid res)
  | .release cid => (.done, SQLiteIdempotencyGuard.release guard cid)

def outcomes {Guard : Type} (step : Guard → GuardCall → Outcome × Guard) (guard : Guard) :
    List GuardCall → List Outcome
  | [] => []
  | call :: rest => (step guard call).1 :: outcomes step (step guard call).2 rest

def Recordable : GuardCall → Prop
  | .recordResult cid res =>
    (cid.key ∈ guard.reserved ∨ (guard.completed.get cid.key).isSome) ∧
      res.decodable = true
  | _ => True

def AllRecordable (guard : MemoryIdempotencyGuard) : List GuardCall → Prop
  | [] => True
  | call :: rest => Recordable guard call ∧ AllRecordable (memoryStep guard call).2 rest

def rowOf (key : String) : Option IdempotencyRow :=
  match guard.completed.get key with
  | some res => some ⟨.completed, some res, guard.completedHash.get key⟩
  | none => if key ∈ guard.reserved then some ⟨.reserved, none, guard.pendingHash.get key⟩ else none

structure Represents (guard : MemoryIdempotencyGuard) (table : SQLiteIdempotencyGuard) : Prop where
  row : ∀ key, table.get key = rowOf guard key
  pending : ∀ key, key ∉ guard.reserved → guard.pendingHash.get key = none
  bound : ∀ key, guard.completed.get key = none → guard.completedHash.get key = none
  disjoint : ∀ key, key ∈ guard.reserved → guard.completed.get key = none
  decodable : ∀ key result, guard.completed.get key = some result → result.decodable = true

section Step

variable {guard : MemoryIdempotencyGuard} {table : SQLiteIdempotencyGuard}
  (hrep : Represents guard table)

include hrep

variable {key : String} {requestHash : Option String} {cid : CorrelationId}

theorem represents_reserve (hfree : key ∉ guard.reserved) (hopen : guard.completed.get key = none) :
    Represents (guard.reserve key requestHash) (table.set key ⟨.reserved, none, requestHash⟩) where
  row := by
    intro other
    by_cases heq : key = other
    · subst heq
      cases requestHash <;> simp [rowOf, reserve, hopen, hrep.pending _ hfree]
    · have hother : (other ∈ insert key guard.reserved) ↔ other ∈ guard.reserved := by
        simp [Ne.symm heq]
      cases requestHash <;> simp [rowOf, reserve, heq, hother, hrep.row other, Dict.get_set]
  pending := by
    intro other hother
    simp only [reserve, Finset.mem_insert, not_or] at hother
    cases requestHash with
    | none => exact hrep.pending other hother.2
    | some hash => exact (Dict.get_set_of_ne (Ne.symm hother.1)).trans (hrep.pending other hother.2)
  bound := hrep.bound
  disjoint := by
    intro other hother
    rcases Finset.mem_insert.1 hother with rfl | hold
    · exact hopen
    · exact hrep.disjoint other hold
  decodable := hrep.decodable

theorem checkAndReserve_agree :
    outcomeOf (SQLiteIdempotencyGuard.checkAndReserve table cid requestHash).1 =
        outcomeOf (guard.checkAndReserve cid requestHash).1 ∧
      Represents (guard.checkAndReserve cid requestHash).2
        (SQLiteIdempotencyGuard.checkAndReserve table cid requestHash).2 := by
  have hrow := hrep.row cid.key
  unfold rowOf at hrow
  unfold SQLiteIdempotencyGuard.checkAndReserve checkAndReserve
  cases hcompl : guard.completed.get cid.key with
  | some res =>
    have hread := hrep.decodable _ _ hcompl
    simp only [hrow, hcompl]
    cases hashMismatch (guard.completedHash.get cid.key) requestHash with
    | true => exact ⟨rfl, hrep⟩
    | false => exact ⟨by simp [SQLiteIdempotencyGuard.replay, hread], hrep⟩
  | none =>
    by_cases hresv : cid.key ∈ guard.reserved
    · simp only [hrow, hcompl, if_pos hresv]
      cases hashMismatch (guard.pendingHash.get cid.key) requestHash with
      | true | false => exact ⟨rfl, hrep⟩
    · simp only [hrow, hcompl, if_neg hresv]
      exact ⟨trivial, represents_reserve hrep hresv hcompl⟩

theorem exists_row_of_known (hknown : key ∈ guard.reserved ∨ (guard.completed.get key).isSome) :
    ∃ row, table.get key = some row := by
  rw [hrep.row, rowOf]
  cases hcompl : guard.completed.get key with
  | some res => exact ⟨_, rfl⟩
  | none =>
    have hresv : key ∈ guard.reserved := by simpa [hcompl] using hknown
    exact ⟨_, if_pos hresv⟩

theorem requestHash_row {row : IdempotencyRow} (hrow : table.get key = some row) :
    row.requestHash = (guard.pendingHash.get key).or (guard.completedHash.get key) := by
  rw [hrep.row, rowOf] at hrow
  cases hcompl : guard.completed.get key with
  | some prev =>
    have hfree : key ∉ guard.reserved := by
      intro hresv
      rw [hrep.disjoint _ hresv] at hcompl
      cases hcompl
    rw [hcompl] at hrow
    cases hrow
    simp [hrep.pending _ hfree]
  | none =>
    simp only [hcompl] at hrow
    split at hrow
    · cases hrow
      simp [hrep.bound _ hcompl]
    · cases hrow

theorem represents_recordResult {res : IdempotencyResult}
    (hknown : cid.key ∈ guard.reserved ∨ (guard.completed.get cid.key).isSome)
    (hdecodable : res.decodable = true) :
    Represents (guard.recordResult cid res)
      (SQLiteIdempotencyGuard.recordResult table cid res) := by
  obtain ⟨row, hrow⟩ := exists_row_of_known hrep hknown
  have hhash := requestHash_row hrep hrow
  constructor
  case row =>
    intro other
    simp only [SQLiteIdempotencyGuard.recordResult, hrow, Dict.get_set, rowOf,
      get_completed_recordResult, get_completedHash_recordResult, get_pendingHash_recordResult,
      mem_reserved_recordResult]
    by_cases heq : cid.key = other
    · subst heq
      simp [hhash]
    · simp [if_neg heq, hrep.row other, rowOf, Ne.symm heq]
  case pending =>
    intro other hother
    rw [get_pendingHash_recordResult]
    split
    · rfl
    · rename_i hne
      refine hrep.pending other fun hmem ↦ hother ?_
      exact (mem_reserved_recordResult ..).2 ⟨Ne.symm hne, hmem⟩
  case bound =>
    intro other hother
    rw [get_completed_recordResult] at hother
    rw [get_completedHash_recordResult]
    split at hother
    · cases hother
    · rename_i hne
      rw [if_neg hne]
      exact hrep.bound other hother
  case disjoint =>
    intro other hother
    obtain ⟨hne, hmem⟩ := (mem_reserved_recordResult ..).1 hother
    rw [get_completed_recordResult, if_neg (Ne.symm hne)]
    exact hrep.disjoint other hmem
  case decodable =>
    intro other stored hstore
    rw [get_completed_recordResult] at hstore
    split at hstore
    · cases hstore
      exact hdecodable
    · exact hrep.decodable other stored hstore

theorem get_release {other : String} :
    (SQLiteIdempotencyGuard.release table cid).get other =
      if cid.key = other ∧ guard.completed.get other = none then none
      else table.get other := by
  have hrow := hrep.row cid.key
  unfold rowOf at hrow
  unfold SQLiteIdempotencyGuard.release
  cases hcompl : guard.completed.get cid.key with
  | some res =>
    rw [hcompl] at hrow
    have hkept : ¬ (cid.key = other ∧ guard.completed.get other = none) := by
      rintro ⟨rfl, hnone⟩
      rw [hnone] at hcompl
      cases hcompl
    simp [hrow, hkept]
  | none =>
    rw [hcompl] at hrow
    by_cases hresv : cid.key ∈ guard.reserved
    · simp only [if_pos hresv] at hrow
      simp only [hrow, Dict.get_erase]
      by_cases heq : cid.key = other
      · subst heq
        simp [hcompl]
      · simp [heq]
    · simp only [if_neg hresv] at hrow
      simp only [hrow]
      by_cases heq : cid.key = other
      · subst heq
        simp [hrow]
      · simp [heq]

theorem represents_release :
    Represents (guard.release cid) (SQLiteIdempotencyGuard.release table cid) := by
  constructor
  case row =>
    intro other
    rw [get_release hrep, hrep.row, rowOf, rowOf]
    simp only [completed_release, mem_reserved_release, get_pendingHash_release]
    cases hcompl : guard.completed.get other with
    | some res => simp
    | none =>
      by_cases heq : cid.key = other
      · simp [heq]
      · simp [heq, Ne.symm heq]
  case pending =>
    intro other hother
    rw [get_pendingHash_release]
    split
    · rfl
    · rename_i hne
      refine hrep.pending other fun hmem ↦ hother ?_
      exact (mem_reserved_release ..).2 ⟨Ne.symm hne, hmem⟩
  case bound => exact hrep.bound
  case disjoint =>
    intro other hother
    exact hrep.disjoint other ((mem_reserved_release ..).1 hother).2
  case decodable => exact hrep.decodable

theorem step_agree {call : GuardCall} (hcall : Recordable guard call) :
    (sqliteStep table call).1 = (memoryStep guard call).1 ∧
      Represents (memoryStep guard call).2 (sqliteStep table call).2 := by
  cases call with
  | checkAndReserve cid requestHash => exact checkAndReserve_agree hrep
  | recordResult cid res => exact ⟨rfl, represents_recordResult hrep hcall.1 hcall.2⟩
  | release cid => exact ⟨rfl, represents_release hrep⟩

end Step

theorem outcomes_agree {guard : MemoryIdempotencyGuard} {table : SQLiteIdempotencyGuard}
    (hrep : Represents guard table) {calls : List GuardCall} (hcalls : AllRecordable guard calls) :
    outcomes sqliteStep table calls = outcomes memoryStep guard calls := by
  induction calls generalizing guard table with
  | nil => rfl
  | cons call rest ih =>
    obtain ⟨hout, hnext⟩ := step_agree hrep hcalls.1
    rw [outcomes, outcomes, hout, ih hnext hcalls.2]

/-- On calls whose results the SQLite guard can read back the two guards answer alike. -/
theorem guards_interchangeable (calls : List GuardCall) (hcalls : AllRecordable .empty calls) :
    outcomes sqliteStep Dict.empty calls = outcomes memoryStep .empty calls := by
  refine outcomes_agree ?_ hcalls
  constructor <;> simp [rowOf, empty]

def sampleKey : CorrelationId := .plain "cid-1"

def sampleResult : IdempotencyResult := .receipt { orderId := "ord-1" }

theorem guards_interchangeable_submit_and_replay :
    outcomes sqliteStep Dict.empty
        [.checkAndReserve sampleKey (some "h1"), .recordResult sampleKey sampleResult,
          .checkAndReserve sampleKey (some "h1"), .checkAndReserve sampleKey (some "h2")] =
      [.fresh, .done, .replayed sampleResult, .reuseMismatch] := by
  rw [guards_interchangeable _ (by simp [AllRecordable, Recordable, memoryStep, checkAndReserve,
    empty, reserve, sampleKey, CorrelationId.key, sampleResult, IdempotencyResult.decodable])]
  decide +kernel

theorem guards_differ_after_release :
    let calls : List GuardCall := [.checkAndReserve sampleKey none, .release sampleKey,
      .recordResult sampleKey sampleResult, .checkAndReserve sampleKey none]
    outcomes sqliteStep Dict.empty calls = [.fresh, .done, .done, .fresh] ∧
      outcomes memoryStep .empty calls = [.fresh, .done, .done, .replayed sampleResult] := by
  decide +kernel

end GuardEquivalence

end Tradex.Execution

import Tradex.Domain.Types
import Tradex.Foundation.Dict

/-!
# Idempotency guard and fill deduplication

The in-process idempotency guard, keyed by the text of a correlation id, and the
bounded set of fill fingerprints. Each call of the guard runs under its lock, so
a call is one atomic step.
-/

namespace Tradex.Execution

open Tradex.Domain List

inductive IdempotencyResult where
  | order (order : Order)
  | receipt (receipt : OrderReceipt)
deriving DecidableEq

inductive Reservation where
  | fresh
  | duplicate (result : IdempotencyResult)
deriving DecidableEq

def hashMismatch (stored incoming : Option String) : Bool :=
  match stored, incoming with
  | some stored, some incoming => stored ≠ incoming
  | _, _ => false

def reuseMismatchError (key : String) : TradingError :=
  .idempotencyKeyReuseMismatch ("idempotency key " ++ key ++
    " was already used with a different request (request-hash mismatch)")

structure MemoryIdempotencyGuard where
  reserved : Finset String
  completed : Dict String IdempotencyResult
  pendingHash : Dict String String
  completedHash : Dict String String
deriving DecidableEq

namespace MemoryIdempotencyGuard

def empty : MemoryIdempotencyGuard := ⟨∅, Dict.empty, Dict.empty, Dict.empty⟩

variable (guard : MemoryIdempotencyGuard)

def reserve (key : String) (requestHash : Option String) : MemoryIdempotencyGuard :=
  { guard with
    reserved := insert key guard.reserved
    pendingHash :=
      match requestHash with
      | some hash => guard.pendingHash.set key hash
      | none => guard.pendingHash }

variable (cid : CorrelationId)

def checkAndReserve
    (requestHash : Option String) : Except TradingError Reservation × MemoryIdempotencyGuard :=
  let key := cid.key
  match guard.completed.get key with
  | some res =>
    if hashMismatch (guard.completedHash.get key) requestHash then
      (.error (reuseMismatchError key), guard)
    else (.ok (.duplicate res), guard)
  | none =>
    if key ∈ guard.reserved then
      if hashMismatch (guard.pendingHash.get key) requestHash then
        (.error (reuseMismatchError key), guard)
      else
        (.error (.idempotencyInflight ("idempotency key is already reserved: " ++ key)), guard)
    else (.ok .fresh, guard.reserve key requestHash)

def recordResult (res : IdempotencyResult) : MemoryIdempotencyGuard :=
  let key := cid.key
  { reserved := guard.reserved.erase key
    completed := guard.completed.set key res
    pendingHash := guard.pendingHash.erase key
    completedHash :=
      match guard.pendingHash.get key with
      | some hash => guard.completedHash.set key hash
      | none => guard.completedHash }

def release : MemoryIdempotencyGuard :=
  let key := cid.key
  { guard with
    reserved := guard.reserved.erase key
    pendingHash := guard.pendingHash.erase key }

theorem checkAndReserve_cases {cid : CorrelationId} {requestHash : Option String} :
    (∃ ans, ans ≠ .ok .fresh ∧
        guard.checkAndReserve cid requestHash = (ans, guard)) ∨
      (guard.completed.get cid.key = none ∧ cid.key ∉ guard.reserved ∧
        guard.checkAndReserve cid requestHash =
          (.ok .fresh, guard.reserve cid.key requestHash)) := by
  cases hcompl : guard.completed.get cid.key with
  | some res =>
    left
    simp only [checkAndReserve, hcompl]
    split
    · exact ⟨_, by simp, rfl⟩
    · exact ⟨_, by simp, rfl⟩
  | none =>
    by_cases hresv : cid.key ∈ guard.reserved
    · left
      simp only [checkAndReserve, hcompl, if_pos hresv]
      split
      · exact ⟨_, by simp, rfl⟩
      · exact ⟨_, by simp, rfl⟩
    · right
      simp only [checkAndReserve, hcompl, if_neg hresv]
      exact ⟨trivial, hresv, trivial⟩

variable (guard : MemoryIdempotencyGuard) (cid : CorrelationId)
  (res : IdempotencyResult) (other : String)

theorem get_completed_recordResult :
    (guard.recordResult cid res).completed.get other =
      if cid.key = other then some res else guard.completed.get other :=
  Dict.get_set _ _ _ _

theorem mem_reserved_recordResult :
    other ∈ (guard.recordResult cid res).reserved ↔ other ≠ cid.key ∧ other ∈ guard.reserved :=
  Finset.mem_erase

theorem get_pendingHash_recordResult :
    (guard.recordResult cid res).pendingHash.get other =
      if cid.key = other then none else guard.pendingHash.get other :=
  Dict.get_erase

theorem get_completedHash_recordResult :
    (guard.recordResult cid res).completedHash.get other =
      if cid.key = other then
        (guard.pendingHash.get other).or (guard.completedHash.get other)
      else guard.completedHash.get other := by
  by_cases heq : cid.key = other
  · subst heq
    cases hpend : guard.pendingHash.get cid.key <;> simp [recordResult, hpend]
  · cases hpend : guard.pendingHash.get cid.key <;> simp [recordResult, hpend, Dict.get_set, heq]

theorem mem_reserved_release :
    other ∈ (guard.release cid).reserved ↔ other ≠ cid.key ∧ other ∈ guard.reserved :=
  Finset.mem_erase

theorem get_pendingHash_release :
    (guard.release cid).pendingHash.get other =
      if cid.key = other then none else guard.pendingHash.get other :=
  Dict.get_erase

@[simp] theorem completed_release : (guard.release cid).completed = guard.completed := rfl

@[simp] theorem completedHash_release :
    (guard.release cid).completedHash = guard.completedHash := rfl

end MemoryIdempotencyGuard

inductive Fingerprint where
  | byFillId (fillId : String)
  | byContent (orderId side quantity price : String)
deriving DecidableEq

def fingerprint (fill : Fill) : Fingerprint :=
  match fill.fillId with
  | some fillId => .byFillId fillId
  | none => .byContent fill.orderId fill.side.value fill.quantity.str fill.price.value.str

structure FillDedup where
  lru : List Fingerprint
  maxSize : ℕ
deriving DecidableEq

namespace FillDedup

def default : FillDedup := ⟨[], 50000⟩

variable (dedup : FillDedup)

def moveToEnd (key : Fingerprint) : FillDedup :=
  { dedup with lru := dedup.lru.filter (· ≠ key) ++ [key] }

def seen (fill : Fill) : Bool × FillDedup :=
  if fingerprint fill ∈ dedup.lru then (true, dedup.moveToEnd (fingerprint fill))
  else (false, dedup)

def checkAndRecord (fill : Fill) : Bool × FillDedup :=
  if fingerprint fill ∈ dedup.lru then (true, dedup.moveToEnd (fingerprint fill))
  else
    let recorded := dedup.lru ++ [fingerprint fill]
    (false, { dedup with lru := if dedup.maxSize < recorded.length then recorded.tail else recorded })

variable {dedup : FillDedup} {fill : Fill} {other : Fingerprint}

theorem mem_moveToEnd {key other : Fingerprint} (hkey : key ∈ dedup.lru) :
    other ∈ (dedup.moveToEnd key).lru ↔ other ∈ dedup.lru := by
  simp only [moveToEnd, mem_append, mem_filter, decide_eq_true_eq, mem_singleton]
  constructor
  · rintro (⟨hother, -⟩ | rfl)
    · exact hother
    · exact hkey
  · intro hother
    by_cases heq : other = key
    · exact Or.inr heq
    · exact Or.inl ⟨hother, heq⟩

theorem of_mem_checkAndRecord (hother : other ∈ (dedup.checkAndRecord fill).2.lru) :
    other ∈ dedup.lru ∨ other = fingerprint fill := by
  unfold checkAndRecord at hother
  split at hother
  next hknown => exact .inl ((mem_moveToEnd hknown).mp hother)
  next =>
    have hrec : other ∈ dedup.lru ++ [fingerprint fill] := by
      dsimp only at hother
      split at hother
      · exact mem_of_mem_tail hother
      · exact hother
    rwa [mem_append, mem_singleton] at hrec

theorem mem_checkAndRecord (hroom : dedup.lru.length < dedup.maxSize) :
    other ∈ (dedup.checkAndRecord fill).2.lru ↔ other ∈ dedup.lru ∨ other = fingerprint fill := by
  unfold checkAndRecord
  split
  · rename_i hknown
    rw [mem_moveToEnd hknown]
    constructor
    · exact Or.inl
    · rintro (hother | rfl)
      · exact hother
      · exact hknown
  · have hkept : ¬ dedup.maxSize < (dedup.lru ++ [fingerprint fill]).length := by
      simp only [length_append, length_singleton]
      omega
    simp only [if_neg hkept, mem_append, mem_singleton]

theorem mem_recorded (hcap : 0 < dedup.maxSize) :
    fingerprint fill ∈ (dedup.checkAndRecord fill).2.lru := by
  unfold checkAndRecord
  split
  · simp [moveToEnd]
  · cases hlru : dedup.lru with
    | nil =>
      have hkept : ¬ dedup.maxSize < 1 := by omega
      simp [hkept]
    | cons first rest =>
      dsimp only
      split <;> simp

end FillDedup

end Tradex.Execution

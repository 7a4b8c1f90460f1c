import Tradex.Execution.VenueAdoption

/-!
# One venue read for the two halves of a poll

The compare half of a poll keeps its venue read for the adoption half, which drops it. An adoption
that is refused without asking for the read leaves it to the next poll.
-/

namespace Tradex.Runtime

open Tradex.Domain Tradex.Execution List

/-- A venue read is named by its number among the reads taken so far. -/
structure MonitorSeams where
  readCache : Option ℕ := none
  readOwner : Option ℕ := none
  lastReadAt : Option ℤ := none
  reads : ℕ := 0

structure MonitorPoll where
  book : TradingCache
  localPositions : List PositionRow
  -- `none` when the order book could not be read.
  unsettled : Option (Finset String)

structure PollReport (Drift : Type) where
  started : ℕ
  finished : ℕ
  compared : ℕ
  adopted : Option ℕ
  drifts : List Drift
  outcome : Option AdoptionOutcome

structure ReconciliationMonitor (Drift : Type) where
  thread : ℕ
  venue : ℕ → VenueRead
  compare : List PositionRow → List PositionRow → List Drift
  currency : Instrument → String
  adopting : Bool

namespace ReconciliationMonitor

variable {Drift : Type} (monitor : ReconciliationMonitor Drift) (seams : MonitorSeams)

-- No clock is injected: the stamp of every read is missing and is not compared.
def sharedRead : ℕ × MonitorSeams :=
  let fresh := (seams.reads, { seams with
    readCache := some seams.reads
    readOwner := some monitor.thread
    reads := seams.reads + 1 })
  match seams.readCache with
  | none => fresh
  | some read =>
    if seams.readOwner = some monitor.thread then (read, { seams with readCache := none })
    else fresh

variable (poll : MonitorPoll)

def reconcile : (ℕ × List Drift) × MonitorSeams :=
  let (num, after) := monitor.sharedRead seams
  let read := monitor.venue num
  ((num, if read.ok then monitor.compare poll.localPositions read.positions else []), after)

def adopt : (Option ℕ × Option AdoptionOutcome) × MonitorSeams :=
  match poll.unsettled with
  | none =>
    let refused : AdoptionOutcome :=
      { adoption := .empty, applied := false, refusal := "unsettled_guard_unavailable", read := {} }
    ((none, some refused), seams)
  | some unpaid =>
    let (num, after) := monitor.sharedRead seams
    match (adoptVenuePositions monitor.currency poll.book poll.localPositions unpaid
        after.lastReadAt monitor.adopting (monitor.venue num)).1 with
    | .error _ => ((some num, none), after)
    | .ok out =>
      let baseline :=
        if out.read.ok then out.read.readAt.or after.lastReadAt else after.lastReadAt
      ((some num, some out), { after with lastReadAt := baseline })

def pollOnce : PollReport Drift × MonitorSeams :=
  let ((compared, drifts), between) := monitor.reconcile seams poll
  let ((adopted, out), after) := monitor.adopt between poll
  (⟨seams.reads, after.reads, compared, adopted, drifts, out⟩, after)

def runPolls : MonitorSeams → List MonitorPoll → List (PollReport Drift)
  | _, [] => []
  | seams, poll :: polls =>
    (monitor.pollOnce seams poll).1 :: runPolls (monitor.pollOnce seams poll).2 polls

/-- The compared read was taken during the poll, and an adoption used the same one. -/
def OneSnapshot (report : PollReport Drift) : Prop :=
  (report.started ≤ report.compared ∧ report.compared < report.finished) ∧
    ∀ num, report.adopted = some num → num = report.compared

variable {monitor} {seams} {poll}

theorem oneSnapshot_of_empty (hnil : seams.readCache = none) :
    OneSnapshot (monitor.pollOnce seams poll).1 := by
  cases hunpaid : poll.unsettled with
  | none => simp [pollOnce, reconcile, adopt, sharedRead, hnil, hunpaid, OneSnapshot]
  | some unpaid =>
    simp only [pollOnce, reconcile, adopt, sharedRead, hnil, hunpaid]
    split <;> simp [OneSnapshot]

theorem readCache_pollOnce (hnil : seams.readCache = none) (hread : poll.unsettled.isSome) :
    (monitor.pollOnce seams poll).2.readCache = none := by
  obtain ⟨unpaid, hunpaid⟩ := Option.isSome_iff_exists.1 hread
  simp only [pollOnce, reconcile, adopt, sharedRead, hnil, hunpaid]
  split <;> rfl

/-- A refused adoption leaves the poll's read behind, and the next poll compares with it. -/
theorem not_oneSnapshot_of_refused (hnil : seams.readCache = none)
    (href : poll.unsettled = none) (next : MonitorPoll) :
    ¬ OneSnapshot (monitor.pollOnce (monitor.pollOnce seams poll).2 next).1 := by
  intro hsnapshot
  have hstarted := hsnapshot.1.1
  simp [pollOnce, reconcile, adopt, sharedRead, hnil, href] at hstarted

theorem oneSnapshot_runPolls_iff {polls : List MonitorPoll} (hnil : seams.readCache = none) :
    (∀ report ∈ monitor.runPolls seams polls, OneSnapshot report) ↔
      ∀ poll ∈ polls.dropLast, poll.unsettled.isSome := by
  induction polls generalizing seams with
  | nil => simp [runPolls]
  | cons poll polls ih =>
    cases polls with
    | nil => simpa [runPolls] using oneSnapshot_of_empty hnil
    | cons next polls =>
      rw [runPolls, forall_mem_cons, dropLast_cons_cons, forall_mem_cons,
        and_iff_right (oneSnapshot_of_empty hnil)]
      cases hunpaid : poll.unsettled with
      | none =>
        refine iff_of_false (fun hall ↦ ?_) (by simp)
        exact not_oneSnapshot_of_refused hnil hunpaid next (hall _ mem_cons_self)
      | some unpaid =>
        rw [ih (readCache_pollOnce hnil (by simp [hunpaid]))]
        simp

/-- All reports of a run rest on one snapshot each exactly when every poll but the last could read
the order book. -/
theorem polls_share_snapshot_iff (monitor : ReconciliationMonitor Drift) (polls : List MonitorPoll) :
    (∀ report ∈ monitor.runPolls {} polls, OneSnapshot report) ↔
      ∀ poll ∈ polls.dropLast, poll.unsettled.isSome :=
  oneSnapshot_runPolls_iff rfl

theorem stale_read_compared :
    let monitor : ReconciliationMonitor ℕ := ⟨0, fun _ ↦ {}, fun _ _ ↦ [], fun _ ↦ "INR", true⟩
    ((monitor.runPolls {} [⟨.empty, [], none⟩, ⟨.empty, [], some ∅⟩]).map
      fun report ↦ (report.started, report.compared, report.adopted)) =
        [(0, 0, none), (1, 0, some 1)] := by
  decide +kernel

end ReconciliationMonitor

end Tradex.Runtime

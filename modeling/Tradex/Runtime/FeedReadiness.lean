import Mathlib.Data.Int.Notation
import Mathlib.Data.Nat.Notation
import Tradex.Foundation.Outcome

/-!
# Readiness of the market feed

A recovery that succeeds writes READY whatever happened since it started.
-/

namespace Tradex.Runtime

inductive FeedState where
  | new | connecting | resynchronizing | ready | degraded | halted
deriving DecidableEq

/-- The transition of `mark_stale` and of `disconnected`. -/
def FeedState.markStale (st : FeedState) : FeedState :=
  if st = .halted then st else .degraded

theorem FeedState.markStale_ne_ready {st : FeedState} : st.markStale ≠ .ready := by
  cases st <;> decide

/-- The recovery slot. A running recovery carries how many events had happened
when it started. -/
inductive Slot where
  | free
  | claimed (demote : Bool)
  | admitted
  | running (since : ℕ)
  | decided
deriving DecidableEq

structure Readiness where
  state : FeedState
  slot : Slot
  /-- Reconnect hooks between `connected` and `recovery_started`. -/
  connected : ℕ
  /-- Reconnect hooks between `recovery_started` and their claim. -/
  resyncing : ℕ
  events : ℕ
deriving DecidableEq

inductive Action where
  | reconnect | hookResync | hookClaim
  | request | admitted | recoveryStarted | recoverySucceeded | recoveryFailed | release
  | stop | markStale
deriving DecidableEq

namespace Readiness

def initial : Readiness := ⟨.new, .free, 0, 0, 0⟩

variable (feed : Readiness)

/-- `_claim_recovery` up to the reading of the state. -/
def claim : Readiness :=
  if feed.slot = .free then { feed with slot := .claimed (feed.state ≠ .resynchronizing) }
  else feed

/-- One atomic step; an action that is not enabled changes nothing. -/
def step : Action → Readiness
  | .reconnect =>
    { feed with state := .connecting, connected := feed.connected + 1, events := feed.events + 1 }
  | .hookResync =>
    if 0 < feed.connected then
      { feed with
        state := .resynchronizing
        connected := feed.connected - 1
        resyncing := feed.resyncing + 1 }
    else feed
  | .hookClaim =>
    if 0 < feed.resyncing then { feed.claim with resyncing := feed.resyncing - 1 } else feed
  | .request => feed.claim
  | .admitted =>
    match feed.slot with
    | .claimed demote =>
      { feed with
        slot := .admitted
        state := if demote then .resynchronizing else feed.state }
    | _ => feed
  | .recoveryStarted =>
    if feed.slot = .admitted then
      { feed with state := .resynchronizing, slot := .running feed.events }
    else feed
  | .recoverySucceeded =>
    match feed.slot with
    | .running _ => { feed with state := .ready, slot := .decided }
    | _ => feed
  | .recoveryFailed =>
    match feed.slot with
    | .running _ => { feed with state := .halted, slot := .decided }
    | _ => feed
  | .release => if feed.slot = .decided then { feed with slot := .free } else feed
  | .stop | .markStale => { feed with state := feed.state.markStale, events := feed.events + 1 }

def IsEvent : Action → Prop
  | .reconnect | .stop | .markStale => True
  | _ => False

variable (action : Action)

/-- The recovery that makes the feed ready started after the last event. -/
def Earned : Prop :=
  feed.state ≠ .ready → (feed.step action).state = .ready → feed.slot = .running feed.events

/-- No event falls into a running recovery. -/
def Undisturbed : Prop :=
  IsEvent action → ∀ since, feed.slot ≠ .running since

/-- The running recovery has seen every event. -/
def UpToDate : Prop := ∀ since, feed.slot = .running since → since = feed.events

theorem upToDate_step (hkept : feed.UpToDate)
    (hquiet : feed.Undisturbed action) : feed.Earned action ∧ (feed.step action).UpToDate := by
  obtain ⟨st, slot, connected, resyncing, events⟩ := feed
  cases action <;> cases slot <;>
    simp_all [Earned, UpToDate, Undisturbed, IsEvent, step, claim, FeedState.markStale_ne_ready]
  -- What is left are the two later steps of a reconnect hook and the demotion.
  all_goals split <;> simp_all

/-- In every schedule whose reconnects, stops and stale marks fall into no
running recovery, the feed becomes ready only through a recovery that started
after the last of them. -/
theorem ready_earned {actions : List Action}
    (hquiet : Along step Undisturbed initial actions) : Along step Earned initial actions :=
  hquiet.imp_of_invariant (fun _ hrunning ↦ by cases hrunning) upToDate_step

/-- A reconnect that is followed by a recovery of its own. -/
theorem ready_earned_after_reconnect :
    Along step Earned initial [.reconnect, .hookResync, .hookClaim, .admitted, .recoveryStarted,
      .recoverySucceeded, .release] :=
  ready_earned (by simp [Along, Undisturbed, IsEvent, initial])

/-- A socket that reconnects while a recovery runs finds the slot taken, and the
recovery of the old connection makes the feed ready. -/
theorem ready_after_reconnect_unearned :
    let feed := [Action.request, .admitted, .recoveryStarted, .reconnect, .hookResync,
      .hookClaim].foldl step initial
    (feed.step .recoverySucceeded).state = .ready ∧ feed.state ≠ .ready ∧
      feed.slot = .running 0 ∧ feed.events = 1 := by
  decide

end Readiness

structure OrderWatch where
  enabled : Bool
  staleAfter : ℤ
  /-- Whether a recovery coordinator is wired to the feed. -/
  wired : Bool

structure Gate where
  state : FeedState
  inFlight : Bool
  clock : ℤ
  lastFrame : Option ℤ
  reported : Bool
  /-- What the poll in progress has read. -/
  wasDegraded : Bool
  quotesStale : Bool
deriving DecidableEq

/-- The four steps of a poll, between which the other threads may act, and what these do. -/
inductive FeedEvent where
  | pollBegins
  /-- Whether the feed is active with a stale instrument. -/
  | quotesChecked (stale : Bool)
  | recoveryAsked
  /-- The watchdog's check, which completes the poll. -/
  | ordersChecked
  | frame (stamp : Option ℤ)
  | advance (elapsed : ℕ)
  | reconnect | violation
  | recoveryStarted | recoverySucceeded | recoveryFailed

namespace OrderWatch

variable (watch : OrderWatch)

def initial : Gate := ⟨.new, false, 0, none, false, false, false⟩

variable (gate : Gate)

def isStale : Bool :=
  watch.enabled &&
    match gate.lastFrame with
    | none => false
    | some last => decide (watch.staleAfter < max 0 (gate.clock - last))

def triggerRecovery : Gate :=
  if watch.wired && !gate.inFlight then
    { gate with inFlight := true, state := .resynchronizing }
  else gate

def check : Gate :=
  if watch.isStale gate && !gate.reported then
    { gate with reported := true, state := gate.state.markStale }
  else gate

def step : FeedEvent → Gate
  | .pollBegins => { gate with wasDegraded := gate.state = .degraded }
  | .quotesChecked stale =>
    { gate with
      quotesStale := stale
      state := if stale then gate.state.markStale else gate.state }
  | .recoveryAsked =>
    if gate.wasDegraded && gate.quotesStale && !watch.isStale gate then watch.triggerRecovery gate
    else gate
  | .ordersChecked => watch.check gate
  | .frame stamp => { gate with lastFrame := some (stamp.getD gate.clock), reported := false }
  | .advance elapsed => { gate with clock := gate.clock + elapsed }
  | .reconnect => watch.triggerRecovery { gate with state := .resynchronizing }
  | .violation => watch.triggerRecovery gate
  | .recoveryStarted => if gate.inFlight then { gate with state := .resynchronizing } else gate
  | .recoverySucceeded =>
    if gate.inFlight then { gate with state := .ready, inFlight := false } else gate
  | .recoveryFailed =>
    if gate.inFlight then { gate with state := .halted, inFlight := false } else gate

/-- After a poll at which the order stream is stale the feed is not ready. -/
def Shut : FeedEvent → Prop
  | .ordersChecked => watch.isStale (watch.check gate) → (watch.check gate).state ≠ .ready
  | _ => True

/-- The watchdog does not find the feed ready over a silence that it has reported. -/
def Guarded : FeedEvent → Prop
  | .ordersChecked => watch.isStale gate → gate.reported → gate.state ≠ .ready
  | _ => True

/-- No recovery succeeds while the order stream is stale. -/
def LiveSuccess : FeedEvent → Prop
  | .recoverySucceeded => ¬watch.isStale gate
  | _ => True

variable {gate : Gate}

/-- Staleness depends on the two clocks alone. -/
@[simp] theorem isStale_mk {st : FeedState} {inFlight reported degraded quotes : Bool} :
    watch.isStale ⟨st, inFlight, gate.clock, gate.lastFrame, reported, degraded, quotes⟩ =
      watch.isStale gate :=
  rfl

theorem isStale_check : watch.isStale (watch.check gate) = watch.isStale gate := by
  rw [check]
  split <;> rfl

theorem shut_iff {ev : FeedEvent} : watch.Shut gate ev ↔ watch.Guarded gate ev := by
  cases ev with
  | ordersChecked =>
    rw [Shut, Guarded, isStale_check, check]
    cases watch.isStale gate <;> cases gate.reported <;> simp [FeedState.markStale_ne_ready]
  | _ => exact Iff.rfl

/-- While the silence is reported, the stream is stale and the feed not ready. -/
def Latched (gate : Gate) : Prop :=
  gate.reported → watch.isStale gate ∧ gate.state ≠ .ready

theorem isStale_advance (hstale : watch.isStale gate) {elapsed : ℕ} :
    watch.isStale { gate with clock := gate.clock + elapsed } := by
  rw [isStale] at hstale ⊢
  cases hlast : gate.lastFrame with
  | none => simp [hlast] at hstale
  | some last =>
    simp only [hlast, Bool.and_eq_true, decide_eq_true_eq] at hstale ⊢
    exact ⟨hstale.1, by omega⟩

theorem latched_triggerRecovery (hkept : watch.Latched gate) :
    watch.Latched (watch.triggerRecovery gate) := by
  rw [triggerRecovery]
  split
  · exact fun hrep ↦ ⟨(hkept hrep).1, by simp⟩
  · exact hkept

theorem latched_step (gate : Gate) (ev : FeedEvent) (hkept : watch.Latched gate)
    (hlive : watch.LiveSuccess gate ev) :
    watch.Guarded gate ev ∧ watch.Latched (watch.step gate ev) := by
  cases ev with
  | pollBegins => exact ⟨trivial, hkept⟩
  | quotesChecked stale =>
    refine ⟨trivial, fun hrep ↦ ⟨(hkept hrep).1, ?_⟩⟩
    cases stale with
    | false => exact (hkept hrep).2
    | true => exact FeedState.markStale_ne_ready
  | ordersChecked =>
    refine ⟨fun _ hrep ↦ (hkept hrep).2, ?_⟩
    rw [step, check]
    split
    next hsil =>
      have hstale := (Bool.and_eq_true_iff.1 hsil).1
      exact fun _ ↦ ⟨hstale, FeedState.markStale_ne_ready⟩
    next => exact hkept
  | frame stamp => exact ⟨trivial, fun hrep ↦ by cases hrep⟩
  | advance elapsed =>
    exact ⟨trivial, fun hrep ↦
      ⟨watch.isStale_advance (hkept hrep).1, (hkept hrep).2⟩⟩
  | recoverySucceeded =>
    refine ⟨trivial, ?_⟩
    rw [step]
    split
    · exact fun hrep ↦ absurd (hkept hrep).1 hlive
    · exact hkept
  | recoveryAsked =>
    refine ⟨trivial, ?_⟩
    rw [step]
    split
    · exact watch.latched_triggerRecovery hkept
    · exact hkept
  | reconnect => exact ⟨trivial, watch.latched_triggerRecovery fun hrep ↦ ⟨(hkept hrep).1, by simp⟩⟩
  | violation => exact ⟨trivial, watch.latched_triggerRecovery hkept⟩
  | recoveryStarted | recoveryFailed =>
    refine ⟨trivial, ?_⟩
    rw [step]
    split
    · exact fun hrep ↦ ⟨(hkept hrep).1, by simp⟩
    · exact hkept

/-- The gate is shut after every poll over a dead order stream if no recovery succeeds while the
stream is stale, and in a single run exactly if the watchdog never finds it open. -/
theorem order_gate_shut (events : List FeedEvent) :
    (Along watch.step watch.LiveSuccess initial events →
        Along watch.step watch.Shut initial events) ∧
      (Along watch.step watch.Shut initial events ↔
        Along watch.step watch.Guarded initial events) := by
  have hsame : watch.Shut = watch.Guarded :=
    funext fun gate ↦ funext fun ev ↦ propext watch.shut_iff
  rw [hsame]
  exact ⟨fun hlive ↦ hlive.imp_of_invariant (fun hreported ↦ by cases hreported)
    watch.latched_step, Iff.rfl⟩

/-- The stream dies and is reported, a violation on the quote tape starts a
recovery, and the next poll leaves the feed ready. -/
theorem ready_over_dead_order_stream :
    let watch : OrderWatch := ⟨true, 30, true⟩
    let poll := [FeedEvent.pollBegins, .quotesChecked false, .recoveryAsked, .ordersChecked]
    let gate := ([FeedEvent.frame none, .advance 60] ++ poll ++
      [FeedEvent.violation, .recoverySucceeded] ++ poll).foldl watch.step initial
    watch.isStale gate = true ∧ gate.state = .ready := by
  decide

end OrderWatch

end Tradex.Runtime

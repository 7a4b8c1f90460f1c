import Tradex.Brokers.Resilience
import Tradex.Foundation.Outcome

/-!
# The probes of the circuit breaker

A call reads the state under one lock, is counted as a probe under the next and records its outcome
under a third, by then perhaps in another state. The calls that a half-open period admits are
bounded. The successes that close it may be of calls that an earlier closed state let through.
-/

namespace Tradex.Brokers.CircuitBreaker

/-- What a thread does. A running call knows the half-open period that admitted it as a probe. -/
inductive CallPhase where
  | outside
  | probing
  | running (period : Option ℕ)

/-- The last five fields are histories: the half-open periods so far, the probes that the last one
admitted, the successes recorded in it for its own probes and for other calls, and the failures
recorded since a success. -/
structure Traffic where
  breaker : CircuitBreaker
  phases : ℕ → CallPhase := fun _ ↦ .outside
  period : ℕ := 0
  admitted : ℕ := 0
  own : ℕ := 0
  late : ℕ := 0
  streak : ℕ := 0

inductive TrafficEvent where
  | enter (thread : ℕ) (now : ℚ)
  | probe (thread : ℕ)
  | succeed (thread : ℕ)
  | fail (thread : ℕ) (now : ℚ)

/-- No calls yet, and the breaker as `__init__` leaves it. -/
def initial (breaker : CircuitBreaker) : Traffic where
  breaker := { breaker with
    state := .closed, failureCount := 0, successCount := 0, halfOpenCalls := 0, openedAt := 0 }

namespace Traffic

variable (traffic : Traffic)

def enter (tid : ℕ) (now : ℚ) : Traffic :=
  let breaker := traffic.breaker.maybeTransition now
  let phases := Function.update traffic.phases tid
    (match breaker.state with
      | .opened => .outside
      | .halfOpen => .probing
      | .closed => .running none)
  if breaker.state = .halfOpen ∧ traffic.breaker.state = .opened then
    { traffic with
      breaker, phases, period := traffic.period + 1, admitted := 0, own := 0, late := 0 }
  else { traffic with breaker, phases }

def probe (tid : ℕ) : Traffic :=
  if traffic.breaker.halfOpenMax ≤ traffic.breaker.halfOpenCalls then
    { traffic with phases := Function.update traffic.phases tid .outside }
  else
    let halfOpen := traffic.breaker.state = .halfOpen
    { traffic with
      breaker := { traffic.breaker with halfOpenCalls := traffic.breaker.halfOpenCalls + 1 }
      phases := Function.update traffic.phases tid
        (.running (if halfOpen then some traffic.period else none))
      admitted := traffic.admitted + if halfOpen then 1 else 0 }

def succeed (tid : ℕ) (period : Option ℕ) : Traffic :=
  let halfOpen := traffic.breaker.state = .halfOpen
  { traffic with
    breaker := traffic.breaker.recordSuccess
    phases := Function.update traffic.phases tid .outside
    own := traffic.own + if halfOpen ∧ period = some traffic.period then 1 else 0
    late := traffic.late + if halfOpen ∧ period ≠ some traffic.period then 1 else 0
    streak := 0 }

def fail (tid : ℕ) (now : ℚ) : Traffic :=
  { traffic with
    breaker := traffic.breaker.recordFailure now
    phases := Function.update traffic.phases tid .outside
    streak := traffic.streak + 1 }

def step (traffic : Traffic) : TrafficEvent → Traffic
  | .enter tid now =>
    match traffic.phases tid with
    | .outside => traffic.enter tid now
    | _ => traffic
  | .probe tid =>
    match traffic.phases tid with
    | .probing => traffic.probe tid
    | _ => traffic
  | .succeed tid =>
    match traffic.phases tid with
    | .running period => traffic.succeed tid period
    | _ => traffic
  | .fail tid now =>
    match traffic.phases tid with
    | .running _ => traffic.fail tid now
    | _ => traffic

def Closes (after : Traffic) : Prop :=
  traffic.breaker.state = .halfOpen ∧ after.breaker.state = .closed

structure Meets (after : Traffic) : Prop where
  admitted : after.admitted ≤ after.breaker.halfOpenMax
  closes : traffic.Closes after → after.breaker.halfOpenMax ≤ after.own
  opens : traffic.breaker.state = .closed →
    (after.breaker.state = .opened ↔ after.streak = after.breaker.failureThreshold)

structure Counted (traffic : Traffic) : Prop where
  probes : traffic.breaker.halfOpenCalls ≤ traffic.breaker.halfOpenMax
  admitted : traffic.admitted ≤ traffic.breaker.halfOpenCalls
  fewer : traffic.breaker.successCount < traffic.breaker.halfOpenMax
  halfOpen : traffic.breaker.state = .halfOpen →
    traffic.own + traffic.late = traffic.breaker.successCount
  other : traffic.breaker.state ≠ .halfOpen → traffic.breaker.successCount = 0
  closed : traffic.breaker.state = .closed → traffic.streak = traffic.breaker.failureCount ∧
    traffic.breaker.failureCount < traffic.breaker.failureThreshold

/-- What an event does to a counted state. -/
structure Moves (traffic after : Traffic) : Prop where
  counted : after.Counted
  closes : traffic.Closes after → after.own + after.late = after.breaker.halfOpenMax
  opens : traffic.breaker.state = .closed →
    (after.breaker.state = .opened ↔ after.streak = after.breaker.failureThreshold)

variable {traffic : Traffic} {tid : ℕ}

section

variable (hcnt : traffic.Counted)

include hcnt

theorem moves_self : traffic.Moves traffic := by
  have hclose := hcnt.closed
  exact ⟨hcnt, by grind [Closes], by grind⟩

theorem moves_enter (now : ℚ) : traffic.Moves (traffic.enter tid now) := by
  obtain ⟨hprobes, hadm, hfewer, hhalfOpen, hother, hclose⟩ := hcnt
  unfold enter maybeTransition
  exact ⟨by constructor <;> grind, by grind [Closes], by grind⟩

theorem moves_probe : traffic.Moves (traffic.probe tid) := by
  obtain ⟨hprobes, hadm, hfewer, hhalfOpen, hother, hclose⟩ := hcnt
  unfold probe
  exact ⟨by constructor <;> grind, by grind [Closes], by grind⟩

theorem moves_succeed (period : Option ℕ) : traffic.Moves (traffic.succeed tid period) := by
  obtain ⟨hprobes, hadm, hfewer, hhalfOpen, hother, hclose⟩ := hcnt
  have hpos := traffic.breaker.max_pos
  have hthreshold := traffic.breaker.threshold_pos
  unfold succeed recordSuccess
  exact ⟨by constructor <;> grind, by grind [Closes], by grind⟩

theorem moves_fail (now : ℚ) : traffic.Moves (traffic.fail tid now) := by
  obtain ⟨hprobes, hadm, hfewer, hhalfOpen, hother, hclose⟩ := hcnt
  have hpos := traffic.breaker.max_pos
  unfold fail recordFailure
  exact ⟨by constructor <;> grind, by grind [Closes], by grind⟩

theorem moves_step (ev : TrafficEvent) : traffic.Moves (traffic.step ev) := by
  cases ev <;> unfold step <;> dsimp only <;> split
  · exact moves_enter hcnt _
  · exact moves_self hcnt
  · exact moves_probe hcnt
  · exact moves_self hcnt
  · exact moves_succeed hcnt _
  · exact moves_self hcnt
  · exact moves_fail hcnt _
  · exact moves_self hcnt

end

/-- The breaker needs its own probes exactly while no call that a half-open period did not admit
succeeds in one that closes. -/
theorem meets_iff_no_late_success (breaker : CircuitBreaker) (events : List TrafficEvent) :
    Along step (fun traffic ev ↦ traffic.Meets (traffic.step ev)) breaker.initial events ↔
      Along step (fun traffic ev ↦ traffic.Closes (traffic.step ev) →
        (traffic.step ev).late = 0) breaker.initial events := by
  refine along_congr Counted (fun traffic ev hcnt ↦ ?_) ⟨Nat.zero_le _, le_rfl, breaker.max_pos,
    fun _ ↦ rfl, fun _ ↦ rfl, fun _ ↦ ⟨rfl, breaker.threshold_pos⟩⟩
  have hmoves := moves_step hcnt ev
  refine ⟨⟨fun hmeets hcloses ↦ ?_, fun hnone ↦ ⟨?_, fun hcloses ↦ ?_, hmoves.opens⟩⟩,
    fun _ ↦ hmoves.counted⟩
  · have hall := hmoves.closes hcloses
    have hown := hmeets.closes hcloses
    omega
  · exact hmoves.counted.admitted.trans hmoves.counted.probes
  · have hall := hmoves.closes hcloses
    have hnone := hnone hcloses
    omega

/-- Five failures open the breaker. A call from before closes it, while the probe still waits. -/
theorem closed_by_late_success :
    let failure : List TrafficEvent := [.enter 1 0, .fail 1 0]
    let final := List.foldl step fresh.initial
      (.enter 0 0 :: (List.replicate 5 failure).flatten ++ [.enter 1 40, .succeed 0])
    final.breaker.state = .closed ∧ final.own = 0 ∧ final.late = 1 := by
  decide +kernel

end Traffic

end Tradex.Brokers.CircuitBreaker

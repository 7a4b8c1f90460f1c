/-!
# Critical sections

Calls that run step by step while they hold one lock. Whatever order the threads are
scheduled in, the state that the lock protects is at each release what the finished
calls leave when they run one after the other.
-/

namespace Tradex.CriticalSections

variable {State Err Call Thread : Type}

/-- The steps in order; the first that raises ends the call where the state stands. -/
def perform : List (State → Except Err State) → State → State × Option Err
  | [], st => (st, none)
  | step :: rest, st =>
    match step st with
    | .ok next => perform rest next
    | .error err => (st, some err)

theorem perform_keeps {inv : State → Prop} {steps : List (State → Except Err State)} {st : State}
    (hsteps : ∀ step ∈ steps, ∀ st next, inv st → step st = .ok next → inv next) (hst : inv st) :
    inv (perform steps st).1 := by
  induction steps generalizing st with
  | nil => exact hst
  | cons step steps ih =>
    rw [perform]
    split
    next next hnext =>
      exact ih (fun other hmem ↦ hsteps other (.tail _ hmem)) (hsteps step (.head _) st next hst hnext)
    next => exact hst

structure Finished (Call State Err : Type) where
  call : Call
  before : State
  after : State
  error : Option Err

structure Holder (Thread Call State Err : Type) where
  thread : Thread
  call : Call
  entry : State
  rest : List (State → Except Err State)

/-- The finished calls stand latest first. -/
structure Shared (Thread Call State Err : Type) where
  state : State
  holder : Option (Holder Thread Call State Err) := none
  finished : List (Finished Call State Err) := []

inductive Turn (Thread Call : Type) where
  | enter (thread : Thread) (call : Call)
  | proceed (thread : Thread)

namespace Shared

def release (shared : Shared Thread Call State Err) (held : Holder Thread Call State Err)
    (err : Option Err) : Shared Thread Call State Err where
  state := shared.state
  finished := ⟨held.call, held.entry, shared.state, err⟩ :: shared.finished

/-- A thread that does not hold the lock waits. -/
def turn [DecidableEq Thread] (steps : Call → List (State → Except Err State))
    (shared : Shared Thread Call State Err) : Turn Thread Call → Shared Thread Call State Err
  | .enter tid call =>
    match shared.holder with
    | none => { shared with holder := some ⟨tid, call, shared.state, steps call⟩ }
    | some _ => shared
  | .proceed tid =>
    match shared.holder with
    | none => shared
    | some held =>
      if held.thread = tid then
        match held.rest with
        | [] => shared.release held none
        | step :: rest =>
          match step shared.state with
          | .ok next => { shared with state := next, holder := some { held with rest := rest } }
          | .error err => shared.release held (some err)
      else shared

/-- The state as the last release left it, which is what a thread that takes the lock reads. -/
def released (shared : Shared Thread Call State Err) : State :=
  shared.holder.elim shared.state Holder.entry

end Shared

def Serial (steps : Call → List (State → Except Err State)) (start : State) :
    List (Finished Call State Err) → State → Prop
  | [], st => st = start
  | last :: prior, st => last.after = st ∧
      perform (steps last.call) last.before = (last.after, last.error) ∧
      Serial steps start prior last.before

variable {steps : Call → List (State → Except Err State)} {start : State}
  {shared : Shared Thread Call State Err}

structure Serialized (steps : Call → List (State → Except Err State)) (start : State)
    (shared : Shared Thread Call State Err) : Prop where
  serial : Serial steps start shared.finished shared.released
  holder : ∀ held, shared.holder = some held →
    perform held.rest shared.state = perform (steps held.call) held.entry

theorem Serialized.release (hshare : Serialized steps start shared)
    {held : Holder Thread Call State Err} (hheld : shared.holder = some held) {err : Option Err}
    (hends : perform held.rest shared.state = (shared.state, err)) :
    Serialized steps start (shared.release held err) := by
  have hent : shared.released = held.entry := by rw [Shared.released, hheld]; rfl
  refine ⟨⟨rfl, (hshare.holder held hheld).symm.trans hends, hent ▸ hshare.serial⟩, ?_⟩
  intro other hother
  cases hother

variable [DecidableEq Thread]

theorem Serialized.turn (hshare : Serialized steps start shared) (turn : Turn Thread Call) :
    Serialized steps start (shared.turn steps turn) := by
  cases turn with
  | enter tid call =>
    rw [Shared.turn]
    split
    next hfree =>
      have hrel : shared.released = shared.state := by rw [Shared.released, hfree]; rfl
      refine ⟨hrel ▸ hshare.serial, fun held hheld ↦ ?_⟩
      cases hheld
      rfl
    · exact hshare
  | proceed tid =>
    rw [Shared.turn]
    split
    · exact hshare
    next held hheld =>
      have hruns := hshare.holder held hheld
      have hent : shared.released = held.entry := by rw [Shared.released, hheld]; rfl
      split
      · split
        next hdone => exact hshare.release hheld (by rw [hdone, perform])
        next step rest hrest =>
          rw [hrest, perform] at hruns
          split
          next next hnext =>
            rw [hnext] at hruns
            refine ⟨hent ▸ hshare.serial, fun other hother ↦ ?_⟩
            cases hother
            exact hruns
          next err herr => exact hshare.release hheld (by rw [hrest, perform, herr])
      · exact hshare

/-- Every interleaving is serial. -/
theorem serialized_turns (turns : List (Turn Thread Call)) :
    Serialized steps start (turns.foldl (Shared.turn steps) { state := start }) := by
  have hrun : ∀ shared : Shared Thread Call State Err, Serialized steps start shared →
      Serialized steps start (turns.foldl (Shared.turn steps) shared) := by
    induction turns with
    | nil => exact fun _ hshare ↦ hshare
    | cons turn rest ih => exact fun shared hshare ↦ ih _ (hshare.turn turn)
  refine hrun _ ⟨rfl, fun held hheld ↦ ?_⟩
  cases hheld

end Tradex.CriticalSections

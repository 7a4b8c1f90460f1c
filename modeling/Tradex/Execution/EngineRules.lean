import Tradex.Execution.Engine

/-!
# Rules for the engine's programs

One rule for each atomic action, and one for each small program that the larger
ones share. The rules name the state that an action leaves, so that the
execution of a program is a sequence of rewrites.
-/

namespace Tradex.Execution.Engine

open Tradex.Domain Program

section Actions

variable {cfg : EngineConfig} {world : World} {fail : TradingError → World → Prop}

/-- The output is not an index of the rule, since it is written out wherever the action is known. -/
@[simp] theorem wp_act {op : Op} {post : op.Res → World → Prop} :
    @Program.wp Op Op.Res TradingError (no_index op.Res) World (exec cfg) (act op) post fail world ↔
      post (exec cfg op world).1 (exec cfg op world).2 := Iff.rfl

@[simp] theorem wp_ofExcept {Output : Type} {ans : Except TradingError Output}
    {post : Output → World → Prop} :
    wp (exec cfg) (ofExcept ans : EngineProgram Output) post fail world ↔
      match ans with
      | .ok val => post val world
      | .error err => fail err world := by
  cases ans <;> exact Iff.rfl

end Actions

def releasedGuard (cfg : EngineConfig) (resv : Option CorrelationId)
    (guard : MemoryIdempotencyGuard) : MemoryIdempotencyGuard :=
  match resv with
  | some cid => if cfg.hasGuard then guard.release cid else guard
  | none => guard

def completedGuard (cfg : EngineConfig) (cid : Option CorrelationId)
    (res : IdempotencyResult) (guard : MemoryIdempotencyGuard) : MemoryIdempotencyGuard :=
  match cid with
  | some cid => if cfg.hasGuard then guard.recordResult cid res else guard
  | none => guard

section Guard

variable {cfg : EngineConfig} {world : World} {fail : TradingError → World → Prop}
  {post : Unit → World → Prop}

@[simp] theorem wp_releaseReservation (resv : Option CorrelationId) :
    wp (exec cfg) (releaseReservation cfg resv) post fail world ↔
      post () { world with guard := releasedGuard cfg resv world.guard } := by
  cases resv with
  | none => exact Iff.rfl
  | some cid =>
    cases hguard : cfg.hasGuard <;> simp [releaseReservation, releasedGuard, exec, hguard]

variable {cid : Option CorrelationId}

@[simp] theorem wp_recordResult {res : IdempotencyResult} :
    wp (exec cfg) (recordResult cfg cid res) post fail world ↔
      post () { world with guard := completedGuard cfg cid res world.guard } := by
  cases cid with
  | none => exact Iff.rfl
  | some cid => cases hguard : cfg.hasGuard <;> simp [recordResult, completedGuard, exec, hguard]

theorem wp_reserveOwn {hash : String} {post : Option IdempotencyResult → World → Prop}
    (hpost : ∀ replay guard, post replay { world with guard := guard })
    (hfail : ∀ err guard, fail err { world with guard := guard }) :
    wp (exec cfg) (reserveOwn cfg cid hash) post fail world := by
  cases cid with
  | none => exact hpost none world.guard
  | some cid =>
    simp only [reserveOwn]
    split
    · simp only [wp_bind, wp_act, exec]
      split
      · exact hpost _ _
      · exact hpost _ _
      · exact hfail _ _
    · exact hpost none world.guard

theorem wp_checkKey {req : OrderRequest} {post : KeyCheck → World → Prop}
    (hpost : ∀ key guard, post key { world with guard := guard })
    (hfail : ∀ err guard, fail err { world with guard := guard }) :
    wp (exec cfg) (checkKey cfg req) post fail world := by
  unfold checkKey
  split
  · exact hpost _ world.guard
  · split
    · simp only [wp_bind, wp_act, exec]
      split
      · exact hpost _ _
      · exact hpost _ _
      · exact hpost _ _
      · exact hfail _ _
    · exact hpost _ world.guard

@[simp] theorem wp_releasingOnFailure {Output : Type} {resv : Option CorrelationId}
    {body : EngineProgram Output} {post : Output → World → Prop} :
    wp (exec cfg) (releasingOnFailure cfg resv body) post fail world ↔
      wp (exec cfg) body post
        (fun err fin ↦
          fail err { fin with guard := releasedGuard cfg resv fin.guard }) world := by
  simp [releasingOnFailure]

theorem wp_releaseSubmitKey {oid : String}
    (hpost : ∀ guard cidForOrder,
      post () { world with guard := guard, cidForOrder := cidForOrder }) :
    wp (exec cfg) (releaseSubmitKey cfg oid) post fail world := by
  simp only [releaseSubmitKey, wp_bind, wp_act, exec]
  split
  · split
    · exact hpost _ _
    · exact hpost world.guard _
  · exact hpost world.guard _

end Guard

theorem wp_venueCancel {cfg : EngineConfig} {world : World} {fail : TradingError → World → Prop}
    {order : Order} {oid : String} {post : Unit → World → Prop}
    (hpost : ∀ cancels, post ()
      { world with environment := { world.environment with cancels := cancels } })
    (hfail : ∀ err cancels, fail err
      { world with environment := { world.environment with cancels := cancels } }) :
    wp (exec cfg) (venueCancel cfg order oid) post fail world := by
  unfold venueCancel
  simp only [wp_ite, wp_bind, wp_act, exec, wp_ofExcept]
  split
  · split
    · split
      · exact hpost _
      · exact hfail _ _
    · exact hfail _ world.environment.cancels
  · split
    · split
      · exact hpost _
      · exact hfail _ _
    · exact hpost world.environment.cancels

end Tradex.Execution.Engine

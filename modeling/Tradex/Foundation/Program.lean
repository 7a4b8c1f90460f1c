import Mathlib.Data.Nat.Notation
import Mathlib.Logic.Function.Basic
import Tradex.Foundation.Outcome

/-!
# Programs over atomic actions

A program is a tree of atomic actions with typed answers that ends in a value or in a raised error.
-/

namespace Tradex

inductive Program (Op : Type) (Res : Op → Type) (Err Output : Type) : Type where
  | ret (value : Output)
  | raise (error : Err)
  | call (op : Op) (next : Res op → Program Op Res Err Output)

namespace Program

variable {Op : Type} {Res : Op → Type} {Err Input Output : Type}

def bind : Program Op Res Err Input → (Input → Program Op Res Err Output) →
    Program Op Res Err Output
  | .ret val, next => next val
  | .raise err, _ => .raise err
  | .call op rest, next => .call op fun ans ↦ (rest ans).bind next

instance instMonad : Monad (Program Op Res Err) where
  pure := .ret
  bind := bind

def perform (op : Op) : Program Op Res Err (Res op) := .call op .ret

def tryCatch (handler : Err → Program Op Res Err Output) :
    Program Op Res Err Output → Program Op Res Err Output
  | .ret val => .ret val
  | .raise err => handler err
  | .call op rest => .call op fun ans ↦ tryCatch handler (rest ans)

def ofExcept : Except Err Output → Program Op Res Err Output
  | .ok val => .ret val
  | .error err => .raise err

variable {State : Type}

def run (exec : (op : Op) → State → Res op × State) :
    Program Op Res Err Output → State → Except Err Output × State
  | .ret val, st => (.ok val, st)
  | .raise err, st => (.error err, st)
  | .call op rest, st => (rest (exec op st).1).run exec (exec op st).2

def stateAfter (exec : (op : Op) → State → Res op × State) :
    ℕ → Program Op Res Err Output → State → State
  | count + 1, .call op rest, st => stateAfter exec count (rest (exec op st).1) (exec op st).2
  | _, _, st => st

def wp (exec : (op : Op) → State → Res op × State) (prog : Program Op Res Err Output)
    (post : Output → State → Prop) (fail : Err → State → Prop) (st : State) : Prop :=
  match prog.run exec st with
  | (.ok val, final) => post val final
  | (.error err, final) => fail err final

section Rules

variable {exec : (op : Op) → State → Res op × State} {post : Output → State → Prop}
  {fail : Err → State → Prop} {st : State}

@[simp] theorem wp_pure (val : Output) :
    wp exec (pure val : Program Op Res Err Output) post fail st ↔ post val st := Iff.rfl

@[simp] theorem wp_raise {err : Err} :
    wp exec (.raise err : Program Op Res Err Output) post fail st ↔ fail err st :=
  Iff.rfl

@[simp] theorem wp_perform {op : Op} {after : Res op → State → Prop} :
    wp exec (perform op : Program Op Res Err (Res op)) after fail st ↔
      after (exec op st).1 (exec op st).2 := Iff.rfl

@[simp] theorem wp_bind (prog : Program Op Res Err Input)
    (next : Input → Program Op Res Err Output) :
    wp exec (prog >>= next) post fail st ↔
      wp exec prog (fun val fin ↦ wp exec (next val) post fail fin) fail st := by
  induction prog generalizing st with
  | ret val | raise err => exact Iff.rfl
  | call op rest ih => exact ih (exec op st).1

variable {prog : Program Op Res Err Output} {fail' : Err → State → Prop}
  {post' : Output → State → Prop}

@[simp] theorem wp_tryCatch {handler : Err → Program Op Res Err Output} :
    wp exec (tryCatch handler prog) post fail st ↔
      wp exec prog post (fun err fin ↦ wp exec (handler err) post fail fin) st := by
  induction prog generalizing st with
  | ret val | raise err => exact Iff.rfl
  | call op rest ih => exact ih (exec op st).1

@[simp] theorem wp_ite {condition : Prop} [Decidable condition]
    {left right : Program Op Res Err Output} :
    wp exec (if condition then left else right) post fail st ↔
      if condition then wp exec left post fail st else wp exec right post fail st := by
  split <;> exact Iff.rfl

theorem wp_mono (hwp : wp exec prog post fail st) (hpost : ∀ val fin, post val fin → post' val fin)
    (hfail : ∀ err fin, fail err fin → fail' err fin) :
    wp exec prog post' fail' st := by
  unfold wp at hwp ⊢
  split at hwp
  · exact hpost _ _ hwp
  · exact hfail _ _ hwp

theorem wp_and (hleft : wp exec prog post fail st) (hright : wp exec prog post' fail' st) :
    wp exec prog (fun val fin ↦ post val fin ∧ post' val fin)
      (fun err fin ↦ fail err fin ∧ fail' err fin) st := by
  unfold wp at hleft hright ⊢
  split <;> simp_all

theorem wp_iff_run :
    wp exec prog post fail st ↔
      (∀ val, (prog.run exec st).1 = .ok val → post val (prog.run exec st).2) ∧
      (∀ err, (prog.run exec st).1 = .error err → fail err (prog.run exec st).2) := by
  unfold wp
  rcases prog.run exec st with ⟨_ | _, fin⟩ <;> simp

theorem run_of_wp {prop : State → Prop} (hwp : wp exec prog (fun _ ↦ prop) (fun _ ↦ prop) st) :
    prop (prog.run exec st).2 := by
  unfold wp at hwp
  split at hwp
  next val fin hrun => rwa [hrun]
  next err fin hrun => rwa [hrun]

end Rules

section

variable {exec : (op : Op) → State → Res op × State} {kept : State → Prop}

def Keeps (exec : (op : Op) → State → Res op × State) (kept : State → Prop)
    (prog : Program Op Res Err Output) : Prop :=
  ∀ st, kept st → wp exec prog (fun _ final ↦ kept final) (fun _ final ↦ kept final) st

theorem keeps_pure (val : Output) : Keeps exec kept (pure val : Program Op Res Err Output) :=
  fun _ hkept ↦ hkept

theorem keeps_raise (err : Err) : Keeps exec kept (.raise err : Program Op Res Err Output) :=
  fun _ hkept ↦ hkept

theorem Keeps.bind {prog : Program Op Res Err Input} {next : Input → Program Op Res Err Output}
    (hprog : Keeps exec kept prog) (hnext : ∀ val, Keeps exec kept (next val)) :
    Keeps exec kept (prog >>= next) := by
  intro st hkept
  rw [wp_bind]
  exact wp_mono (hprog st hkept) (fun val fin hfin ↦ hnext val fin hfin) fun _ _ hfin ↦ hfin

variable {prog : Program Op Res Err Output}

theorem Keeps.tryCatch {handler : Err → Program Op Res Err Output}
    (hprog : Keeps exec kept prog) (hhandler : ∀ err, Keeps exec kept (handler err)) :
    Keeps exec kept (tryCatch handler prog) := by
  intro st hkept
  rw [wp_tryCatch]
  exact wp_mono (hprog st hkept) (fun _ _ hfin ↦ hfin) fun err fin hfin ↦ hhandler err fin hfin

theorem keeps_of_run (hrun : ∀ st, kept st → kept (prog.run exec st).2) : Keeps exec kept prog := by
  intro st hkept
  rw [wp_iff_run]
  exact ⟨fun _ _ ↦ hrun st hkept, fun _ _ ↦ hrun st hkept⟩

theorem Keeps.run (hprog : Keeps exec kept prog)
    {st : State} (hkept : kept st) : kept (prog.run exec st).2 :=
  run_of_wp (hprog st hkept)

end

structure Composes (property : {Output : Type} → Program Op Res Err Output → Prop) : Prop where
  pure : ∀ {Output : Type} (value : Output), property (Pure.pure value)
  raise : ∀ {Output : Type} (error : Err), property (.raise error : Program Op Res Err Output)
  bind : ∀ {Input Output : Type} {program : Program Op Res Err Input}
    {next : Input → Program Op Res Err Output}, property program →
      (∀ value, property (next value)) → property (program >>= next)
  tryCatch : ∀ {Output : Type} {program : Program Op Res Err Output}
    {handler : Err → Program Op Res Err Output}, property program →
      (∀ error, property (handler error)) → property (tryCatch handler program)

theorem composes_keeps {exec : (op : Op) → State → Res op × State} {kept : State → Prop} :
    Composes fun {Output} (prog : Program Op Res Err Output) ↦ Keeps exec kept prog :=
  ⟨keeps_pure, keeps_raise, Keeps.bind, Keeps.tryCatch⟩

theorem Composes.ofExcept {prop : {Output : Type} → Program Op Res Err Output → Prop}
    (hcomp : Composes prop) (out : Except Err Output) :
    prop (Program.ofExcept out) := by
  cases out with
  | ok val => exact hcomp.pure val
  | error err => exact hcomp.raise err

end Program

end Tradex

import Tradex.Foundation.Program

/-!
# Phase protocols and interleaved programs

A protocol says which actions a program may perform in each phase and how answers move it on.
-/

namespace Tradex

open Function

namespace Program

variable {Op : Type} {Res : Op → Type} {Err Input Output : Type} {allowed : Op → Prop}

def Performs (allowed : Op → Prop) : Program Op Res Err Output → (Output → Prop) → Prop
  | .ret val, post => post val
  | .raise _, _ => True
  | .call op rest, post => allowed op ∧ ∀ ans, Performs allowed (rest ans) post

variable {post : Output → Prop} {prog : Program Op Res Err Output}

@[simp] theorem performs_pure {val : Output} :
    Performs allowed (pure val : Program Op Res Err Output) post ↔ post val := Iff.rfl

theorem performs_mono {post' : Output → Prop} (hprog : Performs allowed prog post)
    (hpost : ∀ val, post val → post' val) : Performs allowed prog post' := by
  induction prog with
  | ret val => exact hpost val hprog
  | raise err => trivial
  | call op rest ih => exact ⟨hprog.1, fun ans ↦ ih ans (hprog.2 ans)⟩

theorem performs_weaken {wider : Op → Prop} (hprog : Performs allowed prog post)
    (hwider : ∀ op, allowed op → wider op) : Performs wider prog post := by
  induction prog with
  | ret val => exact hprog
  | raise err => trivial
  | call op rest ih => exact ⟨hwider op hprog.1, fun ans ↦ ih ans (hprog.2 ans)⟩

theorem performs_ofExcept {out : Except Err Output} (hpost : ∀ val, out = .ok val → post val) :
    Performs allowed (ofExcept out : Program Op Res Err Output) post := by
  cases out with
  | ok val => exact hpost val rfl
  | error err => trivial

theorem performs_bind {prog : Program Op Res Err Input}
    {next : Input → Program Op Res Err Output}
    (hprog : Performs allowed prog fun val ↦ Performs allowed (next val) post) :
    Performs allowed (prog >>= next) post := by
  induction prog with
  | ret val => exact hprog
  | raise err => trivial
  | call op rest ih => exact ⟨hprog.1, fun ans ↦ ih ans (hprog.2 ans)⟩

theorem performs_tryCatch {handler : Err → Program Op Res Err Output}
    (hprog : Performs allowed prog post)
    (hhandler : ∀ err, Performs allowed (handler err) post) :
    Performs allowed (tryCatch handler prog) post := by
  induction prog with
  | ret val => exact hprog
  | raise err => exact hhandler err
  | call op rest ih => exact ⟨hprog.1, fun ans ↦ ih ans (hprog.2 ans)⟩

variable {State : Type} {exec : (op : Op) → State → Res op × State} {kept : State → Prop}

variable (hstep : ∀ op st, allowed op → kept st → kept (exec op st).2)
  (hprog : Performs allowed prog post)

include hstep hprog in
theorem wp_of_performs {st : State} (hstart : kept st) :
    wp exec prog (fun val fin ↦ post val ∧ kept fin) (fun _ ↦ kept) st := by
  induction prog generalizing st with
  | ret val => exact ⟨hprog, hstart⟩
  | raise err => exact hstart
  | call op rest ih => exact ih (exec op st).1 (hprog.2 _) (hstep op st hprog.1 hstart)

include hstep hprog in
theorem keeps_of_performs : Keeps exec kept prog :=
  fun _ hstart ↦ wp_mono (wp_of_performs hstep hprog hstart) (fun _ _ hboth ↦ hboth.2)
    fun _ _ hfin ↦ hfin

end Program

structure Protocol (Op : Type) (Res : Op → Type) (Phase : Type) where
  allowed : Phase → Op → Prop
  next : Phase → (op : Op) → Res op → Phase

namespace Protocol

variable {Op : Type} {Res : Op → Type} {Err Input Output Phase State : Type}

def Follows (protocol : Protocol Op Res Phase) :
    Phase → Program Op Res Err Output → (Phase → Except Err Output → Prop) → Prop
  | phase, .ret val, post => post phase (.ok val)
  | phase, .raise err, post => post phase (.error err)
  | phase, .call op rest, post =>
    protocol.allowed phase op ∧ ∀ ans, protocol.Follows (protocol.next phase op ans)
      (rest ans) post

section Rules

variable {protocol : Protocol Op Res Phase} {phase : Phase}
  {post : Phase → Except Err Output → Prop} {val : Output} {prog : Program Op Res Err Output}
  {next : Input → Program Op Res Err Output}

theorem follows_mono {post' : Phase → Except Err Output → Prop}
    (hfol : protocol.Follows phase prog post)
    (hpost : ∀ fin out, post fin out → post' fin out) :
    protocol.Follows phase prog post' := by
  induction prog generalizing phase with
  | ret val | raise err => exact hpost _ _ hfol
  | call op rest ih => exact ⟨hfol.1, fun ans ↦ ih ans (hfol.2 ans)⟩

theorem follows_bind {prog : Program Op Res Err Input}
    (hfol : protocol.Follows phase prog fun fin out ↦
      match out with
      | .ok val => protocol.Follows fin (next val) post
      | .error err => post fin (.error err)) :
    protocol.Follows phase (prog >>= next) post := by
  induction prog generalizing phase with
  | ret val | raise err => exact hfol
  | call op rest ih => exact ⟨hfol.1, fun ans ↦ ih ans (hfol.2 ans)⟩

theorem follows_tryCatch {handler : Err → Program Op Res Err Output}
    (hfol : protocol.Follows phase prog fun fin out ↦
      match out with
      | .ok val => post fin (.ok val)
      | .error err => protocol.Follows fin (handler err) post) :
    protocol.Follows phase (Program.tryCatch handler prog) post := by
  induction prog generalizing phase with
  | ret val | raise err => exact hfol
  | call op rest ih => exact ⟨hfol.1, fun ans ↦ ih ans (hfol.2 ans)⟩

theorem follows_then {prog : Program Op Res Err Input}
    {between : Phase → Except Err Input → Prop} (hprog : protocol.Follows phase prog between)
    (hnext : ∀ fin val, between fin (.ok val) → protocol.Follows fin (next val) post)
    (hraise : ∀ fin err, between fin (.error err) → post fin (.error err)) :
    protocol.Follows phase (prog >>= next) post := by
  apply follows_bind
  apply follows_mono hprog
  intro fin out hbtw
  cases out with
  | ok val => exact hnext fin val hbtw
  | error err => exact hraise fin err hbtw

def Quiet (protocol : Protocol Op Res Phase) (phase : Phase) (allowed : Op → Prop) : Prop :=
  ∀ op, allowed op → protocol.allowed phase op ∧ ∀ ans, protocol.next phase op ans = phase

variable {allowed : Op → Prop}

theorem follows_of_performs (hquiet : protocol.Quiet phase allowed)
    {returned : Output → Prop} (hperf : prog.Performs allowed returned) :
    protocol.Follows phase prog fun fin out ↦
      fin = phase ∧ ∀ val, out = .ok val → returned val := by
  induction prog with
  | ret val => exact ⟨rfl, fun _ heq ↦ Except.ok.inj heq ▸ hperf⟩
  | raise err => exact ⟨rfl, nofun⟩
  | call op rest ih =>
    refine ⟨(hquiet op hperf.1).1, fun ans ↦ ?_⟩
    rw [(hquiet op hperf.1).2 ans]
    exact ih ans (hperf.2 ans)

theorem follows_quiet_bind (hquiet : protocol.Quiet phase allowed)
    {prog : Program Op Res Err Input} {returned : Input → Prop}
    (hperf : prog.Performs allowed returned)
    (hnext : ∀ val, returned val → protocol.Follows phase (next val) post)
    (hraise : ∀ err, post phase (.error err)) :
    protocol.Follows phase (prog >>= next) post := by
  refine follows_then (follows_of_performs hquiet hperf) ?_ ?_
  · rintro fin val ⟨rfl, hret⟩
    exact hnext val (hret val rfl)
  · rintro fin err ⟨rfl, -⟩
    exact hraise err

end Rules

variable {protocol : Protocol Op Res Phase} {exec : (op : Op) → State → Res op × State}
  {Holds : Phase → State → Prop} {prog : Program Op Res Err Output} {phase : Phase}
  {st : State} {post : Phase → Except Err Output → Prop}

variable (hstep : ∀ phase st op, Holds phase st → protocol.allowed phase op → Holds
    (protocol.next phase op (exec op st).1) (exec op st).2)
  (hfol : protocol.Follows phase prog post) (hstart : Holds phase st)

include hstep hfol hstart in
theorem run_invariant : ∃ fin, Holds fin (prog.run exec st).2 ∧ post fin (prog.run exec st).1 := by
  induction prog generalizing phase st with
  | ret val | raise err => exact ⟨phase, hstart, hfol⟩
  | call op rest ih => exact ih (exec op st).1 (hfol.2 _) (hstep phase st op hstart hfol.1)

include hstep hfol hstart in
theorem stateAfter_invariant {count : ℕ} : ∃ fin, Holds fin (prog.stateAfter exec count st) := by
  induction count generalizing prog phase st with
  | zero => exact ⟨phase, hstart⟩
  | succ count ih =>
    cases prog with
    | ret val | raise err => exact ⟨phase, hstart⟩
    | call op rest => exact ih (hfol.2 _) (hstep phase st op hstart hfol.1)

end Protocol

structure Pool (Thread Op : Type) (Res : Op → Type) (Err Output State : Type) where
  shared : State
  threads : Thread → Program Op Res Err Output

namespace Pool

variable {Thread Op : Type} {Res : Op → Type} {Err Output State Phase : Type} [DecidableEq Thread]

def step (exec : (op : Op) → State → Res op × State)
    (pool : Pool Thread Op Res Err Output State) (tid : Thread) :
    Pool Thread Op Res Err Output State :=
  match pool.threads tid with
  | .call op rest =>
    { shared := (exec op pool.shared).2
      threads := Function.update pool.threads tid (rest (exec op pool.shared).1) }
  | _ => pool

section Step

variable {exec : (op : Op) → State → Res op × State} {pool : Pool Thread Op Res Err Output State}
  {tid other : Thread} {op : Op} {rest : Res op → Program Op Res Err Output}

theorem step_shared (hnext : pool.threads tid = .call op rest) :
    (pool.step exec tid).shared = (exec op pool.shared).2 := by
  simp [step, hnext]

theorem step_threads_self (hnext : pool.threads tid = .call op rest) :
    (pool.step exec tid).threads tid = rest (exec op pool.shared).1 := by
  simp [step, hnext]

theorem step_threads_of_ne (hother : other ≠ tid) :
    (pool.step exec tid).threads other = pool.threads other := by
  unfold step
  split
  · exact update_of_ne hother _ _
  · rfl

theorem step_of_finished
    (hfin : ∀ op (rest : Res op → Program Op Res Err Output),
      pool.threads tid = .call op rest → False) : pool.step exec tid = pool := by
  cases htid : pool.threads tid with
  | ret val | raise err => simp only [step]
  | call op rest => exact (hfin op rest htid).elim

end Step

def runSchedule (exec : (op : Op) → State → Res op × State)
    (pool : Pool Thread Op Res Err Output State) (sched : List Thread) :
    Pool Thread Op Res Err Output State :=
  sched.foldl (step exec) pool

def NextMeets (condition : Op → State → Prop) (pool : Pool Thread Op Res Err Output State)
    (tid : Thread) : Prop :=
  match pool.threads tid with
  | .call op _ => condition op pool.shared
  | _ => True

inductive Reaches (exec : (op : Op) → State → Res op × State) (condition : Op → State → Prop)
    (start : Pool Thread Op Res Err Output State) : Pool Thread Op Res Err Output State → Prop
  | start : Reaches exec condition start start
  | step {pool : Pool Thread Op Res Err Output State} (thread : Thread)
      (hreach : Reaches exec condition start pool) (hmeets : pool.NextMeets condition thread) :
      Reaches exec condition start (pool.step exec thread)

instance {condition : Op → State → Prop} [∀ op st, Decidable (condition op st)]
    (pool : Pool Thread Op Res Err Output State) (tid : Thread) :
    Decidable (pool.NextMeets condition tid) :=
  match hthread : pool.threads tid with
  | .call op _ => decidable_of_iff (condition op pool.shared) (by rw [NextMeets, hthread])
  | .ret _ => isTrue (by rw [NextMeets, hthread]; trivial)
  | .raise _ => isTrue (by rw [NextMeets, hthread]; trivial)

def meetsAll (exec : (op : Op) → State → Res op × State) (condition : Op → State → Prop)
    [∀ op st, Decidable (condition op st)] :
    Pool Thread Op Res Err Output State → List Thread → Bool
  | _, [] => true
  | pool, tid :: rest =>
    decide (pool.NextMeets condition tid) && meetsAll exec condition (pool.step exec tid) rest

variable {condition : Op → State → Prop} {exec : (op : Op) → State → Res op × State}
  {start pool : Pool Thread Op Res Err Output State}

theorem reaches_runSchedule [∀ op st, Decidable (condition op st)] (sched : List Thread)
    (hreach : Reaches exec condition start pool)
    (hmeets : meetsAll exec condition pool sched = true) :
    Reaches exec condition start (pool.runSchedule exec sched) := by
  induction sched generalizing pool with
  | nil => exact hreach
  | cons tid rest ih =>
    rw [meetsAll, Bool.and_eq_true, decide_eq_true_eq] at hmeets
    exact ih (.step tid hreach hmeets.1) hmeets.2

variable {protocol : Protocol Op Res Phase} {post : Phase → Except Err Output → Prop}

theorem reaches_invariant {Holds : (Thread → Phase) → State → Prop}
    {phases : Thread → Phase}
    (hfol : ∀ tid, protocol.Follows (phases tid) (start.threads tid) post)
    (hstart : Holds phases start.shared) (hstep : ∀ phases st tid op, Holds phases st →
      protocol.allowed (phases tid) op → condition op st →
      Holds (update phases tid (protocol.next (phases tid) op (exec op st).1))
        (exec op st).2) (hreach : Reaches exec condition start pool) :
    ∃ phases, Holds phases pool.shared ∧
      ∀ tid, protocol.Follows (phases tid) (pool.threads tid) post := by
  induction hreach with
  | start => exact ⟨phases, hstart, hfol⟩
  | @step pool tid hreach hmeets ih =>
    obtain ⟨phases, hhold, hfol⟩ := ih
    cases htid : pool.threads tid with
    | ret val | raise err => exact ⟨phases, by simpa [step, htid] using ⟨hhold, hfol⟩⟩
    | call op rest =>
      have hown := hfol tid
      rw [htid] at hown
      rw [NextMeets, htid] at hmeets
      refine ⟨update phases tid (protocol.next (phases tid) op (exec op pool.shared).1), ?_, ?_⟩
      · rw [step_shared htid]
        exact hstep phases pool.shared tid op hhold hown.1 hmeets
      · intro other
        by_cases hother : other = tid
        · subst hother
          rw [step_threads_self htid, update_self]
          exact hown.2 _
        · rw [step_threads_of_ne hother, update_of_ne hother]
          exact hfol other

structure Sole (idle : Phase) (phases : Thread → Phase) (phase : Phase) : Prop where
  only : ∀ thread, phases thread = idle ∨ phases thread = phase
  alone : ∀ thread other, phases thread ≠ idle → phases other ≠ idle → thread = other

variable {idle phase : Phase} {phases : Thread → Phase} {tid : Thread}

theorem Sole.move (hsole : Sole idle phases phase) (hown : phases tid = phase)
    {next : Phase} : Sole idle (update phases tid next) next := by
  have hoth : ∀ other, other ≠ tid → phases other = idle := by
    intro other hother
    by_contra hbusy
    by_cases hidle : phase = idle
    · exact hbusy ((hsole.only other).elim id fun heq ↦ heq.trans hidle)
    · exact hother (hsole.alone other tid hbusy (hown.trans_ne hidle))
  constructor
  · intro other
    by_cases hother : other = tid
    · rw [hother, update_self]
      exact Or.inr rfl
    · rw [update_of_ne hother]
      exact Or.inl (hoth other hother)
  · intro first second hfst hsnd
    have hself : ∀ other, update phases tid next other ≠ idle → other = tid := by
      intro other hbusy
      by_contra hother
      rw [update_of_ne hother] at hbusy
      exact hbusy (hoth other hother)
    rw [hself first hfst, hself second hsnd]

theorem reaches_sole
    {condition : Op → State → Prop} {concerns : Op → State → Prop} {Fits : Phase → State → Prop}
    (hfol : ∀ tid, protocol.Follows idle (start.threads tid) post)
    (hstart : Fits idle start.shared)
    (hown : ∀ phase st op, Fits phase st → protocol.allowed phase op →
      condition op st → concerns op st →
      Fits (protocol.next phase op (exec op st).1) (exec op st).2)
    (hother : ∀ phase own st op, Fits phase st → condition op st → ¬concerns op st →
      protocol.next own op (exec op st).1 = own ∧ Fits phase (exec op st).2)
    (henter : ∀ phase st op, Fits phase st → condition op st → concerns op st →
      protocol.allowed idle op → phase = idle)
    (hreach : Reaches exec condition start pool) : ∃ phase, Fits phase pool.shared := by
  let Holds (phases : Thread → Phase) (st : State) : Prop :=
    ∃ phase, Fits phase st ∧ Sole idle phases phase
  have hidle : Holds (fun _ ↦ idle) start.shared :=
    ⟨idle, hstart, fun _ ↦ Or.inl rfl, fun _ _ hbusy ↦ absurd rfl hbusy⟩
  have hstep : ∀ phases st tid op, Holds phases st →
      protocol.allowed (phases tid) op → condition op st →
      Holds (update phases tid (protocol.next (phases tid) op (exec op st).1)) (exec op st).2 := by
    rintro phases st tid op ⟨phase, hfits, hsole⟩ hallow hcond
    by_cases hconc : concerns op st
    · have hphase : phases tid = phase := by
        rcases hsole.only tid with hidle | hphase
        · rw [hidle] at hallow ⊢
          exact (henter phase st op hfits hcond hconc hallow).symm
        · exact hphase
      rw [hphase] at hallow ⊢
      exact ⟨_, hown phase st op hfits hallow hcond hconc, hsole.move hphase⟩
    · obtain ⟨hstay, hafter⟩ := hother phase (phases tid) st op hfits hcond hconc
      rw [hstay, update_eq_self]
      exact ⟨phase, hafter, hsole⟩
  obtain ⟨phases, ⟨phase, hfits, -⟩, -⟩ := reaches_invariant hfol hidle hstep hreach
  exact ⟨phase, hfits⟩

end Pool

end Tradex

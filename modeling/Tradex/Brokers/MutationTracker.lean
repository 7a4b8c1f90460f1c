import Tradex.Brokers.Wire
import Tradex.Foundation.Protocol

/-!
# Mutations and their uncertain outcomes

A mutating request asks the tracker whether its id is unresolved, reserves the id, sends, and then
frees the id or marks it.
-/

namespace Tradex.Brokers.Mutation

open Program Finset

structure UncertainSubmissionTracker where
  reserved : Finset String
  unresolved : Finset String
deriving DecidableEq

namespace UncertainSubmissionTracker

variable (tracker : UncertainSubmissionTracker) (key : String)

def reserve : UncertainSubmissionTracker :=
  { tracker with reserved := insert key tracker.reserved }

def commit : UncertainSubmissionTracker :=
  { tracker with reserved := tracker.reserved.erase key }

def markUnresolved : UncertainSubmissionTracker where
  reserved := tracker.reserved.erase key
  unresolved := insert key tracker.unresolved

def isUnresolved : Bool := key ∈ tracker.unresolved

def clear : UncertainSubmissionTracker where
  reserved := tracker.reserved.erase key
  unresolved := tracker.unresolved.erase key

end UncertainSubmissionTracker

structure Exchanges where
  prepare : ℕ → Except Raised Unit
  reply : ℕ → Except Raised Fields

structure Shared where
  tracker : UncertainSubmissionTracker
  prepared : ℕ
  answered : ℕ
  active : Finset String
  onWire : List String
  doubtful : Finset String
  sentInDoubt : List String

def Shared.initial : Shared where
  tracker := ⟨∅, ∅⟩
  prepared := 0
  answered := 0
  active := ∅
  onWire := []
  doubtful := ∅
  sentInDoubt := []

inductive Op where
  | isUnresolved (key : String)
  | reserve (key : String)
  | prepare (correlationId : Option String)
  | launch (correlationId : Option String)
  | receive (correlationId : Option String)
  | commit (key : String)
  | markUnresolved (key : String)
  | clear (key : String)

@[reducible] def Op.Res : Op → Type
  | .isUnresolved _ => Bool
  | .prepare _ => Except Raised Unit
  | .receive _ => Except Raised Fields
  | _ => Unit

def statusOf (res : Fields) : Json := (Fields.get res "_http_status").getD (.int 0)

def isUnknown : Except Raised Fields → Bool
  | .error _ => true
  | .ok res =>
    match (statusOf res).atLeast 500 with
    | .ok failed => failed
    | .error _ => true

namespace Shared

variable (shared : Shared)

def isUnresolved (key : String) : Bool × Shared :=
  let unresolved := shared.tracker.isUnresolved key
  (unresolved, if unresolved then shared else { shared with active := insert key shared.active })

def launch : Option String → Shared
  | none => shared
  | some key =>
    { shared with
      onWire := key :: shared.onWire
      sentInDoubt :=
        if key ∈ shared.doubtful then key :: shared.sentInDoubt else shared.sentInDoubt }

def receive (reply : Except Raised Fields) : Option String → Shared
  | none => { shared with answered := shared.answered + 1 }
  | some key =>
    { shared with
      answered := shared.answered + 1
      onWire := shared.onWire.erase key
      doubtful := if isUnknown reply then insert key shared.doubtful else shared.doubtful }

end Shared

def exec (exchanges : Exchanges) (op : Op) (shared : Shared) : op.Res × Shared :=
  match op with
  | .isUnresolved key => shared.isUnresolved key
  | .reserve key => ((), { shared with tracker := shared.tracker.reserve key })
  | .prepare _ => (exchanges.prepare shared.prepared, { shared with prepared := shared.prepared + 1 })
  | .launch cid => ((), shared.launch cid)
  | .receive cid =>
    (exchanges.reply shared.answered,
      shared.receive (exchanges.reply shared.answered) cid)
  | .commit key =>
    ((), { shared with
      tracker := shared.tracker.commit key, active := shared.active.erase key })
  | .markUnresolved key =>
    ((), { shared with
      tracker := shared.tracker.markUnresolved key, active := shared.active.erase key })
  | .clear key =>
    ((), { shared with
      tracker := shared.tracker.clear key, doubtful := shared.doubtful.erase key })

abbrev MutationProgram := Program Op Op.Res Raised

def act (op : Op) : MutationProgram op.Res := Program.perform op

def admission : Option String → MutationProgram Unit
  | none => pure ()
  | some key => do
    let unresolved : Bool ← act (.isUnresolved key)
    if unresolved then
      .raise
        { cls := .orderSubmissionUnknownError
          message := "order correlation " ++ key ++ " requires broker reconciliation before " ++
            "retry; resolve via get_order first" }
    else act (.reserve key)

def send (cid : Option String) : MutationProgram (Except Raised Fields) := do
  let prepared : Except Raised Unit ← act (.prepare cid)
  match prepared with
  | .error exc => pure (.error exc)
  | .ok _ =>
    act (.launch cid)
    act (.receive cid)

def commit : Option String → MutationProgram Unit
  | none => pure ()
  | some key => act (.commit key)

def markUnresolved : Option String → MutationProgram Unit
  | none => pure ()
  | some key => act (.markUnresolved key)

variable (ops : TextOps)

def settle (operation : String) (cid : Option String)
    (out : Except Raised Fields) : MutationProgram Fields :=
  match out with
  | .error exc =>
    if exc.isInstance .osError then do
      markUnresolved cid
      .raise
        { cls := .orderSubmissionUnknownError
          message := operation ++ " outcome is unknown (transport failed after send); " ++
            "reconcile via get_order before retrying" }
    else do
      commit cid
      .raise exc
  | .ok res =>
    match (statusOf res).atLeast 500 with
    | .error exc => .raise exc
    | .ok true => do
      markUnresolved cid
      .raise
        { cls := .orderSubmissionUnknownError
          message := operation ++ " got HTTP " ++ ops.str (statusOf res) ++
            " — outcome uncertain" }
    | .ok false => do
      commit cid
      pure res

def submitMutation (operation : String) (cid : Option String) :
    MutationProgram Fields := do
  admission cid
  let out ← send cid
  settle ops operation cid out

variable (key : String)

def resolveUncertainSubmission : MutationProgram Unit := act (.clear key)

inductive Call where
  | submitMutation (operation : String) (correlationId : Option String)
  | resolveUncertainSubmission (correlationId : String)

def Call.program : Call → MutationProgram Unit
  | .submitMutation operation cid => do
    let _ ← Mutation.submitMutation ops operation cid
    pure ()
  | .resolveUncertainSubmission cid => Mutation.resolveUncertainSubmission cid

inductive Phase where
  | outside
  | admitted
  | waiting
  | marking
  | freeing
  | lost
deriving DecidableEq

def settlePhase : Except Raised Fields → Phase
  | .error exc => if exc.isInstance .osError then .marking else .freeing
  | .ok res =>
    match (statusOf res).atLeast 500 with
    | .ok true => .marking
    | .ok false => .freeing
    | .error _ => .lost

def isReadable : Except Raised Fields → Bool
  | .error exc => exc.isInstance .osError
  | .ok res => ((statusOf res).atLeast 500).isOk

def answerPhase (reply : Except Raised Fields) : Phase :=
  if isReadable reply then settlePhase reply else .lost

def mutationProtocol : Protocol Op Op.Res Phase where
  allowed phase op := phase = .lost ∨
    match op with
    | .isUnresolved other => other = key → phase = .outside
    | .reserve other => other = key → phase = .admitted
    | .prepare cid => cid = some key → phase = .admitted
    | .launch cid => cid = some key → phase = .admitted
    | .receive cid => cid = some key → phase = .waiting
    | .commit other => other = key → phase = .freeing
    | .markUnresolved other => other = key → phase = .marking
    | .clear _ => True
  next
    | .lost, _, _ => .lost
    | phase, .isUnresolved other, unresolved =>
      if other = key ∧ unresolved = false then .admitted else phase
    | phase, .prepare cid, .error exc => if cid = some key then settlePhase (.error exc) else phase
    | phase, .launch cid, _ => if cid = some key then .waiting else phase
    | phase, .receive cid, reply => if cid = some key then answerPhase reply else phase
    | phase, .commit other, _ => if other = key then .outside else phase
    | phase, .markUnresolved other, _ => if other = key then .outside else phase
    | phase, _, _ => phase

def Concerns : Op → Prop
  | .isUnresolved other => other = key
  | .reserve other => other = key
  | .prepare cid => cid = some key
  | .launch cid => cid = some key
  | .receive cid => cid = some key
  | .commit other => other = key
  | .markUnresolved other => other = key
  | .clear _ => False

def Orderly (exchanges : Exchanges) (key : String) (op : Op) (shared : Shared) : Prop :=
  match op with
  | .isUnresolved other => other = key → key ∉ shared.active
  | .receive cid => cid = some key → isReadable (exchanges.reply shared.answered) = true
  | _ => True

instance (exchanges : Exchanges) (key : String) (op : Op) (shared : Shared) :
    Decidable (Orderly exchanges key op shared) :=
  match op with
  | .isUnresolved other => inferInstanceAs (Decidable (other = key → key ∉ shared.active))
  | .receive cid =>
    inferInstanceAs
      (Decidable (cid = some key → isReadable (exchanges.reply shared.answered) = true))
  | .reserve _ => isTrue trivial
  | .prepare _ => isTrue trivial
  | .launch _ => isTrue trivial
  | .commit _ => isTrue trivial
  | .markUnresolved _ => isTrue trivial
  | .clear _ => isTrue trivial

theorem quiet_foreign {key : String} {phase : Phase} :
    (mutationProtocol key).Quiet phase fun op ↦ ¬Concerns key op := by
  intro op halien
  cases op with
  | reserve other => exact ⟨Or.inr fun heq ↦ absurd heq halien, fun _ ↦ by cases phase <;> rfl⟩
  | prepare cid =>
    have hother : cid ≠ some key := halien
    refine ⟨Or.inr fun heq ↦ absurd heq hother, fun prepared ↦ ?_⟩
    cases prepared <;> cases phase <;> simp [mutationProtocol, hother]
  | clear other => exact ⟨Or.inr trivial, fun _ ↦ by cases phase <;> rfl⟩
  | _ =>
    rw [Concerns] at halien
    cases phase <;> simp [mutationProtocol, halien]

structure Fits (key : String) (phase : Phase) (shared : Shared) : Prop where
  possible : phase ≠ .lost
  active : phase ≠ .outside → key ∈ shared.active
  wire : shared.onWire.count key = if phase = .waiting then 1 else 0
  doubt : key ∈ shared.doubtful → key ∈ shared.tracker.unresolved ∨ phase = .marking
  fresh : phase = .admitted → key ∉ shared.doubtful
  clean : key ∉ shared.sentInDoubt

theorem answerPhase_of_readable {reply : Except Raised Fields} (hread : isReadable reply = true) :
    answerPhase reply = if isUnknown reply then .marking else .freeing := by
  rw [answerPhase, if_pos hread]
  cases reply with
  | error exc => exact if_pos hread
  | ok res =>
    obtain ⟨failed, hstat⟩ : ∃ failed, (statusOf res).atLeast 500 = .ok failed := by
      simp only [isReadable] at hread
      cases hstat : (statusOf res).atLeast 500 with
      | error exc =>
        rw [hstat] at hread
        cases hread
      | ok failed => exact ⟨failed, rfl⟩
    simp only [settlePhase, isUnknown, hstat]
    cases failed <;> rfl

namespace Fits

variable {exchanges : Exchanges} {key other : String} {phase : Phase} {shared : Shared}

theorem isUnresolved_self (hfits : Fits key .outside shared) :
    Fits key (if shared.tracker.isUnresolved key = false then .admitted else .outside)
      (shared.isUnresolved key).2 := by
  unfold Shared.isUnresolved
  cases hunres : shared.tracker.isUnresolved key with
  | true => exact hfits
  | false =>
    have hfree : key ∉ shared.tracker.unresolved := of_decide_eq_false hunres
    have hcert : key ∉ shared.doubtful := fun hdoubt ↦ (hfits.doubt hdoubt).elim hfree nofun
    exact
      { possible := nofun
        active := fun _ ↦ mem_insert_self _ _
        wire := hfits.wire
        doubt := fun hdoubt ↦ absurd hdoubt hcert
        fresh := fun _ ↦ hcert
        clean := hfits.clean }

theorem launch_self (hfits : Fits key .admitted shared) :
    Fits key .waiting (shared.launch (some key)) := by
  have hcert := hfits.fresh rfl
  have hwire := hfits.wire
  exact
    { possible := nofun
      active := fun _ ↦ hfits.active nofun
      wire := by
        change (key :: shared.onWire).count key = 1
        rw [List.count_cons_self, hwire]
        rfl
      doubt := fun hdoubt ↦ absurd hdoubt hcert
      fresh := nofun
      clean := by
        simp only [Shared.launch, if_neg hcert]
        exact hfits.clean }

theorem receive_self (hfits : Fits key .waiting shared) {reply : Except Raised Fields}
    (hread : isReadable reply = true) :
    Fits key (answerPhase reply) (shared.receive reply (some key)) := by
  have hact := hfits.active nofun
  have hwire : (shared.onWire.erase key).count key = 0 := by
    rw [List.count_erase_self, hfits.wire]
    rfl
  rw [answerPhase_of_readable hread]
  cases hunk : isUnknown reply with
  | true =>
    exact
      { possible := nofun
        active := fun _ ↦ hact
        wire := hwire
        doubt := fun _ ↦ Or.inr rfl
        fresh := nofun
        clean := hfits.clean }
  | false =>
    refine
      { possible := nofun
        active := fun _ ↦ hact
        wire := hwire
        doubt := fun hdoubt ↦ Or.inl ?_
        fresh := nofun
        clean := hfits.clean }
    simp only [Shared.receive, hunk] at hdoubt
    exact (hfits.doubt hdoubt).resolve_right nofun

variable (hfits : Fits key phase shared) {after : Shared} {op : Op}

include hfits

theorem leave (hwait : phase ≠ .waiting) (hwire : after.onWire = shared.onWire)
    (hclean : after.sentInDoubt = shared.sentInDoubt)
    (hdoubt : key ∈ after.doubtful → key ∈ after.tracker.unresolved) :
    Fits key .outside after where
  possible := nofun
  active hbusy := absurd rfl hbusy
  wire := by
    rw [hwire, hfits.wire, if_neg hwait]
    rfl
  doubt hdbt := Or.inl (hdoubt hdbt)
  fresh := nofun
  clean := by
    rw [hclean]
    exact hfits.clean

theorem frame (hact : key ∈ shared.active → key ∈ after.active)
    (hwire : after.onWire.count key = shared.onWire.count key)
    (hdoubt : key ∈ after.doubtful → key ∈ shared.doubtful ∧
      (key ∈ shared.tracker.unresolved → key ∈ after.tracker.unresolved))
    (hclean : key ∈ after.sentInDoubt → key ∈ shared.sentInDoubt) : Fits key phase after where
  possible := hfits.possible
  active hbusy := hact (hfits.active hbusy)
  wire := hwire.trans hfits.wire
  doubt hdbt := (hfits.doubt (hdoubt hdbt).1).imp_left fun hunres ↦ (hdoubt hdbt).2 hunres
  fresh hadm hdbt := hfits.fresh hadm (hdoubt hdbt).1
  clean hsent := hfits.clean (hclean hsent)

theorem step_own (hallow : (mutationProtocol key).allowed phase op)
    (hord : Orderly exchanges key op shared) (hconc : Concerns key op) :
    Fits key ((mutationProtocol key).next phase op (exec exchanges op shared).1)
      (exec exchanges op shared).2 := by
  have hreg := hallow.resolve_left hfits.possible
  cases op with
  | isUnresolved other =>
    obtain rfl : other = key := hconc
    obtain rfl : phase = .outside := hreg rfl
    have hnext := hfits.isUnresolved_self
    simp only [mutationProtocol, true_and]
    exact hnext
  | reserve other =>
    obtain rfl : other = key := hconc
    obtain rfl : phase = .admitted := hreg rfl
    exact hfits.frame id rfl (fun hdoubt ↦ ⟨hdoubt, id⟩) id
  | prepare cid =>
    obtain rfl : cid = some key := hconc
    obtain rfl : phase = .admitted := hreg rfl
    have hcert := hfits.fresh rfl
    cases hprepare : exchanges.prepare shared.prepared with
    | ok _ =>
      simp only [exec, hprepare]
      exact hfits.frame id rfl (fun hdoubt ↦ ⟨hdoubt, id⟩) id
    | error exc =>
      simp only [exec, mutationProtocol, hprepare, if_true, settlePhase]
      have hset : ∀ phase : Phase, phase ≠ .lost → phase ≠ .waiting → phase ≠ .admitted →
          Fits key phase { shared with prepared := shared.prepared + 1 } :=
        fun phase hlost hwait hadm ↦
          { possible := hlost
            active := fun _ ↦ hfits.active nofun
            wire := hfits.wire.trans (if_neg hwait).symm
            doubt := fun hdoubt ↦ absurd hdoubt hcert
            fresh := fun heq ↦ absurd heq hadm
            clean := hfits.clean }
      split
      · exact hset .marking nofun nofun nofun
      · exact hset .freeing nofun nofun nofun
  | launch cid =>
    obtain rfl : cid = some key := hconc
    obtain rfl : phase = .admitted := hreg rfl
    simp only [mutationProtocol]
    exact hfits.launch_self
  | receive cid =>
    obtain rfl : cid = some key := hconc
    obtain rfl : phase = .waiting := hreg rfl
    simp only [mutationProtocol]
    exact hfits.receive_self (hord rfl)
  | commit other =>
    obtain rfl : other = key := hconc
    obtain rfl : phase = .freeing := hreg rfl
    simp only [mutationProtocol]
    exact hfits.leave nofun rfl rfl fun hdoubt ↦ (hfits.doubt hdoubt).resolve_right nofun
  | markUnresolved other =>
    obtain rfl : other = key := hconc
    obtain rfl : phase = .marking := hreg rfl
    simp only [mutationProtocol]
    exact hfits.leave nofun rfl rfl fun _ ↦ mem_insert_self _ _
  | clear other => exact hconc.elim

theorem step_other (own : Phase) (halien : ¬Concerns key op) :
    (mutationProtocol key).next own op (exec exchanges op shared).1 = own ∧
      Fits key phase (exec exchanges op shared).2 := by
  refine ⟨(quiet_foreign op halien).2 _, ?_⟩
  cases op with
  | isUnresolved other =>
    simp only [exec, Shared.isUnresolved]
    split
    · exact hfits
    · exact hfits.frame (mem_insert_of_mem ·) rfl (fun hdoubt ↦ ⟨hdoubt, id⟩) id
  | reserve other | prepare cid => exact hfits.frame id rfl (fun hdoubt ↦ ⟨hdoubt, id⟩) id
  | launch cid =>
    cases cid with
    | none => exact hfits
    | some other =>
      have hne : other ≠ key := fun heq ↦ halien (congrArg some heq)
      refine hfits.frame id (List.count_cons_of_ne hne) (fun hdoubt ↦ ⟨hdoubt, id⟩) ?_
      simp only [exec, Shared.launch]
      split
      · exact fun hsent ↦ (List.mem_cons.1 hsent).resolve_left hne.symm
      · exact id
  | receive cid =>
    cases cid with
    | none => exact hfits.frame id rfl (fun hdoubt ↦ ⟨hdoubt, id⟩) id
    | some other =>
      have hne : other ≠ key := fun heq ↦ halien (congrArg some heq)
      refine hfits.frame id (List.count_erase_of_ne hne.symm) ?_ id
      simp only [exec, Shared.receive]
      split
      · exact fun hdoubt ↦ ⟨(mem_insert.1 hdoubt).resolve_left hne.symm, id⟩
      · exact fun hdoubt ↦ ⟨hdoubt, id⟩
  | commit other =>
    have hother : key ≠ other := Ne.symm halien
    exact hfits.frame (fun hact ↦ mem_erase.2 ⟨hother, hact⟩) rfl (fun hdoubt ↦ ⟨hdoubt, id⟩) id
  | markUnresolved other =>
    have hother : key ≠ other := Ne.symm halien
    exact hfits.frame (fun hact ↦ mem_erase.2 ⟨hother, hact⟩) rfl
      (fun hdoubt ↦ ⟨hdoubt, (mem_insert_of_mem ·)⟩) id
  | clear other =>
    refine hfits.frame id rfl (fun hdoubt ↦ ?_) id
    obtain ⟨hother, hdbt⟩ := mem_erase.1 hdoubt
    exact ⟨hdbt, fun hunres ↦ mem_erase.2 ⟨hother, hunres⟩⟩

theorem outside_of_enter (hord : Orderly exchanges key op shared) (hconc : Concerns key op)
    (hallow : (mutationProtocol key).allowed .outside op) : phase = .outside := by
  have hreg := hallow.resolve_left nofun
  cases op with
  | isUnresolved other =>
    by_contra hbusy
    exact hord hconc (hfits.active hbusy)
  | clear other => exact hconc.elim
  | _ => cases hreg hconc

end Fits

section

variable {key : String} {ops : TextOps} {operation : String}

theorem follows_lost {Output : Type} {prog : MutationProgram Output} :
    (mutationProtocol key).Follows .lost prog fun _ _ ↦ True := by
  induction prog with
  | ret val | raise err => trivial
  | call op rest ih => exact ⟨Or.inl rfl, fun ans ↦ ih ans⟩

theorem follows_settle (operation : String) (out : Except Raised Fields) :
    (mutationProtocol key).Follows (settlePhase out)
      (settle ops operation (some key) out) fun _ _ ↦ True := by
  cases out with
  | error exc =>
    simp only [settlePhase, settle]
    split
    · exact ⟨Or.inr fun _ ↦ rfl, fun _ ↦ trivial⟩
    · exact ⟨Or.inr fun _ ↦ rfl, fun _ ↦ trivial⟩
  | ok res =>
    simp only [settlePhase, settle]
    cases (statusOf res).atLeast 500 with
    | error exc => trivial
    | ok failed =>
      cases failed with
      | true | false => exact ⟨Or.inr fun _ ↦ rfl, fun _ ↦ trivial⟩

theorem follows_settle_answer (operation : String) (reply : Except Raised Fields) :
    (mutationProtocol key).Follows (answerPhase reply) (settle ops operation (some key) reply)
      fun _ _ ↦ True := by
  unfold answerPhase
  split
  · exact follows_settle operation reply
  · exact follows_lost

theorem follows_submitMutation_self :
    (mutationProtocol key).Follows .outside (submitMutation ops operation (some key))
      fun _ _ ↦ True := by
  refine ⟨Or.inr fun _ ↦ rfl, fun unresolved ↦ ?_⟩
  cases unresolved with
  | true => trivial
  | false =>
    have hadm : (mutationProtocol key).next .outside (.isUnresolved key) false =
        .admitted := if_pos ⟨rfl, rfl⟩
    rw [hadm]
    refine ⟨Or.inr fun _ ↦ rfl, fun _ ↦ ⟨Or.inr fun _ ↦ rfl, fun prepared ↦ ?_⟩⟩
    cases prepared with
    | error exc =>
      have hnext : (mutationProtocol key).next .admitted (.prepare (some key)) (.error exc) =
          settlePhase (.error exc) := if_pos rfl
      have hset := @follows_settle key ops operation (.error exc)
      rw [← hnext] at hset
      exact hset
    | ok _ =>
      refine ⟨Or.inr fun _ ↦ rfl, fun _ ↦ ?_⟩
      have hwait : (mutationProtocol key).next .admitted (.launch (some key)) () =
          .waiting := if_pos rfl
      refine ⟨Or.inr fun _ ↦ hwait, fun reply ↦ ?_⟩
      have hans : (mutationProtocol key).next .waiting (.receive (some key)) reply =
          answerPhase reply := if_pos rfl
      have hset := @follows_settle_answer key ops operation reply
      rw [← hans, ← hwait] at hset
      exact hset

def Foreign {Output : Type} (key : String) (prog : MutationProgram Output) : Prop :=
  prog.Performs (fun op ↦ ¬Concerns key op) fun _ ↦ True

theorem performs_submitMutation_other {cid : Option String}
    (hother : cid ≠ some key) : Foreign key (submitMutation ops operation cid) := by
  have hkey : ∀ other, cid = some other → other ≠ key :=
    fun other hsome heq ↦ hother (hsome.trans (congrArg some heq))
  have hends : Foreign key (markUnresolved cid) ∧ Foreign key (commit cid) := by
    cases cid with
    | none => exact ⟨trivial, trivial⟩
    | some other => exact ⟨⟨hkey other rfl, fun _ ↦ trivial⟩, hkey other rfl, fun _ ↦ trivial⟩
  have hsettle : ∀ out, Foreign key (settle ops operation cid out) := by
    intro out
    cases out with
    | error exc =>
      simp only [settle]
      split
      · exact performs_bind (performs_mono hends.1 fun _ _ ↦ trivial)
      · exact performs_bind (performs_mono hends.2 fun _ _ ↦ trivial)
    | ok res =>
      simp only [settle]
      cases (statusOf res).atLeast 500 with
      | error exc => trivial
      | ok failed =>
        cases failed with
        | true => exact performs_bind (performs_mono hends.1 fun _ _ ↦ trivial)
        | false => exact performs_bind (performs_mono hends.2 fun _ _ ↦ trivial)
  have hsend : Foreign key (send cid) := by
    refine ⟨hother, fun prepared ↦ ?_⟩
    cases prepared with
    | error exc => trivial
    | ok _ => exact ⟨hother, fun _ ↦ ⟨hother, fun _ ↦ trivial⟩⟩
  have hadmission : Foreign key (admission cid) := by
    cases cid with
    | none => trivial
    | some other =>
      refine ⟨hkey other rfl, fun unresolved ↦ ?_⟩
      cases unresolved with
      | true => trivial
      | false => exact ⟨hkey other rfl, fun _ ↦ trivial⟩
  exact performs_bind (performs_mono hadmission fun _ _ ↦
    performs_bind (performs_mono hsend fun out _ ↦ hsettle out))

theorem follows_call {call : Call} :
    (mutationProtocol key).Follows .outside (call.program ops) fun _ _ ↦ True := by
  cases call with
  | submitMutation operation cid =>
    apply Protocol.follows_bind
    by_cases hown : cid = some key
    · subst hown
      refine Protocol.follows_mono follows_submitMutation_self ?_
      rintro fin (err | res) - <;> trivial
    · refine Protocol.follows_mono (Protocol.follows_of_performs quiet_foreign
        (performs_submitMutation_other hown)) ?_
      rintro fin (err | res) - <;> trivial
  | resolveUncertainSubmission cid => exact ⟨Or.inr trivial, fun _ ↦ trivial⟩

end

def Pool.calls {Thread : Type} (ops : TextOps) (calls : Thread → Call) :
    Pool Thread Op Op.Res Raised Unit Shared where
  shared := .initial
  threads tid := (calls tid).program ops

/-- In orderly runs at most one mutation of an id is on the wire, and none is sent while an earlier
one is in doubt. -/
theorem one_mutation_in_flight {Thread : Type} [DecidableEq Thread] (ops : TextOps)
    (exchanges : Exchanges) (calls : Thread → Call) (key : String)
    (pool : Pool Thread Op Op.Res Raised Unit Shared)
    (hreach : Pool.Reaches (exec exchanges) (Orderly exchanges key) (Pool.calls ops calls) pool) :
    pool.shared.onWire.count key ≤ 1 ∧ key ∉ pool.shared.sentInDoubt := by
  have hinitial : Fits key .outside Shared.initial :=
    { possible := nofun
      active := fun hbusy ↦ absurd rfl hbusy
      wire := rfl
      doubt := fun hdoubt ↦ absurd hdoubt (notMem_empty key)
      fresh := nofun
      clean := List.not_mem_nil }
  obtain ⟨phase, hfits⟩ := Pool.reaches_sole (fun tid ↦ follows_call) hinitial
    (fun _ _ _ hfits hperm hord hcon ↦ hfits.step_own hperm hord hcon)
    (fun _ own _ _ hfits _ hforeign ↦ hfits.step_other own hforeign)
    (fun _ _ _ hfits hord hcon hperm ↦
      hfits.outside_of_enter hord hcon hperm) hreach
  refine ⟨?_, hfits.clean⟩
  rw [hfits.wire]
  split <;> omega

def exampleExchanges (first : Except Raised Fields) : Exchanges where
  prepare _ := .ok ()
  reply
    | 0 => first
    | _ => .ok [("_http_status", .int 200)]

def exampleCalls : Fin 3 → Call
  | 0 => .submitMutation "placement" (some "order")
  | 1 => .submitMutation "placement" (some "order")
  | 2 => .resolveUncertainSubmission "order"

def afterSchedule (first : Except Raised Fields) (sched : List (Fin 3)) : Shared :=
  ((Pool.calls .ascii exampleCalls).runSchedule (exec (exampleExchanges first)) sched).shared

theorem order_sent_twice :
    (afterSchedule (.ok []) [0, 1, 0, 1, 0, 1, 0, 1]).onWire.count "order" = 2 ∧
      "order" ∈ (afterSchedule
        (.error { cls := .sdkError, message := "live provider request failed" })
        [0, 0, 0, 0, 0, 0, 1, 1, 1, 1]).sentInDoubt := by
  decide

/-- A placement whose connection is lost, its resolution, and a second placement. -/
theorem resolved_order_in_flight_once :
    let final := afterSchedule (.error { cls := .connectionError, message := "connection reset" })
      [0, 0, 0, 0, 0, 0, 2, 1, 1, 1, 1]
    final.onWire.count "order" ≤ 1 ∧ "order" ∉ final.sentInDoubt :=
  one_mutation_in_flight .ascii _ exampleCalls "order" _
    (Pool.reaches_runSchedule _ .start (by decide))

end Tradex.Brokers.Mutation

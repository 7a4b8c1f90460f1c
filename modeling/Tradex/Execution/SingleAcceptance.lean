import Tradex.Execution.Halting
import Tradex.Execution.PipelineActions

/-!
# One accepted order for each correlation id

Submissions, cancellations, modifications and kill switches run interleaved against one guard and
one venue.
-/

namespace Tradex.Execution.SingleAcceptance

open Tradex.Domain Engine Protocol

variable (key : String)

def Carries (req : OrderRequest) : Prop :=
  req.correlationId.map CorrelationId.key = some key

instance (key : String) (req : OrderRequest) : Decidable (Carries key req) :=
  inferInstanceAs (Decidable (_ = _))

def acceptedUnder (world : World) : ℕ :=
  (world.venueAccepted.filter fun req ↦ decide (Carries key req)).length

inductive Phase where
  | outside
  | holding
  | sent
  | refuted
deriving DecidableEq

def ownPhase (resv : Option CorrelationId) : Phase :=
  if resv.map CorrelationId.key = some key then .holding else .outside

def sentPhase (resv : Option CorrelationId) : Phase :=
  if resv.map CorrelationId.key = some key then .sent else .outside

def keyProtocol (cfg : EngineConfig) (key : String) : Protocol Op Op.Res Phase where
  allowed phase op := phase = .refuted ∨
    match op with
    | .checkAndReserve cid _ => cid.key = key → phase = .outside
    | .recordResult cid _ => cid.key = key → phase ≠ .outside
    | .releaseOwn cid => cid.key = key → phase = .holding
    | .venueSubmit req => Carries key req → phase = .holding
    | _ => True
  next
    | .refuted, _, _ => .refuted
    | phase, .checkAndReserve cid _, .ok .fresh => if cid.key = key then .holding else phase
    | phase, .recordResult cid _, _ => if cid.key = key then .outside else phase
    | phase, .releaseOwn cid, _ => if cid.key = key then .outside else phase
    | _, .venueSubmit _, .accepted _ (some _) => .refuted
    | phase, .venueSubmit req, .accepted _ none => if Carries key req then .sent else phase
    | phase, .venueSubmit req, .raised err latch _ =>
      if Carries key req ∧ boundaryCrossed cfg err latch then .sent else phase
    | phase, _, _ => phase

def KeyFree : Op → Prop
  | .checkAndReserve _ _ => False
  | .recordResult _ _ => False
  | .releaseOwn _ => False
  | .venueSubmit _ => False
  | _ => True

def SoundOutcome : SubmitOutcome → Prop
  | .accepted _ fill => fill = none
  | .raised (.orderSubmissionUnknown _) _ _ => True
  | .raised _ _ held => held = false

def SoundVenue (world : World) : Prop :=
  ∀ index req, SoundOutcome (world.environment.submits index req)

def handedBack : Op → Option String
  | .releaseSubmitKey cid => some cid.key
  | _ => none

def KeepsReservation (op : Op) (world : World) : Prop :=
  handedBack op = some key → key ∉ world.guard.reserved

instance (key : String) (op : Op) (world : World) : Decidable (KeepsReservation key op world) :=
  inferInstanceAs (Decidable (_ → _))

structure Fits (key : String) (phase : Phase) (world : World) : Prop where
  venue : SoundVenue world
  possible : phase ≠ .refuted
  reserved : phase ≠ .outside → key ∈ world.guard.reserved ∧ world.guard.completed.get key = none
  unsent : phase = .holding → acceptedUnder key world = 0
  once : acceptedUnder key world ≤ 1
  remembered : acceptedUnder key world ≠ 0 →
    key ∈ world.guard.reserved ∨ world.guard.completed.get key ≠ none

def Concerns : Op → World → Prop
  | .checkAndReserve cid hash, world =>
    cid.key = key ∧ (world.guard.checkAndReserve cid hash).1 = .ok .fresh
  | .recordResult cid _, _ => cid.key = key
  | .releaseOwn cid, _ => cid.key = key
  | .venueSubmit req, _ => Carries key req
  | _, _ => False

variable {hash : Option String} {cid : CorrelationId}

section Invariant

variable {cfg : EngineConfig} {key : String} {phase own : Phase} {world after : World} {op : Op}

theorem Fits.frame (hfits : Fits key phase world) (hvenue : SoundVenue after)
    (hresv : key ∈ after.guard.reserved ↔ key ∈ world.guard.reserved)
    (hcompl : after.guard.completed.get key = world.guard.completed.get key)
    (hacc : acceptedUnder key after = acceptedUnder key world) : Fits key phase after where
  venue := hvenue
  possible := hfits.possible
  reserved := by
    rw [hresv, hcompl]
    exact hfits.reserved
  unsent := by
    rw [hacc]
    exact hfits.unsent
  once := by
    rw [hacc]
    exact hfits.once
  remembered := by
    rw [hacc, hresv, hcompl]
    exact hfits.remembered

theorem quiet_keyFree {phase : Phase} : (keyProtocol cfg key).Quiet phase KeyFree := by
  intro op hfree
  cases op with
  | checkAndReserve cid requestHash | recordResult cid res
  | releaseOwn cid | venueSubmit req => exact hfree.elim
  | _ => exact ⟨Or.inr trivial, fun _ ↦ by cases phase <;> rfl⟩

theorem fits_keyFree (hfits : Fits key phase world) (hfree : KeyFree op)
    (hkeep : KeepsReservation key op world) : Fits key phase (exec cfg op world).2 := by
  refine World.kept_exec _ (fun _ _ _ _ ↦ hfits.frame hfits.venue Iff.rfl rfl rfl)
    (fun _ _ _ _ _ _ ↦ hfits.frame hfits.venue Iff.rfl rfl rfl) fun hplain ↦ ?_
  cases op with
  | releaseSubmitKey cid =>
    refine hfits.frame hfits.venue ?_ rfl rfl
    -- a key that is not reserved is not released either
    have hmem := MemoryIdempotencyGuard.mem_reserved_release world.guard cid key
    by_cases hsame : cid.key = key
    · have hnot := hkeep (congrArg some hsame)
      exact hmem.trans ⟨fun hkept ↦ hkept.2, fun hkept ↦ absurd hkept hnot⟩
    · exact hmem.trans ⟨fun hkept ↦ hkept.2, fun hkept ↦ ⟨fun heq ↦ hsame heq.symm, hkept⟩⟩
  | _ =>
    first | exact hfree.elim | exact hplain.elim | exact hfits.frame hfits.venue Iff.rfl rfl rfl

theorem acceptedUnder_venueSubmit (key : String) (world : World) (req : OrderRequest) :
    acceptedUnder key (world.venueSubmit req).2 = acceptedUnder key world +
      if (world.environment.submits 0 req).venueHolds ∧ Carries key req then 1 else 0 := by
  unfold acceptedUnder World.venueSubmit
  by_cases hheld : (world.environment.submits 0 req).venueHolds = true
  · by_cases hcarry : Carries key req
    · simp [hheld, hcarry]
    · simp [hheld, hcarry]
  · simp [hheld]

theorem soundVenue_venueSubmit (hvenue : SoundVenue world) (req : OrderRequest) :
    SoundVenue (world.venueSubmit req).2 :=
  fun index submitted ↦ hvenue (index + 1) submitted

theorem crossed_of_venueHolds {err : TradingError} {latch : Option Bool} {held : Bool}
    (hsound : SoundOutcome (.raised err latch held)) (hheld : held = true) :
    boundaryCrossed cfg err latch = true := by
  cases err with
  | orderSubmissionUnknown msg => simp [boundaryCrossed]
  | _ =>
    have hfree : held = false := hsound
    rw [hfree] at hheld
    cases hheld

theorem Fits.of_fresh (hfits : Fits cid.key phase world)
    (hfresh : (world.guard.checkAndReserve cid hash).1 = .ok .fresh) :
    phase = .outside ∧ Fits cid.key .holding
      { world with guard := (world.guard.checkAndReserve cid hash).2 } := by
  rcases world.guard.checkAndReserve_cases with
    ⟨ans, hans, hres⟩ | ⟨hnew, hfree, hres⟩
  · rw [hres] at hfresh
    exact absurd hfresh hans
  · have hnone : acceptedUnder cid.key world = 0 := by
      by_contra hsome
      exact (hfits.remembered hsome).elim hfree fun hdone ↦ hdone hnew
    rw [hres]
    refine ⟨by_contra fun hbusy ↦ hfree (hfits.reserved hbusy).1, hfits.venue, nofun, fun _ ↦ ?_,
      fun _ ↦ hnone, hfits.once, fun hsome ↦ absurd hnone hsome⟩
    exact ⟨Finset.mem_insert_self _ _, hnew⟩

theorem Fits.send {req : OrderRequest} (hfits : Fits key .holding world)
    (hcarry : Carries key req) :
    Fits key ((keyProtocol cfg key).next .holding (.venueSubmit req)
      (world.venueSubmit req).1) (world.venueSubmit req).2 := by
  have hvenue := soundVenue_venueSubmit hfits.venue req
  have hcnt := acceptedUnder_venueSubmit key world req
  have hsound := hfits.venue 0 req
  have honce : acceptedUnder key (world.venueSubmit req).2 ≤ 1 := by
    rw [hcnt, hfits.unsent rfl]
    split <;> omega
  have hresv := hfits.reserved nofun
  have hsent : Fits key .sent (world.venueSubmit req).2 :=
    ⟨hvenue, nofun, fun _ ↦ hresv, nofun, honce, fun _ ↦ .inl hresv.1⟩
  have hans : (world.venueSubmit req).1 = world.environment.submits 0 req := rfl
  rw [hans]
  cases hout : world.environment.submits 0 req with
  | accepted order fill =>
    rw [hout] at hsound
    obtain rfl : fill = none := hsound
    have hnext : (keyProtocol cfg key).next .holding (.venueSubmit req)
        (.accepted order none) = .sent := if_pos hcarry
    rw [hnext]
    exact hsent
  | raised err latch held =>
    rw [hout] at hsound hcnt
    by_cases hcross : boundaryCrossed cfg err latch = true
    · have hnext : (keyProtocol cfg key).next .holding (.venueSubmit req)
          (.raised err latch held) = .sent := if_pos ⟨hcarry, hcross⟩
      rw [hnext]
      exact hsent
    · have hnext : (keyProtocol cfg key).next .holding (.venueSubmit req)
          (.raised err latch held) = .holding := if_neg fun hboth ↦ hcross hboth.2
      have hfree : ¬((SubmitOutcome.raised err latch held).venueHolds = true ∧
          Carries key req) :=
        fun hboth ↦ hcross (crossed_of_venueHolds hsound hboth.1)
      rw [if_neg hfree] at hcnt
      rw [hnext]
      exact hfits.frame hvenue Iff.rfl rfl hcnt

theorem Fits.step_own (hfits : Fits key phase world)
    (hallow : (keyProtocol cfg key).allowed phase op) (hconc : Concerns key op world) :
    Fits key ((keyProtocol cfg key).next phase op (exec cfg op world).1) (exec cfg op world).2 := by
  have hreg := hallow.resolve_left hfits.possible
  cases op with
  | checkAndReserve cid hash =>
    obtain ⟨rfl, hnew⟩ := hconc
    obtain ⟨rfl, hhold⟩ := hfits.of_fresh hnew
    have hnext : (keyProtocol cfg cid.key).next .outside
        (.checkAndReserve cid hash) (exec cfg (.checkAndReserve cid hash) world).1 = .holding := by
      change (keyProtocol cfg cid.key).next .outside
        (.checkAndReserve cid hash) (world.guard.checkAndReserve cid hash).1 = _
      rw [hnew]
      exact if_pos rfl
    rw [hnext]
    exact hhold
  | recordResult cid res =>
    have hnext : (keyProtocol cfg key).next phase (.recordResult cid res) () =
        .outside := by
      cases phase with
      | refuted => exact absurd rfl hfits.possible
      | _ => exact if_pos hconc
    have hcompl := (world.guard.get_completed_recordResult cid res key).trans (if_pos hconc)
    rw [hnext]
    refine ⟨hfits.venue, nofun, fun hbusy ↦ absurd rfl hbusy, nofun, hfits.once, fun _ ↦ .inr ?_⟩
    exact hcompl.trans_ne (Option.some_ne_none _)
  | releaseOwn cid =>
    obtain rfl : phase = .holding := hreg hconc
    have hnone := hfits.unsent rfl
    have hnext : (keyProtocol cfg key).next .holding (.releaseOwn cid) () = .outside :=
      if_pos hconc
    rw [hnext]
    exact ⟨hfits.venue, nofun, fun hbusy ↦ absurd rfl hbusy, nofun, hfits.once,
      fun hsome ↦ absurd hnone hsome⟩
  | venueSubmit req =>
    obtain rfl : phase = .holding := hreg hconc
    exact hfits.send hconc
  | _ => exact hconc.elim

theorem Fits.step_other (hfits : Fits key phase world) (hkeep : KeepsReservation key op world)
    (halien : ¬Concerns key op world) :
    (keyProtocol cfg key).next own op (exec cfg op world).1 = own ∧
      Fits key phase (exec cfg op world).2 := by
  cases op with
  | checkAndReserve cid hash =>
    simp only [exec]
    rcases world.guard.checkAndReserve_cases with
      ⟨ans, hans, hres⟩ | ⟨-, -, hres⟩
    · rw [hres]
      refine ⟨?_, hfits⟩
      cases own <;> cases ans with
      | error err => rfl
      | ok reservation =>
        cases reservation with
        | fresh => exact absurd rfl hans
        | duplicate res => rfl
    · have hother : cid.key ≠ key := fun hsame ↦ halien ⟨hsame, by rw [hres]⟩
      rw [hres]
      refine ⟨by cases own <;> first | rfl | exact if_neg hother, hfits.frame hfits.venue ?_ rfl rfl⟩
      exact Finset.mem_insert.trans ⟨fun hmem ↦ hmem.resolve_left fun heq ↦ hother heq.symm, Or.inr⟩
  | recordResult cid res =>
    have hcompl := (world.guard.get_completed_recordResult cid res key).trans (if_neg halien)
    refine ⟨by cases own <;> first | rfl | exact if_neg halien,
      hfits.frame hfits.venue ?_ hcompl rfl⟩
    exact (world.guard.mem_reserved_recordResult cid res key).trans
      ⟨fun hmem ↦ hmem.2, fun hmem ↦ ⟨fun heq ↦ halien heq.symm, hmem⟩⟩
  | releaseOwn cid =>
    refine ⟨by cases own <;> first | rfl | exact if_neg halien, hfits.frame hfits.venue ?_ rfl rfl⟩
    exact (world.guard.mem_reserved_release cid key).trans
      ⟨fun hmem ↦ hmem.2, fun hmem ↦ ⟨fun heq ↦ halien heq.symm, hmem⟩⟩
  | venueSubmit req =>
    have hcnt := acceptedUnder_venueSubmit key world req
    rw [if_neg fun hboth ↦ halien hboth.2] at hcnt
    refine ⟨?_, hfits.frame (soundVenue_venueSubmit hfits.venue req) Iff.rfl rfl hcnt⟩
    have hsound := hfits.venue 0 req
    change (keyProtocol cfg key).next own (.venueSubmit req) (world.environment.submits 0 req) = own
    cases hout : world.environment.submits 0 req with
    | accepted order fill =>
      rw [hout] at hsound
      obtain rfl : fill = none := hsound
      cases own <;> first | rfl | exact if_neg halien
    | raised err latch held => cases own <;> first | rfl | exact if_neg fun hboth ↦ halien hboth.1
  | _ => refine ⟨(quiet_keyFree _ ?_).2 _, fits_keyFree hfits ?_ hkeep⟩ <;> trivial

theorem Fits.outside_of_enter (hfits : Fits key phase world) (hconc : Concerns key op world)
    (hallow : (keyProtocol cfg key).allowed .outside op) : phase = .outside := by
  have hreg := hallow.resolve_left nofun
  cases op with
  | checkAndReserve cid hash =>
    obtain ⟨rfl, hnew⟩ := hconc
    exact (hfits.of_fresh hnew).1
  | recordResult cid res => exact absurd rfl (hreg hconc)
  | releaseOwn cid | venueSubmit req => exact nomatch hreg hconc
  | _ => exact hconc.elim

end Invariant

variable {cfg : EngineConfig}

section

variable {cfg : EngineConfig}

theorem keyFree_of_haltAction {op : Op} (hhalt : HaltAction op) : KeyFree op := by
  cases op with
  | checkAndReserve cid requestHash | recordResult cid res
  | releaseOwn cid | venueSubmit req => exact hhalt
  | _ => trivial

theorem keyFree_append (cfg : EngineConfig) (ev : DomainEvent) :
    Program.Performs KeyFree (append cfg ev) fun _ ↦ True :=
  performs_append trivial fun _ ↦ keyFree_of_haltAction

variable {req : OrderRequest}

theorem performs_makeOrder {status : OrderStatus} :
    Program.Performs KeyFree (makeOrder req status) fun _ ↦ True :=
  performs_act_bind (by trivial) fun _ ↦ trivial

theorem performs_intakeRefusal : Program.Performs KeyFree (intakeRefusal cfg) fun _ ↦ True :=
  Parts.intakeRefusal composes_performs (performs_act trivial fun _ ↦ trivial)
    (performs_act trivial fun _ ↦ trivial)

theorem performs_modifyBody {oid : String} :
    Program.Performs KeyFree (modifyBody cfg oid req) fun _ ↦ True := by
  refine Parts.modifyBody composes_performs (keyFree_append cfg) (fun op hsweep ↦ ?_)
    (fun _ ↦ performs_act trivial fun _ ↦ trivial)
    (fun _ _ ↦ performs_act trivial fun _ ↦ trivial) oid req
  refine performs_act ?_ fun _ ↦ trivial
  cases op with
  | checkAndReserve cid requestHash | recordResult cid res
  | releaseOwn cid | venueSubmit req => exact hsweep
  | _ => trivial

end

/-! ## The calls follow the protocol -/

section

variable {cfg : EngineConfig} {key : String}

def Obeys (cfg : EngineConfig) (key : String) (phase : Phase) {Output : Type}
    (prog : EngineProgram Output) : Prop :=
  (keyProtocol cfg key).Follows phase prog fun _ _ ↦ True

variable {Output : Type} {latch : Option Bool} {order : Order}

theorem obeys_refuted {prog : EngineProgram Output} : Obeys cfg key .refuted prog := by
  induction prog with
  | ret val | raise err => trivial
  | call op rest ih => exact ⟨Or.inl rfl, fun ans ↦ ih ans⟩

section Rules

variable {Input : Type} {prog : EngineProgram Input} {next : Input → EngineProgram Output}
  {phase : Phase}

theorem obeys_then {between : Phase → Except TradingError Input → Prop}
    (hprog : (keyProtocol cfg key).Follows phase prog between)
    (hnext : ∀ fin val, between fin (.ok val) → Obeys cfg key fin (next val)) :
    Obeys cfg key phase (prog >>= next) :=
  follows_then hprog hnext fun _ _ _ ↦ trivial

theorem obeys_keyFree_bind {returned : Input → Prop} (hperf : prog.Performs KeyFree returned)
    (hnext : ∀ val, Obeys cfg key phase (next val)) : Obeys cfg key phase (prog >>= next) :=
  follows_quiet_bind quiet_keyFree hperf (fun val _ ↦ hnext val) fun _ ↦ trivial

theorem obeys_act_bind {op : Op} {next : op.Res → EngineProgram Output} (hfree : KeyFree op)
    (hnext : ∀ ans, Obeys cfg key phase (next ans)) : Obeys cfg key phase (act op >>= next) :=
  obeys_keyFree_bind (performs_act hfree fun _ ↦ trivial) hnext

end Rules

variable {resv : Option CorrelationId} {err : TradingError}
  {post : Phase → Except TradingError Output → Prop} {req : OrderRequest}

theorem follows_releaseReservation (hguard : cfg.hasGuard = true) :
    (keyProtocol cfg key).Follows (ownPhase key resv) (releaseReservation cfg resv)
      fun fin _ ↦ fin = .outside := by
  cases resv with
  | none => exact rfl
  | some cid =>
    simp only [releaseReservation, hguard]
    by_cases hsame : cid.key = key
    · have hown : ownPhase key (some cid) = .holding := if_pos (congrArg some hsame)
      rw [hown]
      exact ⟨Or.inr fun _ ↦ rfl, fun _ ↦ if_pos hsame⟩
    · have hown : ownPhase key (some cid) = .outside :=
        if_neg fun heq ↦ hsame (Option.some_inj.1 heq)
      rw [hown]
      exact ⟨Or.inr fun heq ↦ absurd heq hsame, fun _ ↦ if_neg hsame⟩

theorem follows_release_raise (hguard : cfg.hasGuard = true)
    (hpost : ∀ fin raised, post fin (.error raised)) :
    (keyProtocol cfg key).Follows (ownPhase key resv)
      (do releaseReservation cfg resv; .raise err : EngineProgram Output) post :=
  follows_then (follows_releaseReservation hguard)
    (fun fin _ _ ↦ hpost fin err) fun fin raised _ ↦ hpost fin raised

theorem obeys_complete (resv : Option CorrelationId) (res : IdempotencyResult)
    {phase : Phase} (howner : resv.map CorrelationId.key = some key → phase ≠ .outside) :
    Obeys cfg key phase (do
      recordResult cfg resv res
      pure res : EngineProgram IdempotencyResult) := by
  have hrec : Obeys cfg key phase (recordResult cfg resv res) := by
    cases resv with
    | none => trivial
    | some cid =>
      unfold recordResult
      dsimp only
      split
      · exact ⟨Or.inr fun heq ↦ howner (congrArg some heq), fun _ ↦ trivial⟩
      · trivial
  exact obeys_then hrec fun _ _ _ ↦ trivial

theorem follows_reserve
    {next : Except TradingError Reservation → EngineProgram Output}
    (hnew : (keyProtocol cfg key).Follows (ownPhase key (some cid))
      (next (.ok .fresh)) post)
    (hother : ∀ ans, ans ≠ .ok .fresh →
      (keyProtocol cfg key).Follows .outside (next ans) post) :
    (keyProtocol cfg key).Follows .outside (act (.checkAndReserve cid hash) >>= next) post := by
  refine ⟨Or.inr fun _ ↦ rfl, fun ans ↦ ?_⟩
  cases ans with
  | error err => exact hother (.error err) (by simp)
  | ok reservation =>
    cases reservation with
    | duplicate res => exact hother (.ok (.duplicate res)) (by simp)
    | fresh =>
      have hnext : (keyProtocol cfg key).next .outside (.checkAndReserve cid hash)
          (.ok .fresh) = ownPhase key (some cid) := by
        simp [keyProtocol, ownPhase]
      rw [hnext]
      exact hnew

theorem obeys_rejectIntake (hguard : cfg.hasGuard = true) (req : OrderRequest) (why : String)
    (resv : Option CorrelationId) :
    Obeys cfg key (ownPhase key resv) (rejectIntake cfg req why resv) := by
  refine obeys_then (follows_releaseReservation hguard) fun fin _ _ ↦ ?_
  refine obeys_keyFree_bind performs_makeOrder fun order ↦ ?_
  refine obeys_act_bind (by trivial) fun _ ↦ ?_
  refine obeys_act_bind (by trivial) fun _ ↦ ?_
  exact obeys_keyFree_bind (keyFree_append cfg _) fun _ ↦ trivial

theorem obeys_acceptOrder (req : OrderRequest) (resv : Option CorrelationId) (order : Order) :
    Obeys cfg key (sentPhase key resv) (acceptOrder cfg req resv order none) := by
  have howner : resv.map CorrelationId.key = some key → sentPhase key resv ≠ .outside := by
    intro hkey
    rw [sentPhase, if_pos hkey]
    exact nofun
  have hcompl := @obeys_complete cfg key resv (submittedReceipt order) _ howner
  refine obeys_act_bind (by trivial) fun _ ↦ ?_
  refine obeys_act_bind (by trivial) fun _ ↦ ?_
  refine obeys_keyFree_bind (keyFree_append cfg _) fun placed ↦ ?_
  cases placed with
  | false => trivial
  | true =>
    refine obeys_keyFree_bind (keyFree_append cfg _) fun acknowledged ↦ ?_
    cases acknowledged with
    | false => trivial
    | true =>
      cases resv with
      | none => exact hcompl
      | some cid => exact obeys_act_bind (by trivial) fun _ ↦ hcompl

theorem obeys_submissionRaised (hguard : cfg.hasGuard = true) :
    Obeys cfg key
      (if boundaryCrossed cfg err latch then sentPhase key resv else ownPhase key resv)
      (submissionRaised cfg req resv err latch) := by
  unfold submissionRaised
  split
  · refine obeys_keyFree_bind (keyFree_append cfg _) fun _ ↦ ?_
    refine obeys_keyFree_bind performs_makeOrder fun order ↦ ?_
    have hmove : Program.Performs KeyFree
        (Program.ofExcept (order.transitionTo .unknown none) : EngineProgram Order) fun _ ↦ True :=
      Program.performs_ofExcept fun _ _ ↦ trivial
    refine obeys_keyFree_bind hmove fun unknown ↦ ?_
    refine obeys_act_bind (by trivial) fun _ ↦ ?_
    refine obeys_keyFree_bind (keyFree_append cfg _) fun _ ↦ ?_
    exact obeys_keyFree_bind (Program.performs_weaken performs_tripKillSwitch
      fun _ hhalt ↦ keyFree_of_haltAction hhalt) fun _ ↦ trivial
  · exact obeys_rejectIntake hguard req err.message resv

theorem next_accepted :
    (keyProtocol cfg key).next (ownPhase key req.correlationId) (.venueSubmit req)
      (.accepted order none) = sentPhase key req.correlationId := by
  unfold ownPhase sentPhase
  by_cases hcarry : req.correlationId.map CorrelationId.key = some key
  · rw [if_pos hcarry, if_pos hcarry]
    exact if_pos hcarry
  · rw [if_neg hcarry, if_neg hcarry]
    exact if_neg hcarry

theorem next_raised {held : Bool} :
    (keyProtocol cfg key).next (ownPhase key req.correlationId) (.venueSubmit req)
      (.raised err latch held) =
        if boundaryCrossed cfg err latch then sentPhase key req.correlationId
        else ownPhase key req.correlationId := by
  unfold ownPhase sentPhase
  by_cases hcarry : req.correlationId.map CorrelationId.key = some key
  · rw [if_pos hcarry, if_pos hcarry]
    by_cases hcross : boundaryCrossed cfg err latch = true
    · rw [if_pos hcross]
      exact if_pos ⟨hcarry, hcross⟩
    · rw [if_neg hcross]
      exact if_neg fun hboth ↦ hcross hboth.2
  · rw [if_neg hcarry, if_neg hcarry, ite_self]
    exact if_neg fun hboth ↦ hcarry hboth.1

variable (hguard : cfg.hasGuard = true)

include hguard

theorem obeys_callVenue (req : OrderRequest) :
    Obeys cfg key (ownPhase key req.correlationId) (callVenue cfg req req.correlationId) := by
  refine ⟨Or.inr fun hcarry ↦ if_pos hcarry, fun out ↦ ?_⟩
  cases out with
  | accepted order fill =>
    cases fill with
    | none =>
      rw [next_accepted]
      exact obeys_acceptOrder req req.correlationId order
    | some fill => cases ownPhase key req.correlationId <;> exact obeys_refuted
  | raised err latch held =>
    rw [next_raised]
    exact obeys_submissionRaised hguard

variable {cid : Option CorrelationId} {hash : String} {oid : String}

theorem obeys_dispatch :
    Obeys cfg key (ownPhase key req.correlationId) (dispatch cfg req req.correlationId) := by
  refine obeys_keyFree_bind (keyFree_append cfg _) fun durable ↦ ?_
  cases durable with
  | true => exact obeys_callVenue hguard req
  | false => exact follows_release_raise hguard fun _ _ ↦ trivial

theorem obeys_riskRejected : Obeys cfg key (ownPhase key resv) (riskRejected cfg req resv) := by
  refine obeys_keyFree_bind performs_makeOrder fun order ↦ ?_
  refine obeys_act_bind (by trivial) fun _ ↦ ?_
  refine obeys_then (follows_releaseReservation hguard) fun fin _ _ ↦ ?_
  refine obeys_act_bind (by trivial) fun _ ↦ ?_
  refine obeys_keyFree_bind (keyFree_append cfg _) fun _ ↦ ?_
  exact obeys_keyFree_bind (keyFree_append cfg _) fun _ ↦ trivial

theorem follows_riskGate (req : OrderRequest) (resv : Option CorrelationId) :
    (keyProtocol cfg key).Follows (ownPhase key resv) (riskGate cfg req resv)
      fun fin out ↦ out = .ok none → fin = ownPhase key resv := by
  have hchk : Program.Performs KeyFree (act (.riskCheck req)) fun _ ↦ True :=
    performs_act trivial fun _ ↦ trivial
  unfold riskGate
  split
  · refine follows_quiet_bind quiet_keyFree hchk (fun verdict _ ↦ ?_) fun _ heq ↦ nomatch heq
    cases verdict with
    | error err => exact follows_release_raise hguard fun _ _ heq ↦ nomatch heq
    | ok approved =>
      cases approved with
      | false =>
        exact follows_then (obeys_riskRejected hguard)
          (fun _ _ _ heq ↦ nomatch heq) fun _ _ _ heq ↦ nomatch heq
      | true =>
        refine follows_quiet_bind quiet_keyFree (keyFree_append cfg _)
          (fun durable _ ↦ ?_) fun _ heq ↦ nomatch heq
        cases durable with
        | true => exact fun _ ↦ rfl
        | false => exact follows_release_raise hguard fun _ _ heq ↦ nomatch heq
  · exact fun _ ↦ rfl

theorem obeys_afterReservation :
    Obeys cfg key (ownPhase key req.correlationId)
      (afterReservation cfg req req.correlationId) := by
  refine obeys_then (follows_riskGate hguard req req.correlationId) fun fin rejected hgone ↦ ?_
  cases rejected with
  | some receipt => trivial
  | none =>
    rw [hgone rfl]
    dsimp only
    split
    · exact obeys_rejectIntake hguard req _ req.correlationId
    · exact obeys_dispatch hguard

theorem follows_checkKey :
    (keyProtocol cfg key).Follows .outside (checkKey cfg req) fun fin out ↦
      ∀ resv, out = .ok (.proceed resv) →
        resv = req.correlationId ∧ fin = ownPhase key req.correlationId := by
  unfold checkKey
  cases hcid : req.correlationId with
  | none =>
    rintro resv ⟨⟩
    exact ⟨rfl, rfl⟩
  | some cid =>
    dsimp only
    rw [if_pos hguard]
    apply follows_reserve
    · rintro resv ⟨⟩
      exact ⟨rfl, rfl⟩
    · intro ans hans
      cases ans with
      | ok reservation =>
        cases reservation with
        | fresh => exact absurd rfl hans
        | duplicate res => exact fun _ heq ↦ nomatch heq
      | error err => cases err <;> exact fun _ heq ↦ nomatch heq

theorem obeys_submit : Obeys cfg key .outside (submit cfg req) := by
  have hbody : Obeys cfg key .outside (runPipelineBody cfg req) := by
    refine obeys_keyFree_bind performs_intakeRefusal fun refusal ↦ ?_
    cases refusal with
    | some why => exact obeys_rejectIntake hguard req why none
    | none =>
      refine obeys_then (follows_checkKey hguard) fun fin checked hproceed ↦ ?_
      cases checked with
      | answered res => trivial
      | proceed resv =>
        obtain ⟨rfl, rfl⟩ := hproceed resv rfl
        exact obeys_afterReservation hguard
  apply follows_tryCatch
  apply follows_mono hbody
  intro fin out _
  cases out with
  | ok res => trivial
  | error err => exact obeys_act_bind (by trivial) fun _ ↦ trivial

theorem follows_reserveOwn : (keyProtocol cfg key).Follows .outside (reserveOwn cfg cid hash)
      fun fin out ↦ out = .ok none → fin = ownPhase key cid := by
  unfold reserveOwn
  cases cid with
  | none => exact fun _ ↦ rfl
  | some cid =>
    dsimp only
    rw [if_pos hguard]
    apply follows_reserve
    · exact fun _ ↦ rfl
    · intro ans hans
      cases ans with
      | ok reservation =>
        cases reservation with
        | fresh => exact absurd rfl hans
        | duplicate res => exact fun heq ↦ nomatch heq
      | error err => exact fun heq ↦ nomatch heq

theorem follows_releasingOnFailure {body : EngineProgram Output} {returned : Output → Prop}
    (hbody : body.Performs KeyFree returned) :
    (keyProtocol cfg key).Follows (ownPhase key resv) (releasingOnFailure cfg resv body)
      fun fin out ↦ ∀ val, out = .ok val → fin = ownPhase key resv := by
  apply follows_tryCatch
  apply follows_mono (follows_of_performs quiet_keyFree hbody)
  rintro fin out ⟨rfl, -⟩
  cases out with
  | ok val => exact fun _ _ ↦ rfl
  | error err => exact follows_release_raise hguard fun _ _ _ heq ↦ nomatch heq

theorem obeys_reserved {body : EngineProgram Order} {returned : Order → Prop}
    (hbody : body.Performs KeyFree returned) {record : Order → EngineProgram IdempotencyResult}
    (hrec : ∀ order, Obeys cfg key (ownPhase key cid) (do
        recordResult cfg cid (.order order)
        pure (IdempotencyResult.order order)) → Obeys cfg key (ownPhase key cid) (record order)) :
    Obeys cfg key .outside (do
      match ← reserveOwn cfg cid hash with
      | some res => pure res
      | none =>
        let order ← releasingOnFailure cfg cid body
        record order : EngineProgram IdempotencyResult) := by
  have howner : cid.map CorrelationId.key = some key →
      ownPhase key cid ≠ .outside := by
    intro hkey
    rw [ownPhase, if_pos hkey]
    exact nofun
  refine obeys_then (follows_reserveOwn hguard) fun fin replay hresv ↦ ?_
  cases replay with
  | some res => trivial
  | none =>
    rw [hresv rfl]
    refine obeys_then (follows_releasingOnFailure hguard hbody) fun fin order hkept ↦ ?_
    rw [hkept order rfl]
    exact hrec order (obeys_complete cid (.order order) howner)

theorem obeys_cancel : Obeys cfg key .outside (cancel cfg oid cid) := by
  have hvenue : Program.Performs KeyFree (cancelAtVenue cfg (append cfg) oid)
      fun cancelled ↦ cancelled.status = .cancelled :=
    Program.performs_weaken (performs_cancelAtVenue (appendHalts_append))
      fun _ hhalt ↦ keyFree_of_haltAction hhalt
  have hrel : Program.Performs KeyFree (releaseSubmitKey cfg oid) fun _ ↦ True :=
    Program.performs_weaken performs_releaseSubmitKey fun _ hhalt ↦ keyFree_of_haltAction hhalt
  refine obeys_reserved hguard hvenue fun cancelled hcompl ↦ ?_
  refine obeys_act_bind (by trivial) fun _ ↦ ?_
  refine obeys_act_bind (by trivial) fun _ ↦ ?_
  refine obeys_keyFree_bind (keyFree_append cfg _) fun _ ↦ ?_
  exact obeys_keyFree_bind hrel fun _ ↦ hcompl

end

inductive SharedCall where
  | submit (request : OrderRequest)
  | cancel (orderId : String) (correlationId : Option CorrelationId)
  | modify (orderId : String) (request : OrderRequest)
  | tripKillSwitch (reason : String)

def SharedCall.program (cfg : EngineConfig) : SharedCall → EngineProgram Unit
  | .submit req => do
    let _ ← Engine.submit cfg req
    pure ()
  | .cancel oid cid => do
    let _ ← Engine.cancel cfg oid cid
    pure ()
  | .modify oid req => do
    let _ ← Engine.modify cfg oid req
    pure ()
  | .tripKillSwitch why => do
    let _ ← Engine.tripKillSwitch cfg why
    pure ()

theorem obeys_call {key : String} (hguard : cfg.hasGuard = true)
    {call : SharedCall} : Obeys cfg key .outside (call.program cfg) := by
  have hdone : ∀ {Output : Type} {prog : EngineProgram Output}, Obeys cfg key .outside prog →
      Obeys cfg key .outside (do let _ ← prog; pure () : EngineProgram Unit) :=
    fun hprog ↦ obeys_then hprog fun _ _ _ ↦ trivial
  cases call with
  | submit req => exact hdone (obeys_submit hguard)
  | cancel oid cid => exact hdone (obeys_cancel hguard)
  | modify oid req => exact hdone (obeys_reserved hguard performs_modifyBody fun _ hcompl ↦ hcompl)
  | tripKillSwitch why =>
    exact obeys_keyFree_bind (Program.performs_weaken performs_tripKillSwitch
      fun _ hhalt ↦ keyFree_of_haltAction hhalt) fun _ ↦ trivial

def pool {Thread : Type} (cfg : EngineConfig) (world : World) (calls : Thread → SharedCall) :
    Pool Thread Op Op.Res TradingError Unit World :=
  ⟨world, fun tid ↦ (calls tid).program cfg⟩

/-- Under any interleaving in which no reserved key is handed back, the venue accepts at most one
order for the key. -/
theorem at_most_one_accepted {Thread : Type} [DecidableEq Thread] (cfg : EngineConfig)
    (key : String) (world : World) (calls : Thread → SharedCall)
    (reached : Pool Thread Op Op.Res TradingError Unit World) (hguard : cfg.hasGuard = true)
    (hvenue : SoundVenue world) (hnone : acceptedUnder key world = 0)
    (hreaches : Pool.Reaches (exec cfg) (KeepsReservation key) (pool cfg world calls) reached) :
    acceptedUnder key reached.shared ≤ 1 := by
  have hstart : Fits key .outside world := by
    refine ⟨hvenue, nofun, fun hbusy ↦ absurd rfl hbusy, nofun, ?_, fun hsome ↦ absurd hnone hsome⟩
    rw [hnone]
    exact Nat.zero_le 1
  have hfol : ∀ tid, (keyProtocol cfg key).Follows .outside
      ((pool cfg world calls).threads tid) fun _ _ ↦ True :=
    fun tid ↦ obeys_call hguard
  obtain ⟨phase, hfits⟩ := Pool.reaches_sole hfol hstart
    (fun _ _ _ hfits hperm _ hcon ↦ hfits.step_own hperm hcon)
    (fun _ _ _ _ hfits hkeeps hforeign ↦ hfits.step_other hkeeps hforeign)
    (fun _ _ _ hfits _ hcon hperm ↦ hfits.outside_of_enter hcon hperm) hreaches
  exact hfits.once

def purchase : OrderRequest :=
  { OrderRequest.plain ⟨"NSE:INFY"⟩ .buy .market 10 none Decimal.ten_pos with
    correlationId := some (.plain "key-1") }

def acknowledging : World :=
  World.constructed (.obliging fun req ↦ .accepted (createOrder req "order-1" .ack 0) none)

def purchaseCancelRetry : Fin 3 → SharedCall
  | 0 => .submit purchase
  | 1 => .cancel "order-1" none
  | 2 => .submit purchase

def cancelAfter (count : ℕ) : List (Fin 3) :=
  List.replicate count 0 ++ List.replicate 8 1 ++ List.replicate 4 2

def acceptedAfter (count : ℕ) : ℕ :=
  acceptedUnder "key-1" (Pool.runSchedule (exec .standard)
    (pool .standard acknowledging purchaseCancelRetry) (cancelAfter count)).shared

theorem cancelled_purchase_accepted_twice : acceptedAfter 9 = 2 := by
  decide +kernel

theorem completed_purchase_accepted_once : acceptedAfter 10 ≤ 1 :=
  at_most_one_accepted .standard "key-1" acknowledging purchaseCancelRetry _ rfl (fun _ _ ↦ rfl) rfl
    (Pool.reaches_runSchedule (cancelAfter 10) .start (by decide +kernel))

end Tradex.Execution.SingleAcceptance

import Tradex.Execution.PipelineActions
import Tradex.Runtime.LogReplay

/-!
# Crashes and redelivered fills

The process may stop after any atomic action of a delivery and is then booted again over its log.
The delivery is a protocol of five phases, and a boot catches up with the log.
-/

namespace Tradex.Runtime.CrashRedelivery

open Tradex.Domain Tradex.Execution Tradex.Execution.Recovery Tradex.Execution.Engine Protocol List

def loggedIds (events : List DomainEvent) : List (Option String) :=
  (reportedFills events).map Fill.fillId

def timesBooked (world : World) (fillId : String) : ℕ :=
  (world.booked.map Fill.fillId).count (some fillId)

structure Settled (world : World) : Prop where
  sound : SoundLog world.log
  booked : world.booked = reportedFills world.log
  holds : HoldsBooked world.cache world.booked

structure Behind (world : World) (fill : Fill) : Prop where
  sound : SoundLog world.log
  booked : world.booked ++ [fill] = reportedFills world.log
  holds : HoldsBooked world.cache world.booked

structure Identified (fill : Fill) : Prop where
  nonneg : 0 ≤ fill.quantity.toRat
  named : ∃ fillId, fill.fillId = some fillId ∧ fillId ≠ ""

def Harmless : Op → Prop
  | .applyFillEffect _ _ => False
  | .storeAppend ev => Replayable ev ∧ ev.reportedFill = none
  | _ => True

variable {op : Op}

theorem harmless_of_haltAction (hhalt : HaltAction op) : Harmless op := by
  cases op with
  | applyFillEffect fill fee => exact hhalt
  | storeAppend ev =>
    cases ev with
    | cancelRequested oid => exact ⟨replayable_of_silent rfl rfl, rfl⟩
    | orderCancelled order =>
      have hstat : order.status = .cancelled := hhalt
      have hclose : order.status ∈ terminalAfterFill := by
        rw [hstat]
        decide
      exact ⟨replayable_of_carried rfl (Or.inr hclose) rfl, rfl⟩
    | _ => exact hhalt.elim
  | _ => trivial

structure Untouched (before after : World) : Prop where
  log : ∃ more, after.log = before.log ++ more ∧
    ∀ event ∈ more, Replayable event ∧ event.reportedFill = none
  booked : after.booked = before.booked
  positions : after.cache.positions = before.cache.positions

variable {before after : World}

theorem Untouched.of_eq (hlog : after.log = before.log) (hbook : after.booked = before.booked)
    (hposn : after.cache.positions = before.cache.positions) : Untouched before after where
  log := ⟨[], by rw [hlog, append_nil], fun _ hev ↦ absurd hev not_mem_nil⟩
  booked := hbook
  positions := hposn

theorem untouched_exec {cfg : EngineConfig} (hharm : Harmless op) {world : World} :
    Untouched world (exec cfg op world).2 := by
  cases op with
  | applyFillEffect fill fee => exact hharm.elim
  | storeAppend ev =>
    simp only [exec, World.storeAppend]
    cases world.environment.appends 0 with
    | ok _ =>
      refine ⟨⟨[ev], rfl, fun added hadded ↦ ?_⟩, rfl, rfl⟩
      rw [mem_singleton.1 hadded]
      exact hharm
    | error _ => exact Untouched.of_eq rfl rfl rfl
  | computeFee fill =>
    simp only [exec, World.computeFee]
    split <;> exact Untouched.of_eq rfl rfl rfl
  | publish ev =>
    obtain ⟨orderIndex, hpub⟩ := World.publish_eq world ev
    simp only [exec, hpub]
    exact Untouched.of_eq rfl rfl rfl
  | _ => exact Untouched.of_eq rfl rfl rfl

variable {events : List DomainEvent}

theorem SoundLog.append_silent {more : List DomainEvent} (hsound : SoundLog events)
    (hmore : ∀ ev ∈ more, Replayable ev ∧ ev.reportedFill = none) :
    SoundLog (events ++ more) ∧ reportedFills (events ++ more) = reportedFills events := by
  have hsil : reportedFills more = [] := by
    rw [reportedFills, filterMap_eq_nil_iff]
    exact fun ev hev ↦ (hmore ev hev).2
  have hrep : reportedFills (events ++ more) = reportedFills events := by
    rw [reportedFills_append, hsil, append_nil]
  refine ⟨⟨?_, ?_, ?_⟩, hrep⟩
  · intro ev hev
    rcases mem_append.1 hev with hold | hnew
    · exact hsound.replayable ev hold
    · exact (hmore ev hnew).1
  · rw [hrep]
    exact hsound.identified
  · rw [hrep]
    exact hsound.distinct

theorem Settled.untouched (hset : Settled before) (hidle : Untouched before after) :
    Settled after ∧ reportedFills after.log = reportedFills before.log := by
  obtain ⟨more, hlog, hmore⟩ := hidle.log
  obtain ⟨hsound, hrep⟩ := SoundLog.append_silent hset.sound hmore
  rw [← hlog] at hsound hrep
  refine ⟨⟨hsound, ?_, ?_⟩, hrep⟩
  · rw [hidle.booked, hset.booked, hrep]
  · intro instr
    rw [TradingCache.getPosition, hidle.positions, hidle.booked]
    exact hset.holds instr

inductive Phase where
  | asked
  | unseen
  | proved (fee : Decimal)
  | logged (fee : Decimal)
  | recorded (fee : Decimal)
  | closed

def delivery (fill : Fill) : Protocol Op Op.Res Phase where
  allowed
    | .asked, op => op = .seenFill fill
    | .unseen, op => Harmless op ∧ ∀ checked fee, op = .requireCash checked fee → checked = fill
    | .proved fee, op => op = .storeAppend (.orderFilled fill (some fee))
    | .logged _, op => op = .recordFill fill
    | .recorded fee, op => op = .applyFillEffect fill fee
    | .closed, op => Harmless op
  next
    | .asked, .seenFill _, seen => if seen then .closed else .unseen
    | .asked, _, _ => .asked
    | .unseen, .requireCash _ fee, .ok _ => .proved fee
    | .unseen, .requireCash _ _, .error _ => .closed
    | .unseen, _, _ => .unseen
    | .proved fee, .storeAppend _, .ok _ => .logged fee
    | .proved _, _, _ => .closed
    | .logged fee, _, _ => .recorded fee
    | .recorded _, _, _ => .closed
    | .closed, _, _ => .closed

def Holds (fill : Fill) : Phase → World → Prop
  | .asked, world => Settled world ∧
      (fingerprint fill ∈ world.dedup.lru ∨ fill.fillId ∉ loggedIds world.log)
  | .unseen, world => Settled world ∧ fill.fillId ∉ loggedIds world.log
  | .proved fee, world => Settled world ∧ fill.fillId ∉ loggedIds world.log ∧
      world.requireCash fill fee = .ok ()
  | .logged fee, world => Behind world fill ∧ world.requireCash fill fee = .ok ()
  | .recorded fee, world => Behind world fill ∧ world.requireCash fill fee = .ok ()
  | .closed, world => Settled world

variable {world : World}

theorem soundLog_of_holds {fill : Fill} {phase : Phase} (hhold : Holds fill phase world) :
    SoundLog world.log := by
  cases phase with
  | closed => exact Settled.sound hhold
  | _ => exact hhold.1.sound

section Step

variable {cfg : EngineConfig} {fill : Fill}

theorem Settled.appended (hset : Settled world) (hid : Identified fill)
    (hnew : fill.fillId ∉ loggedIds world.log) (charge : Option Decimal)
    (env : Environment) :
    Behind { world with
      log := world.log ++ [.orderFilled fill charge], environment := env } fill := by
  have hrep : reportedFills (world.log ++ [.orderFilled fill charge]) =
      reportedFills world.log ++ [fill] := by
    rw [reportedFills_append]
    rfl
  refine ⟨⟨?_, ?_, ?_⟩, ?_, hset.holds⟩
  · intro ev hev
    rcases mem_append.1 hev with hold | hadded
    · exact hset.sound.replayable ev hold
    · rw [mem_singleton.1 hadded]
      refine ⟨fun _ hsome ↦ absurd hsome (Option.some_ne_none _).symm, ?_⟩
      intro reported hsome
      rw [← Option.some_inj.1 hsome]
      exact hid.nonneg
  · rw [hrep]
    intro reported hmem
    rcases mem_append.1 hmem with hold | hadded
    · exact hset.sound.identified reported hold
    · rw [mem_singleton.1 hadded]
      exact hid.named
  · rw [hrep, map_append, nodup_append]
    refine ⟨hset.sound.distinct, nodup_singleton _, ?_⟩
    intro prior hprior later hlate heq
    rw [map_singleton, mem_singleton] at hlate
    exact hnew (hlate ▸ heq ▸ hprior)
  · rw [hrep, hset.booked]

theorem Behind.booked_up (hback : Behind world fill) {fee : Decimal}
    (hafford : world.requireCash fill fee = .ok ()) :
    Settled (world.applyFillEffect fill fee).2 := by
  have hbook : ∀ ledger, Settled { world.book fill fee with ledger := ledger } := by
    intro ledger
    refine ⟨hback.sound, hback.booked, ?_⟩
    intro instr
    have hmove := positionQuantity_bookPosition world.cache fill fee instr
    rw [hback.holds instr, ← bookedQuantity_singleton, ← bookedQuantity_append] at hmove
    exact hmove
  unfold World.requireCash at hafford
  unfold World.applyFillEffect
  cases hled : world.ledger with
  | none => exact hbook world.ledger
  | some ledger =>
    rw [hled] at hafford
    dsimp only at hafford ⊢
    rw [hafford]
    exact hbook _

theorem next_unseen (hcash : ∀ checked fee, op ≠ .requireCash checked fee)
    {ans : op.Res} : (delivery fill).next .unseen op ans = .unseen := by
  cases op with
  | requireCash checked fee => exact absurd rfl (hcash checked fee)
  | _ => rfl

theorem holds_step (hid : Identified fill) (phase : Phase) (st : World) (op : Op)
    (hhold : Holds fill phase st) (hallow : (delivery fill).allowed phase op) :
    Holds fill ((delivery fill).next phase op (exec cfg op st).1) (exec cfg op st).2 := by
  cases phase with
  | asked =>
    obtain rfl : op = .seenFill fill := hallow
    obtain ⟨hset, hknown⟩ := hhold
    have hharm : Harmless (.seenFill fill) := trivial
    have hkept : Settled (exec cfg (.seenFill fill) st).2 :=
      (hset.untouched (untouched_exec hharm)).1
    cases hseen : (st.dedup.seen fill).1 with
    | true =>
      simp only [exec, hseen]
      exact hkept
    | false =>
      have hunseen : fingerprint fill ∉ st.dedup.lru := by
        intro hmem
        simp [FillDedup.seen, hmem] at hseen
      simp only [exec, hseen]
      exact ⟨hkept, hknown.resolve_left hunseen⟩
  | unseen =>
    obtain ⟨hharm, hchk⟩ := hallow
    obtain ⟨hset, hnew⟩ := hhold
    obtain ⟨hkept, hrep⟩ := hset.untouched (untouched_exec hharm)
    have hstill : fill.fillId ∉ loggedIds (exec cfg op st).2.log := by rwa [loggedIds, hrep]
    by_cases hcash : ∃ checked fee, op = .requireCash checked fee
    · obtain ⟨checked, fee, rfl⟩ := hcash
      obtain rfl := hchk checked fee rfl
      cases hproof : st.requireCash checked fee with
      | ok _ =>
        simp only [exec, hproof]
        exact ⟨hkept, hstill, hproof⟩
      | error err =>
        simp only [exec, hproof]
        exact hkept
    · rw [next_unseen fun checked fee heq ↦ hcash ⟨checked, fee, heq⟩]
      exact ⟨hkept, hstill⟩
  | proved fee =>
    obtain rfl : op = .storeAppend (.orderFilled fill (some fee)) := hallow
    obtain ⟨hset, hnew, hproof⟩ := hhold
    simp only [exec, World.storeAppend]
    cases hans : st.environment.appends 0 with
    | ok _ => exact ⟨hset.appended hid hnew (some fee) _, hproof⟩
    | error err => exact ⟨hset.sound, hset.booked, hset.holds⟩
  | logged fee =>
    obtain rfl : op = .recordFill fill := hallow
    obtain ⟨hback, hproof⟩ := hhold
    exact ⟨⟨hback.sound, hback.booked, hback.holds⟩, hproof⟩
  | recorded fee =>
    obtain rfl : op = .applyFillEffect fill fee := hallow
    exact hhold.1.booked_up hhold.2
  | closed =>
    have hclose : ∀ ans, (delivery fill).next .closed op ans = .closed := fun _ ↦ rfl
    exact (Settled.untouched hhold (untouched_exec hallow)).1

end Step

section

variable {cfg : EngineConfig} {fill : Fill}

theorem quiet_closed : (delivery fill).Quiet .closed Harmless := fun _ hharm ↦ ⟨hharm, fun _ ↦ rfl⟩

def Ended (final : Phase) : Prop := final = .unseen ∨ final = .closed

variable {charge : Option Decimal} {fee : Decimal} {existing : Option Order}

theorem follows_recordedOrComputedFee :
    (delivery fill).Follows .unseen (recordedOrComputedFee cfg fill charge)
      fun fin _ ↦ fin = .unseen := by
  cases charge with
  | some fee => exact rfl
  | none =>
    unfold recordedOrComputedFee Engine.computeFee
    dsimp only
    split
    · exact rfl
    · refine ⟨⟨trivial, fun checked fee heq ↦ by cases heq⟩, fun ans ↦ ?_⟩
      cases ans with
      | ok fee | error err => exact rfl

theorem follows_requireCashForFill (hown : cfg.positionProjectionOwned = false) :
    (delivery fill).Follows .unseen (requireCashForFill cfg fill fee) fun fin out ↦
      match out with
      | .ok _ => fin = .proved fee
      | .error _ => fin = .closed := by
  unfold requireCashForFill
  rw [hown]
  refine ⟨⟨trivial, fun checked charged heq ↦ ?_⟩, fun ans ↦ ?_⟩
  · exact (Op.requireCash.inj heq).1.symm
  · cases ans with
    | ok _ => exact rfl
    | error err => exact ⟨trivial, fun _ ↦ rfl⟩

theorem follows_append_fill (hstore : cfg.hasStore = true) :
    (delivery fill).Follows (.proved fee) (Engine.append cfg (.orderFilled fill (some fee)))
      fun fin out ↦
        (out = .ok true ∧ fin = .logged fee) ∨ (out ≠ .ok true ∧ fin = .closed) := by
  refine follows_append rfl ?_ ?_ ?_ ?_
  · intro err op hhalt
    exact quiet_closed op (harmless_of_haltAction hhalt)
  · intro hplain
    rw [hstore] at hplain
    cases hplain
  · exact fun _ ↦ Or.inl ⟨rfl, rfl⟩
  · exact fun _ out hfail ↦ Or.inr ⟨hfail, rfl⟩

theorem follows_bookFill (hown : cfg.positionProjectionOwned = false) :
    (delivery fill).Follows (.logged fee)
      (do
        let _ : Bool ← act (.recordFill fill)
        Engine.applyFillEffect cfg fill fee
        advanceOrder existing fill : EngineProgram Unit)
      fun fin _ ↦ Ended fin := by
  refine ⟨rfl, fun _ ↦ ?_⟩
  unfold Engine.applyFillEffect
  rw [hown]
  refine ⟨rfl, fun ans ↦ ?_⟩
  cases ans with
  | error err => exact Or.inr rfl
  | ok _ =>
    have hadvance : Program.Performs Harmless (advanceOrder existing fill) fun _ ↦ True :=
      Parts.advanceOrder composes_performs (fun _ ↦ performs_act trivial fun _ ↦ trivial)
        (fun _ ↦ performs_act trivial fun _ ↦ trivial) existing fill
    refine follows_mono (follows_of_performs quiet_closed hadvance) ?_
    rintro fin out ⟨hclose, -⟩
    exact Or.inr hclose

theorem follows_applyFreshFill (hstore : cfg.hasStore = true)
    (hown : cfg.positionProjectionOwned = false) :
    (delivery fill).Follows .unseen (applyFreshFill cfg existing fill charge)
      fun fin _ ↦ Ended fin := by
  refine follows_then follows_recordedOrComputedFee ?_ fun _ _ heq ↦ .inl heq
  rintro fin fee rfl
  refine follows_then (follows_requireCashForFill hown) ?_ fun _ _ heq ↦ .inr heq
  rintro fin _ rfl
  refine follows_then (follows_append_fill hstore) ?_ ?_
  · rintro fin durable (⟨hdur, rfl⟩ | ⟨hfail, rfl⟩)
    · cases hdur
      exact follows_bookFill hown
    · cases durable with
      | true => exact absurd rfl hfail
      | false => exact .inr rfl
  · rintro fin err (⟨hdur, -⟩ | ⟨-, rfl⟩)
    · cases hdur
    · exact .inr rfl

theorem follows_applyFill (hstore : cfg.hasStore = true)
    (hown : cfg.positionProjectionOwned = false) {charge : Option Decimal} :
    (delivery fill).Follows .asked (Engine.applyFill cfg fill charge) fun fin _ ↦ Ended fin := by
  refine ⟨rfl, fun seen ↦ ?_⟩
  cases seen with
  | true => exact Or.inr rfl
  | false =>
    refine ⟨⟨trivial, fun checked fee heq ↦ by cases heq⟩, fun existing ↦ ?_⟩
    dsimp only [Program.bind]
    split
    · exact Or.inl rfl
    · exact follows_applyFreshFill hstore hown

end

def deliver (cfg : EngineConfig) (fill : Fill) (charge : Option Decimal) (world : World) : World :=
  ((Engine.applyFill cfg fill charge).run (exec cfg) world).2

def interruptedLog (cfg : EngineConfig) (fill : Fill) (charge : Option Decimal) (count : ℕ)
    (world : World) : List DomainEvent :=
  ((Engine.applyFill cfg fill charge).stateAfter (exec cfg) count world).log

structure Recognisable (world : World) (fill : Fill) : Prop where
  identified : Identified fill
  known : fingerprint fill ∈ world.dedup.lru ∨ fill.fillId ∉ loggedIds world.log

section Runs

variable {cfg : EngineConfig} {fill : Fill} {charge : Option Decimal} {config : BootConfig}
  (hstore : cfg.hasStore = true) (hown : cfg.positionProjectionOwned = false) (hset : Settled world)
  (hrecognisable : Recognisable world fill)

include hstore hown hset hrecognisable in
theorem settled_deliver : Settled (deliver cfg fill charge world) := by
  obtain ⟨fin, hhold, hended⟩ := run_invariant
    (holds_step hrecognisable.identified) (follows_applyFill hstore hown)
    (show Holds fill .asked world from ⟨hset, hrecognisable.known⟩)
  rcases hended with rfl | rfl
  · exact hhold.1
  · exact hhold

include hstore hown hset hrecognisable in
theorem soundLog_interrupted {count : ℕ} :
    SoundLog (interruptedLog cfg fill charge count world) := by
  obtain ⟨fin, hhold⟩ := stateAfter_invariant
    (holds_step hrecognisable.identified) (follows_applyFill hstore hown)
    (show Holds fill .asked world from ⟨hset, hrecognisable.known⟩)
  exact soundLog_of_holds hhold

def harmlessOnly : Protocol Op Op.Res Unit := ⟨fun _ op ↦ Harmless op, fun _ _ _ ↦ ()⟩

theorem settled_harmless {Output : Type} {prog : EngineProgram Output}
    (hfol : harmlessOnly.Follows () prog fun _ _ ↦ True) (hset : Settled world) :
    Settled (prog.run (exec cfg) world).2 := by
  have hstep : ∀ phase st op, (fun _ st ↦ Settled st : Unit → World → Prop) phase st →
      harmlessOnly.allowed phase op → Settled (exec cfg op st).2 :=
    fun _ st op hst hallow ↦ (Settled.untouched hst (untouched_exec hallow)).1
  obtain ⟨-, hfin, -⟩ := run_invariant hstep hfol hset
  exact hfin

theorem settled_seedOpeningCash (hset : Settled world) :
    Settled (seedOpeningCash config world) := by
  unfold seedOpeningCash
  cases config.openingCash with
  | none => exact hset
  | some cash =>
    dsimp only
    split
    · obtain ⟨hcache, hbook, hlog, -⟩ := restoreCash_frame false world cash 0
      have hrestored : Settled (restoreCash false world cash 0) := by
        refine ⟨?_, ?_, ?_⟩
        · rw [hlog]
          exact hset.sound
        · rw [hbook, hlog]
          exact hset.booked
        · rw [hcache, hbook]
          exact hset.holds
      exact settled_harmless (follows_append ⟨replayable_of_silent rfl rfl, rfl⟩
        (fun _ op hhalt ↦ ⟨harmless_of_haltAction hhalt, fun _ ↦ rfl⟩)
        (fun _ ↦ trivial) (fun _ ↦ trivial) (fun _ _ _ ↦ trivial)) hrestored
    · exact hset

theorem boot_returns {env : Environment} (hsound : SoundLog events) :
    ∃ booted, boot config env events = .ok booted ∧ Settled booted := by
  obtain ⟨recovered, hrecov, hlog, hbook, hhold⟩ := recoverOmsFromEvents_returns
    (show SoundLog { World.constructed env with
      log := events, killActive := config.killSwitchDefault }.log from hsound)
  have hset : Settled recovered := by
    refine ⟨?_, ?_, ?_⟩
    · rw [hlog]
      exact hsound
    · rw [hbook, hlog]
    · rw [hbook]
      exact hhold
  refine ⟨seedOpeningCash config recovered, ?_, settled_seedOpeningCash hset⟩
  rw [boot, hrecov]
  rfl

end Runs

inductive Reachable (config : BootConfig) (events : List DomainEvent) : World → Prop where
  | boot {world : World} (environment : Environment)
      (hboot : boot config environment events = .ok world) : Reachable config events world
  | deliver {world : World} (fill : Fill) (feeAmount : Option Decimal)
      (hreachable : Reachable config events world) (hrecognisable : Recognisable world fill) :
      Reachable config events (deliver config.engine fill feeAmount world)
  | restart {world restarted : World} (fill : Fill) (feeAmount : Option Decimal) (count : ℕ)
      (environment : Environment) (hreachable : Reachable config events world)
      (hrecognisable : Recognisable world fill)
      (hboot : boot config environment
        (interruptedLog config.engine fill feeAmount count world) = .ok restarted) :
      Reachable config events restarted

theorem settled_reachable {config : BootConfig} (hstore : config.engine.hasStore = true)
    (hown : config.engine.positionProjectionOwned = false) (hsound : SoundLog events)
    (hreach : Reachable config events world) : Settled world := by
  -- a boot has one outcome, and over a sound log that outcome is settled
  have hbooted : ∀ env log booted, SoundLog log →
      boot config env log = .ok booted → Settled booted := by
    intro env log booted hlog hboot
    obtain ⟨found, hfind, hset⟩ := boot_returns hlog
    rw [hfind] at hboot
    exact Except.ok.inj hboot ▸ hset
  induction hreach with
  | boot env hboot => exact hbooted env events _ hsound hboot
  | deliver fill charge _ hrecognisable ih => exact settled_deliver hstore hown ih hrecognisable
  | restart fill charge count env _ hrecognisable hboot ih =>
    exact hbooted env _ _ (soundLog_interrupted hstore hown ih hrecognisable) hboot

/-- After any boots, deliveries and crashes each logged fill id is booked exactly once, the
positions are the booked quantities, and the next boot succeeds. -/
theorem logged_fill_booked_once (config : BootConfig) (events : List DomainEvent) (world : World)
    (hstore : config.engine.hasStore = true)
    (hown : config.engine.positionProjectionOwned = false) (hsound : SoundLog events)
    (hreachable : Reachable config events world) :
    (∀ fillId, timesBooked world fillId = if some fillId ∈ loggedIds world.log then 1 else 0) ∧
      (∀ instr, positionQuantity (world.cache.getPosition instr) =
        bookedQuantity world.booked instr) ∧
      ∀ fill charge count env, Recognisable world fill →
        ∃ restarted, boot config env
          (interruptedLog config.engine fill charge count world) = .ok restarted := by
  have hset := settled_reachable hstore hown hsound hreachable
  refine ⟨fun fillId ↦ ?_, hset.holds, ?_⟩
  · rw [timesBooked, hset.booked]
    exact List.Nodup.count hset.sound.distinct
  intro fill charge count env hrecognisable
  obtain ⟨restarted, hboot, -⟩ := boot_returns
    (soundLog_interrupted hstore hown hset hrecognisable)
  exact ⟨restarted, hboot⟩

def trade : Fill where
  orderId := "order-1"
  instrument := ⟨"NSE:INFY"⟩
  side := .buy
  quantity := 10
  price := .ofNat 100
  fillId := some "trade-1"

def site : BootConfig := ⟨.standard, some 10000, false⟩

def outside : Environment :=
  .obliging fun _ ↦ .raised (.runtime "no submission") none false

def bootAndDeliver (events : List DomainEvent) : Option World :=
  (boot site outside events).toOption.map (deliver .standard trade none)

theorem redelivered_trade_booked_twice :
    ((bootAndDeliver []).map fun world ↦ timesBooked world "trade-1") = some 1 ∧
      (((bootAndDeliver []).bind fun world ↦ bootAndDeliver world.log).map fun world ↦
        (timesBooked world "trade-1",
          positionQuantity (world.cache.getPosition ⟨"NSE:INFY"⟩))) = some (2, 20) := by
  decide +kernel

theorem interrupted_trade_booked_once :
    ∃ booted restarted, boot site outside [] = .ok booted ∧
      boot site outside (interruptedLog .standard trade none 5 booted) = .ok restarted ∧
      some "trade-1" ∈ loggedIds restarted.log ∧ timesBooked restarted "trade-1" = 1 := by
  have hempty : SoundLog [] := ⟨fun _ hevent ↦ absurd hevent not_mem_nil,
    fun _ hfill ↦ absurd hfill not_mem_nil, nodup_nil⟩
  have hrun : ((boot site outside []).toOption.bind fun booted ↦
      (boot site outside (interruptedLog .standard trade none 5 booted)).toOption.map
        fun restarted ↦ (loggedIds booted.log, loggedIds restarted.log)) =
      some ([], [some "trade-1"]) := by decide +kernel
  obtain ⟨booted, hbooted, hrest⟩ := Option.bind_eq_some_iff.1 hrun
  obtain ⟨restarted, hrestarted, hids⟩ := Option.map_eq_some_iff.1 hrest
  obtain ⟨hnothing, hlogged⟩ := Prod.mk.inj hids
  have hboot := eq_ok_of_toOption hbooted
  have hagain := eq_ok_of_toOption hrestarted
  have hmem : some "trade-1" ∈ loggedIds restarted.log := hlogged ▸ mem_singleton_self _
  have hknown : Recognisable booted trade :=
    ⟨⟨by decide +kernel, "trade-1", rfl, by decide⟩, .inr (hnothing ▸ not_mem_nil)⟩
  have honce := (logged_fill_booked_once site [] restarted rfl rfl hempty
    (.restart trade none 5 outside (.boot outside hboot) hknown hagain)).1 "trade-1"
  exact ⟨booted, restarted, hboot, hagain, hmem, honce.trans (if_pos hmem)⟩

end Tradex.Runtime.CrashRedelivery

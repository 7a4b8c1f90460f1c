import Tradex.Execution.BrokerageCap
import Tradex.Execution.Halting
import Tradex.Runtime.Startup

/-!
# Fees across a restart

A boot rebuilds positions and cash but not the accrual of the fee processor, so an order that is
filled on both sides of a restart gets a second cap.
-/

namespace Tradex.Runtime

open Tradex.Domain Tradex.Execution Tradex.Execution.Recovery

variable {world : World}

theorem accrued_restoreCash {allowNegative : Bool} {cash totalFees : Decimal} :
    (restoreCash allowNegative world cash totalFees).accrued = world.accrued := by
  unfold restoreCash
  cases world.ledger <;> rfl

theorem accrued_recoverOmsFromEvents {world recovered : World}
    (hrecov : recoverOmsFromEvents world = .ok recovered) :
    recovered.accrued = world.accrued := by
  obtain ⟨replay, -, hrest⟩ := except_bind_eq_ok hrecov
  split at hrest
  · cases hrest
    rfl
  · obtain ⟨cash, -, hcash⟩ := except_bind_eq_ok hrest
    cases hcash
    exact accrued_restoreCash

variable {config : BootConfig} {env : Environment} {events : List DomainEvent}

theorem accrued_seedOpeningCash : (seedOpeningCash config world).accrued = world.accrued := by
  unfold seedOpeningCash
  cases config.openingCash with
  | none => rfl
  | some cash =>
    dsimp only
    split
    · have happ : Program.wp (exec config.engine)
          (Engine.append config.engine (.cashAccountInitialized cash))
          (fun _ fin ↦ fin.accrued = world.accrued)
          (fun _ fin ↦ fin.accrued = world.accrued) (restoreCash false world cash 0) := by
        refine Engine.wp_append (fun _ ↦ accrued_restoreCash) fun fin _ hhalt ↦ ?_
        exact hhalt.frame.2.2.1.trans accrued_restoreCash
      exact Program.run_of_wp happ
    · rfl

variable {booted : World}

theorem boot_accrued
    (hboot : boot config env events = .ok booted) : booted.accrued = Dict.empty := by
  rw [boot] at hboot
  cases hrecov : recoverOmsFromEvents { World.constructed env with
      log := events, killActive := config.killSwitchDefault } with
  | error err =>
    rw [hrecov] at hboot
    cases hboot
  | ok recovered =>
    rw [hrecov] at hboot
    cases hboot
    rw [accrued_seedOpeningCash, accrued_recoverOmsFromEvents hrecov]
    rfl

theorem boot_accrues (hboot : boot config env events = .ok booted) {oid : String} :
    booted.Accrues oid ∧ booted.accruedFor oid = 0 := by
  have hzero : booted.accruedFor oid = 0 := by
    rw [World.accruedFor, boot_accrued hboot, Dict.get_empty, Option.getD_none, Decimal.toRat_zero]
  refine ⟨⟨?_, ?_⟩, hzero⟩
  · rw [hzero]
    exact ⟨0, by norm_num⟩
  · rw [hzero]
    exact brokerageCap_pos.le

variable {cap left right : ℚ}

theorem min_add_min_le_iff (hcap : 0 < cap) (hleft : 0 ≤ left) (hright : 0 ≤ right) :
    min cap left + min cap right ≤ cap ↔ left = 0 ∨ right = 0 ∨ left + right ≤ cap := by
  constructor
  · intro hsum
    by_contra hparts
    simp only [not_or] at hparts
    obtain ⟨hleftZero, hrightZero, hexc⟩ := hparts
    have hleftPos : 0 < left := lt_of_le_of_ne hleft (Ne.symm hleftZero)
    have hrightPos : 0 < right := lt_of_le_of_ne hright (Ne.symm hrightZero)
    rcases min_cases cap left with ⟨hl, -⟩ | ⟨hl, hleftBelow⟩ <;>
      rcases min_cases cap right with ⟨hr, -⟩ | ⟨hr, hrightBelow⟩ <;>
      rw [hr] at hsum <;> linarith
  · rintro (rfl | rfl | hsum)
    · rw [min_eq_right hcap.le, zero_add]
      exact min_le_left _ _
    · rw [min_eq_right hcap.le, add_zero]
      exact min_le_left _ _
    · exact (add_le_add (min_le_right _ _) (min_le_right _ _)).trans hsum

theorem growth_eq_iff (hcap : 0 < cap) (hleft : 0 ≤ left) :
    min cap (min cap left + right) - min cap left = min cap right ↔
      min cap left + min cap right ≤ cap := by
  have hcut : min cap (min cap left + right) = min cap (min cap left + min cap right) := by
    have hstart : 0 ≤ min cap left := le_min hcap.le hleft
    rcases le_total right cap with hlow | habove
    · rw [min_eq_right hlow]
    · rw [min_eq_left habove, min_eq_left (by linarith), min_eq_left (by linarith)]
  rw [hcut]
  constructor
  · intro hgrowth
    have hsum : min cap (min cap left + min cap right) = min cap left + min cap right := by linarith
    exact min_eq_right_iff.1 hsum
  · intro hsum
    rw [min_eq_right hsum, add_sub_cancel_left]

structure KeepsFees (cfg : EngineConfig) (engine restarted : World) (orderId : String)
    (before after : List Fill) : Prop where
  total : engine.chargedTo cfg orderId before + restarted.chargedTo cfg orderId after =
    engine.chargedTo cfg orderId (before ++ after)
  capped : (engine.afterFees cfg before).accruedFor orderId +
    (restarted.afterFees cfg after).accruedFor orderId ≤ brokerageCap

/-- A restart keeps an order's fees exactly when forgetting its accrual cannot lift the brokerage
above the cap. -/
theorem restart_keeps_fees_iff (config : BootConfig) (env later : Environment)
    (events laterEvents : List DomainEvent) (engine restarted : World)
    (hboot : boot config env events = .ok engine)
    (hrestart : boot config later laterEvents = .ok restarted) (oid : String)
    (before after : List Fill) :
    KeepsFees config.engine engine restarted oid before after ↔
      config.engine.hasFeeCalculator = false ∨ orderBrokerage oid before = 0 ∨
        orderBrokerage oid after = 0 ∨
        orderBrokerage oid before + orderBrokerage oid after ≤ brokerageCap := by
  obtain ⟨hengine, hnone⟩ := boot_accrues hboot
  obtain ⟨hfresh, hzero⟩ := boot_accrues hrestart
  cases hcalc : config.engine.hasFeeCalculator with
  | false =>
    refine iff_of_true ⟨?_, ?_⟩ (.inl rfl)
    · simp [chargedTo_of_none hcalc]
    · rw [afterFees_of_none hcalc, afterFees_of_none hcalc, hnone, hzero, add_zero]
      exact brokerageCap_pos.le
  | true =>
    have hpre := @orderBrokerage_nonneg oid before
    have hafter := @orderBrokerage_nonneg oid after
    obtain ⟨hahead, haccr⟩ := hengine.run hcalc before
    obtain ⟨-, hfinal⟩ := hfresh.run hcalc after
    obtain ⟨-, hfull⟩ := hahead.run hcalc after
    rw [hnone, zero_add] at haccr
    rw [hzero, zero_add] at hfinal
    have hle : restarted.accruedFor oid ≤
        (engine.afterFees config.engine before).accruedFor oid := by
      rw [hzero, haccr]
      exact le_min brokerageCap_pos.le hpre
    obtain ⟨-, -, hsame⟩ := chargedTo_anti hcalc hahead hfresh hle
    have hfees : engine.chargedTo config.engine oid before +
        restarted.chargedTo config.engine oid after =
          engine.chargedTo config.engine oid (before ++ after) ↔
        min brokerageCap (orderBrokerage oid before) +
          min brokerageCap (orderBrokerage oid after) ≤ brokerageCap := by
      rw [World.chargedTo_append, add_right_inj, eq_comm, hsame, hfull, haccr, hfinal, hzero,
        sub_zero, growth_eq_iff brokerageCap_pos hpre]
    rw [← min_add_min_le_iff brokerageCap_pos hpre hafter, or_iff_right (by simp)]
    constructor
    · intro hkeeps
      exact hfees.1 hkeeps.total
    · intro hsum
      exact ⟨hfees.2 hsum, by rwa [haccr, hfinal]⟩

def partFill (qty : Decimal) (fillId : String) : Fill where
  orderId := "order-1"
  instrument := ⟨"NSE:INFY"⟩
  side := .buy
  quantity := qty
  price := .ofNat 100
  fillId := some fillId

def funded : BootConfig := ⟨.standard, some 1000000, false⟩

def quiet : Environment := .obliging fun _ ↦ .raised (.runtime "no submission") none false

def logAfter (engine : World) (fill : Fill) : List DomainEvent :=
  ((Engine.applyFill .standard fill none).run (exec .standard) engine).2.log

theorem second_cap_charged :
    ((boot funded quiet []).toOption.bind fun engine ↦
      (boot funded quiet (logAfter engine (partFill 1000 "a"))).toOption.map fun restarted ↦
        (engine.chargedTo .standard "order-1" [partFill 1000 "a"] +
            restarted.chargedTo .standard "order-1" [partFill 1000 "b"],
          engine.chargedTo .standard "order-1" [partFill 1000 "a", partFill 1000 "b"],
          (engine.afterFees .standard [partFill 1000 "a"]).accruedFor "order-1" +
            (restarted.afterFees .standard [partFill 1000 "b"]).accruedFor "order-1")) =
      some (6182 / 100, 3822 / 100, 40) := by
  decide +kernel

theorem small_fills_keep_fees :
    ∃ engine restarted, boot funded quiet [] = .ok engine ∧
      boot funded quiet (logAfter engine (partFill 10 "a")) = .ok restarted ∧
      KeepsFees funded.engine engine restarted "order-1" [partFill 10 "a"] [partFill 10 "b"] := by
  have hboots : ((boot funded quiet []).toOption.bind fun engine ↦
      (boot funded quiet (logAfter engine (partFill 10 "a"))).toOption).isSome = true := by
    decide +kernel
  have hbelow : orderBrokerage "order-1" [partFill 10 "a"] +
      orderBrokerage "order-1" [partFill 10 "b"] ≤ brokerageCap := by
    decide +kernel
  obtain ⟨restarted, hsome⟩ := Option.isSome_iff_exists.1 hboots
  obtain ⟨engine, hengine, hrestarted⟩ := Option.bind_eq_some_iff.1 hsome
  have hboot := eq_ok_of_toOption hengine
  have hrestart := eq_ok_of_toOption hrestarted
  exact ⟨engine, restarted, hboot, hrestart, (restart_keeps_fees_iff funded quiet quiet [] _
    engine restarted hboot hrestart "order-1" _ _).2 (.inr (.inr (.inr hbelow)))⟩

end Tradex.Runtime

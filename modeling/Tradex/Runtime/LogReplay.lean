import Tradex.Execution.FillRules
import Tradex.Runtime.Startup

/-!
# Logs that replay

A log is sound when its fills carry different venue ids and quantities that are not negative, and
its orders can take a fill or are closed to fills.
-/

namespace Tradex.Runtime

open Tradex.Domain Tradex.Execution Tradex.Execution.Recovery List

def bookedQuantity (fills : List Fill) (instr : Instrument) : ℚ :=
  (fills.map fun fill ↦
    if fill.instrument = instr then fill.signedQuantity.toRat else 0).sum

variable {instr : Instrument} {events : List DomainEvent} {ev : DomainEvent}

theorem bookedQuantity_append {fills more : List Fill} :
    bookedQuantity (fills ++ more) instr =
      bookedQuantity fills instr + bookedQuantity more instr := by
  simp [bookedQuantity]

theorem bookedQuantity_singleton {fill : Fill} :
    bookedQuantity [fill] instr =
      if fill.instrument = instr then fill.signedQuantity.toRat else 0 := by
  simp [bookedQuantity]

def HoldsBooked (cache : TradingCache) (fills : List Fill) : Prop :=
  ∀ instr, positionQuantity (cache.getPosition instr) = bookedQuantity fills instr

def Recoverable (order : Order) : Prop :=
  Regular order ∨ order.status ∈ terminalAfterFill

structure Replayable (event : DomainEvent) : Prop where
  carried : ∀ order, event.carriedOrder = some order → Recoverable order
  nonneg : ∀ fill, event.reportedFill = some fill → 0 ≤ fill.quantity.toRat

theorem replayable_of_silent (hcarry : ev.carriedOrder = none)
    (hrep : ev.reportedFill = none) : Replayable ev where
  carried := fun _ hsome ↦ absurd (hcarry.symm.trans hsome) (Option.some_ne_none _).symm
  nonneg := fun _ hsome ↦ absurd (hrep.symm.trans hsome) (Option.some_ne_none _).symm

theorem replayable_of_carried {order : Order}
    (hcarry : ev.carriedOrder = some order) (hrecov : Recoverable order)
    (hrep : ev.reportedFill = none) : Replayable ev where
  carried := by
    intro carried hsome
    rw [hcarry, Option.some_inj] at hsome
    rwa [← hsome]
  nonneg := fun _ hsome ↦ absurd (hrep.symm.trans hsome) (Option.some_ne_none _).symm

section Replay

variable {cache : TradingCache} {fill : Fill} {fills : List Fill}

def AllRecoverable (cache : TradingCache) : Prop :=
  ∀ oid order, cache.getOrder oid = some order → Recoverable order

theorem AllRecoverable.updateOrder (hcache : AllRecoverable cache) {order : Order}
    (horder : Recoverable order) : AllRecoverable (cache.updateOrder order) := by
  intro oid found hfind
  rw [TradingCache.getOrder_updateOrder] at hfind
  split at hfind
  · cases hfind
    exact horder
  · exact hcache oid found hfind

theorem replayOrder_returns (hcache : AllRecoverable cache) (hqty : 0 ≤ fill.quantity.toRat) :
    ∃ known, replayOrder cache fill = .ok known ∧ AllRecoverable known ∧
      ∀ instr, known.getPosition instr = cache.getPosition instr := by
  have hcur : Recoverable ((cache.getOrder fill.orderId).getD (stubOrder fill)) := by
    cases hheld : cache.getOrder fill.orderId with
    | none => exact .inl ⟨⟨hqty, le_refl _⟩, ⟨nofun, nofun⟩, fun _ ↦ rfl⟩
    | some order => exact hcache _ order hheld
  unfold replayOrder
  dsimp only
  generalize (cache.getOrder fill.orderId).getD (stubOrder fill) = cur at hcur ⊢
  have hknown : ∀ flag : Bool,
      AllRecoverable (if flag then cache.updateOrder cur else cache) ∧
        ∀ instr, (if flag then cache.updateOrder cur else cache).getPosition instr =
          cache.getPosition instr := by
    intro flag
    cases flag with
    | false => exact ⟨hcache, fun _ ↦ rfl⟩
    | true => exact ⟨hcache.updateOrder hcur, fun _ ↦ rfl⟩
  obtain ⟨hrecov, hposn⟩ := hknown (cache.getOrder fill.orderId).isNone
  split
  · exact ⟨_, rfl, hrecov, hposn⟩
  · rename_i hopen
    have hreg : Regular cur := hcur.resolve_right hopen
    have hadm := hreg.admits (fun hrej ↦ hopen (by rw [hrej]; decide)) hqty
    rw [filledOrder_of_legal hreg.within hqty hadm]
    exact ⟨_, rfl, hrecov.updateOrder (Or.inl (hreg.filled hqty)), hposn⟩

theorem positionQuantity_replayPosition {charge : Option Decimal} {instr : Instrument} :
    positionQuantity ((replayPosition cache fill charge).getPosition instr) =
      positionQuantity (cache.getPosition instr) +
        if fill.instrument = instr then fill.signedQuantity.toRat else 0 := by
  unfold replayPosition
  cases charge with
  | none => exact positionQuantity_onFill cache fill
  | some fee =>
    dsimp only
    split
    · rw [positionQuantity_onFee, positionQuantity_onFill]
    · exact positionQuantity_onFill cache fill

theorem getOrder_replayPosition (charge : Option Decimal) (oid : String) :
    (replayPosition cache fill charge).getOrder oid = cache.getOrder oid := by
  unfold replayPosition PositionAccountant.onFee
  cases charge with
  | none => rfl
  | some fee =>
    dsimp only
    split
    · split <;> rfl
    · rfl

theorem plainEvent_returns (hcache : AllRecoverable cache)
    (hhold : HoldsBooked cache fills) {ev : DomainEvent} (hev : Replayable ev) :
    ∃ after, plainEvent cache ev = .ok after ∧ AllRecoverable after ∧
      HoldsBooked after (fills ++ reportedFills [ev]) := by
  have hsil : ev.reportedFill = none → HoldsBooked cache (fills ++ reportedFills [ev]) := by
    intro hnone
    have hnil : reportedFills [ev] = [] := by simp [reportedFills, hnone]
    rwa [hnil, append_nil]
  unfold plainEvent
  cases hcarry : ev.carriedOrder with
  | some order =>
    have hnone : ev.reportedFill = none := by cases ev <;> simp_all [DomainEvent.carriedOrder,
      DomainEvent.reportedFill]
    exact ⟨_, rfl, hcache.updateOrder (hev.carried order hcarry), hsil hnone⟩
  | none =>
    cases ev with
    | orderFilled reported charge =>
      have hqty := hev.nonneg reported rfl
      obtain ⟨known, hknown, hrecov, hposn⟩ := replayOrder_returns hcache hqty
      refine ⟨replayPosition known reported charge, ?_, ?_, ?_⟩
      · simp [replayFill, hknown, Except.map]
      · intro oid order hfind
        rw [getOrder_replayPosition] at hfind
        exact hrecov oid order hfind
      · intro instr
        have hrep : reportedFills [.orderFilled reported charge] = [reported] := rfl
        rw [positionQuantity_replayPosition, hposn, hhold instr, hrep,
          bookedQuantity_append, bookedQuantity_singleton]
    | _ => exact ⟨cache, rfl, hcache, hsil rfl⟩

theorem plainReplay_returns {events : List DomainEvent} (hcache : AllRecoverable cache)
    (hhold : HoldsBooked cache fills) (hevs : ∀ ev ∈ events, Replayable ev) :
    ∃ after, plainReplay cache events = .ok after ∧
      HoldsBooked after (fills ++ reportedFills events) := by
  induction events generalizing cache fills with
  | nil => exact ⟨cache, rfl, by simpa [reportedFills] using hhold⟩
  | cons ev rest ih =>
    obtain ⟨middle, hmid, hrecov, hbook⟩ := plainEvent_returns hcache hhold (hevs ev mem_cons_self)
    obtain ⟨after, hafter, hfin⟩ := ih hrecov hbook
      fun other hother ↦ hevs other (mem_cons_of_mem _ hother)
    refine ⟨after, ?_, ?_⟩
    · rw [plainReplay, foldlM_cons, hmid]
      exact hafter
    · rwa [append_assoc, ← reportedFills_append] at hfin

end Replay

structure SoundLog (events : List DomainEvent) : Prop where
  replayable : ∀ event ∈ events, Replayable event
  identified : ∀ fill ∈ reportedFills events, ∃ fillId, fill.fillId = some fillId ∧ fillId ≠ ""
  distinct : ((reportedFills events).map Fill.fillId).Nodup

theorem SoundLog.identities_nodup (hsound : SoundLog events) : (identities events).Nodup := by
  have hids : (identities events).map some = (reportedFills events).map Fill.fillId := by
    rw [identities, map_map]
    apply map_congr_left
    intro fill hfill
    obtain ⟨fillId, hid, hne⟩ := hsound.identified fill hfill
    simp [fillIdentity, hid, if_pos hne]
  have hdist := hsound.distinct
  rw [← hids] at hdist
  exact hdist.of_map some

theorem SoundLog.recovers (hsound : SoundLog events) :
    ∃ replay, recoverTradingCache events = .ok replay ∧ replay.booked = reportedFills events ∧
      HoldsBooked replay.cache (reportedFills events) := by
  have hnil : AllRecoverable TradingCache.empty := fun _ _ hfind ↦ nomatch hfind
  have hnone : HoldsBooked TradingCache.empty [] := fun _ ↦ rfl
  obtain ⟨after, hafter, hhold⟩ := plainReplay_returns hnil hnone hsound.replayable
  obtain ⟨replay, hrep, rfl, hbook⟩ := recoverTradingCache_of_nodup hsound.identities_nodup hafter
  exact ⟨replay, hrep, hbook, hhold⟩

theorem restoreCash_frame (allowNegative : Bool) (world : World) (cash totalFees : Decimal) :
    (restoreCash allowNegative world cash totalFees).cache = world.cache ∧
      (restoreCash allowNegative world cash totalFees).booked = world.booked ∧
      (restoreCash allowNegative world cash totalFees).log = world.log ∧
      (restoreCash allowNegative world cash totalFees).dedup = world.dedup := by
  unfold restoreCash
  cases world.ledger with
  | none | some ledger => exact ⟨rfl, rfl, rfl, rfl⟩

theorem recoverOmsFromEvents_returns {world : World} (hsound : SoundLog world.log) :
    ∃ recovered, recoverOmsFromEvents world = .ok recovered ∧ recovered.log = world.log ∧
      recovered.booked = reportedFills world.log ∧
      HoldsBooked recovered.cache (reportedFills world.log) := by
  obtain ⟨replay, hrep, hbook, hhold⟩ := hsound.recovers
  unfold recoverOmsFromEvents
  rw [hrep]
  cases hanc : latestAnchor world.log with
  | none => exact ⟨_, rfl, rfl, hbook, hhold⟩
  | some found =>
    obtain ⟨cash, hcash⟩ := foldCash_returns hanc
    obtain ⟨hcache, hfills, hlog, -⟩ := restoreCash_frame false
      { world with cache := replay.cache, booked := replay.booked } cash.cash cash.totalFees
    refine ⟨_, ?_, hlog, hfills.trans hbook, ?_⟩
    · simp only [hcash]
      rfl
    · rw [hcache]
      exact hhold

end Tradex.Runtime

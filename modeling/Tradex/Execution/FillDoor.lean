import Tradex.Execution.FillRules

/-!
# The inbound fill door is all or nothing

A call that raises should leave orders, positions, cash, log, dedup set and accrual as they were,
and a fresh fill that is taken should move all of them. The door keeps to this exactly for the fills
it can take whole.
-/

namespace Tradex.Execution.FillDoor

open Tradex.Domain Engine Program

/-- The fill fits what is left of the order and leads to a status that the order may take. -/
structure Fits (order : Order) (fill : Fill) : Prop where
  room : order.filledQuantity.toRat + fill.quantity.toRat ≤ order.quantity.toRat
  legal : statusAfter order fill = order.status ∨
    statusAfter order fill ∈ legalTransitions order.status

structure Untouched (before after : World) : Prop where
  cache : after.cache = before.cache
  ledger : after.ledger = before.ledger
  log : after.log = before.log
  dedup : after.dedup = before.dedup
  accrued : after.accrued = before.accrued

def filledBefore (world : World) (fill : Fill) : ℚ :=
  (world.cache.getOrder fill.orderId).elim 0 fun order ↦ order.filledQuantity.toRat

structure Advanced (cfg : EngineConfig) (fill : Fill) (fee : Decimal) (before after : World) :
    Prop where
  position : ∀ instrument, positionQuantity (after.cache.getPosition instrument) =
    positionQuantity (before.cache.getPosition instrument) +
      if fill.instrument = instrument then fill.signedQuantity.toRat else 0
  ledger : after.ledger = before.ledger.map fun ledger ↦ ledger.afterFill fill fee
  log : after.log = appendedLog cfg before.log (.orderFilled fill (some fee))
  dedup : 0 < before.dedup.maxSize → fingerprint fill ∈ after.dedup.lru
  order : ∃ order, after.cache.getOrder fill.orderId = some order ∧
    order.filledQuantity.toRat = filledBefore before fill + fill.quantity.toRat

/-- A fill that the door has not seen, for an order that is not rejected. -/
def Fresh (fill : Fill) (world : World) : Prop :=
  fingerprint fill ∉ world.dedup.lru ∧
    ∀ order, world.cache.getOrder fill.orderId = some order → order.status ≠ .rejected

/-- A call that raises has changed nothing, and one that returns has applied a fresh fill. -/
structure WholeOrNothing (cfg : EngineConfig) (fill : Fill) (charge : Option Decimal)
    (before : World) (result : Except TradingError Unit × World) : Prop where
  raised : ∀ err, result.1 = .error err → Untouched before result.2
  returned : result.1 = .ok () → Fresh fill before →
    ∃ fee accrued, Charged cfg before fill charge fee accrued ∧ Advanced cfg fill fee before result.2

/-- What the door can do whole: with its fee settled, the ledger either refuses the fill and no
brokerage has accrued for it, or the event is stored and the order has room. -/
def Takes (cfg : EngineConfig) (fill : Fill) (charge : Option Decimal) (world : World) : Prop :=
  ∀ fee accrued, Charged cfg world fill charge fee accrued →
    (world.requireCash fill fee).isOk = false ∧ accrued = world.accrued ∨
      (world.requireCash fill fee).isOk = true ∧ ¬ world.environment.AppendFails cfg ∧
        ∀ order, world.cache.getOrder fill.orderId = some order → Fits order fill

section

variable {cfg : EngineConfig} {world : World} {fill : Fill} {charge : Option Decimal}
  {order filled : Order}

theorem Fits.filledAfter (hfits : Fits order fill) :
    (filledAfter order fill).toRat = order.filledQuantity.toRat + fill.quantity.toRat := by
  have hroom := hfits.room
  rw [toRat_filledAfter, min_eq_left (by linarith)]

theorem fits_of_filledOrder (hok : filledOrder order fill = .ok filled)
    (hfill : filled.filledQuantity.toRat = order.filledQuantity.toRat + fill.quantity.toRat) :
    Fits order fill := by
  rw [filledOrder_ok hok, toRat_filledAfter] at hfill
  refine ⟨?_, ?_⟩
  · have hmin := min_eq_left_iff.1 (add_left_cancel hfill)
    linarith
  · unfold filledOrder at hok
    split at hok
    next hsame => exact .inl hsame
    next => exact .inr (transitionTo_ok hok).1

theorem advancedOrder_of_fits (hqty : 0 < fill.quantity.toRat)
    (hnn : ∀ order, world.cache.getOrder fill.orderId = some order → 0 ≤ order.filledQuantity.toRat)
    (hfits : ∀ order, world.cache.getOrder fill.orderId = some order → Fits order fill) :
    ∃ order, advancedOrder (world.cache.getOrder fill.orderId) fill = .ok order ∧
      order.orderId = fill.orderId ∧
      order.filledQuantity.toRat = filledBefore world fill + fill.quantity.toRat := by
  unfold filledBefore
  cases hcache : world.cache.getOrder fill.orderId with
  | none =>
    obtain ⟨order, hok⟩ := unknownFillOrder_of_pos hqty
    obtain ⟨hid, -, -, -, hfill, -⟩ := unknownFillOrder_ok hok
    exact ⟨order, hok, hid, by rw [hfill, Option.elim_none, zero_add]⟩
  | some order =>
    have hroom := hfits order hcache
    have hin : Order.WithinQuantity order := ⟨hnn order hcache, by linarith [hroom.room]⟩
    have hkey := TradingCache.orderId_of_getOrder hcache
    exact ⟨_, filledOrder_of_legal hin hqty.le hroom.legal, hkey, hroom.filledAfter⟩

theorem signedQuantity_ne_zero (hqty : 0 < fill.quantity.toRat) : fill.signedQuantity.toRat ≠ 0 := by
  unfold Fill.signedQuantity
  cases fill.side <;> simp <;> linarith

theorem position_moves (hqty : 0 < fill.quantity.toRat) {before after : World}
    (hsame : positionQuantity (after.cache.getPosition fill.instrument) =
      positionQuantity (before.cache.getPosition fill.instrument)) {fee : Decimal} :
    ¬ Advanced cfg fill fee before after := by
  intro hadv
  have hmoved := hadv.position fill.instrument
  rw [hsame, if_pos rfl] at hmoved
  exact signedQuantity_ne_zero hqty (by linarith)

variable (hown : cfg.positionProjectionOwned = false) (hqty : 0 < fill.quantity.toRat)
  (hrec : ∀ recorded, charge = some recorded → 0 ≤ recorded.toRat)

include hown hqty hrec

theorem wp_applyFill_takes
    (hnn : ∀ order, world.cache.getOrder fill.orderId = some order → 0 ≤ order.filledQuantity.toRat)
    (hfresh : Fresh fill world) (htakes : Takes cfg fill charge world) :
    wp (exec cfg) (Engine.applyFill cfg fill charge)
      (fun _ final ↦ ∃ fee accrued,
        Charged cfg world fill charge fee accrued ∧ Advanced cfg fill fee world final)
      (fun _ ↦ Untouched world) world := by
  refine wp_applyFill hown hqty.le hrec (fun hseen ↦ absurd hseen hfresh.1)
    (fun order hcache hstat ↦ absurd hstat (hfresh.2 order hcache))
    (fun err _ _ ↦ ⟨rfl, rfl, rfl, rfl, rfl⟩) ?_ ?_ ?_
  · intro fee accrued err hchg href
    rcases htakes fee accrued hchg with ⟨-, hsame⟩ | ⟨hok, -⟩
    · exact ⟨rfl, rfl, rfl, rfl, hsame⟩
    · rw [href] at hok
      cases hok
  · intro fee accrued fin hchg hproof hfail _
    rcases htakes fee accrued hchg with ⟨href, -⟩ | ⟨-, hkept, -⟩
    · rw [hproof] at href
      cases href
    · exact absurd hfail hkept
  · intro fee accrued _ _ hchg hproof _
    rcases htakes fee accrued hchg with ⟨href, -⟩ | ⟨-, -, hfits⟩
    · rw [hproof] at href
      cases href
    · obtain ⟨order, hadv, hid, hfill⟩ := advancedOrder_of_fits hqty hnn hfits
      rw [wp_advanceOrder, hadv]
      refine ⟨fee, accrued, hchg, positionQuantity_bookPosition world.cache fill fee, rfl, rfl,
        FillDedup.mem_recorded, order, ?_, hfill⟩
      simp [← hid]

theorem wp_applyFill_not_takes (hfresh : Fresh fill world) (hnot : ¬ Takes cfg fill charge world) :
    wp (exec cfg) (Engine.applyFill cfg fill charge)
      (fun _ final ↦ ∀ fee, ¬ Advanced cfg fill fee world final)
      (fun _ final ↦ ¬ Untouched world final) world := by
  simp only [Takes, not_forall, not_or, not_and] at hnot
  obtain ⟨due, accrual, hdue, hrefused, haccepted⟩ := hnot
  refine wp_applyFill hown hqty.le hrec (fun hseen ↦ absurd hseen hfresh.1)
    (fun order hcache hstat ↦ absurd hstat (hfresh.2 order hcache)) ?_ ?_ ?_ ?_
  · intro err hnone herr
    subst hnone
    cases herr.symm.trans hdue
  · intro fee accrued err hchg href hidle
    obtain ⟨rfl, rfl⟩ := hchg.unique hdue
    exact hrefused (by rw [href]; rfl) hidle.accrued
  · intro _ accrued fin _ _ _ hhalt fee
    refine position_moves hqty ?_
    simp only [TradingCache.getPosition, hhalt.frame.1]
  · intro fee accrued _ _ hchg hproof hkept
    obtain ⟨rfl, rfl⟩ := hchg.unique hdue
    obtain ⟨order, hcache, hunfit⟩ := haccepted (by rw [hproof]; rfl) hkept
    rw [wp_advanceOrder, hcache]
    cases hadv : advancedOrder (some order) fill with
    | error err =>
      intro hidle
      have hposition := positionQuantity_bookPosition world.cache fill fee fill.instrument
      have hcache : bookPosition world.cache fill fee = world.cache := hidle.cache
      rw [hcache, if_pos rfl] at hposition
      exact signedQuantity_ne_zero hqty (by linarith)
    | ok filled =>
      intro other hother
      obtain ⟨found, hfound, hfill⟩ := hother.order
      have hid : filled.orderId = fill.orderId := orderId_advancedOrder (hcache ▸ hadv)
      rw [TradingCache.getOrder_updateOrder, if_pos hid] at hfound
      cases hfound
      rw [filledBefore, hcache] at hfill
      exact hunfit (fits_of_filledOrder hadv hfill)

end

/-- An inbound fill applies whole or not at all exactly when a fresh one is refused without an
accrual, or is stored and fits its order. -/
theorem applyFill_whole_or_not_at_all (cfg : EngineConfig) (world : World) (fill : Fill)
    (charge : Option Decimal) (hown : cfg.positionProjectionOwned = false)
    (hquantity : 0 < fill.quantity.toRat)
    (hrecorded : ∀ recorded, charge = some recorded → 0 ≤ recorded.toRat)
    (hfilled : ∀ order, world.cache.getOrder fill.orderId = some order →
      0 ≤ order.filledQuantity.toRat) :
    WholeOrNothing cfg fill charge world ((Engine.applyFill cfg fill charge).run (exec cfg) world) ↔
      (Fresh fill world → Takes cfg fill charge world) := by
  by_cases hfresh : Fresh fill world
  · simp only [hfresh, forall_const]
    constructor
    · intro hwhole
      by_contra hnot
      obtain ⟨hreturned, hrsd⟩ :=
        wp_iff_run.1 (wp_applyFill_not_takes hown hquantity hrecorded hfresh hnot)
      cases hrun : ((Engine.applyFill cfg fill charge).run (exec cfg) world).1 with
      | error err => exact hrsd err hrun (hwhole.raised err hrun)
      | ok _ =>
        obtain ⟨fee, accrued, -, hadv⟩ := hwhole.returned hrun hfresh
        exact hreturned () hrun fee hadv
    · intro htakes
      obtain ⟨hreturned, hrsd⟩ :=
        wp_iff_run.1 (wp_applyFill_takes hown hquantity hrecorded hfilled hfresh htakes)
      exact ⟨hrsd, fun hok _ ↦ hreturned () hok⟩
  · have hskips : wp (exec cfg) (Engine.applyFill cfg fill charge) (fun _ _ ↦ True)
        (fun _ _ ↦ False) world :=
      wp_applyFill_entry (fun _ ↦ trivial) (fun _ _ _ _ ↦ trivial)
        fun hnew hopen ↦ absurd ⟨hnew, hopen⟩ hfresh
    refine iff_of_true ⟨fun err herr ↦ ?_, fun _ h ↦ absurd h hfresh⟩ fun h ↦ absurd h hfresh
    exact ((wp_iff_run.1 hskips).2 err herr).elim

def orderOf (status : OrderStatus) (filled : Decimal) : Order where
  orderId := "order-0"
  instrument := ⟨"NSE:INFY"⟩
  side := .buy
  orderType := .market
  quantity := 100
  price := none
  status := status
  filledQuantity := filled

def fillOf (qty : Decimal) : Fill where
  orderId := "order-0"
  instrument := ⟨"NSE:INFY"⟩
  side := .buy
  quantity := qty
  price := .ofNat 10
  fillId := some "trade-1"

def holding (cash : Decimal) (order : Order) : World :=
  { World.opened (.obliging fun _ ↦ .raised (.other "") none false) cash false with
    cache := TradingCache.empty.updateOrder order }

/-- The door's answer to a fill and the world after it. -/
def outcome (cash : Decimal) (order : Order) (qty : Decimal) : Except TradingError Unit × World :=
  (Engine.applyFill .standard (fillOf qty) none).run (exec .standard) (holding cash order)

theorem applyFill_whole_fitting :
    (outcome 10000 (orderOf .partiallyFilled 60) 30).1 = .ok () ∧
      ∃ fee, Advanced .standard (fillOf 30) fee (holding 10000 (orderOf .partiallyFilled 60))
        (outcome 10000 (orderOf .partiallyFilled 60) 30).2 := by
  have hreturned : (outcome 10000 (orderOf .partiallyFilled 60) 30).1 = .ok () := by decide +kernel
  have hwhole := applyFill_whole_or_not_at_all .standard
    (holding 10000 (orderOf .partiallyFilled 60)) (fillOf 30) none rfl (by decide +kernel)
    (fun _ hnone ↦ by cases hnone) (fun order horder ↦ by cases horder; decide +kernel)
  have htakes : Takes .standard (fillOf 30) none (holding 10000 (orderOf .partiallyFilled 60)) := by
    intro fee accrued hcharged
    have hfee : (Execution.computeFee true .empty (fillOf 30)).map Prod.fst = .ok ⟨13, -2⟩ := by
      decide +kernel
    rw [show Execution.computeFee true .empty (fillOf 30) = .ok (fee, accrued) from hcharged] at hfee
    cases hfee
    refine .inr ⟨by decide +kernel, ?_, fun order horder ↦ ?_⟩
    · rintro ⟨-, err, herr⟩
      cases herr
    · cases horder
      exact ⟨by decide +kernel, by decide +kernel⟩
  obtain ⟨fee, -, -, hadvanced⟩ := (hwhole.2 fun _ ↦ htakes).returned hreturned
    ⟨by decide +kernel, fun order horder ↦ by cases horder; decide⟩
  exact ⟨hreturned, fee, hadvanced⟩

/-- The order machine refuses NEW to FILLED after the booking, and a fill that the ledger refuses has
accrued its brokerage. -/
theorem raise_leaves_traces :
    ((outcome 10000 (orderOf .new 0) 100).1.isOk = false ∧
      positionQuantity ((outcome 10000 (orderOf .new 0) 100).2.cache.getPosition ⟨"NSE:INFY"⟩) = 100) ∧
    (outcome 500 (orderOf .ack 0) 100).1.isOk = false ∧
      (outcome 500 (orderOf .ack 0) 100).2.accrued ≠ (holding 500 (orderOf .ack 0)).accrued := by
  decide +kernel

end Tradex.Execution.FillDoor

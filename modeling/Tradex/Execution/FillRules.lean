import Tradex.Execution.Halting

/-!
# Rules for fills

What booking a fill does to the positions, the ledger and its order, and the inbound
fill door by its exits. The specification is for engines that book positions
themselves.
-/

namespace Tradex.Execution

open Tradex.Domain Program PositionAccountant TradingCache

section

variable (cache : TradingCache) (fill : Fill) (fee : Decimal)

@[simp] theorem orders_bookPosition : (bookPosition cache fill fee).orders = cache.orders := by
  unfold bookPosition onFee
  dsimp only
  split
  · split <;> rfl
  · rfl

@[simp] theorem getOrder_bookPosition {oid : String} :
    (bookPosition cache fill fee).getOrder oid = cache.getOrder oid := by
  simp [getOrder]

variable {instr : Instrument}

theorem positionQuantity_updatePosition {pos : Position} :
    positionQuantity ((cache.updatePosition pos).getPosition instr) =
      if pos.instrument = instr then pos.quantity.toRat
      else positionQuantity (cache.getPosition instr) := by
  rw [getPosition_updatePosition]
  by_cases hsame : pos.instrument = instr
  · rw [if_pos hsame, if_pos (congrArg Instrument.instrumentId hsame)]
    rfl
  · rw [if_neg hsame, if_neg fun hkey ↦ hsame (congrArg Instrument.mk hkey)]

theorem positionQuantity_restated {old restated : Position}
    (hheld : cache.getPosition old.instrument = some old)
    (hname : restated.instrument = old.instrument)
    (hqty : restated.quantity = old.quantity) :
    positionQuantity ((cache.updatePosition restated).getPosition instr) =
      positionQuantity (cache.getPosition instr) := by
  rw [positionQuantity_updatePosition, hname, hqty]
  split
  next hsame =>
    rw [← hsame, hheld]
    rfl
  next => rfl

theorem positionQuantity_onFee {fee : Money} :
    positionQuantity ((onFee cache fill fee).2.getPosition instr) =
      positionQuantity (cache.getPosition instr) := by
  unfold onFee
  cases hheld : cache.getPosition fill.instrument with
  | none => rfl
  | some held =>
    rw [← instrument_of_getPosition hheld] at hheld
    exact positionQuantity_restated cache hheld (by rfl) (by rfl)

theorem positionQuantity_onFill :
    positionQuantity ((onFill cache fill).2.getPosition instr) =
      positionQuantity (cache.getPosition instr) +
        if fill.instrument = instr then fill.signedQuantity.toRat else 0 := by
  unfold onFill
  rw [positionQuantity_updatePosition, instrument_applyFill, quantity_applyFill]
  split
  next hsame => rw [hsame]
  next => rw [add_zero]

theorem positionQuantity_bookPosition (instr : Instrument) :
    positionQuantity ((bookPosition cache fill fee).getPosition instr) =
      positionQuantity (cache.getPosition instr) +
        if fill.instrument = instr then fill.signedQuantity.toRat else 0 := by
  unfold bookPosition
  split
  · rw [positionQuantity_onFee, positionQuantity_onFill]
  · exact positionQuantity_onFill cache fill

end

namespace World

variable {world : World} {fill : Fill} {fee : Decimal}

def settled (world : World) (fill : Fill) (fee : Decimal) : World :=
  { world with
    cache := bookPosition world.cache fill fee
    booked := world.booked ++ [fill]
    ledger := world.ledger.map fun ledger ↦ ledger.afterFill fill fee }

theorem applyFillEffect_of_affordable (hproof : world.requireCash fill fee = .ok ())
    (hfee : 0 ≤ fee.toRat) (hqty : 0 ≤ fill.quantity.toRat) :
    world.applyFillEffect fill fee = (.ok (), world.settled fill fee) := by
  unfold requireCash at hproof
  unfold applyFillEffect settled
  cases hled : world.ledger with
  | none => simp [book, hled]
  | some ledger =>
    simp only [hled] at hproof
    have hacc := (CashLedger.requireDebit_eq_ok_iff _ _ _).1 hproof
    have hsettle := CashLedger.settleFill_of_affordable (CashLedger.fillLabel fill) hacc hfee hqty
    simp [hproof, hsettle, book]

theorem applyFillEffect_of_refused {err : TradingError}
    (href : world.requireCash fill fee = .error err) :
    world.applyFillEffect fill fee = (.error err, world) := by
  unfold requireCash at href
  unfold applyFillEffect
  cases hled : world.ledger with
  | none => simp [hled] at href
  | some ledger =>
    simp only [hled] at href
    simp [href]

end World

namespace Engine

section

variable {cfg : EngineConfig} {world : World} {fail : TradingError → World → Prop}

def warnedOverfills (overfills : List OverfillWarning) (order : Order) (fill : Fill) :
    List OverfillWarning :=
  overfills ++ (overfillWarning order fill).toList

variable {fill : Fill} {order : Order}

theorem wp_onOrderFilled {post : Order → World → Prop} :
    wp (exec cfg) (onOrderFilled order fill) post fail world ↔
      match filledOrder order fill with
      | .ok filled => post filled { world with
          cache := world.cache.updateOrder filled
          overfills := warnedOverfills world.overfills order fill }
      | .error err => fail err { world with
          overfills := warnedOverfills world.overfills order fill } := by
  unfold onOrderFilled warnedOverfills
  cases overfillWarning order fill <;> cases filledOrder order fill <;> simp [exec]

def advancedOrder (existing : Option Order) (fill : Fill) : Except TradingError Order :=
  match existing with
  | some order => filledOrder order fill
  | none => unknownFillOrder fill

def advancedOverfills (overfills : List OverfillWarning) (existing : Option Order) (fill : Fill) :
    List OverfillWarning :=
  existing.elim overfills fun order ↦ warnedOverfills overfills order fill

theorem wp_advanceOrder {old : Option Order} {post : Unit → World → Prop} :
    wp (exec cfg) (advanceOrder old fill) post fail world ↔
      match advancedOrder old fill with
      | .ok adv => post () { world with
          cache := world.cache.updateOrder adv
          overfills := advancedOverfills world.overfills old fill }
      | .error err => fail err { world with
          overfills := advancedOverfills world.overfills old fill } := by
  cases old with
  | none =>
    simp only [advanceOrder, advancedOrder]
    cases unknownFillOrder fill <;> exact Iff.rfl
  | some order => simp [advanceOrder, advancedOrder, advancedOverfills, wp_onOrderFilled]

theorem unknownFillOrder_ok (hok : unknownFillOrder fill = .ok order) :
    order.orderId = fill.orderId ∧ order.instrument = fill.instrument ∧ order.side = fill.side ∧
      order.quantity = fill.quantity ∧ order.filledQuantity = fill.quantity ∧
      order.status = .filled := by
  unfold unknownFillOrder at hok
  split at hok
  · cases hok
    simp [createOrder]
  · cases hok

theorem unknownFillOrder_of_pos (hqty : 0 < fill.quantity.toRat) :
    ∃ order, unknownFillOrder fill = .ok order := by
  unfold unknownFillOrder
  rw [dif_pos hqty]
  exact ⟨_, rfl⟩

theorem orderId_advancedOrder {cache : TradingCache} {adv : Order}
    (hadv : advancedOrder (cache.getOrder fill.orderId) fill = .ok adv) :
    adv.orderId = fill.orderId := by
  cases hcache : cache.getOrder fill.orderId with
  | none =>
    rw [hcache] at hadv
    exact (unknownFillOrder_ok hadv).1
  | some order =>
    rw [hcache] at hadv
    have hkey := orderId_of_getOrder hcache
    rw [filledOrder_ok hadv]
    exact hkey

end

def Charged (cfg : EngineConfig) (world : World) (fill : Fill) (charge : Option Decimal)
    (fee : Decimal) (accrued : Accrual) : Prop :=
  match charge with
  | some recorded => fee = recorded ∧ accrued = world.accrued
  | none => Execution.computeFee cfg.hasFeeCalculator world.accrued fill = .ok (fee, accrued)

variable {cfg : EngineConfig} {world : World} {fill : Fill} {charge : Option Decimal}
  {post : Unit → World → Prop} {fail : TradingError → World → Prop} {fee : Decimal}

theorem Charged.unique {other : Decimal} {accrued later : Accrual}
    (hchg : Charged cfg world fill charge fee accrued)
    (hother : Charged cfg world fill charge other later) : fee = other ∧ accrued = later := by
  cases charge with
  | none => exact Prod.mk.inj (Except.ok.inj (hchg.symm.trans hother))
  | some recorded => exact ⟨hchg.1.trans hother.1.symm, hchg.2.trans hother.2.symm⟩

theorem charged_nonneg {accrued : Accrual} (hchg : Charged cfg world fill charge fee accrued)
    (hrec : ∀ recorded, charge = some recorded → 0 ≤ recorded.toRat) : 0 ≤ fee.toRat := by
  cases charge with
  | none => exact computeFee_nonneg hchg
  | some recorded =>
    rw [hchg.1]
    exact hrec recorded rfl

section

variable (hown : cfg.positionProjectionOwned = false)

include hown

theorem wp_applyFillEffect_of_affordable (hproof : world.requireCash fill fee = .ok ())
    (hfee : 0 ≤ fee.toRat) (hqty : 0 ≤ fill.quantity.toRat)
    (hpost : post () (world.settled fill fee)) :
    wp (exec cfg) (applyFillEffect cfg fill fee) post fail world := by
  simp only [applyFillEffect, hown, Bool.false_eq_true, if_false, wp_bind, wp_act, exec,
    World.applyFillEffect_of_affordable hproof hfee hqty]
  exact hpost

theorem wp_applyFillEffect_of_refused {err : TradingError}
    (href : world.requireCash fill fee = .error err) (hfail : fail err world) :
    wp (exec cfg) (applyFillEffect cfg fill fee) post fail world := by
  simp only [applyFillEffect, hown, Bool.false_eq_true, if_false, wp_bind, wp_act, exec,
    World.applyFillEffect_of_refused href]
  exact hfail

variable {after : Decimal → World → Prop}

theorem wp_computeFee
    (hraise : ∀ err,
      Execution.computeFee cfg.hasFeeCalculator world.accrued fill = .error err →
      fail err world)
    (hchg : ∀ fee accrued,
      Execution.computeFee cfg.hasFeeCalculator world.accrued fill = .ok (fee, accrued) →
      after fee { world with accrued := accrued }) :
    wp (exec cfg) (computeFee cfg fill) after fail world := by
  simp only [computeFee, hown, Bool.false_eq_true, if_false, wp_bind, wp_act, exec,
    World.computeFee]
  cases hfee : Execution.computeFee cfg.hasFeeCalculator world.accrued fill with
  | error err => exact hraise err hfee
  | ok ans => exact hchg ans.1 ans.2 hfee

theorem wp_recordedOrComputedFee
    (hraise : ∀ err, charge = none →
      Execution.computeFee cfg.hasFeeCalculator world.accrued fill = .error err →
      fail err world)
    (hchg : ∀ fee accrued, Charged cfg world fill charge fee accrued →
      after fee { world with accrued := accrued }) :
    wp (exec cfg) (recordedOrComputedFee cfg fill charge) after fail world := by
  cases charge with
  | some recorded => exact hchg recorded world.accrued ⟨rfl, rfl⟩
  | none => exact wp_computeFee hown (fun err herr ↦ hraise err rfl herr) hchg

end

def doorBooked (cfg : EngineConfig) (world : World) (fill : Fill) (fee : Decimal)
    (accrued : Accrual) : World :=
  World.settled
    { world with
      accrued := accrued
      log := appendedLog cfg world.log (.orderFilled fill (some fee))
      environment := world.environment.afterAppend cfg
      dedup := (world.dedup.checkAndRecord fill).2 } fill fee

theorem wp_applyFill_entry
    (hdup : fingerprint fill ∈ world.dedup.lru →
      post () { world with dedup := world.dedup.moveToEnd (fingerprint fill) })
    (hrej : fingerprint fill ∉ world.dedup.lru → ∀ order,
      world.cache.getOrder fill.orderId = some order → order.status = .rejected → post () world)
    (hnew : fingerprint fill ∉ world.dedup.lru →
      (∀ order, world.cache.getOrder fill.orderId = some order → order.status ≠ .rejected) →
      wp (exec cfg)
        (applyFreshFill cfg (world.cache.getOrder fill.orderId) fill charge) post fail world) :
    wp (exec cfg) (applyFill cfg fill charge) post fail world := by
  simp only [applyFill, wp_bind, wp_act, exec]
  by_cases hseen : fingerprint fill ∈ world.dedup.lru
  · simp only [FillDedup.seen, if_pos hseen]
    exact hdup hseen
  · simp only [FillDedup.seen, if_neg hseen, Bool.false_eq_true, if_false, wp_bind, wp_act]
    split
    · rename_i hstat
      obtain ⟨order, hcache, horder⟩ := Option.map_eq_some_iff.1 hstat
      exact hrej hseen order hcache horder
    · rename_i hstat
      refine hnew hseen fun order hcache horder ↦ ?_
      exact hstat (Option.map_eq_some_iff.2 ⟨order, hcache, horder⟩)

theorem wp_applyFill (hown : cfg.positionProjectionOwned = false) (hqty : 0 ≤ fill.quantity.toRat)
    (hrec : ∀ recorded, charge = some recorded → 0 ≤ recorded.toRat)
    (hdup : fingerprint fill ∈ world.dedup.lru →
      post () { world with dedup := world.dedup.moveToEnd (fingerprint fill) })
    (hrej : ∀ order, world.cache.getOrder fill.orderId = some order →
      order.status = .rejected → post () world)
    (hraise : ∀ err, charge = none →
      Execution.computeFee cfg.hasFeeCalculator world.accrued fill = .error err →
      fail err world)
    (href : ∀ fee accrued err, Charged cfg world fill charge fee accrued →
      world.requireCash fill fee = .error err → fail err { world with accrued := accrued })
    (hhalt : ∀ fee accrued fin, Charged cfg world fill charge fee accrued →
      world.requireCash fill fee = .ok () → world.environment.AppendFails cfg →
      Halts { world with accrued := accrued } fin → post () fin)
    (happ : ∀ fee accrued, fingerprint fill ∉ world.dedup.lru →
      (∀ order, world.cache.getOrder fill.orderId = some order → order.status ≠ .rejected) →
      Charged cfg world fill charge fee accrued → world.requireCash fill fee = .ok () →
      ¬ world.environment.AppendFails cfg → wp (exec cfg) (advanceOrder (world.cache.getOrder fill.orderId) fill) post
        fail (doorBooked cfg world fill fee accrued)) :
    wp (exec cfg) (applyFill cfg fill charge) post fail world := by
  refine wp_applyFill_entry hdup (fun _ ↦ hrej) fun hnew hopen ↦ ?_
  simp only [applyFreshFill, wp_bind]
  refine wp_recordedOrComputedFee hown hraise fun fee accrued hchg ↦ ?_
  simp only [requireCashForFill, hown, Bool.false_eq_true, if_false, wp_bind, wp_act, exec]
  have hled : World.requireCash { world with accrued := accrued } fill fee =
      world.requireCash fill fee := rfl
  rw [hled]
  cases hproof : world.requireCash fill fee with
  | error err => exact href fee accrued err hchg hproof
  | ok _ =>
    refine wp_append (fun hkept ↦ ?_) fun fin ↦ hhalt fee accrued fin hchg hproof
    simp only [if_true, wp_bind]
    refine wp_applyFillEffect_of_affordable hown hproof (charged_nonneg hchg hrec) hqty ?_
    exact happ fee accrued hnew hopen hchg hproof hkept

theorem wp_publishFilled_of_recorded (hrec : fingerprint fill ∈ world.dedup.lru)
    (hpost : post () { world with dedup := world.dedup.moveToEnd (fingerprint fill) }) :
    wp (exec cfg) (publishFilled cfg fill charge) post fail world := by
  simp only [publishFilled, wp_bind, wp_tryCatch]
  exact wp_applyFill_entry (fun _ ↦ hpost) (fun hnew ↦ absurd hrec hnew)
    (fun hnew ↦ absurd hrec hnew)

end Engine

end Tradex.Execution

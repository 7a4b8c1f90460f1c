import Tradex.Execution.EngineState
import Tradex.Foundation.Separated

/-!
# Recovery from the event log

The replay of an event log into an empty cache, and the fold of cash and fees from the latest
opening anchor.
-/

namespace Tradex.Execution.Recovery

open Tradex.Domain CashLedger List

def contentIdentity (fill : Fill) : String :=
  fill.orderId ++ "|" ++ fill.side.value ++ "|" ++ fill.quantity.str ++ "|" ++ fill.price.value.str

def fillIdentity (fill : Fill) : String :=
  match fill.fillId with
  | some fillId => if fillId ≠ "" then fillId else contentIdentity fill
  | none => contentIdentity fill

variable (events : List DomainEvent)

def orderTotals : Dict String Decimal :=
  events.foldl (fun totals ev ↦
    match ev.carriedOrder with
    | some order =>
      match totals.get order.orderId with
      | some _ => totals
      | none => totals.set order.orderId order.quantity
    | none => totals) Dict.empty

structure TakenFills where
  seen : List String
  cumulative : Dict String Decimal

variable {taken : TakenFills}

namespace TakenFills

def empty : TakenFills := ⟨[], Dict.empty⟩

def isDuplicate (totals : Dict String Decimal) (taken : TakenFills) (fill : Fill) : Bool :=
  if fillIdentity fill ∈ taken.seen then
    if fill.fillId.isSome then true
    else
      match totals.get fill.orderId with
      | none => true
      | some total => decide (total < (taken.cumulative.get fill.orderId).getD 0 + fill.quantity)
  else false

def add (taken : TakenFills) (fill : Fill) : TakenFills where
  seen := taken.seen ++ [fillIdentity fill]
  cumulative := taken.cumulative.set fill.orderId
    ((taken.cumulative.get fill.orderId).getD 0 + fill.quantity)

theorem isDuplicate_of_unseen (totals : Dict String Decimal) {fill : Fill}
    (hnew : fillIdentity fill ∉ taken.seen) : taken.isDuplicate totals fill = false := by
  rw [isDuplicate, if_neg hnew]

end TakenFills

def stubOrder (fill : Fill) : Order where
  orderId := fill.orderId
  instrument := fill.instrument
  side := fill.side
  orderType := .market
  quantity := fill.quantity
  price := some fill.price
  status := .filled
  filledQuantity := fill.quantity

def terminalAfterFill : List OrderStatus := [.cancelled, .rejected]

variable (cache : TradingCache)

def replayOrder (fill : Fill) : Except TradingError TradingCache :=
  let cur := (cache.getOrder fill.orderId).getD (stubOrder fill)
  let known := if (cache.getOrder fill.orderId).isNone then cache.updateOrder cur else cache
  if cur.status ∈ terminalAfterFill then .ok known
  else (filledOrder cur fill).map known.updateOrder

def replayPosition (fill : Fill) (charge : Option Decimal) : TradingCache :=
  let filled := (PositionAccountant.onFill cache fill).2
  match charge with
  | some fee =>
    if fee.toRat ≠ 0 then (PositionAccountant.onFee filled fill { amount := fee }).2 else filled
  | none => filled

def replayFill (fill : Fill) (charge : Option Decimal) : Except TradingError TradingCache :=
  (replayOrder cache fill).map fun known ↦ replayPosition known fill charge

structure Replay where
  cache : TradingCache
  taken : TakenFills
  orders : ℕ
  booked : List Fill

def Replay.start : Replay := ⟨TradingCache.empty, TakenFills.empty, 0, []⟩

def replayEvent (totals : Dict String Decimal) (replay : Replay) (ev : DomainEvent) :
    Except TradingError Replay :=
  match ev.carriedOrder with
  | some order =>
    .ok { replay with cache := replay.cache.updateOrder order, orders := replay.orders + 1 }
  | none =>
    match ev with
    | .orderFilled fill charge =>
      if replay.taken.isDuplicate totals fill then .ok replay
      else
        (replayFill replay.cache fill charge).map fun cache ↦
          { cache := cache
            taken := replay.taken.add fill
            orders := if (replay.cache.getOrder fill.orderId).isNone then replay.orders + 1
              else replay.orders
            booked := replay.booked ++ [fill] }
    | _ => .ok replay

def recoverTradingCache : Except TradingError Replay :=
  events.foldlM (replayEvent (orderTotals events)) Replay.start

structure CashState where
  cash : Decimal
  totalFees : Decimal
  openingCash : Decimal
deriving DecidableEq

def latestAnchor : List DomainEvent → Option (Decimal × List DomainEvent)
  | [] => none
  | ev :: rest =>
    match latestAnchor rest with
    | some found => some found
    | none =>
      match ev with
      | .cashAccountInitialized amount => some (amount, rest)
      | _ => none

def cashFill (ledger : CashLedger) (fill : Fill) (charge : Option Decimal) :
    Except TradingError CashLedger := do
  let moved ← ledger.moveNotional fill "BUY fill"
  match charge with
  | some fee => if fee.toRat ≠ 0 then moved.onFee fee else return moved
  | none => return moved

def cashEvent (totals : Dict String Decimal) (st : CashLedger × TakenFills)
    (ev : DomainEvent) : Except TradingError (CashLedger × TakenFills) :=
  match ev with
  | .cashReconciled prev amount _ => .ok ({ st.1 with cash := st.1.cash + (amount - prev) }, st.2)
  | .orderFilled fill charge =>
    if st.2.isDuplicate totals fill then .ok st
    else (cashFill st.1 fill charge).map fun ledger ↦ (ledger, st.2.add fill)
  | _ => .ok st

def foldCash : Except TradingError CashState :=
  match latestAnchor events with
  | none =>
    .error (.runtime ("event log has no CashAccountInitialized anchor; cash cannot be " ++
      "reconstructed (unknown is not zero)"))
  | some (opening, rest) => do
    let final ← rest.foldlM (cashEvent (orderTotals events))
      ({ cash := opening, allowNegative := true }, TakenFills.empty)
    return { cash := final.1.cash, totalFees := final.1.totalFees, openingCash := opening }

def reportedFills : List Fill :=
  events.filterMap DomainEvent.reportedFill

def identities : List String :=
  (reportedFills events).map fillIdentity

@[simp] theorem reportedFills_append (events more : List DomainEvent) :
    reportedFills (events ++ more) = reportedFills events ++ reportedFills more :=
  filterMap_append

variable {events : List DomainEvent}

@[simp] theorem identities_append {more : List DomainEvent} :
    identities (events ++ more) = identities events ++ identities more := by
  simp [identities]

variable {ev : DomainEvent} {cache : TradingCache} {events : List DomainEvent} {ledger : CashLedger}
  {st : CashLedger × TakenFills} {totals : Dict String Decimal} {opening : Decimal}

theorem reportedFills_snoc_of_none (hnone : ev.reportedFill = none) :
    reportedFills (events ++ [ev]) = reportedFills events := by
  simp [reportedFills, hnone]

theorem identities_snoc_of_none (hnone : ev.reportedFill = none) :
    identities (events ++ [ev]) = identities events := by
  rw [identities, reportedFills_snoc_of_none hnone, identities]

def plainEvent (cache : TradingCache) (ev : DomainEvent) : Except TradingError TradingCache :=
  match ev.carriedOrder with
  | some order => .ok (cache.updateOrder order)
  | none =>
    match ev with
    | .orderFilled fill charge => replayFill cache fill charge
    | _ => .ok cache

def plainReplay (cache : TradingCache) (events : List DomainEvent) :
    Except TradingError TradingCache :=
  events.foldlM plainEvent cache

variable {ev : DomainEvent} {totals : Dict String Decimal}

theorem replayEvent_of_unseen {replay : Replay}
    (hnew : ∀ fill, ev.reportedFill = some fill → fillIdentity fill ∉ replay.taken.seen)
    (hplain : plainEvent replay.cache ev = .ok cache) :
    ∃ next, replayEvent totals replay ev = .ok next ∧ next.cache = cache ∧
      next.taken.seen = replay.taken.seen ++ identities [ev] ∧
      next.booked = replay.booked ++ reportedFills [ev] := by
  unfold replayEvent plainEvent at *
  cases ev with
  | orderFilled fill charge =>
    have hunseen := TakenFills.isDuplicate_of_unseen totals (hnew fill rfl)
    simp only [DomainEvent.carriedOrder] at hplain ⊢
    rw [hunseen, hplain]
    exact ⟨_, rfl, rfl, rfl, rfl⟩
  | _ =>
    simp only [DomainEvent.carriedOrder, Except.ok.injEq] at hplain ⊢
    exact ⟨_, rfl, hplain, (append_nil _).symm, (append_nil _).symm⟩

variable {rest : List DomainEvent}

theorem unseen_of_nodup_cons {seen : List String} (hnd : (seen ++ identities (ev :: rest)).Nodup) :
    (∀ fill, ev.reportedFill = some fill → fillIdentity fill ∉ seen) ∧
      ((seen ++ identities [ev]) ++ identities rest).Nodup := by
  rw [← singleton_append, identities_append] at hnd
  constructor
  · intro fill hfill hseen
    refine (nodup_append.1 hnd).2.2 _ hseen (fillIdentity fill) ?_ rfl
    simp [identities, reportedFills, hfill]
  · rwa [append_assoc]

theorem foldlM_replayEvent (totals : Dict String Decimal) (events : List DomainEvent)
    (replay : Replay) (hnd : (replay.taken.seen ++ identities events).Nodup)
    (hplain : plainReplay replay.cache events = .ok cache) :
    ∃ fin, events.foldlM (replayEvent totals) replay = .ok fin ∧ fin.cache = cache ∧
      fin.booked = replay.booked ++ reportedFills events := by
  induction events generalizing replay with
  | nil =>
    cases hplain
    exact ⟨replay, rfl, rfl, (append_nil _).symm⟩
  | cons ev rest ih =>
    unfold plainReplay at hplain
    obtain ⟨middle, hev, hrest⟩ := except_bind_eq_ok hplain
    obtain ⟨hnew, hnd⟩ := unseen_of_nodup_cons hnd
    obtain ⟨next, hnext, rfl, hseen, hbook⟩ := replayEvent_of_unseen hnew hev
    rw [← hseen] at hnd
    obtain ⟨fin, hfin, hcache, hfills⟩ := ih next hnd hrest
    refine ⟨fin, ?_, hcache, ?_⟩
    · rw [foldlM_cons, hnext]
      exact hfin
    · rw [hfills, hbook, append_assoc, ← reportedFills_append, singleton_append]

theorem recoverTradingCache_of_nodup (hnd : (identities events).Nodup)
    (hplain : plainReplay TradingCache.empty events = .ok cache) :
    ∃ replay, recoverTradingCache events = .ok replay ∧ replay.cache = cache ∧
      replay.booked = reportedFills events :=
  foldlM_replayEvent (orderTotals events) events Replay.start hnd hplain

def plainCash (ledger : CashLedger) (ev : DomainEvent) : Except TradingError CashLedger :=
  match ev with
  | .cashReconciled prev amount _ => .ok { ledger with cash := ledger.cash + (amount - prev) }
  | .orderFilled fill charge => cashFill ledger fill charge
  | _ => .ok ledger

theorem cashEvent_of_unseen {start : CashLedger}
    (hnew : ∀ fill, ev.reportedFill = some fill → fillIdentity fill ∉ taken.seen)
    (hplain : plainCash start ev = .ok ledger) :
    ∃ next, cashEvent totals (start, taken) ev = .ok (ledger, next) ∧
      next.seen = taken.seen ++ identities [ev] := by
  unfold cashEvent plainCash at *
  cases ev with
  | orderFilled fill charge =>
    have hunseen := TakenFills.isDuplicate_of_unseen totals (hnew fill rfl)
    simp only at hplain ⊢
    rw [hunseen, hplain]
    exact ⟨_, rfl, rfl⟩
  | cashReconciled prev amount why =>
    cases hplain
    exact ⟨taken, rfl, (append_nil _).symm⟩
  | _ =>
    cases hplain
    exact ⟨taken, rfl, (append_nil _).symm⟩

theorem foldlM_cashEvent (totals : Dict String Decimal) (events : List DomainEvent)
    (start : CashLedger) (taken : TakenFills) (hnd : (taken.seen ++ identities events).Nodup)
    (hplain : events.foldlM plainCash start = .ok ledger) :
    ∃ fin, events.foldlM (cashEvent totals) (start, taken) = .ok (ledger, fin) := by
  induction events generalizing start taken with
  | nil =>
    cases hplain
    exact ⟨taken, rfl⟩
  | cons ev rest ih =>
    obtain ⟨middle, hev, hrest⟩ := except_bind_eq_ok hplain
    obtain ⟨hnew, hnd⟩ := unseen_of_nodup_cons hnd
    obtain ⟨next, hnext, hseen⟩ := cashEvent_of_unseen hnew hev
    rw [← hseen] at hnd
    obtain ⟨fin, hfin⟩ := ih middle next hnd hrest
    refine ⟨fin, ?_⟩
    rw [foldlM_cons, hnext]
    exact hfin

def isAnchor : DomainEvent → Bool
  | .cashAccountInitialized _ => true
  | _ => false

theorem latestAnchor_eq_none
    (hancs : ∀ ev ∈ events, isAnchor ev = false) : latestAnchor events = none := by
  induction events with
  | nil => rfl
  | cons ev rest ih =>
    have hrest := ih fun other hother ↦ hancs other (mem_cons_of_mem _ hother)
    cases ev <;> simp_all [latestAnchor, isAnchor]

theorem foldCash_of_nodup (hancs : ∀ ev ∈ events, isAnchor ev = false)
    (hnd : (identities events).Nodup)
    (hplain : events.foldlM plainCash { cash := opening, allowNegative := true } = .ok ledger) :
    foldCash (.cashAccountInitialized opening :: events) =
      .ok { cash := ledger.cash, totalFees := ledger.totalFees, openingCash := opening } := by
  obtain ⟨taken, hfin⟩ := foldlM_cashEvent
    (orderTotals (.cashAccountInitialized opening :: events)) events
    { cash := opening, allowNegative := true } TakenFills.empty hnd hplain
  simp only [foldCash, latestAnchor, latestAnchor_eq_none hancs, hfin]
  rfl

variable {fill : Fill}

theorem cashFill_value {ledger live : CashLedger} (hfloor : ledger.allowNegative = true)
    (hcash : ledger.cash.toRat = live.cash.toRat)
    (hfees : ledger.totalFees.toRat = live.totalFees.toRat) {fee : Decimal} :
    ∃ after, cashFill ledger fill (some fee) = .ok after ∧ after.allowNegative = true ∧
      after.cash.toRat = (live.afterFill fill fee).cash.toRat ∧
      after.totalFees.toRat = (live.afterFill fill fee).totalFees.toRat := by
  have hacc : ∀ (moved : CashLedger) (amount : Decimal), moved.allowNegative = true →
      moved.refusesDebit amount = false := by
    intro moved amount hmove
    simp [refusesDebit, hmove]
  obtain ⟨moved, hmove, hmovedFloor, hmovedCash, hmovedFees⟩ : ∃ moved : CashLedger,
      ledger.moveNotional fill "BUY fill" = .ok moved ∧ moved.allowNegative = true ∧
        moved.cash.toRat = (live.afterFill fill fee).cash.toRat + fee.toRat ∧
        moved.totalFees.toRat = live.totalFees.toRat := by
    unfold moveNotional afterFill
    cases fill.side with
    | buy =>
      refine ⟨{ ledger with cash := ledger.cash - notional fill }, ?_, hfloor, ?_, hfees⟩
      · simp [debit, hacc ledger _ hfloor]
      · simp [hcash]
    | sell =>
      refine ⟨{ ledger with cash := ledger.cash + notional fill }, rfl, hfloor, ?_, hfees⟩
      simp [hcash]
  unfold cashFill
  rw [hmove]
  by_cases hzero : fee.toRat = 0
  · refine ⟨moved, by simp [hzero, Bind.bind, Except.bind, Pure.pure, Except.pure],
      hmovedFloor, ?_, ?_⟩
    · rw [hmovedCash, hzero, add_zero]
    · simp [afterFill, hmovedFees, hzero]
  · refine ⟨{ moved with cash := moved.cash - fee, totalFees := moved.totalFees + fee }, ?_,
      hmovedFloor, ?_, ?_⟩
    · simp [hzero, Bind.bind, Except.bind, onFee, debit, hacc moved _ hmovedFloor, Except.map]
    · rw [Decimal.toRat_sub, hmovedCash]
      ring
    · simp [afterFill, hmovedFees]

theorem cashFill_returns (hfloor : ledger.allowNegative = true) {charge : Option Decimal} :
    ∃ after, cashFill ledger fill charge = .ok after ∧ after.allowNegative = true ∧
      after.totalFees.toRat = ledger.totalFees.toRat + (charge.getD 0).toRat := by
  have hfee : cashFill ledger fill charge = cashFill ledger fill (some (charge.getD 0)) := by
    cases charge with
    | none => simp [cashFill]
    | some fee => rfl
  obtain ⟨after, hafter, hopen, -, hfees⟩ := cashFill_value hfloor rfl rfl
  refine ⟨after, hfee.trans hafter, hopen, ?_⟩
  rw [hfees, afterFill, Decimal.toRat_add]

theorem cashEvent_returns (hfloor : st.1.allowNegative = true) :
    ∃ next, cashEvent totals st ev = .ok next ∧ next.1.allowNegative = true := by
  cases ev with
  | orderFilled fill charge =>
    obtain ⟨after, hafter, hopen, -⟩ := cashFill_returns hfloor
    unfold cashEvent
    dsimp only
    split
    · exact ⟨st, rfl, hfloor⟩
    · rw [hafter]
      exact ⟨_, rfl, hopen⟩
  | cashReconciled prev amount why => exact ⟨_, rfl, hfloor⟩
  | _ => exact ⟨st, rfl, hfloor⟩

theorem foldlM_cashEvent_returns (hfloor : st.1.allowNegative = true) :
    ∃ fin, events.foldlM (cashEvent totals) st = .ok fin ∧ fin.1.allowNegative = true := by
  induction events generalizing st with
  | nil => exact ⟨st, rfl, hfloor⟩
  | cons ev rest ih =>
    obtain ⟨next, hnext, hopen⟩ := cashEvent_returns hfloor
    obtain ⟨fin, hfin, hlast⟩ := ih hopen
    refine ⟨fin, ?_, hlast⟩
    rw [foldlM_cons, hnext]
    exact hfin

theorem foldCash_returns (hanc : latestAnchor events = some (opening, rest)) :
    ∃ cash, foldCash events = .ok cash := by
  let start : CashLedger × TakenFills :=
    ({ cash := opening, allowNegative := true }, TakenFills.empty)
  have hfloor : start.1.allowNegative = true := rfl
  obtain ⟨fin, hfin, -⟩ := foldlM_cashEvent_returns hfloor
  unfold foldCash
  rw [hanc]
  dsimp only
  rw [hfin]
  exact ⟨_, rfl⟩

end Tradex.Execution.Recovery

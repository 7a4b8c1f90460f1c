import Tradex.Execution.AdoptionPlan
import Tradex.Execution.RestartEquivalence
import Tradex.Foundation.Protocol

/-!
# A reconciliation poll among inbound fills

A poll reads the venue, compares, collects the instruments with orders in flight, reads the book and
writes, and fills are applied between any two of these steps.
-/

namespace Tradex.Runtime

open Tradex.Domain Tradex.Execution PositionAccountant List

structure Poll where
  currency : Instrument → String
  read : VenueRead
  lastReadAt : Option ℤ
  adopt : Bool

inductive PollPhase where
  | venueRead
  | compared
  | guarded (unsettled : Finset String)
  | located (unsettled : Finset String) (rows : List PositionRow)
  | planned (plan : VenueAdoption)
  | finished (result : Except TradingError AdoptionOutcome)

def PollPhase.isQuiet : PollPhase → Bool
  | .venueRead => true
  | .compared => true
  | .finished _ => true
  | _ => false

structure PollState where
  pool : Pool ℕ Op Op.Res TradingError Unit World
  phase : PollPhase
  bookings : List (Fill × Decimal)

inductive Move where
  | engine (thread : ℕ)
  | poll (readable : Bool)

def newBookings (world : World) : Op → List (Fill × Decimal)
  | .applyFillEffect fill fee => if (world.requireCash fill fee).isOk then [(fill, fee)] else []
  | _ => []

namespace Poll

variable (poll : Poll)

def refusedBy (why : String) : PollPhase :=
  .finished (.ok { adoption := .empty, applied := false, refusal := why, read := poll.read })

def derive (unpaid : Finset String) (rows : List PositionRow) : PollPhase :=
  if refusalOf poll.read poll.lastReadAt ≠ "" then
    poll.refusedBy (refusalOf poll.read poll.lastReadAt)
  else
    match deriveVenueAdoption poll.currency rows poll.read.positions unpaid with
    | .error err => .finished (.error err)
    | .ok plan => .planned plan

def write (plan : VenueAdoption) (cache : TradingCache) : PollPhase × TradingCache :=
  if poll.adopt then
    match applyVenueAdoption plan cache with
    | .error err => (.finished (.error err), cache)
    | .ok written =>
      (.finished (.ok { adoption := plan, applied := true, read := poll.read }), written)
  else (.finished (.ok { adoption := plan, applied := false, read := poll.read }), cache)

def next (readable : Bool) (phase : PollPhase) (cache : TradingCache) : PollPhase × TradingCache :=
  match phase with
  | .venueRead => (.compared, cache)
  | .compared =>
    if readable then (.guarded (unsettledLocalInstruments cache.allOrders), cache)
    else (poll.refusedBy "unsettled_guard_unavailable", cache)
  | .guarded unpaid => (.located unpaid (if readable then bookRows cache else []), cache)
  | .located unpaid rows => (poll.derive unpaid rows, cache)
  | .planned plan => poll.write plan cache
  | .finished res => (.finished res, cache)

end Poll

namespace PollState

variable (cfg : EngineConfig) (poll : Poll)

def cache (st : PollState) : TradingCache := st.pool.shared.cache

variable (st : PollState)

def booksNext (tid : ℕ) : List (Fill × Decimal) :=
  match st.pool.threads tid with
  | .call op _ => newBookings st.pool.shared op
  | _ => []

def step (st : PollState) : Move → PollState
  | .engine tid =>
    { st with
      pool := st.pool.step (exec cfg) tid
      bookings := st.bookings ++ st.booksNext tid }
  | .poll readable =>
    let after := poll.next readable st.phase st.cache
    { st with
      pool := { st.pool with shared := { st.pool.shared with cache := after.2 } }
      phase := after.1 }

def run (moves : List Move) : PollState := moves.foldl (step cfg poll) st

def begin (pool : Pool ℕ Op Op.Res TradingError Unit World) : PollState where
  pool := pool
  phase := .venueRead
  bookings := []

def allows : Move → Bool
  | .engine tid =>
    match st.phase with
    | .guarded unpaid =>
      (st.booksNext tid).all fun booking ↦
        decide (booking.1.instrument.instrumentId ∈ unpaid)
    | _ => true
  | .poll readable =>
    match st.phase with
    | .compared =>
      st.bookings.all fun booking ↦
        decide (booking.1.instrument.instrumentId ∈ unsettledLocalInstruments st.cache.allOrders)
    | .guarded _ => readable
    | _ => true

def allowsAll : PollState → List Move → Bool
  | _, [] => true
  | st, move :: moves => st.allows move && allowsAll (st.step cfg poll move) moves

end PollState

def bookAll (bookings : List (Fill × Decimal)) (cache : TradingCache) : TradingCache :=
  bookings.foldl (fun book booking ↦ bookPosition book booking.1 booking.2) cache

variable {left right : TradingCache} {bookings : List (Fill × Decimal)} {fill : Fill} {iid : String}

theorem positions_bookPosition_congr (hposn : left.positions = right.positions)
    {fee : Decimal} :
    (bookPosition left fill fee).positions = (bookPosition right fill fee).positions := by
  have hfill : (onFill left fill).2.positions =
      (onFill right fill).2.positions := RestartEquivalence.positions_onFill_congr hposn
  unfold bookPosition
  split
  · exact RestartEquivalence.positions_onFee_congr hfill
  · exact hfill

theorem positions_bookAll_congr (hposn : left.positions = right.positions) :
    (bookAll bookings left).positions = (bookAll bookings right).positions := by
  induction bookings generalizing left right with
  | nil => exact hposn
  | cons booking rest ih => exact ih (positions_bookPosition_congr hposn)

theorem get_bookPosition_of_ne {cache : TradingCache} (fee : Decimal)
    (hne : fill.instrument.instrumentId ≠ iid) :
    (bookPosition cache fill fee).positions.get iid = cache.positions.get iid := by
  have hfill : (onFill cache fill).2.positions.get iid =
      cache.positions.get iid := by
    have hget := TradingCache.getPosition_updatePosition cache
      (applyFill (cache.getPosition fill.instrument) fill) ⟨iid⟩
    rwa [if_neg (by simpa using hne)] at hget
  unfold bookPosition
  dsimp only
  split
  · unfold onFee
    cases hheld : (onFill cache fill).2.getPosition fill.instrument with
    | none => exact hfill
    | some held =>
      have hname := TradingCache.instrument_of_getPosition hheld
      have hother := TradingCache.getPosition_updatePosition
        (onFill cache fill).2
        (feeDeducted held { amount := fee }) ⟨iid⟩
      rw [if_neg (by rw [feeDeducted, hname]; exact hne)] at hother
      exact hother.trans hfill
  · exact hfill

theorem get_bookAll_of_untouched
    (hidle : ∀ booking ∈ bookings, booking.1.instrument.instrumentId ≠ iid)
    (cache : TradingCache) :
    (bookAll bookings cache).positions.get iid = cache.positions.get iid := by
  induction bookings generalizing cache with
  | nil => rfl
  | cons booking rest ih =>
    have hrest := ih (fun other hother ↦ hidle other (mem_cons_of_mem _ hother))
      (bookPosition cache booking.1 booking.2)
    exact hrest.trans (get_bookPosition_of_ne _ (hidle booking mem_cons_self))

theorem positions_exec (cfg : EngineConfig) (op : Op) (world : World) :
    (exec cfg op world).2.cache.positions =
      (bookAll (newBookings world op) world.cache).positions := by
  cases op with
  | applyFillEffect fill fee =>
    rcases Option.eq_none_or_eq_some world.ledger with hled | ⟨ledger, hled⟩
    · simp only [exec, World.applyFillEffect, newBookings, World.requireCash, hled]
      rfl
    · simp only [exec, World.applyFillEffect, newBookings, World.requireCash, hled]
      cases ledger.requireDebit (CashLedger.fillDebit fill fee) (CashLedger.fillLabel fill) <;> rfl
  | storeAppend ev =>
    simp only [exec, World.storeAppend]
    cases world.environment.appends 0 <;> rfl
  | computeFee fill =>
    simp only [exec, World.computeFee]
    cases Execution.computeFee cfg.hasFeeCalculator world.accrued fill <;> rfl
  | publish ev =>
    simp only [exec]
    cases ev <;> simp only [World.publish] <;> first | rfl | (split <;> rfl)
  | _ => rfl

def Poll.Agrees (poll : Poll) (cache : TradingCache) : Prop :=
  ∀ iid venueRow, (byId poll.read.positions).get iid = some venueRow →
    match cache.positions.get iid with
    | some pos => ∃ venue, venueQuantity venueRow = some venue ∧
        agrees (rowOf pos) venueRow pos.quantity venue = .ok true
    | none => isFlat venueRow = true

def IsIdle (plan : VenueAdoption) : Prop :=
  (∀ iid, plan.positions.get iid = none) ∧ ∀ iid, plan.cleared.get iid = none

theorem values_eq_nil {Value : Type} {dict : Dict String Value}
    (hnone : ∀ iid, dict.get iid = none) : dict.values = [] := by
  rw [eq_nil_iff_forall_not_mem]
  intro val hval
  obtain ⟨iid, hiid⟩ := Dict.exists_get_of_mem_values hval
  rw [hnone iid] at hiid
  cases hiid

variable {plan : VenueAdoption}

theorem applyVenueAdoption_of_isIdle (hidle : IsIdle plan)
    (cache : TradingCache) : applyVenueAdoption plan cache = .ok cache := by
  rw [applyVenueAdoption, values_eq_nil hidle.1, values_eq_nil hidle.2]
  split
  · rfl
  · rfl

variable {poll : Poll} {start cache : TradingCache}

theorem isIdle_of_guarded {unpaid : Finset String}
    (hagree : poll.Agrees start) (hbook : cache.positions = (bookAll bookings start).positions)
    (hgrd : ∀ booking ∈ bookings, booking.1.instrument.instrumentId ∈ unpaid)
    (hplan : deriveVenueAdoption poll.currency (bookRows cache) poll.read.positions unpaid =
      .ok plan) : IsIdle plan := by
  have hfol := (deriveVenueAdoption_ok hplan).1
  have hkept : ∀ iid, iid ∉ unpaid → cache.positions.get iid = start.positions.get iid := by
    intro iid hsettle
    rw [hbook]
    refine get_bookAll_of_untouched (fun booking hbooking heq ↦ hsettle ?_) start
    exact heq ▸ hgrd booking hbooking
  -- A position that the venue agreed with is not corrected.
  have hagreed : ∀ iid localRow venueRow own venue, iid ∉ unpaid →
      (byId (bookRows cache)).get iid = some localRow →
      (byId poll.read.positions).get iid = some venueRow → venueQuantity venueRow = some venue →
      venueQuantity localRow = some own → agrees localRow venueRow own venue ≠ .ok false := by
    intro iid localRow venueRow own venue hsettle hlocal hlist hvenue hown hdiffer
    rw [get_byId_bookRows, hkept iid hsettle, Option.map_eq_some_iff] at hlocal
    obtain ⟨held, hheld, rfl⟩ := hlocal
    have hsame := hagree iid venueRow hlist
    rw [hheld] at hsame
    obtain ⟨qty, hqty, hsame⟩ := hsame
    cases hvenue.symm.trans hqty
    cases hown
    rw [hsame] at hdiffer
    cases hdiffer
  constructor
  · intro iid
    rw [hfol.positions, Option.bind_eq_none_iff]
    intro verdict hver
    cases verdict with
    | adopt pos prev =>
      obtain ⟨hsettle, venueRow, qty, hlist, hqty, hnz, -⟩ := of_verdictOf_adopt hver
      cases hlocal : (byId (bookRows cache)).get iid with
      | none =>
        have hflat := hagree iid venueRow hlist
        rw [get_byId_bookRows, Option.map_eq_none_iff, hkept iid hsettle] at hlocal
        rw [hlocal] at hflat
        exact absurd ((isFlat_iff hqty).1 hflat) hnz
      | some localRow =>
        rcases of_verdictOf_held hlocal hver with ⟨_, hskip⟩ | hkeep |
          ⟨otherRow, venue, own, hother, hvenue, hown, hdiffer, -⟩
        · cases hskip
        · cases hkeep
        · exact absurd hdiffer (hagreed iid localRow otherRow own venue hsettle hlocal hother
            hvenue hown)
    | _ => rfl
  · intro iid
    rw [hfol.cleared, Option.bind_eq_none_iff]
    intro verdict hver
    cases verdict with
    | clear flat prev =>
      obtain ⟨hsettle, hlocal, venueRow, qty, own, hlist, hqty, -, hown, hdiffer, -⟩ :=
        of_verdictOf_clear hver
      exact absurd hdiffer (hagreed iid prev venueRow own qty hsettle hlocal hlist hqty hown)
    | _ => rfl

namespace PollState

structure Undisturbed (poll : Poll) (start : TradingCache) (state : PollState) : Prop where
  book : state.cache.positions = (bookAll state.bookings start).positions
  guarded : ∀ unsettled, state.phase = .guarded unsettled →
    ∀ booking ∈ state.bookings, booking.1.instrument.instrumentId ∈ unsettled
  located : ∀ unsettled rows plan, state.phase = .located unsettled rows →
    deriveVenueAdoption poll.currency rows poll.read.positions unsettled = .ok plan → IsIdle plan
  planned : ∀ plan, state.phase = .planned plan → IsIdle plan

variable {cfg : EngineConfig} {st : PollState}

theorem Undisturbed.engineStep (hst : st.Undisturbed poll start) {tid : ℕ}
    (hallows : st.allows (.engine tid) = true) :
    (st.step cfg poll (.engine tid)).Undisturbed poll start := by
  have hbook : (st.pool.step (exec cfg) tid).shared.cache.positions =
      (bookAll (st.booksNext tid) st.cache).positions := by
    cases htid : st.pool.threads tid with
    | call op rest => simp only [Pool.step, booksNext, htid, positions_exec, cache]
    | _ => simp only [Pool.step, booksNext, htid]; rfl
  refine ⟨?_, ?_, hst.located, hst.planned⟩
  · calc
      (st.pool.step (exec cfg) tid).shared.cache.positions =
          (bookAll (st.booksNext tid) st.cache).positions := hbook
      _ = (bookAll (st.booksNext tid) (bookAll st.bookings start)).positions :=
        positions_bookAll_congr hst.book
      _ = (bookAll (st.bookings ++ st.booksNext tid) start).positions := by
        rw [bookAll, bookAll, bookAll, foldl_append]
  · intro unpaid hphase booking hbooking
    rw [allows, show st.phase = .guarded unpaid from hphase] at hallows
    rcases mem_append.1 hbooking with hold | hnew
    · exact hst.guarded unpaid hphase booking hold
    · exact of_decide_eq_true (all_eq_true.1 hallows booking hnew)

theorem undisturbed_of_isQuiet (hbook : st.cache.positions = (bookAll st.bookings start).positions)
    (hquiet : st.phase.isQuiet = true) : st.Undisturbed poll start := by
  refine ⟨hbook, ?_, ?_, ?_⟩
  · intro unpaid hphase
    rw [hphase] at hquiet
    cases hquiet
  · intro unpaid rows plan hphase
    rw [hphase] at hquiet
    cases hquiet
  · intro plan hphase
    rw [hphase] at hquiet
    cases hquiet

theorem Undisturbed.pollStep (hagree : poll.Agrees start) (hst : st.Undisturbed poll start)
    {readable : Bool} (hallows : st.allows (.poll readable) = true) :
    (st.step cfg poll (.poll readable)).Undisturbed poll start := by
  obtain ⟨pool, phase, bookings⟩ := st
  cases phase with
  | venueRead | finished res => exact undisturbed_of_isQuiet hst.book rfl
  | compared =>
    cases readable with
    | false => exact undisturbed_of_isQuiet hst.book rfl
    | true =>
      refine ⟨hst.book, ?_, ?_, ?_⟩
      · intro unpaid hphase booking hbook
        cases hphase
        exact of_decide_eq_true (all_eq_true.1 hallows booking hbook)
      · intro unpaid rows plan hphase
        cases hphase
      · intro plan hphase
        cases hphase
  | guarded unpaid =>
    cases hallows
    refine ⟨hst.book, ?_, ?_, ?_⟩
    · intro other hphase
      cases hphase
    · intro _ _ plan hphase hplan
      cases hphase
      exact isIdle_of_guarded hagree hst.book (hst.guarded unpaid rfl) hplan
    · intro plan hphase
      cases hphase
  | located unpaid rows =>
    by_cases href : refusalOf poll.read poll.lastReadAt ≠ ""
    · refine undisturbed_of_isQuiet hst.book ?_
      simp only [step, Poll.next, Poll.derive, if_pos href]
      rfl
    · cases hplan : deriveVenueAdoption poll.currency rows poll.read.positions unpaid with
      | error err =>
        refine undisturbed_of_isQuiet hst.book ?_
        simp only [step, Poll.next, Poll.derive, if_neg href, hplan]
        rfl
      | ok plan =>
        have hnext : (step cfg poll ⟨pool, .located unpaid rows, bookings⟩
            (.poll readable)).phase = .planned plan := by
          simp only [step, Poll.next, Poll.derive, if_neg href, hplan]
        refine ⟨hst.book, ?_, ?_, ?_⟩
        · intro other hphase
          cases hnext.symm.trans hphase
        · intro other otherRows otherPlan hphase
          cases hnext.symm.trans hphase
        · intro other hphase
          cases hnext.symm.trans hphase
          exact hst.located unpaid rows plan rfl hplan
  | planned plan =>
    have hidle := applyVenueAdoption_of_isIdle (hst.planned plan rfl) pool.shared.cache
    cases hadopt : poll.adopt with
    | false =>
      refine undisturbed_of_isQuiet ?_ ?_
      · simp only [step, Poll.next, Poll.write, hadopt]
        exact hst.book
      · simp only [step, Poll.next, Poll.write, hadopt]
        rfl
    | true =>
      refine undisturbed_of_isQuiet ?_ ?_
      · simp only [step, Poll.next, Poll.write, hadopt, cache, hidle]
        exact hst.book
      · simp only [step, Poll.next, Poll.write, hadopt, cache, hidle]
        rfl

theorem undisturbed_run (hagree : poll.Agrees start) {moves : List Move}
    (hst : st.Undisturbed poll start) (hallow : allowsAll cfg poll st moves = true) :
    (st.run cfg poll moves).Undisturbed poll start := by
  induction moves generalizing st with
  | nil => exact hst
  | cons move moves ih =>
    rw [allowsAll, Bool.and_eq_true] at hallow
    have hnext : (st.step cfg poll move).Undisturbed poll start := by
      cases move with
      | engine tid => exact hst.engineStep hallow.1
      | poll readable => exact hst.pollStep hagree hallow.1
    exact ih hnext hallow.2

/-- A poll whose venue snapshot includes the fills booked meanwhile flattens none of them. -/
theorem poll_spares_fills (pool : Pool ℕ Op Op.Res TradingError Unit World) (moves : List Move)
    (hagr : poll.Agrees pool.shared.cache)
    (hperm : allowsAll cfg poll (begin pool) moves = true) :
    ((begin pool).run cfg poll moves).cache.positions =
      (bookAll ((begin pool).run cfg poll moves).bookings pool.shared.cache).positions :=
  (undisturbed_run hagr (undisturbed_of_isQuiet rfl rfl) hperm).book

end PollState

def infy : Instrument := ⟨"NSE:INFY"⟩

def buyOrder (qty : Decimal) (hqty : 0 < qty.toRat) : Order :=
  createOrder
    { instrument := infy
      side := .buy
      orderType := .market
      quantity := qty
      quantity_pos := hqty
      bracket_valid := by simp }
    "o-1" .ack 0

variable (order : Order)

def longWith : World :=
  { World.constructed (Environment.obliging fun _ ↦ .raised (.other "") none false) with
    cache := (TradingCache.empty.updatePosition
      { instrument := infy
        quantity := 5
        avgPrice := Price.ofNat 100
        realizedPnl := ⟨0, "INR"⟩
        unrealizedPnl := ⟨0, "INR"⟩ }).updateOrder order }

def tenMore : Fill where
  orderId := "o-1"
  instrument := infy
  side := .buy
  quantity := 10
  price := Price.ofNat 100
  timestamp := 0
  fillId := some "t-1"

def tenDelivered : Pool ℕ Op Op.Res TradingError Unit World where
  shared := longWith order
  threads tid :=
    if tid = 0 then Engine.applyFill EngineConfig.standard tenMore (some 0) else pure ()

def fiveAtVenue : Poll where
  currency := fun _ ↦ "INR"
  read := { positions := [{ instrument := some infy, quantity := .number 5, avgPrice := .number 100 }]
            readAt := some 0 }
  lastReadAt := none
  adopt := true

def fillBeforeOrders : List Move :=
  .poll true :: List.replicate 8 (.engine 0) ++ List.replicate 4 (.poll true)

def heldAfter (moves : List Move) : Option Decimal :=
  (((PollState.begin (tenDelivered order)).run EngineConfig.standard fiveAtVenue
    moves).cache.getPosition infy).map Position.quantity

def orderForTen : Order := buyOrder 10 (by decide +kernel)

def orderForTwenty : Order := buyOrder 20 (by decide +kernel)

theorem fiveAtVenue_agrees {order : Order} : fiveAtVenue.Agrees (longWith order).cache := by
  intro iid venueRow hlist
  have hiid := positionInstrumentId_of_get hlist
  rw [get_byId] at hlist
  have hrow := mem_of_find?_eq_some hlist
  simp only [fiveAtVenue, reverse_singleton, mem_singleton] at hrow
  subst hrow
  cases hiid
  exact ⟨5, rfl, by decide +kernel⟩

theorem settled_fill_overwritten :
    fiveAtVenue.Agrees (longWith orderForTen).cache ∧
      heldAfter orderForTen (fillBeforeOrders.take 9) = some 15 ∧
      heldAfter orderForTen fillBeforeOrders = some 5 := by
  refine ⟨fiveAtVenue_agrees, ?_, ?_⟩
  · decide +kernel
  · decide +kernel

theorem working_order_spared :
    heldAfter orderForTwenty fillBeforeOrders = some 15 ∧
      ((PollState.begin (tenDelivered orderForTwenty)).run EngineConfig.standard fiveAtVenue
          fillBeforeOrders).cache.positions =
        (bookAll ((PollState.begin (tenDelivered orderForTwenty)).run EngineConfig.standard
          fiveAtVenue fillBeforeOrders).bookings (longWith orderForTwenty).cache).positions := by
  constructor
  · decide +kernel
  · have hperm : PollState.allowsAll EngineConfig.standard fiveAtVenue
        (.begin (tenDelivered orderForTwenty)) fillBeforeOrders = true := by decide +kernel
    exact PollState.poll_spares_fills (tenDelivered orderForTwenty) fillBeforeOrders
      fiveAtVenue_agrees hperm

end Tradex.Runtime

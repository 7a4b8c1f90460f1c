import Mathlib.Algebra.BigOperators.Ring.List
import Tradex.Brokers.PaperBook

/-!
# Runs of the paper broker

In every broker that calls can reach, the cash is the starting cash and what each fill
moved, every fill is one that a single attempt allows, and no order is filled twice: a
partially filled order is never tried again.
-/

namespace Tradex.Brokers.Paper

open Domain Execution Dict List

variable {cfg : PaperConfig} {order : Order} {broker : PaperBroker} {rem : Decimal}
  {levels : List Level} {fill : BookFill}

/-- The quantity that stands within the order's limit on the side it trades against. -/
def offered (order : Order) (depth : Depth) : ℚ :=
  takenQuantity ((bookSide order depth).filter fun level ↦ withinLimit order level.1)

/-- A level with what an order takes there, within the order's limit and of what stands there. -/
def TakenWithin (order : Order) (took level : Level) : Prop :=
  took.1 = level.1 ∧ withinLimit order level.1 = true ∧ took.2.toRat ≤ level.2.toRat

theorem exists_levels_of_matched :
    ∃ used, used <+ levels ∧
      Forall₂ (TakenWithin order) ((matched order rem levels).filterMap takenOf) used := by
  fun_induction matched order rem levels with
  | case1 => exact ⟨[], .slnil, .nil⟩
  | case2 rem price qty levels hnone ih =>
    obtain ⟨used, hsub, hused⟩ := ih
    exact ⟨used, hsub.cons _, hused⟩
  | case3 rem price qty levels hsome ih =>
    obtain ⟨used, hsub, hused⟩ := ih
    refine ⟨(price, qty) :: used, hsub.cons₂ _, .cons ⟨rfl, ?_, ?_⟩ hused⟩
    · simpa using (not_or.1 hsome).2
    · simp

theorem of_mem_matched {took : Level} (hmem : took ∈ (matched order rem levels).filterMap takenOf) :
    withinLimit order took.1 = true ∧
      ((∀ level ∈ levels, 0 ≤ level.2.toRat) → 0 ≤ took.2.toRat) := by
  fun_induction matched order rem levels with
  | case1 => cases hmem
  | case2 rem price qty levels hnone ih =>
    exact (ih hmem).imp_right fun hpos hlevels ↦ hpos (forall_mem_cons.1 hlevels).2
  | case3 rem price qty levels hsome ih =>
    rcases mem_cons.1 hmem with rfl | hrest
    · refine ⟨by simpa using (not_or.1 hsome).2, fun hlevels ↦ ?_⟩
      have hrem := not_le.1 (Decimal.le_iff.not.1 (not_or.1 hsome).1)
      rw [Decimal.toRat_zero] at hrem
      simpa using ⟨hrem.le, (forall_mem_cons.1 hlevels).1⟩
    · exact (ih hrest).imp_right fun hpos hlevels ↦ hpos (forall_mem_cons.1 hlevels).2

theorem matched_le_offered (hlevels : ∀ level ∈ levels, 0 ≤ level.2.toRat) :
    takenQuantity ((matched order rem levels).filterMap takenOf) ≤
      takenQuantity (levels.filter fun level ↦ withinLimit order level.1) := by
  fun_induction matched order rem levels with
  | case1 => simp [takenQuantity]
  | case2 rem price qty levels hnone ih =>
    obtain ⟨hqty, hrest⟩ := forall_mem_cons.1 hlevels
    refine (ih hrest).trans ?_
    rw [filter_cons]
    split
    · simpa [takenQuantity] using hqty
    · exact le_rfl
  | case3 rem price qty levels hsome ih =>
    have hrest := ih (forall_mem_cons.1 hlevels).2
    have hin : withinLimit order price = true := by simpa using (not_or.1 hsome).2
    simp only [takenQuantity, filterMap_cons, takenOf, Option.map_some, map_cons, sum_cons, hin,
      filter_cons_of_pos, Decimal.toRat_minimum] at hrest ⊢
    exact add_le_add (min_le_right _ _) hrest

/-- Without a book a limit order is filled whole at its limit. -/
def AtLimit (fill : BookFill) : Prop :=
  fill.order.orderType = .limit ∨ fill.order.orderType = .stopLimit →
    fill.applied.price = fill.order.price ∧ fill.applied.filledQuantity = fill.order.quantity

structure IsFill (config : PaperConfig) (fill : BookFill) (stored : Order) : Prop where
  ack : fill.order.status = .ack
  side : fill.applied.side = fill.order.side
  orderId : stored.orderId = fill.order.orderId
  status : stored.status = .filled ∨ stored.status = .partiallyFilled
  priced : stored.price.isSome
  quantity : stored.filledQuantity = fill.applied.filledQuantity
  average : stored.avgPriceTraded = fill.applied.avgPriceTraded
  positive : 0 < fill.order.quantity.toRat → 0 < stored.filledQuantity.toRat
  origin : (config.orderBook = true → fill.depth = none) ∧ AtLimit fill ∨
    ∃ depth, 0 < takenQuantity (wanted fill.order depth) ∧ IsBookFill fill.order depth fill stored

variable {stored : Order} {cash : Decimal} {oid : String}
  {res : Except TradingError Unit × PaperBroker}

theorem IsFill.not_ack (hfill : IsFill cfg fill stored) : stored.status ≠ .ack := by
  rcases hfill.status with hstat | hstat <;> rw [hstat] <;> decide

inductive Attempted (config : PaperConfig) (order : Order) (broker : PaperBroker) :
    Except TradingError Unit × PaperBroker → Prop
  | unfilled (outcome : Except TradingError Unit) (depths : Dict Instrument Depth)
    (clock : Answers (SessionReading × SessionReading)) :
    Attempted config order broker (outcome, { broker with depths := depths, clock := clock })
  | filled {fill : BookFill} {stored : Order} {price : Price} (depths : Dict Instrument Depth)
    (clock : Answers (SessionReading × SessionReading)) (positions : Dict Instrument Position)
    (horder : fill.order = order) (hfill : IsFill config fill stored)
    (hprice : fill.applied.price = some price) :
    Attempted config order broker (.ok (), { broker with
      cash := cashAfter order.side broker.cash (price.value * fill.applied.filledQuantity)
      depths := depths
      clock := clock
      positions := positions
      orders := broker.orders.set order.orderId stored
      fills := broker.fills ++ [fill] })

section

variable {reading : SessionReading} {depths : Dict Instrument Depth}
  {clock : Answers (SessionReading × SessionReading)}

theorem attempted_commit (horder : fill.order = order) (hfill : IsFill cfg fill stored) :
    Attempted cfg order broker
      (commit { broker with depths := depths, clock := clock }
        (bookFill cfg reading fill stored
          { broker with depths := depths, clock := clock })) := by
  cases hbooked : bookFill cfg reading fill stored
      { broker with depths := depths, clock := clock } with
  | error err => exact .unfilled _ depths clock
  | ok after =>
    obtain ⟨price, positions, hprice, rfl⟩ := bookFill_ok hbooked
    rw [hfill.side, horder]
    exact .filled depths clock positions horder hfill hprice

theorem attempted_fillOrder (hack : order.status = .ack)
    (htape : cfg.orderBook = true → depths.get order.instrument = none) :
    Attempted cfg order broker
      (commit { broker with depths := depths, clock := clock }
        (fillOrder cfg reading order { broker with depths := depths, clock := clock })) := by
  unfold fillOrder
  cases hmove : order.transitionTo .filled none with
  | error err => exact .unfilled _ depths clock
  | ok moved =>
    cases hprice : fillPrice cfg order { broker with depths := depths, clock := clock } with
    | error err => exact .unfilled _ depths clock
    | ok price =>
      obtain ⟨-, rfl⟩ := transitionTo_ok hmove
      refine attempted_commit rfl
        ⟨hack, rfl, rfl, .inl rfl, rfl, rfl, rfl, id, .inl ⟨htape, fun hlimit ↦ ⟨?_, rfl⟩⟩⟩
      rw [fillPrice, if_pos hlimit] at hprice
      cases hlim : order.price with
      | none =>
        rw [hlim] at hprice
        cases hprice
      | some limit =>
        rw [hlim] at hprice
        cases hprice
        rfl

end

variable {depth : Depth}

theorem isFill_of_isBookFill (hbookFill : IsBookFill order depth fill stored)
    (hack : order.status = .ack)
    (hfill : 0 < takenQuantity (wanted order depth)) : IsFill cfg fill stored := by
  have hsettle := hbookFill.settles
  have hqty := hsettle.quantity_stored (by rw [hack]; decide)
  cases hbookFill.order_eq
  refine ⟨hack, hsettle.side, hsettle.orderId, hsettle.status, hsettle.priced, hqty,
    hsettle.average_stored, fun hpos ↦ ?_, .inr ⟨depth, hfill, hbookFill⟩⟩
  rw [hqty, hsettle.quantity, bookedQuantity]
  split
  · exact hpos
  · exact hfill

theorem attempted_fillAttempt (cfg : PaperConfig) (broker : PaperBroker)
    (reads : SessionReading × SessionReading) (clock : Answers (SessionReading × SessionReading))
    (hack : order.status = .ack) :
    Attempted cfg order broker (fillAttempt cfg reads order { broker with clock := clock }) := by
  rw [fillAttempt]
  split
  next =>
    cases hdepth : broker.depths.get order.instrument with
    | none =>
      unfold tryFillAgainstBook
      split
      · simp only [hdepth]
        exact attempted_fillOrder hack fun _ ↦ hdepth
      · exact .unfilled _ broker.depths _
    | some depth =>
      rcases tryFillAgainstBook_cases cfg reads order { broker with clock := clock } hdepth with
        ⟨-, hsame⟩ | ⟨⟨-, hfill, -⟩, hset⟩
      · rw [← Prod.mk.eta (p := tryFillAgainstBook cfg reads order _), hsame]
        exact .unfilled _ broker.depths _
      · rw [hset]
        rcases settle_cases cfg reads.2 order depth _ with
          ⟨-, err, -, hraise⟩ | ⟨-, ⟨-, err, -, hraise⟩ | ⟨-, fill, stored, after, hmade, hbook, hok⟩⟩
        · rw [hraise]
          exact .unfilled _ _ _
        · rw [hraise]
          exact .unfilled _ _ _
        · rw [hok, ← hbook]
          exact attempted_commit hmade.order_eq (isFill_of_isBookFill hmade hack hfill)
  next =>
    split
    next hbook _ => exact attempted_fillOrder hack fun h ↦ absurd h hbook
    next => exact .unfilled _ broker.depths _

theorem attempted_attemptFill (cfg : PaperConfig) (broker : PaperBroker)
    (hack : order.status = .ack) :
    Attempted cfg order broker (attemptFill cfg order broker) := by
  have hatt := attempted_fillAttempt cfg broker (broker.clock 0) broker.clock.rest hack
  unfold attemptFill
  split
  next heq =>
    rw [heq] at hatt
    cases hatt
    exact .unfilled _ _ _
  next => exact hatt

inductive PaperCall where
  | submitOrder (request : OrderRequest) (orderId : String)
  | modifyOrder (orderId : String) (request : OrderRequest)
  | cancelOrder (orderId : String)
  | setQuote (instrument : Instrument) (ltp bid ask : Option Price) (now : ℤ)
  | setDepth (instrument : Instrument) (bids asks : List Level) (now : ℤ)

def PaperCall.after (cfg : PaperConfig) (broker : PaperBroker) : PaperCall → PaperBroker
  | .submitOrder req oid => (Paper.submitOrder cfg req oid broker).2
  | .modifyOrder oid req => (Paper.modifyOrder oid req broker).2
  | .cancelOrder oid => (Paper.cancelOrder oid broker).2
  | .setQuote instr ltp bid ask now => (Paper.setQuote cfg instr ltp bid ask now broker).2
  | .setDepth instr bids asks now => (Paper.setDepth cfg instr bids asks now broker).2

def PaperCall.isFresh (broker : PaperBroker) : PaperCall → Prop
  | .submitOrder _ oid => broker.orders.get oid = none
  | _ => True

inductive Reaches (config : PaperConfig) (cash : Decimal) : PaperBroker → Prop
  | start (clock : Answers (SessionReading × SessionReading)) :
    Reaches config cash { cash := cash, clock := clock }
  | call {broker : PaperBroker} (call : PaperCall) (hreach : Reaches config cash broker)
    (hfresh : call.isFresh broker) : Reaches config cash (call.after config broker)

def cashFlow (fill : BookFill) : ℚ :=
  let notional := ((fill.applied.price.map Price.value).getD 0 * fill.applied.filledQuantity).toRat
  match fill.order.side with
  | .buy => -notional
  | .sell => notional

def fillsOf (oid : String) (broker : PaperBroker) : List BookFill :=
  broker.fills.filter fun fill ↦ fill.order.orderId = oid

def Agrees (broker : PaperBroker) (oid : String) : Prop :=
  match broker.orders.get oid with
  | none => fillsOf oid broker = []
  | some order => order.orderId = oid ∧
    (fillsOf oid broker = [] ∧ order.filledQuantity = 0 ∨
      ∃ fill, fillsOf oid broker = [fill] ∧ order.status ≠ .ack ∧
        order.filledQuantity = fill.applied.filledQuantity ∧
        order.avgPriceTraded = fill.applied.avgPriceTraded)

structure Booked (config : PaperConfig) (cash : Decimal) (broker : PaperBroker) : Prop where
  cash_eq : broker.cash.toRat = cash.toRat + (broker.fills.map cashFlow).sum
  fills : ∀ fill ∈ broker.fills, ∃ stored, IsFill config fill stored
  orders : ∀ orderId, Agrees broker orderId

section

variable (hbooked : Booked cfg cash broker)

include hbooked

theorem Booked.orderId_eq (hget : broker.orders.get oid = some order) : order.orderId = oid := by
  have hagree := hbooked.orders oid
  rw [Agrees, hget] at hagree
  exact hagree.1

variable (hack : order.status = .ack)
  (hget : ∀ held, broker.orders.get order.orderId = some held → held = order)

include hack hget in
theorem Booked.fillsOf_eq_nil : fillsOf order.orderId broker = [] := by
  have hagree := hbooked.orders order.orderId
  unfold Agrees at hagree
  split at hagree
  next => exact hagree
  next held hheld =>
    obtain ⟨-, ⟨hnone, -⟩ | ⟨fill, -, hstat, -⟩⟩ := hagree
    · exact hnone
    · rw [hget held hheld] at hstat
      exact absurd hack hstat

include hack hget in
theorem Booked.attempt (hatt : Attempted cfg order broker res) : Booked cfg cash res.2 := by
  cases hatt with
  | unfilled => exact ⟨hbooked.cash_eq, hbooked.fills, hbooked.orders⟩
  | @filled fill stored price depths clock positions horder hfill hprice =>
    refine ⟨?_, ?_, ?_⟩
    · simp only [map_append, map_singleton, cashFlow, horder, hprice, cashAfter]
      cases order.side <;> simp [hbooked.cash_eq] <;> ring
    · intro made hmade
      rcases mem_append.1 hmade with hmade | hmade
      · exact hbooked.fills made hmade
      · rw [mem_singleton.1 hmade]
        exact ⟨stored, hfill⟩
    · intro oid
      have hnone := hbooked.fillsOf_eq_nil hack hget
      have hagree := hbooked.orders oid
      by_cases hsame : oid = order.orderId
      · subst hsame
        simp only [Agrees, get_set_self]
        refine ⟨hfill.orderId.trans (by rw [horder]), .inr ⟨fill, ?_, hfill.not_ack, hfill.quantity,
          hfill.average⟩⟩
        rw [fillsOf, filter_append, ← fillsOf, hnone]
        simp [horder]
      · have hother : ¬ fill.order.orderId = oid := by
          rw [horder]
          exact fun h ↦ hsame h.symm
        simpa [Agrees, fillsOf, get_set, hother, Ne.symm hsame] using hagree

end

theorem Attempted.get_of_ne (hatt : Attempted cfg order broker res)
    (hne : oid ≠ order.orderId) : res.2.orders.get oid = broker.orders.get oid := by
  cases hatt with
  | unfilled => rfl
  | filled => exact get_set_of_ne hne.symm

theorem Booked.attemptEach {orders : List Order} (hbooked : Booked cfg cash broker)
    (hack : ∀ order ∈ orders, order.status = .ack)
    (hheld : ∀ order ∈ orders, broker.orders.get order.orderId = some order)
    (hnd : (orders.map Order.orderId).Nodup) :
    Booked cfg cash (attemptEach cfg orders broker).2 := by
  induction orders generalizing broker with
  | nil => exact hbooked
  | cons order orders ih =>
    rw [map_cons, nodup_cons] at hnd
    have hatt := attempted_attemptFill cfg broker (hack order mem_cons_self)
    have hafter := hbooked.attempt (hack order mem_cons_self)
      (fun held hget ↦ Option.some.inj (hget.symm.trans (hheld order mem_cons_self)))
      hatt
    rw [Paper.attemptEach]
    split
    next after hok =>
      rw [hok] at hafter hatt
      refine ih hafter (fun other hmem ↦ hack other (mem_cons_of_mem _ hmem)) ?_ hnd.2
      intro other hmem
      rw [hatt.get_of_ne fun hsame ↦ hnd.1 (hsame ▸ mem_map_of_mem hmem)]
      exact hheld other (mem_cons_of_mem _ hmem)
    next => exact hafter

theorem Booked.attemptResting (instr : Instrument) (hbooked : Booked cfg cash broker) :
    Booked cfg cash (attemptResting cfg instr broker).2 := by
  have hids : broker.orders.values.map Order.orderId = broker.orders.entries.map Prod.fst := by
    rw [values, map_map]
    exact map_congr_left fun entry hent ↦
      hbooked.orderId_eq (lookupEntries_of_mem broker.orders.nodupKeys hent)
  refine hbooked.attemptEach ?_ ?_ ?_
  · intro order hmem
    exact (of_decide_eq_true (mem_filter.1 hmem).2).2
  · intro order hmem
    obtain ⟨key, hkey⟩ := exists_get_of_mem_values (mem_filter.1 hmem).1
    rw [hbooked.orderId_eq hkey]
    exact hkey
  · have hnd := broker.orders.nodupKeys
    rw [← hids] at hnd
    exact hnd.sublist (filter_sublist.map _)

theorem Booked.setQuote (instr : Instrument) (ltp bid ask : Option Price) (now : ℤ)
    (hbooked : Booked cfg cash broker) :
    Booked cfg cash (setQuote cfg instr ltp bid ask now broker).2 := by
  unfold Paper.setQuote
  split
  · exact hbooked
  · exact Booked.attemptResting instr ⟨hbooked.cash_eq, hbooked.fills, hbooked.orders⟩

theorem Booked.setDepth (instr : Instrument) (bids asks : List Level) (now : ℤ)
    (hbooked : Booked cfg cash broker) :
    Booked cfg cash (setDepth cfg instr bids asks now broker).2 := by
  unfold Paper.setDepth
  split
  · exact hbooked
  · have hseed : Booked cfg cash { broker with
        depths := broker.depths.set instr ⟨instr, bids, asks, some now⟩ } :=
      ⟨hbooked.cash_eq, hbooked.fills, hbooked.orders⟩
    have hquote := hseed.setQuote instr
      (bids.head?.map Prod.fst <|> asks.head?.map Prod.fst <|> some defaultLtp)
      (bids.head?.map Prod.fst) (asks.head?.map Prod.fst) now
    dsimp only
    split
    next after hok =>
      rw [hok] at hquote
      exact hquote.attemptResting instr
    next => exact hquote

theorem Booked.store (hbooked : Booked cfg cash broker)
    (hagree : Agrees { broker with orders := broker.orders.set oid stored } oid) :
    Booked cfg cash { broker with orders := broker.orders.set oid stored } := by
  refine ⟨hbooked.cash_eq, hbooked.fills, fun other ↦ ?_⟩
  by_cases hsame : other = oid
  · rw [hsame]
    exact hagree
  · have hother := hbooked.orders other
    simpa [Agrees, fillsOf, get_set, Ne.symm hsame] using hother

theorem Booked.submitOrder (req : OrderRequest) (oid : String)
    (hbooked : Booked cfg cash broker) (hnew : broker.orders.get oid = none) :
    Booked cfg cash (submitOrder cfg req oid broker).2 := by
  have hafter : Booked cfg cash
      (if cfg.autoFill then attemptFill cfg (ackOrder req oid) broker
        else (.ok (), broker)).2 := by
    split
    · refine hbooked.attempt rfl (fun held hget ↦ ?_) (attempted_attemptFill _ _ rfl)
      cases hnew.symm.trans hget
    · exact hbooked
  unfold Paper.submitOrder
  split
  · exact hbooked
  split
  · exact hbooked
  split
  next heq =>
    rw [heq] at hafter
    exact hafter
  next after heq =>
    rw [heq] at hafter
    split
    next hrest =>
      refine hafter.store ?_
      have hagree := hafter.orders oid
      simp only [Agrees, get_set_self]
      refine ⟨rfl, .inl ⟨?_, rfl⟩⟩
      cases hget : after.orders.get oid with
      | none =>
        rw [Agrees, hget] at hagree
        exact hagree
      | some stored =>
        rw [hget, Option.all_some, decide_eq_true_eq] at hrest
        have hid := hafter.orderId_eq hget
        subst hid
        exact hafter.fillsOf_eq_nil hrest fun held hheld ↦
          Option.some.inj (hheld.symm.trans hget)
    next => exact hafter

theorem booked_of_reaches (hreach : Reaches cfg cash broker) : Booked cfg cash broker := by
  induction hreach with
  | start clock => exact ⟨by simp, by simp, fun oid ↦ by simp [Agrees, fillsOf]⟩
  | @call broker call _ hnew ih =>
    cases call with
    | submitOrder req oid => exact ih.submitOrder req oid hnew
    | setQuote instr ltp bid ask now => exact ih.setQuote instr ltp bid ask now
    | setDepth instr bids asks now => exact ih.setDepth instr bids asks now
    | modifyOrder oid req =>
      have hagree := ih.orders oid
      unfold PaperCall.after Paper.modifyOrder
      dsimp only
      split
      · exact ih
      next order hget =>
        split
        · exact ih
        · refine ih.store ?_
          rw [Agrees, hget] at hagree
          rw [Agrees, get_set_self]
          exact hagree
    | cancelOrder oid =>
      have hagree := ih.orders oid
      unfold PaperCall.after Paper.cancelOrder
      dsimp only
      split
      · exact ih
      next order hget =>
        split
        · exact ih
        next cancelled hok =>
          obtain ⟨-, rfl⟩ := transitionTo_ok hok
          refine ih.store ?_
          rw [Agrees, hget] at hagree
          rw [Agrees, get_set_self]
          refine ⟨hagree.1, hagree.2.imp_right ?_⟩
          rintro ⟨fill, hfills, -, hrest⟩
          exact ⟨fill, hfills, OrderStatus.noConfusion, hrest⟩

/-- The fill took from a known book at an average of at most 28 digits and, if it completed an
order with a limit, at the limit only. -/
def PricedExactly (fill : BookFill) : Prop :=
  ∃ depth, fill.depth = some depth ∧
    (∃ price, Decimal.Fits price ∧
      price * takenQuantity (wanted fill.order depth) = takenCost (wanted fill.order depth)) ∧
    (Completes fill.order depth → ∀ limit, fill.order.price = some limit →
      ∀ level ∈ wanted fill.order depth, level.1.value.toRat = limit.value.toRat)

theorem IsFill.of_depth (hfill : IsFill cfg fill stored)
    (hbook : cfg.orderBook = true) (hdepth : fill.depth = some depth) :
    IsBookFill fill.order depth fill stored ∧ 0 < takenQuantity (wanted fill.order depth) ∧
      fill.applied.filledQuantity.toRat = takenQuantity (wanted fill.order depth) := by
  rcases hfill.origin with ⟨htape, -⟩ | ⟨other, hpos, hother⟩
  · cases (htape hbook).symm.trans hdepth
  have hsame : other = depth := Option.some.inj (hother.depth_eq.symm.trans hdepth)
  subst hsame
  refine ⟨hother, hpos, ?_⟩
  rw [hother.settles.quantity, bookedQuantity]
  split
  next hcomp =>
    have hle : takenQuantity (wanted fill.order other) ≤ max fill.order.quantity.toRat 0 := by
      have hrem : remainingQuantity fill.order = fill.order.quantity := if_neg (by simp [hfill.ack])
      rw [← filled_bookWalk, bookWalk, hrem]
      exact filled_walk_le
    exact le_antisymm hcomp ((le_max_iff.1 hle).resolve_right (not_le.2 hpos))
  next => rfl

theorem IsFill.settled (hfill : IsFill cfg fill stored) (hbook : cfg.orderBook = true)
    (hpriced : PricedExactly fill) :
    (((fill.applied.price.map Price.value).getD 0) * fill.applied.filledQuantity).toRat =
        takenCost fill.taken ∧
      fill.applied.filledQuantity.toRat *
        ((fill.applied.avgPriceTraded.map Price.value).getD 0).toRat = takenCost fill.taken := by
  obtain ⟨depth, hdepth, ⟨price, hfits, hcost⟩, hlimit⟩ := hpriced
  obtain ⟨hbookFill, hpos, hqty⟩ := hfill.of_depth hbook hdepth
  have hsettle := hbookFill.settles
  have hexact : (fillAverage fill.order depth).toRat = price := by
    rw [fillAverage, ← hcost, mul_div_cancel_right₀ _ hpos.ne', Decimal.toRat_rounded_of_fits hfits]
  have havg : runningAverage fill.order depth = fillAverage fill.order depth :=
    if_neg (by simp [hfill.ack])
  rw [Decimal.toRat_mul, hsettle.price, hsettle.average, hbookFill.taken, hqty, Option.getD_some,
    Option.getD_some, havg, hexact, mul_comm _ price, hcost]
  refine ⟨?_, rfl⟩
  unfold bookedPrice
  split
  next hcomp =>
    cases hlim : fill.order.price with
    | none => rw [Option.map_none, Option.getD_none, havg, hexact, hcost]
    | some limit =>
      have hall := hlimit hcomp limit hlim
      rw [Option.map_some, Option.getD_some]
      calc
        limit.value.toRat * takenQuantity (wanted fill.order depth)
            = ((wanted fill.order depth).map fun level ↦
                limit.value.toRat * level.2.toRat).sum := (sum_map_mul_left _ _ _).symm
        _ = takenCost (wanted fill.order depth) :=
          congrArg sum (map_congr_left fun level hmem ↦ by rw [hall level hmem])
  next => rw [hexact, hcost]

def walkFlow (fill : BookFill) : ℚ :=
  match fill.order.side with
  | .buy => -takenCost fill.taken
  | .sell => takenCost fill.taken

def demoConfig : PaperConfig := { autoFill := true }

def demoStart : PaperBroker := { cash := 10000, clock := fun _ ↦ (inSession, inSession) }

def offer : Depth :=
  ⟨⟨"NSE:INFY"⟩, [], [(Price.ofNat 100, 5), (Price.ofNat 101, 15)], some 0⟩

def afterOffer : PaperBroker :=
  (PaperCall.setDepth ⟨"NSE:INFY"⟩ [] offer.asks 0).after demoConfig demoStart

def bought (limit : Option Price) (broker : PaperBroker) : PaperBroker :=
  (PaperCall.submitOrder (.plain ⟨"NSE:INFY"⟩ .buy (if limit.isSome then .limit else .market) 10
    limit Decimal.ten_pos) "PAPER-1").after demoConfig broker

theorem reaches_bought {limit : Option Price} : Reaches demoConfig 10000 (bought limit afterOffer) :=
  .call _ (.call _ (.start _) trivial) (by decide +kernel : afterOffer.orders.get "PAPER-1" = none)

/-- An average within the limit stays there when it is rounded. -/
theorem withinLimit_of_fillAverage {limit price : Price} (hlimit : order.price = some limit)
    (hfits : Decimal.Fits limit.value.toRat)
    (hlevels : ∀ level ∈ bookSide order depth, 0 ≤ level.2.toRat)
    (hpos : 0 < takenQuantity (wanted order depth))
    (hprice : price.value = fillAverage order depth) : withinLimit order price = true := by
  have hin : ∀ level ∈ wanted order depth, withinLimit order level.1 = true ∧ 0 ≤ level.2.toRat :=
    fun level hmem ↦ (of_mem_matched hmem).imp_right (· hlevels)
  have hconst : ∀ bound : ℚ, bound * takenQuantity (wanted order depth) =
      ((wanted order depth).map fun level ↦ bound * level.2.toRat).sum :=
    fun bound ↦ (sum_map_mul_left _ _ _).symm
  unfold withinLimit at hin ⊢
  rw [hlimit] at hin ⊢
  cases hside : order.side with
  | buy =>
    rw [hside] at hin
    simp only [decide_eq_true_eq, Decimal.le_iff] at hin ⊢
    rw [hprice]
    refine Decimal.toRat_rounded_le (div_nonneg ?_ hpos.le) hfits ((div_le_iff₀ hpos).2 ?_)
    · exact sum_nonneg (forall_mem_map.2 fun level hmem ↦ mul_nonneg level.1.nonneg (hin level hmem).2)
    · rw [hconst]
      exact sum_le_sum fun level hmem ↦ mul_le_mul_of_nonneg_right (hin level hmem).1 (hin level hmem).2
  | sell =>
    rw [hside] at hin
    simp only [decide_eq_true_eq, Decimal.le_iff] at hin ⊢
    rw [hprice]
    refine Decimal.le_toRat_rounded limit.nonneg hfits ((le_div_iff₀ hpos).2 ?_)
    rw [hconst]
    exact sum_le_sum fun level hmem ↦ mul_le_mul_of_nonneg_right (hin level hmem).1 (hin level hmem).2

theorem withinLimit_self {limit : Price} (hlimit : order.price = some limit) :
    withinLimit order limit = true := by
  unfold withinLimit
  rw [hlimit]
  cases order.side <;> exact decide_eq_true (Decimal.le_iff.2 le_rfl)

end Tradex.Brokers.Paper

import Tradex.Brokers.PaperRuns

/-!
# The book fill source

A fill source that seeds the book of a paper broker around a reference price, submits
an order and reads it back. Seeding also tries the orders that rest in the book, and
what they fill is not read back.
-/

namespace Tradex.Runtime.BookSource

open Domain Brokers.Paper

structure BookShape where
  spreadBps : Decimal := 5
  levelDepth : Decimal := 100000
  levels : ℕ := 5
  tick : Decimal := ⟨5, -2⟩
  spreadBps_nonneg : 0 ≤ spreadBps.toRat
  levelDepth_pos : 0 < levelDepth.toRat
  levels_pos : 1 ≤ levels
  tick_pos : 0 < tick.toRat

structure PaperBookFillSource where
  shape : BookShape
  broker : PaperBroker
  mid : Dict Instrument Price := .empty
  lastSeenFilled : Dict String Decimal := .empty

def brokerConfig : PaperConfig := { autoFill := true, projectPositions := false }

variable (req : OrderRequest) (cached : Option Price) (oid : String) (now timestamp : ℤ)
  (source : PaperBookFillSource)

def midFor : Except TradingError Price :=
  let positive := fun price : Price ↦ 0 < price.value.toRat
  match source.mid.get req.instrument <|> cached.filter positive <|>
      req.price.filter positive <|> req.triggerPrice.filter positive with
  | some mid => .ok mid
  | none => .error (.value ("book matching has no market reference for " ++
      req.instrument.instrumentId ++ "; call set_mid_price() or submit a priced order"))

def halfSpread (mid : Price) : Decimal := quotient (mid.value * source.shape.spreadBps) 10000

def seedSide (place : Decimal → Decimal) (half : Decimal) : Except TradingError (List Level) :=
  (List.range source.shape.levels).mapM fun level ↦ do
    let price ← Price.of (place (half + ⟨level, 0⟩ * source.shape.tick))
    return (price, source.shape.levelDepth)

def seedBook (instr : Instrument) (mid : Price) : Except TradingError Unit × PaperBroker :=
  let half := halfSpread source mid
  match (do
    let bids ← seedSide source (mid.value - ·) half
    let asks ← seedSide source (mid.value + ·) half
    return (bids, asks)) with
  | .error err => (.error err, source.broker)
  | .ok (bids, asks) =>
    match setDepth brokerConfig instr bids asks now source.broker with
    | (.error err, after) => (.error err, after)
    | (.ok (), after) =>
      match (do
        let bid ← Price.of (mid.value - half)
        let ask ← Price.of (mid.value + half)
        return (bid, ask)) with
      | .error err => (.error err, after)
      | .ok (bid, ask) => setQuote brokerConfig instr (some mid) (some bid) (some ask) now after

def toBookOrder : Except TradingError OrderRequest :=
  if req.orderType ≠ .market ∨ req.price = none then .ok req
  else if hbracket : req.isBracket = true then
    .error (.value "bracket order requires price, stop_loss_price, and target_price")
  else .ok { req with
    price := none
    bracket_valid := fun h ↦ absurd h hbracket }

def readBack (held : Order) (already : Decimal) : Except TradingError (Option Fill) :=
  if (held.status = .filled ∨ held.status = .partiallyFilled) ∧
      0 < held.filledQuantity - already then
    match held.avgPriceTraded <|> held.price with
    | none => .error (.value ("book-filled order " ++ oid ++ " has no price"))
    | some price => .ok (some
      { orderId := oid
        instrument := req.instrument
        side := req.side
        quantity := held.filledQuantity - already
        price := price
        timestamp := timestamp
        productType := some req.productType })
  else .ok none

def submit : Except TradingError (Order × Option Fill) × PaperBookFillSource :=
  match (do
    let mid ← midFor req cached source
    -- The top of the book, which only the audit reads, must be a price.
    let half := halfSpread source mid
    let _ ← Price.of (if req.side = OrderSide.buy then mid.value + half else mid.value - half)
    return mid) with
  | .error err => (.error err, source)
  | .ok mid =>
    match seedBook now source req.instrument mid with
    | (.error err, seeded) => (.error err, { source with broker := seeded })
    | (.ok (), seeded) =>
      match toBookOrder req with
      | .error err => (.error err, { source with broker := seeded })
      | .ok bookOrder =>
        match submitOrder brokerConfig bookOrder oid seeded with
        | (.error err, after) => (.error err, { source with broker := after })
        | (.ok _, after) =>
          match after.orders.get oid with
          | none => (.error (.other ("unknown order " ++ oid)), { source with broker := after })
          | some held =>
            ((readBack req oid timestamp held
                ((source.lastSeenFilled.get oid).getD 0)).map
              fun fill ↦ (createOrder req oid .ack 0, fill),
              { source with
                broker := after
                lastSeenFilled := source.lastSeenFilled.set oid held.filledQuantity })

def returnedFills (res : Except TradingError (Order × Option Fill)) : List Fill :=
  match res with
  | .ok (_, some fill) => [fill]
  | _ => []

inductive Submits (start : PaperBookFillSource) : PaperBookFillSource → List Fill → Prop
  | start : Submits start start []
  | submit {source : PaperBookFillSource} {returned : List Fill} (request : OrderRequest)
    (cached : Option Price) (orderId : String) (now timestamp : ℤ)
    (hsubmits : Submits start source returned) (hfresh : source.broker.orders.get orderId = none)
    (hresting : resting request.instrument source.broker = []) :
    Submits start (submit request cached orderId now timestamp source).2
      (returned ++ returnedFills (submit request cached orderId now timestamp source).1)

def returnedQuantity (oid : String) (returned : List Fill) : ℚ :=
  ((returned.filter fun fill ↦ fill.orderId = oid).map fun fill ↦ fill.quantity.toRat).sum

def Reported (source : PaperBookFillSource) (returned : List Fill) : Prop :=
  ∀ oid, match source.broker.orders.get oid with
    | none => returnedQuantity oid returned = 0 ∧ source.lastSeenFilled.get oid = none
    | some order => returnedQuantity oid returned = order.filledQuantity.toRat

section

variable {cfg : PaperConfig} {instr : Instrument} {broker : PaperBroker}
  (hresting : resting instr broker = [])

include hresting

theorem attemptResting_of_none : attemptResting cfg instr broker = (.ok (), broker) := by
  rw [attemptResting, hresting]
  rfl

theorem orders_setQuote {ltp bid ask : Option Price} :
    (setQuote cfg instr ltp bid ask now broker).2.orders = broker.orders := by
  unfold setQuote
  split
  · rfl
  · rw [attemptResting_of_none (by exact hresting)]

theorem orders_setDepth {bids asks : List Level} :
    (setDepth cfg instr bids asks now broker).2.orders = broker.orders := by
  have hquote : (setQuote cfg instr
      (bids.head?.map Prod.fst <|> asks.head?.map Prod.fst <|> some defaultLtp)
      (bids.head?.map Prod.fst) (asks.head?.map Prod.fst) now { broker with
        depths := broker.depths.set instr ⟨instr, bids, asks, some now⟩ }).2.orders =
      broker.orders :=
    orders_setQuote now (by exact hresting)
  unfold setDepth
  split
  · rfl
  · dsimp only
    split
    next after hok =>
      rw [hok] at hquote
      have hnone : resting instr after = [] := by
        rw [resting, hquote]
        exact hresting
      rw [attemptResting_of_none hnone]
      exact hquote
    next => exact hquote

end

theorem orders_seedBook {instr : Instrument} (mid : Price)
    (hresting : resting instr source.broker = []) :
    (seedBook now source instr mid).2.orders = source.broker.orders := by
  unfold seedBook
  dsimp only
  split
  · rfl
  next bids asks _ =>
    have hseed : (setDepth brokerConfig instr bids asks now source.broker).2.orders =
        source.broker.orders := orders_setDepth now hresting
    split
    next heq =>
      rw [heq] at hseed
      exact hseed
    next after heq =>
      rw [heq] at hseed
      have hnone : resting instr after = [] := by
        rw [resting, hseed]
        exact hresting
      split
      · exact hseed
      · exact (orders_setQuote now hnone).trans hseed

theorem submitOrder_fresh {bookOrder : OrderRequest} {broker : PaperBroker}
    (hnew : broker.orders.get oid = none) :
    (∃ err after, submitOrder brokerConfig bookOrder oid broker = (.error err, after) ∧
        after.orders = broker.orders) ∨
      ∃ after held, submitOrder brokerConfig bookOrder oid broker = (.ok oid, after) ∧
        after.orders = broker.orders.set oid held ∧
        (held.filledQuantity = 0 ∨
          (held.status = .filled ∨ held.status = .partiallyFilled) ∧ held.price.isSome ∧
            0 < held.filledQuantity.toRat) := by
  unfold submitOrder
  split
  · exact .inl ⟨_, _, rfl, rfl⟩
  split
  · exact .inl ⟨_, _, rfl, rfl⟩
  have hatt : Attempted brokerConfig (ackOrder bookOrder oid) broker
      (attemptFill brokerConfig (ackOrder bookOrder oid) broker) :=
    attempted_attemptFill brokerConfig broker rfl
  have hauto : brokerConfig.autoFill = true := rfl
  cases hres : attemptFill brokerConfig (ackOrder bookOrder oid) broker with
  | mk out after =>
    rw [hres] at hatt
    cases hatt with
    | unfilled out depths clock =>
      cases out with
      | error err => exact .inl ⟨err, _, rfl, rfl⟩
      | ok passed =>
        refine .inr ⟨_, ackOrder bookOrder oid, if_pos ?_, rfl, .inl rfl⟩
        simp [hnew]
    | @filled fill stored price depths clock positions horder hfill hprice =>
      refine .inr ⟨_, stored, if_neg ?_, rfl, .inr ⟨hfill.status, hfill.priced, hfill.positive ?_⟩⟩
      · have hid : (ackOrder bookOrder oid).orderId = oid := rfl
        simp [hid, hfill.not_ack]
      · rw [horder]
        exact bookOrder.quantity_pos

section

variable {req cached oid now timestamp source} {returned : List Fill} {held : Order}

theorem Reported.raised (hrep : Reported source returned) {err : TradingError}
    {broker : PaperBroker} (hords : broker.orders = source.broker.orders) :
    Reported { source with broker := broker } (returned ++ returnedFills (.error err)) := by
  intro other
  have hnone : returnedFills (.error err) = [] := rfl
  rw [hnone, List.append_nil, hords]
  exact hrep other

theorem readBack_all (hheld : held.filledQuantity = 0 ∨
      (held.status = .filled ∨ held.status = .partiallyFilled) ∧ held.price.isSome ∧
        0 < held.filledQuantity.toRat) :
    returnedQuantity oid (returnedFills ((readBack req oid timestamp held 0).map
      fun fill ↦ (createOrder req oid .ack 0, fill))) = held.filledQuantity.toRat := by
  unfold readBack
  rcases hheld with hzero | ⟨hstat, hpriced, hpos⟩
  · rw [if_neg (by simp [hzero, Decimal.lt_iff])]
    simp [hzero, Except.map, returnedFills, returnedQuantity]
  · rw [if_pos ⟨hstat, by simpa [Decimal.lt_iff] using hpos⟩]
    obtain ⟨price, hprice⟩ := Option.isSome_iff_exists.1 hpriced
    cases held.avgPriceTraded <;> simp [hprice, Except.map, returnedFills, returnedQuantity]

theorem returnedQuantity_of_ne {other : String} (hne : oid ≠ other) {already : Decimal} :
    returnedQuantity other (returnedFills ((readBack req oid timestamp held already).map
      fun fill ↦ (createOrder req oid .ack 0, fill))) = 0 := by
  unfold readBack
  split
  · split <;> simp [Except.map, returnedFills, returnedQuantity, hne]
  · simp [Except.map, returnedFills, returnedQuantity]

theorem reported_submit (hrep : Reported source returned)
    (hnew : source.broker.orders.get oid = none)
    (hresting : resting req.instrument source.broker = []) :
    Reported (submit req cached oid now timestamp source).2
      (returned ++ returnedFills (submit req cached oid now timestamp source).1) := by
  unfold submit
  split
  · exact hrep.raised rfl
  next mid _ =>
    have hords := orders_seedBook now source mid hresting
    split
    next heq =>
      rw [heq] at hords
      exact hrep.raised hords
    next seeded heq =>
      rw [heq] at hords
      have hseed : seeded.orders = source.broker.orders := hords
      split
      · exact hrep.raised hseed
      next bookOrder _ =>
        rcases submitOrder_fresh oid (hseed ▸ hnew) with
          ⟨err, after, hok, hords⟩ | ⟨after, held, hok, hords, hheld⟩
        · rw [hok]
          exact hrep.raised (hords.trans hseed)
        · rw [hok]
          have hunseen := hrep oid
          rw [hnew] at hunseen
          simp only [hords, Dict.get_set_self, hunseen.2]
          intro other
          have hother := hrep other
          rw [returnedQuantity, List.filter_append, List.map_append, List.sum_append,
            ← returnedQuantity, ← returnedQuantity]
          by_cases hsame : oid = other
          · subst hsame
            simp [hords, readBack_all hheld, hunseen.1]
          · simpa only [hords, hseed, Dict.get_set_of_ne hsame, returnedQuantity_of_ne hsame,
              add_zero] using hother

end

/-- With no resting order of the instrument at any submission, the fills returned for an order add
up to its filled quantity. -/
theorem book_fills_reported_once (shape : BookShape) (broker : PaperBroker)
    (hempty : broker.orders = .empty) (source : PaperBookFillSource) (returned : List Fill)
    (hsubmits : Submits { shape := shape, broker := broker } source returned) :
    ∀ oid order, source.broker.orders.get oid = some order →
      returnedQuantity oid returned = order.filledQuantity.toRat := by
  have hreported : Reported source returned := by
    induction hsubmits with
    | start =>
      intro oid
      simp [hempty, returnedQuantity]
    | submit req cached oid now timestamp _ hfresh hresting ih =>
      exact reported_submit ih hfresh hresting
  intro oid order hget
  have hheld := hreported oid
  rwa [hget] at hheld

def demoSource : PaperBookFillSource where
  shape :=
    { spreadBps_nonneg := by decide +kernel
      levelDepth_pos := by decide +kernel
      levels_pos := Nat.succ_pos 4
      tick_pos := by decide +kernel }
  broker := { cash := 1000000000, clock := fun _ ↦ (inSession, inSession) }

def buyTen (limit : Option Price) (mid : ℕ) (oid : String) (source : PaperBookFillSource) :
    Except TradingError (Order × Option Fill) × PaperBookFillSource :=
  submit (.plain ⟨"NSE:INFY"⟩ .buy (if limit.isSome then .limit else .market) 10 limit
    Decimal.ten_pos) (some (.ofNat mid)) oid 0 0 source

def firstBuy : Except TradingError (Order × Option Fill) × PaperBookFillSource :=
  buyTen none 100 "PAPER-1" demoSource

def secondBuy : Except TradingError (Order × Option Fill) × PaperBookFillSource :=
  buyTen none 110 "PAPER-2" firstBuy.2

theorem two_purchases_reported : returnedQuantity "PAPER-1" (returnedFills firstBuy.1) = 10 ∧
    ∀ oid ∈ ["PAPER-1", "PAPER-2"], ∃ order, secondBuy.2.broker.orders.get oid = some order ∧
      order.filledQuantity.toRat = 10 ∧
        returnedQuantity oid ([] ++ returnedFills firstBuy.1 ++ returnedFills secondBuy.1) =
          order.filledQuantity.toRat := by
  refine ⟨by decide +kernel, fun oid hoid ↦ ?_⟩
  have hfilled : ∀ oid ∈ ["PAPER-1", "PAPER-2"], (secondBuy.2.broker.orders.get oid).map
      (fun order ↦ order.filledQuantity.toRat) = some 10 := by decide +kernel
  obtain ⟨order, hget, hten⟩ := Option.map_eq_some_iff.1 (hfilled oid hoid)
  have hsubmits : Submits demoSource secondBuy.2
      ([] ++ returnedFills firstBuy.1 ++ returnedFills secondBuy.1) :=
    .submit _ _ "PAPER-2" 0 0 (.submit _ _ "PAPER-1" 0 0 .start rfl rfl) (by decide +kernel)
      (by decide +kernel)
  exact ⟨order, hget, hten, book_fills_reported_once demoSource.shape demoSource.broker rfl _ _
    hsubmits oid order hget⟩

theorem resting_fill_not_reported :
    let resting := buyTen (some (.ofNat 90)) 100 "PAPER-1" demoSource
    let next := buyTen none 80 "PAPER-2" resting.2
    returnedFills resting.1 = [] ∧ returnedQuantity "PAPER-1" (returnedFills next.1) = 0 ∧
      (next.2.broker.orders.get "PAPER-1").map (fun order ↦ order.filledQuantity.toRat) = some 10 :=
  ⟨by decide +kernel, by decide +kernel, by decide +kernel⟩

end Tradex.Runtime.BookSource

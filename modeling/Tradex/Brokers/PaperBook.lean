import Mathlib.Algebra.BigOperators.Ring.List
import Tradex.Brokers.PaperBroker

/-!
# One fill against the paper book

What an order takes from the book is stated on the order and the depth alone. The walk over the book
takes just that, but it stops at the level that satisfies the order and forgets the levels behind
it, and the second gate refuses after the book has been replaced.
-/

namespace Tradex.Brokers.Paper

open Domain Execution Price Decimal List

variable {cfg : PaperConfig} {reads : SessionReading × SessionReading} {order : Order}
  {broker : PaperBroker} {depth : Depth} {levels : List Level} {rem : Decimal}

def takenQuantity (taken : List Level) : ℚ := (taken.map fun level ↦ level.2.toRat).sum

def takenCost (taken : List Level) : ℚ :=
  (taken.map fun level ↦ level.1.value.toRat * level.2.toRat).sum

/-- Each level with what an order that needs `rem` takes there: within its limit, the best first. -/
def matched (order : Order) (rem : Decimal) : List Level → List (Level × Option Decimal)
  | [] => []
  | (price, qty) :: levels =>
    if rem ≤ 0 ∨ withinLimit order price = false then ((price, qty), none) :: matched order rem levels
    else ((price, qty), some (minimum rem qty)) :: matched order (rem - minimum rem qty) levels

/-- A level less what is taken there; of one that is used up nothing is left. -/
def leftOf : Level × Option Decimal → Option Level
  | (level, none) => some level
  | ((price, qty), some took) => if took < qty then some (price, qty - took) else none

def takenOf (entry : Level × Option Decimal) : Option Level :=
  entry.2.map fun took ↦ (entry.1.1, took)

def unreached (order : Order) (rem : Decimal) : List Level → List Level
  | [] => []
  | (price, qty) :: levels =>
    if rem ≤ 0 then (price, qty) :: levels
    else if withinLimit order price then unreached order (rem - minimum rem qty) levels
    else unreached order rem levels

theorem matched_of_nonpos (hrem : rem ≤ 0) :
    matched order rem levels = levels.map fun level ↦ (level, none) := by
  induction levels with
  | nil => rfl
  | cons level levels ih => rw [matched, if_pos (.inl hrem), ih, map_cons]

/-- The walk keeps what is left of the levels it reaches, and takes what is taken there. -/
theorem filterMap_matched :
    (matched order rem levels).filterMap leftOf =
        (walk order rem levels).kept ++ unreached order rem levels ∧
      (matched order rem levels).filterMap takenOf = (walk order rem levels).taken := by
  fun_induction walk order rem levels with
  | case1 => exact ⟨rfl, rfl⟩
  | case2 rem price qty levels hdone =>
    rw [matched_of_nonpos hdone, unreached, if_pos hdone, filterMap_map, filterMap_map]
    exact ⟨filterMap_some, filterMap_none _⟩
  | case3 rem price qty levels hmore hin took rest ih =>
    rw [matched, if_neg (by simp [hmore, hin]), unreached, if_neg hmore, if_pos hin]
    refine ⟨?_, ?_⟩
    · by_cases hleft : took < qty
      · simpa [leftOf, hleft, took] using ih.1
      · simpa [leftOf, hleft, took] using ih.1
    · exact congrArg ((price, took) :: ·) ih.2
  | case4 rem price qty levels hmore hin rest ih =>
    rw [matched, if_pos (.inr (Bool.eq_false_of_not_eq_true hin)), unreached, if_neg hmore, if_neg hin]
    exact ⟨congrArg ((price, qty) :: ·) ih.1, ih.2⟩

theorem walk_totals (order : Order) (rem : Decimal) (levels : List Level) :
    (walk order rem levels).filled.toRat = takenQuantity (walk order rem levels).taken ∧
      (walk order rem levels).cost.toRat = takenCost (walk order rem levels).taken := by
  fun_induction walk order rem levels with
  | case1 | case2 => simp [takenQuantity, takenCost]
  | case3 rem price qty levels hmore hin took rest ih => simpa [takenQuantity, takenCost] using ih
  | case4 rem price qty levels hmore hin rest ih => exact ih

theorem filled_walk_le : (walk order rem levels).filled.toRat ≤ max rem.toRat 0 := by
  fun_induction walk order rem levels with
  | case1 | case2 => simp
  | case3 rem price qty levels hmore hin took rest ih =>
    have hleft : 0 ≤ (rem - took).toRat := by simp [took]
    rw [max_eq_left hleft, toRat_sub] at ih
    rw [toRat_add]
    exact le_max_of_le_left (by linarith)
  | case4 rem price qty levels hmore hin rest ih => exact ih

theorem length_kept_walk_le : (walk order rem levels).kept.length ≤ levels.length := by
  fun_induction walk order rem levels with
  | case1 | case2 => simp
  | case3 rem price qty levels hmore hin took rest ih =>
    have hrest : rest.kept.length ≤ levels.length := ih
    dsimp only
    split <;> simp only [length_cons] <;> omega
  | case4 rem price qty levels hmore hin rest ih => simpa using ih

/-- A walk that fills anything leaves another side behind. -/
theorem kept_walk_ne (hfill : 0 < (walk order rem levels).filled.toRat) :
    (walk order rem levels).kept ≠ levels := by
  fun_induction walk order rem levels with
  | case1 | case2 => simp at hfill
  | case3 rem price qty levels hmore hin took rest ih =>
    intro hkept
    have hlength := congrArg length hkept
    have hrest : rest.kept.length ≤ levels.length := length_kept_walk_le
    dsimp only at hkept hlength
    split at hkept
    next hleft =>
      -- the level is reduced by all that the order still needs
      have hsame : (qty - took).toRat = qty.toRat := by rw [(Prod.mk.inj (cons.inj hkept).1).2]
      have htook : took.toRat = rem.toRat := by
        rw [lt_iff] at hleft
        simp only [took, toRat_minimum] at hleft ⊢
        exact min_eq_left ((min_lt_iff.1 hleft).resolve_right (lt_irrefl _)).le
      rw [toRat_sub, htook] at hsame
      exact hmore (le_iff.2 (by rw [toRat_zero]; linarith))
    next hleft =>
      rw [if_neg hleft, length_cons] at hlength
      omega
  | case4 rem price qty levels hmore hin rest ih => exact fun hkept ↦ ih hfill (cons.inj hkept).2

@[simp] theorem bookSide_replaceSide : bookSide order (replaceSide order depth levels) = levels := by
  unfold bookSide replaceSide
  cases order.side <;> rfl

section

variable (order : Order) (depth : Depth)

/-- The levels of the side that the order trades against, with what it takes at each. -/
def marks : List (Level × Option Decimal) :=
  matched order (remainingQuantity order) (bookSide order depth)

def wanted : List Level := (marks order depth).filterMap takenOf

/-- The levels behind the one that satisfies the order. -/
def behind : List Level := unreached order (remainingQuantity order) (bookSide order depth)

def fillAverage : Decimal :=
  rounded (takenCost (wanted order depth) / takenQuantity (wanted order depth))

def runningAverage : Decimal :=
  if order.status = .partiallyFilled ∧
      0 < order.filledQuantity.toRat + takenQuantity (wanted order depth) then
    let prev := ((order.avgPriceTraded <|> order.price).map Price.value).getD 0
    rounded ((prev.toRat * order.filledQuantity.toRat + takenCost (wanted order depth)) /
      (order.filledQuantity.toRat + takenQuantity (wanted order depth)))
  else fillAverage order depth

def Completes : Prop := order.quantity.toRat ≤ takenQuantity (wanted order depth)

instance instDecidableCompletes : Decidable (Completes order depth) :=
  inferInstanceAs (Decidable (_ ≤ _))

/-- A fill that completes the order is booked at the limit, if there is one. -/
def bookedPrice : Decimal :=
  if Completes order depth then (order.price.map Price.value).getD (runningAverage order depth)
  else fillAverage order depth

def bookedQuantity : ℚ :=
  if Completes order depth then order.quantity.toRat else takenQuantity (wanted order depth)

/-- The fill can be recorded on the order. -/
structure Settleable : Prop where
  legal : Completes order depth → (order.transitionTo .filled none).isOk = true
  average : 0 ≤ (runningAverage order depth).toRat
  marginal : ¬ Completes order depth → 0 ≤ (fillAverage order depth).toRat

end

theorem taken_bookWalk : (bookWalk order depth).taken = wanted order depth := filterMap_matched.2.symm

theorem left_marks : (marks order depth).filterMap leftOf =
    (bookWalk order depth).kept ++ behind order depth := filterMap_matched.1

theorem filled_bookWalk :
    (bookWalk order depth).filled.toRat = takenQuantity (wanted order depth) := by
  rw [← taken_bookWalk]
  exact (walk_totals _ _ _).1

theorem cost_bookWalk : (bookWalk order depth).cost.toRat = takenCost (wanted order depth) := by
  rw [← taken_bookWalk]
  exact (walk_totals _ _ _).2

theorem marginalPrice_bookWalk : marginalPrice (bookWalk order depth) = fillAverage order depth := by
  rw [marginalPrice, quotient, cost_bookWalk, filled_bookWalk, fillAverage]

theorem overallAverage_bookWalk :
    overallAverage order (bookWalk order depth) = runningAverage order depth := by
  simp only [overallAverage, runningAverage, lt_iff, quotient, toRat_add, toRat_mul, toRat_zero,
    filled_bookWalk, cost_bookWalk, marginalPrice_bookWalk]

/-- What the session and, for a purchase, the buying power allow. -/
def MayTrade (cfg : PaperConfig) (reading : SessionReading) (side : OrderSide) (cash : Decimal)
    (notional : ℚ) : Prop :=
  (cfg.enforceSession = true → reading.isOpen = true) ∧
    (side = .buy → cfg.enforceMargin = true → notional * (1 + marginBuffer).toRat ≤ cash.toRat)

/-- The attempt gets past the first gate, so that it replaces the book. -/
def ReachesBook (cfg : PaperConfig) (reading : SessionReading) (order : Order)
    (broker : PaperBroker) (depth : Depth) : Prop :=
  canFill order broker = true ∧ 0 < takenQuantity (wanted order depth) ∧
    MayTrade cfg reading order.side broker.cash (takenCost (wanted order depth))

variable {err : TradingError} {walked : Walk} {fill : BookFill} {reading : SessionReading}

theorem except_bind_eq_error {Input Output : Type} {first : Except TradingError Input}
    {next : Input → Except TradingError Output} (herr : first >>= next = .error err) :
    first = .error err ∨ ∃ val, first = .ok val ∧ next val = .error err := by
  cases first with
  | error raised =>
    cases herr
    exact .inl rfl
  | ok val => exact .inr ⟨val, rfl, herr⟩

def isRefusal : TradingError → Bool
  | .orderRejected _ | .other _ => true
  | _ => false

theorem passGates_eq_ok_iff (cfg : PaperConfig) (reading : SessionReading) (order : Order)
    (cash notional : Decimal) :
    passGates cfg reading cash notional order = .ok () ↔
      MayTrade cfg reading order.side cash notional.toRat := by
  have hsession : requireMarketSession cfg reading = .ok () ↔
      (cfg.enforceSession = true → reading.isOpen = true) := by
    unfold requireMarketSession
    cases cfg.enforceSession <;> cases reading.isOpen <;> simp
  have hpower : requireBuyingPower cfg cash notional order = .ok () ↔
      (cfg.enforceMargin = true → notional.toRat * (1 + marginBuffer).toRat ≤ cash.toRat) := by
    rw [requireBuyingPower, ← not_lt, ← toRat_mul, ← lt_iff]
    cases cfg.enforceMargin <;> cases order.price <;> simp
  unfold passGates MayTrade
  rw [except_bind_eq_ok_iff, Unique.exists_iff, ← hsession, ← hpower]
  by_cases hbuy : order.side = .buy <;> simp [hbuy, pure, Except.pure]

theorem isRefusal_of_passGates {cash notional : Decimal}
    (herr : passGates cfg reading cash notional order = .error err) : isRefusal err = true := by
  unfold passGates requireMarketSession requireBuyingPower at herr
  rcases except_bind_eq_error herr with herr | ⟨-, -, herr⟩
  · split at herr <;> cases herr
    rfl
  · split at herr
    · split at herr
      · split at herr <;> cases herr <;> rfl
      · cases herr
    · cases herr

structure Settles (order : Order) (depth : Depth) (applied stored : Order) : Prop where
  price : applied.price.map Price.value = some (bookedPrice order depth)
  quantity : applied.filledQuantity.toRat = bookedQuantity order depth
  side : applied.side = order.side
  average : applied.avgPriceTraded.map Price.value = some (runningAverage order depth)
  average_stored : stored.avgPriceTraded = applied.avgPriceTraded
  quantity_stored : order.status ≠ .partiallyFilled → stored.filledQuantity = applied.filledQuantity
  orderId : stored.orderId = order.orderId
  priced : stored.price.isSome
  status : stored.status = .filled ∨ stored.status = .partiallyFilled

theorem not_refused_of_transitionTo {status : OrderStatus}
    (herr : order.transitionTo status none = .error err) : isRefusal err = false := by
  unfold Order.transitionTo at herr
  split at herr
  · dsimp only at herr
    split at herr
    · cases herr
      rfl
    · split at herr <;> cases herr
      rfl
  · cases herr
    rfl

theorem settlement_cases (order : Order) (depth : Depth) :
    Settleable order depth ∧ (∃ applied stored,
        settlement order (bookWalk order depth) = .ok (applied, stored) ∧
        Settles order depth applied stored) ∨
      ¬ Settleable order depth ∧ ∃ err, isRefusal err = false ∧
        settlement order (bookWalk order depth) = .error err := by
  have hfull : order.quantity ≤ (bookWalk order depth).filled ↔ Completes order depth := by
    rw [le_iff, filled_bookWalk, Completes]
  simp only [settlement, hfull, marginalPrice_bookWalk, overallAverage_bookWalk, of]
  by_cases hcomp : Completes order depth
  · rw [if_pos hcomp]
    cases hmove : order.transitionTo .filled none with
    | error err =>
      refine .inr ⟨fun hsettle ↦ ?_, err, not_refused_of_transitionTo hmove, rfl⟩
      have hlegal := hsettle.legal hcomp
      rw [hmove] at hlegal
      cases hlegal
    | ok moved =>
      obtain ⟨-, rfl⟩ := transitionTo_ok hmove
      by_cases havg : 0 ≤ (runningAverage order depth).toRat
      · refine .inl ⟨⟨fun _ ↦ by rw [hmove]; rfl, havg, fun hpart ↦ absurd hcomp hpart⟩, ?_⟩
        rw [dif_pos havg]
        refine ⟨_, _, rfl, ?_, ?_, rfl, rfl, rfl, fun _ ↦ rfl, rfl, rfl, .inl rfl⟩
        · rw [bookedPrice, if_pos hcomp]
          cases order.price <;> rfl
        · rw [bookedQuantity, if_pos hcomp]
      · refine .inr ⟨fun hsettle ↦ havg hsettle.average, ?_⟩
        rw [dif_neg havg]
        exact ⟨_, rfl, rfl⟩
  · rw [if_neg hcomp]
    by_cases hmarg : 0 ≤ (fillAverage order depth).toRat
    · by_cases havg : 0 ≤ (runningAverage order depth).toRat
      · refine .inl ⟨⟨fun h ↦ absurd h hcomp, havg, fun _ ↦ hmarg⟩, ?_⟩
        rw [dif_pos hmarg, dif_pos havg]
        refine ⟨_, _, rfl, ?_, ?_, rfl, rfl, rfl, fun hstat ↦ if_neg hstat, rfl, rfl, .inr rfl⟩
        · rw [bookedPrice, if_neg hcomp]
          rfl
        · rw [bookedQuantity, if_neg hcomp, filled_bookWalk]
      · refine .inr ⟨fun hsettle ↦ havg hsettle.average, ?_⟩
        rw [dif_pos hmarg, dif_neg havg]
        exact ⟨_, rfl, rfl⟩
    · refine .inr ⟨fun hsettle ↦ hmarg (hsettle.marginal hcomp), ?_⟩
      rw [dif_neg hmarg]
      exact ⟨_, rfl, rfl⟩

variable {stored : Order}

structure IsBookFill (order : Order) (depth : Depth) (fill : BookFill) (stored : Order) : Prop where
  order_eq : fill.order = order
  depth_eq : fill.depth = some depth
  taken : fill.taken = wanted order depth
  settles : Settles order depth fill.applied stored

theorem bookFill_ok
    {after : PaperBroker} (hok : bookFill cfg reading fill stored broker = .ok after) :
    ∃ price positions, fill.applied.price = some price ∧ after = { broker with
      cash := cashAfter fill.applied.side broker.cash (price.value * fill.applied.filledQuantity)
      positions := positions
      orders := broker.orders.set fill.order.orderId stored
      fills := broker.fills ++ [fill] } := by
  unfold bookFill applyFill at hok
  cases hprice : fill.applied.price with
  | none =>
    rw [hprice] at hok
    cases hok
  | some price =>
    rw [hprice] at hok
    obtain ⟨_, happ, ⟨⟩⟩ := except_bind_eq_ok hok
    obtain ⟨_, -, ⟨⟩⟩ := except_bind_eq_ok happ
    exact ⟨price, _, rfl, rfl⟩

/-- The amount that the fill is booked at passes the second gate. -/
def MayBook (cfg : PaperConfig) (reading : SessionReading) (order : Order) (broker : PaperBroker)
    (depth : Depth) : Prop :=
  MayTrade cfg reading order.side broker.cash
    ((bookedPrice order depth).toRat * bookedQuantity order depth)

theorem IsBookFill.bookFill_cases (hfill : IsBookFill order depth fill stored)
    (cfg : PaperConfig) (reading : SessionReading) (broker : PaperBroker) :
    MayBook cfg reading order broker depth ∧
        (∃ after, bookFill cfg reading fill stored broker = .ok after) ∨
      ¬ MayBook cfg reading order broker depth ∧
        ∃ err, isRefusal err = true ∧ bookFill cfg reading fill stored broker = .error err := by
  obtain ⟨price, hprice, hval⟩ := Option.map_eq_some_iff.1 hfill.settles.price
  have hgate := passGates_eq_ok_iff cfg reading fill.applied broker.cash
    (price.value * fill.applied.filledQuantity)
  rw [hfill.settles.side, toRat_mul, hval, hfill.settles.quantity] at hgate
  unfold bookFill applyFill
  rw [hprice]
  dsimp only
  rw [hval]
  cases hpass : passGates cfg reading broker.cash
      (bookedPrice order depth * fill.applied.filledQuantity) fill.applied with
  | ok passed => exact .inl ⟨hgate.1 hpass, _, rfl⟩
  | error err =>
    refine .inr ⟨fun hmay ↦ ?_, err, isRefusal_of_passGates hpass, rfl⟩
    cases hpass.symm.trans (hgate.2 hmay)

/-- A fill is booked unless it cannot be recorded or the second gate refuses it. -/
theorem settle_cases (cfg : PaperConfig) (reading : SessionReading) (order : Order) (depth : Depth)
    (broker : PaperBroker) :
    (¬ Settleable order depth ∧
        ∃ err, isRefusal err = false ∧ settle cfg reading order depth broker = .error err) ∨
      Settleable order depth ∧ (¬ MayBook cfg reading order broker depth ∧
          (∃ err, isRefusal err = true ∧ settle cfg reading order depth broker = .error err) ∨
        MayBook cfg reading order broker depth ∧ ∃ fill stored after,
          IsBookFill order depth fill stored ∧ bookFill cfg reading fill stored broker = .ok after ∧
          settle cfg reading order depth broker = .ok after) := by
  unfold settle
  rcases settlement_cases order depth with
    ⟨hsettle, applied, stored, hok, hbooks⟩ | ⟨hnot, err, herr, hraise⟩
  · have hfill : IsBookFill order depth ⟨order, some depth, (bookWalk order depth).taken, applied⟩
        stored := ⟨rfl, rfl, taken_bookWalk, hbooks⟩
    rw [hok]
    refine .inr ⟨hsettle, ?_⟩
    rcases hfill.bookFill_cases cfg reading broker with ⟨hmay, after, hbook⟩ | ⟨hnot, hraise⟩
    · exact .inr ⟨hmay, _, stored, after, hfill, hbook, hbook⟩
    · exact .inl ⟨hnot, hraise⟩
  · rw [hraise]
    exact .inl ⟨hnot, err, herr, rfl⟩

theorem tryFillAgainstBook_cases (cfg : PaperConfig) (reads : SessionReading × SessionReading)
    (order : Order) (broker : PaperBroker)
    (hdepth : broker.depths.get order.instrument = some depth) :
    ¬ ReachesBook cfg reads.1 order broker depth ∧
        (tryFillAgainstBook cfg reads order broker).2 = broker ∨
      ReachesBook cfg reads.1 order broker depth ∧
        tryFillAgainstBook cfg reads order broker =
          commit (replaceBook order depth broker)
            (settle cfg reads.2 order depth (replaceBook order depth broker)) := by
  have hgate := passGates_eq_ok_iff cfg reads.1 order broker.cash (bookWalk order depth).cost
  rw [cost_bookWalk] at hgate
  unfold tryFillAgainstBook ReachesBook
  rw [hdepth, ← hgate, ← filled_bookWalk]
  split
  next hcan =>
    dsimp only
    split
    next hnone =>
      -- an order that needs nothing finds nothing
      refine .inl ⟨fun hreach ↦ ?_, rfl⟩
      rcases hnone with hrem | hfill
      · have hle : (bookWalk order depth).filled.toRat ≤ max (remainingQuantity order).toRat 0 :=
          filled_walk_le
        rw [max_eq_right (by simpa [le_iff] using hrem)] at hle
        exact not_lt.2 hle hreach.2.1
      · exact not_lt.2 (by simpa [le_iff] using hfill) hreach.2.1
    next hwalked =>
      have hfill := not_le.1 (le_iff.not.1 (not_or.1 hwalked).2)
      rw [toRat_zero] at hfill
      split
      next err herr =>
        refine .inl ⟨fun hreach ↦ ?_, rfl⟩
        cases herr.symm.trans hreach.2.2
      next hpass => exact .inr ⟨⟨hcan, hfill, hpass⟩, rfl⟩
  next hcan => exact .inl ⟨fun hreach ↦ hcan hreach.1, rfl⟩

/-- A fill leaves each level less what the order takes there, and without a fill the book stays. -/
structure Conserves (order : Order) (depth : Depth) (before after : PaperBroker) : Prop where
  unfilled : after.fills = before.fills → after.depths = before.depths
  filled : ∀ fill, after.fills = before.fills ++ [fill] → fill.taken = wanted order depth ∧
    after.depths = before.depths.set order.instrument
      (replaceSide order depth ((marks order depth).filterMap leftOf))

theorem depths_replaceBook_ne (hdepth : broker.depths.get order.instrument = some depth)
    (hfill : 0 < takenQuantity (wanted order depth)) :
    (replaceBook order depth broker).depths ≠ broker.depths := by
  intro hsame
  have hget := congrArg (Dict.get · order.instrument) hsame
  simp only [replaceBook, Dict.get_set_self, hdepth, Option.some.injEq] at hget
  rw [← filled_bookWalk] at hfill
  exact kept_walk_ne hfill (bookSide_replaceSide.symm.trans (congrArg (bookSide order) hget))

def inSession : SessionReading := ⟨"2026-10-05T10:00:00", true⟩

def purchase (qty : ℕ) (limit : Option Price) : Order where
  orderId := "PAPER-1"
  instrument := ⟨"NSE:INFY"⟩
  side := .buy
  orderType := if limit.isSome then .limit else .market
  quantity := OfNat.ofNat qty
  price := limit
  status := .ack

def brokerOffering (cash : ℕ) (asks : List (ℕ × ℕ)) : PaperBroker where
  cash := OfNat.ofNat cash
  depths := Dict.single ⟨"NSE:INFY"⟩ ⟨⟨"NSE:INFY"⟩, [],
    asks.map fun (price, qty) ↦ (Price.ofNat price, OfNat.ofNat qty), none⟩
  clock := fun _ ↦ (inSession, inSession)

def twoLevels : Depth :=
  ⟨⟨"NSE:INFY"⟩, [], [(Price.ofNat 100, 5), (Price.ofNat 101, 5)], none⟩

def afterPurchase (qty : ℕ) : PaperBroker :=
  (tryFillAgainstBook {} (inSession, inSession) (purchase qty none)
    (brokerOffering 10000 [(100, 5), (101, 5)])).2

end Tradex.Brokers.Paper

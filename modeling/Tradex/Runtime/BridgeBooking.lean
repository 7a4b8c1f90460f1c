import Tradex.Execution.FillRules
import Tradex.Runtime.LiveFillBridge

/-!
# What the bridge books

As long as the order cache has advanced with the bookings, a row books at most what is missing to
its total.
-/

namespace Tradex.Runtime.BridgeBooking

open Tradex.Domain Tradex.Execution Tradex.Execution.Engine LiveFillBridge TradeBookFillIdResolver
open List

def quantityOf (fills : List Fill) : ℚ :=
  (fills.map fun fill ↦ fill.quantity.toRat).sum

def bookedFor (oid : String) (world : World) : ℚ :=
  quantityOf (world.booked.filter fun fill ↦ fill.orderId = oid)

structure Covered (orderId : String) (world : World) : Prop where
  unknown : world.cache.getOrder orderId = none → bookedFor orderId world = 0
  regular : ∀ order, world.cache.getOrder orderId = some order → Regular order
  covered : ∀ order, world.cache.getOrder orderId = some order →
    bookedFor orderId world ≤ order.filledQuantity.toRat ∨
      order.quantity.toRat ≤ order.filledQuantity.toRat

variable {bridge : LiveFillBridge}

section Publishing

variable {cfg : EngineConfig} {world : World} {oid : String} {after : World}

theorem bookedFor_congr {before after : World} (hbook : after.booked = before.booked) :
    bookedFor oid after = bookedFor oid before := by
  rw [bookedFor, bookedFor, hbook]

theorem Covered.congr (hcov : Covered oid world) (hbook : after.booked = world.booked)
    (hcache : after.cache.getOrder oid = world.cache.getOrder oid) :
    Covered oid after := by
  refine ⟨?_, ?_, ?_⟩
  · rw [hcache, bookedFor_congr hbook]
    exact hcov.unknown
  · rw [hcache]
    exact hcov.regular
  · rw [hcache, bookedFor_congr hbook]
    exact hcov.covered

theorem Covered.known {order : Order} (hcache : world.cache.getOrder oid = some order)
    (hreg : Regular order) (hfill : bookedFor oid world ≤ order.filledQuantity.toRat ∨
      order.quantity.toRat ≤ order.filledQuantity.toRat) : Covered oid world := by
  refine ⟨fun hnone ↦ ?_, fun found hfind ↦ ?_, fun found hfind ↦ ?_⟩
  · cases hnone.symm.trans hcache
  all_goals
    rw [hcache, Option.some_inj] at hfind
    rwa [← hfind]

theorem Covered.halts {fin : World} (hcov : Covered oid world)
    (hhalt : Halts world fin) : Covered oid fin := by
  have hbook : fin.booked = world.booked := hhalt.frame.2.2.2.2.2.1
  obtain hsame | ⟨order, hcache, hcanc⟩ := hhalt.getOrder_cases oid
  · exact hcov.congr hbook hsame
  · have hreg := hcov.regular order hcache
    have hfill := hcov.covered order hcache
    rw [← bookedFor_congr hbook] at hfill
    exact .known hcanc ⟨⟨hreg.within.nonneg, hreg.within.le⟩, ⟨nofun, nofun⟩, nofun⟩ hfill

theorem bookedFor_snoc {fill : Fill} (hfill : fill.orderId = oid)
    (hbook : after.booked = world.booked ++ [fill]) :
    bookedFor oid after = bookedFor oid world + fill.quantity.toRat := by
  simp [bookedFor, quantityOf, hbook, hfill]

theorem Covered.fill {fill : Fill} (hcov : Covered oid world)
    (hfill : fill.orderId = oid) (hqty : 0 < fill.quantity.toRat)
    (hopen : ∀ order, world.cache.getOrder fill.orderId = some order → order.status ≠ .rejected) :
    ∃ adv, advancedOrder (world.cache.getOrder fill.orderId) fill = .ok adv ∧
      ∀ after : World, after.booked = world.booked ++ [fill] →
        after.cache.getOrder oid = some adv → Covered oid after := by
  have hcover : ∀ (adv : Order) (after : World), Regular adv →
      (bookedFor oid world + fill.quantity.toRat ≤ adv.filledQuantity.toRat ∨
        adv.quantity.toRat ≤ adv.filledQuantity.toRat) →
      after.booked = world.booked ++ [fill] → after.cache.getOrder oid = some adv →
      Covered oid after := by
    intro adv after hreg hfilled hbook hcache
    rw [← bookedFor_snoc hfill hbook] at hfilled
    exact .known hcache hreg hfilled
  subst hfill
  cases hcache : world.cache.getOrder fill.orderId with
  | none =>
    obtain ⟨adv, hadv⟩ := unknownFillOrder_of_pos hqty
    obtain ⟨-, -, -, hsize, hfilled, hstat⟩ := unknownFillOrder_ok hadv
    refine ⟨adv, hadv, fun after ↦ hcover adv after ⟨⟨?_, ?_⟩, ?_, ?_⟩ (.inr ?_)⟩
    · rw [hfilled]
      exact hqty.le
    · rw [hfilled, hsize]
    · rw [hstat]
      exact ⟨nofun, nofun⟩
    · intro _
      rw [hfilled, hsize]
    · rw [hfilled, hsize]
  | some order =>
    have hreg := hcov.regular order hcache
    have hadm := hreg.admits (hopen order hcache) hqty.le
    refine ⟨_, filledOrder_of_legal hreg.within hqty.le hadm, fun after ↦
      hcover _ after (hreg.filled hqty.le) ?_⟩
    have hafter := toRat_filledAfter order fill
    rw [hafter]
    -- either the whole fill fits, or the clamp fills the order up
    rcases le_total fill.quantity.toRat
      (order.quantity.toRat - order.filledQuantity.toRat) with hfits | hexc
    · rw [min_eq_left hfits]
      rcases hcov.covered order hcache with hback | hfull
      · left
        linarith
      · linarith
    · right
      rw [min_eq_right hexc]
      linarith

/-- What the cache holds once the order of a booked fill has been advanced. -/
def cachedAfter (world : World) (fill : Fill) (name : String) : Option Order :=
  match advancedOrder (world.cache.getOrder fill.orderId) fill with
  | .ok adv => if fill.orderId = name then some adv else world.cache.getOrder name
  | .error _ => world.cache.getOrder name

@[elab_as_elim]
theorem publishFilled_induct {fill : Fill} {motive : World → Prop}
    (hown : cfg.positionProjectionOwned = false) (hqty : 0 ≤ fill.quantity.toRat)
    (hkept : ∀ after : World, after.cache = world.cache → after.booked = world.booked → motive after)
    (hhalt : ∀ accrued fin, Halts { world with accrued := accrued } fin → motive fin)
    (hbook : ∀ after : World,
      (∀ order, world.cache.getOrder fill.orderId = some order → order.status ≠ .rejected) →
      after.booked = world.booked ++ [fill] →
      (∀ name, after.cache.getOrder name = cachedAfter world fill name) → motive after) :
    motive ((Engine.publishFilled cfg fill none).run (exec cfg) world).2 := by
  have hdoor : Program.wp (exec cfg) (Engine.publishFilled cfg fill none) (fun _ ↦ motive)
      (fun _ _ ↦ False) world := by
    simp only [Engine.publishFilled, Program.wp_bind, wp_act, exec, World.publish_orderFilled,
      Program.wp_tryCatch]
    refine wp_applyFill hown hqty (fun _ hfee ↦ by cases hfee) ?_ ?_ ?_ ?_ ?_ ?_
    · exact fun _ ↦ hkept _ rfl rfl
    · exact fun _ _ _ ↦ hkept _ rfl rfl
    · exact fun _ _ _ ↦ hkept _ rfl rfl
    · exact fun _ _ _ _ _ ↦ hkept _ rfl rfl
    · exact fun _ accrued fin _ _ _ ↦ hhalt accrued fin
    · intro fee accrued _ hopen _ _ _
      rw [wp_advanceOrder]
      split
      next adv hadv =>
        refine hbook _ hopen rfl fun name ↦ ?_
        rw [cachedAfter, hadv, TradingCache.getOrder_updateOrder, orderId_advancedOrder hadv]
        exact congrArg _ (getOrder_bookPosition world.cache fill fee)
      next err hadv =>
        refine hbook _ hopen rfl fun name ↦ ?_
        rw [cachedAfter, hadv]
        exact getOrder_bookPosition world.cache fill fee
  rw [Program.wp_iff_run] at hdoor
  cases hres : ((Engine.publishFilled cfg fill none).run (exec cfg) world).1 with
  | ok _ => exact hdoor.1 () hres
  | error err => exact (hdoor.2 err hres).elim

theorem covered_publishFilled (hown : cfg.positionProjectionOwned = false) {fill : Fill}
    (hcov : Covered oid world) (hfill : fill.orderId = oid)
    (hqty : 0 < fill.quantity.toRat) :
    Covered oid ((Engine.publishFilled cfg fill none).run (exec cfg) world).2 ∧
      bookedFor oid ((Engine.publishFilled cfg fill none).run (exec cfg) world).2 ≤
        bookedFor oid world + fill.quantity.toRat := by
  have hsame : ∀ after : World, after.booked = world.booked → Covered oid after →
      Covered oid after ∧ bookedFor oid after ≤ bookedFor oid world + fill.quantity.toRat := by
    intro after hbook hafter
    refine ⟨hafter, ?_⟩
    rw [bookedFor_congr hbook]
    linarith
  refine publishFilled_induct hown hqty.le ?_ ?_ ?_
  · exact fun after hcache hbook ↦ hsame after hbook (hcov.congr hbook (by rw [hcache]))
  · intro accrued fin hhalt
    have hstart : Covered oid { world with accrued := accrued } := hcov.congr rfl rfl
    exact hsame fin hhalt.frame.2.2.2.2.2.1 (hstart.halts hhalt)
  · intro after hopen hbook hcache
    obtain ⟨adv, hadv, hafter⟩ := hcov.fill hfill hqty hopen
    refine ⟨hafter after hbook ?_, (bookedFor_snoc hfill hbook).le⟩
    rw [hcache, cachedAfter, hadv]
    exact if_pos hfill

theorem covered_publishAll (hown : cfg.positionProjectionOwned = false) (fills : List Fill)
    (hcov : Covered oid bridge.world)
    (hfills : ∀ fill ∈ fills, fill.orderId = oid ∧ 0 < fill.quantity.toRat) :
    Covered oid (fills.foldl (publish cfg) bridge).world ∧
      bookedFor oid (fills.foldl (publish cfg) bridge).world ≤
        bookedFor oid bridge.world + quantityOf fills := by
  induction fills generalizing bridge with
  | nil =>
    refine ⟨hcov, ?_⟩
    rw [quantityOf, map_nil, sum_nil, add_zero]
    exact le_refl _
  | cons fill rest ih =>
    obtain ⟨hfill, hqty⟩ := hfills fill mem_cons_self
    obtain ⟨hpub, hbook⟩ := covered_publishFilled hown hcov hfill hqty
    have hafter : Covered oid (publish cfg bridge fill).world := hpub
    have hrest := ih hafter fun other hother ↦ hfills other (mem_cons_of_mem _ hother)
    refine ⟨hrest.1, ?_⟩
    have hsum : quantityOf (fill :: rest) = fill.quantity.toRat + quantityOf rest := by
      rw [quantityOf, map_cons, sum_cons, quantityOf]
    calc
      bookedFor oid ((fill :: rest).foldl (publish cfg) bridge).world
          ≤ bookedFor oid (publish cfg bridge fill).world + quantityOf rest := hrest.2
      _ ≤ bookedFor oid bridge.world + fill.quantity.toRat + quantityOf rest :=
          add_le_add hbook (le_refl _)
      _ = bookedFor oid bridge.world + quantityOf (fill :: rest) := by rw [hsum, add_assoc]

end Publishing

theorem sum_takeTrades_le (oid : String) (rows : List TradeRow) (given : List String)
    {room : Decimal} (hroom : 0 ≤ room.toRat) :
    ((takeTrades oid rows given room).1.map fun trade ↦ trade.quantity.toRat).sum ≤ room.toRat := by
  fun_induction takeTrades oid rows given room with
  | case1 | case5 => simpa using hroom
  | case2 | case3 | case4 =>
    rename_i ih
    exact ih hroom
  | case6 row rest given room tradeId hrow hnew trade htrade hfits later =>
    rename_i ih
    rw [Decimal.lt_iff, not_lt] at hfits
    rw [Decimal.toRat_sub, sub_nonneg] at ih
    rw [map_cons, sum_cons]
    linarith [ih hfits]

def newQuantity (bridge : LiveFillBridge) (row : Order) : Decimal :=
  row.filledQuantity - applied bridge.world (bridge.engineOrderId row)

structure FillsWithin (orderId : String) (fills : List Fill) (quantity : ℚ) : Prop where
  own : ∀ fill ∈ fills, fill.orderId = orderId ∧ 0 < fill.quantity.toRat
  within : quantityOf fills ≤ quantity

def offered (resolver : TradeBookFillIdResolver) (update : StreamUpdate) (delta : Decimal) :
    List VenueTrade × List String :=
  takeTrades update.row.orderId (update.book.getD []) (resolver.givenFor update.row.orderId) delta

/-- The fill at the average price, when a lenient resolver has no trade to offer. -/
def fallbacks (resolver : TradeBookFillIdResolver) (update : StreamUpdate) (oid : String)
    (delta : Decimal) (price : Price) : List Fill :=
  if !resolver.strict && (offered resolver update delta).1.isEmpty then
    [fallbackFill update oid delta price]
  else []

variable {oid : String} {update : StreamUpdate} {given : List String} {bridge : LiveFillBridge}
  {resolver : TradeBookFillIdResolver}

theorem givenFor_set : givenFor
      { resolver with given := resolver.given.set oid given } oid = given := by
  rw [givenFor, Dict.get_set_self, Option.getD_some]

variable {price : Price} {cfg : EngineConfig} {update : StreamUpdate}

theorem publishDelta_resolved (hrslv : bridge.resolver = some resolver)
    {oid : String} {delta : Decimal} :
    ∃ asked, asked.givenFor update.row.orderId = (offered resolver update delta).2 ∧
      (bridge.publishDelta cfg update oid delta price).2 =
        ((offered resolver update delta).1.map (tradeFill update oid) ++
          fallbacks resolver update oid delta price).foldl (publish cfg)
          { bridge with
            resolver := some asked
            avgPriceFallbackFills := bridge.avgPriceFallbackFills +
              (fallbacks resolver update oid delta price).length } := by
  unfold publishDelta nextTrades
  rw [hrslv]
  dsimp only
  rw [← offered.eq_def]
  by_cases hnew : (resolver.strict && update.book.isNone) = true
  · -- a strict resolver without a book hands nothing out and keeps its record
    rw [if_pos hnew]
    have hbook : update.book = none := Option.isNone_iff_eq_none.1 (Bool.and_eq_true_iff.1 hnew).2
    have hoffer : offered resolver update delta = ([], resolver.givenFor update.row.orderId) := by
      rw [offered, hbook, Option.getD_none, takeTrades]
    have hstrict := (Bool.and_eq_true_iff.1 hnew).1
    rw [fallbacks, hstrict, hoffer]
    generalize resolver.givenFor update.row.orderId = given
    refine ⟨⟨true, resolver.given.set update.row.orderId given⟩, ?_, rfl⟩
    rw [givenFor, Dict.get_set_self, Option.getD_some]
  · rw [if_neg hnew, fallbacks]
    rcases hoffer : offered resolver update delta with ⟨trades, given⟩
    refine ⟨{ resolver with given := resolver.given.set update.row.orderId given }, givenFor_set, ?_⟩
    cases trades with
    | nil => cases resolver.strict <;> rfl
    | cons trade trades =>
      simp only [isEmpty_cons, Bool.and_false, Bool.false_eq_true, if_false, append_nil]
      rfl

variable {delta : Decimal}

theorem fillsWithin_fallback (hdelta : 0 < delta.toRat) :
    FillsWithin oid [fallbackFill update oid delta price] delta.toRat := by
  refine ⟨fun fill hfill ↦ ?_, ?_⟩
  · rw [mem_singleton.1 hfill]
    exact ⟨rfl, hdelta⟩
  · rw [quantityOf, map_singleton, sum_singleton]
    exact le_refl _

theorem fillsWithin_trades (hdelta : 0 < delta.toRat) :
    FillsWithin oid ((takeTrades update.row.orderId (update.book.getD []) given delta).1.map
      (tradeFill update oid)) delta.toRat := by
  refine ⟨fun fill hfill ↦ ?_, ?_⟩
  · obtain ⟨trade, -, rfl⟩ := mem_map.1 hfill
    exact ⟨rfl, trade.quantity_pos⟩
  · rw [quantityOf, map_map]
    exact sum_takeTrades_le update.row.orderId (update.book.getD []) given hdelta.le

theorem publishDelta_cases (cfg : EngineConfig) (bridge : LiveFillBridge) (update : StreamUpdate)
    (oid : String) (price : Price) (hdelta : 0 < delta.toRat) :
    ∃ fills resolver count,
      (bridge.publishDelta cfg update oid delta price).2 = fills.foldl (publish cfg)
        { bridge with resolver := resolver, avgPriceFallbackFills := count } ∧
      FillsWithin oid fills delta.toRat := by
  cases hrslv : bridge.resolver with
  | none =>
    refine ⟨[fallbackFill update oid delta price], bridge.resolver,
      bridge.avgPriceFallbackFills + 1, ?_, fillsWithin_fallback hdelta⟩
    have hfallback : bridge.publishDelta cfg update oid delta price =
        (.ok (), bridge.publishFallback cfg update oid delta price) := by
      rw [publishDelta, hrslv]
    rw [hfallback]
    rfl
  | some resolver =>
    obtain ⟨asked, -, hfin⟩ := publishDelta_resolved hrslv
    refine ⟨_, _, _, hfin, ?_⟩
    unfold fallbacks
    split
    · rename_i hnone
      rw [isEmpty_iff.1 (Bool.and_eq_true_iff.1 hnone).2]
      exact fillsWithin_fallback hdelta
    · rw [append_nil]
      exact fillsWithin_trades hdelta

def ReportsFill (row : Order) : Prop :=
  row.status ∈ fillStatuses ∧ ∃ price, rowPrice row = some price ∧ 0 < price.value.toRat

theorem onOrder_cases :
    ((onOrder cfg bridge update).2 = bridge ∧ (ReportsFill update.row →
        update.row.filledQuantity.toRat ≤ 0 ∨ (newQuantity bridge update.row).toRat ≤ 0)) ∨
      0 < (newQuantity bridge update.row).toRat ∧ ∃ price,
        onOrder cfg bridge update = bridge.publishDelta cfg update
          (bridge.engineOrderId update.row) (newQuantity bridge update.row) price ∧
        update.row.status ∈ fillStatuses ∧ 0 < update.row.filledQuantity.toRat ∧
        rowPrice update.row = some price ∧ 0 < price.value.toRat := by
  unfold onOrder
  dsimp only
  split
  next hstat => exact .inl ⟨rfl, fun hrep ↦ absurd hrep.1 hstat⟩
  next hstat =>
    split
    next hprice =>
      refine .inl ⟨rfl, fun ⟨_, price, hsome, _⟩ ↦ ?_⟩
      cases hprice.symm.trans hsome
    next price hprice =>
      split
      next hunusable =>
        refine .inl ⟨rfl, fun ⟨_, found, hfind, hpos⟩ ↦ ?_⟩
        cases hprice.symm.trans hfind
        exact .inl (hunusable.resolve_right hpos.not_ge)
      next husable =>
        simp only [not_or, not_le] at husable
        split
        next hnone => exact .inl ⟨rfl, fun _ ↦ .inr hnone⟩
        next hnew =>
          exact .inr ⟨not_le.1 hnew, price, rfl, not_not.1 hstat, husable.1, hprice, husable.2⟩

structure Trackable (orderId : String) (bridge : LiveFillBridge) (row : Order) : Prop where
  resolves : bridge.engineOrderId row = orderId
  fits : ∀ order, bridge.world.cache.getOrder orderId = some order →
    order.quantity.toRat ≤ order.filledQuantity.toRat →
    row.filledQuantity.toRat ≤ order.filledQuantity.toRat

instance (oid : String) (bridge : LiveFillBridge) (row : Order) :
    Decidable (Trackable oid bridge row) :=
  decidable_of_iff
    (bridge.engineOrderId row = oid ∧ ∀ order ∈ bridge.world.cache.getOrder oid,
      order.quantity.toRat ≤ order.filledQuantity.toRat →
        row.filledQuantity.toRat ≤ order.filledQuantity.toRat)
    ⟨fun ⟨hfix, hfits⟩ ↦ ⟨hfix, hfits⟩, fun ⟨hfix, hfits⟩ ↦ ⟨hfix, hfits⟩⟩

inductive Reports (cfg : EngineConfig) (orderId : String) (start : LiveFillBridge) :
    ℚ → LiveFillBridge → Prop where
  | start : Reports cfg orderId start 0 start
  | row {largest : ℚ} {bridge : LiveFillBridge} (update : StreamUpdate)
      (hreports : Reports cfg orderId start largest bridge)
      (htrackable : Trackable orderId bridge update.row) :
      Reports cfg orderId start (max largest update.row.filledQuantity.toRat)
        (onOrder cfg bridge update).2

theorem covered_onOrder (hown : cfg.positionProjectionOwned = false)
    (hcov : Covered oid bridge.world) (htrk : Trackable oid bridge update.row) :
    Covered oid (onOrder cfg bridge update).2.world ∧
      bookedFor oid (onOrder cfg bridge update).2.world ≤
        max (bookedFor oid bridge.world) update.row.filledQuantity.toRat := by
  rcases onOrder_cases with ⟨hsame, -⟩ | ⟨hnew, price, hpub, -⟩
  · rw [hsame]
    exact ⟨hcov, le_max_left _ _⟩
  · obtain ⟨fills, resolver, count, hfin, hfills⟩ := publishDelta_cases cfg bridge update
      (bridge.engineOrderId update.row) price hnew
    rw [newQuantity, htrk.resolves, Decimal.toRat_sub] at hnew
    rw [newQuantity, htrk.resolves, Decimal.toRat_sub] at hfills
    rw [hpub, hfin]
    have hstart : Covered oid { bridge with
        resolver := resolver, avgPriceFallbackFills := count }.world := hcov
    obtain ⟨hafter, hbook⟩ := covered_publishAll hown fills hstart hfills.own
    refine ⟨hafter, le_max_of_le_right ?_⟩
    -- what was booked before is not more than what the engine holds as filled
    have hpre : bookedFor oid bridge.world ≤ (applied bridge.world oid).toRat := by
      unfold applied at hnew ⊢
      cases hcache : bridge.world.cache.getOrder oid with
      | none => rw [hcov.unknown hcache, Decimal.toRat_zero]
      | some order =>
        rw [hcache] at hnew
        rcases hcov.covered order hcache with hback | hfull
        · exact hback
        · have hrep := htrk.fits order hcache hfull
          linarith
    have hin := hfills.within
    have hunchanged : bookedFor oid { bridge with
        resolver := resolver, avgPriceFallbackFills := count }.world =
        bookedFor oid bridge.world := rfl
    linarith

theorem covered_reports (hown : cfg.positionProjectionOwned = false)
    {start : LiveFillBridge} {largest : ℚ} (hstart : Covered oid start.world)
    (hnone : bookedFor oid start.world = 0)
    (hrep : Reports cfg oid start largest bridge) :
    Covered oid bridge.world ∧ bookedFor oid bridge.world ≤ largest := by
  induction hrep with
  | start => exact ⟨hstart, hnone.le⟩
  | row update _ htrk ih =>
    obtain ⟨hcov, hbook⟩ := ih
    obtain ⟨hafter, hbound⟩ := covered_onOrder hown hcov htrk
    exact ⟨hafter, hbound.trans (max_le_max hbook (le_refl _))⟩

/-- For regular rows the bridge never books more of an order than the largest total a row reported.
-/
theorem booked_le_largest_reported (cfg : EngineConfig) (oid : String)
    (start bridge : LiveFillBridge) (largest : ℚ) (hown : cfg.positionProjectionOwned = false)
    (hnone : bookedFor oid start.world = 0)
    (hregl : ∀ order, start.world.cache.getOrder oid = some order → Regular order)
    (hreports : Reports cfg oid start largest bridge) :
    bookedFor oid bridge.world ≤ largest := by
  have hstart : Covered oid start.world := by
    refine ⟨fun _ ↦ hnone, hregl, fun order hcached ↦ Or.inl ?_⟩
    rw [hnone]
    exact (hregl order hcached).within.nonneg
  exact (covered_reports hown hstart hnone hreports).2

def reported (total : Decimal) : StreamUpdate where
  row :=
    { orderId := "order-1"
      instrument := ⟨"NSE:INFY"⟩
      side := .buy
      orderType := .market
      quantity := 200
      price := none
      status := .partiallyFilled
      filledQuantity := total
      avgPriceTraded := some (.ofNat 10) }
  now := 0
  book := none

def bridgeOver (cache : TradingCache) : LiveFillBridge where
  world :=
    { World.opened (.obliging fun req ↦ .accepted (createOrder req "order-1" .ack 0) none)
        10000 false with
      cache := cache }
  resolver := none
  avgPriceFallbackFills := 0
  published := []

def reportAll (bridge : LiveFillBridge) (totals : List Decimal) : LiveFillBridge :=
  totals.foldl (fun cur total ↦ (onOrder .standard cur (reported total)).2) bridge

theorem unknown_order_overbooked :
    bookedFor "order-1" (bridgeOver .empty).world = 0 ∧
      (bridgeOver .empty).world.cache.getOrder "order-1" = none ∧
      (reportAll (bridgeOver .empty) [50, 100, 150]).world.cache.getPosition ⟨"NSE:INFY"⟩ ≠ none ∧
      bookedFor "order-1" (reportAll (bridgeOver .empty) [50, 100, 150]).world = 200 ∧
      ¬ bookedFor "order-1" (reportAll (bridgeOver .empty) [50, 100, 150]).world ≤
        max (max (max 0 (50 : Decimal).toRat) (100 : Decimal).toRat) (150 : Decimal).toRat := by
  decide +kernel

def placed : Order :=
  { (reported 0).row with status := .ack, avgPriceTraded := none }

def placedCache : TradingCache := TradingCache.empty.updateOrder placed

theorem placed_order_booked_within :
    bookedFor "order-1" (reportAll (bridgeOver placedCache) [50, 150, 100, 50]).world ≤ 150 := by
  have hregular : ∀ order, (bridgeOver placedCache).world.cache.getOrder "order-1" = some order →
      Regular order := by
    intro order hcached
    obtain rfl : placed = order := Option.some_inj.1
      ((by decide +kernel : placedCache.getOrder "order-1" = some placed).symm.trans hcached)
    exact ⟨⟨by decide +kernel, by decide +kernel⟩, ⟨nofun, nofun⟩, nofun⟩
  refine (booked_le_largest_reported .standard "order-1" (bridgeOver placedCache) _ _ rfl
    (by decide +kernel) hregular (.row (reported 50) (.row (reported 100) (.row (reported 150)
      (.row (reported 50) .start ?_) ?_) ?_) ?_)).trans ?_ <;> decide +kernel

end Tradex.Runtime.BridgeBooking

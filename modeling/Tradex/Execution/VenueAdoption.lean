import Tradex.Execution.OrderManager
import Mathlib.Data.List.Sort

/-!
# Adopting the venue's positions

From the rows of the venue and of the local book a plan is derived, which puts each instrument into
one of four buckets, and the plan is written as one batch.
-/

namespace Tradex.Execution

open Tradex.Domain

inductive Reading where
  | absent
  | unreadable
  | number (value : Decimal)
deriving DecidableEq

/-- The average price of a row, which is read as a `Decimal` and so may also be a special value. -/
inductive PriceReading where
  | absent
  | unreadable
  | nan
  | infinite (negative : Bool)
  | number (value : Decimal)
deriving DecidableEq

structure PositionRow where
  instrument : Option Instrument
  instrumentId : Option String := none
  quantity : Reading
  avgPrice : PriceReading := .absent
  realizedAmount : Reading := .absent
  realizedCurrency : Option String := none
  strategyId : Option String := none
deriving DecidableEq

def positionInstrumentId (row : PositionRow) : Option String :=
  match row.instrument with
  | some instr => some instr.instrumentId
  | none => row.instrumentId

def rowOf (pos : Position) : PositionRow where
  instrument := some pos.instrument
  quantity := .number pos.quantity
  avgPrice := .number pos.avgPrice.value
  realizedAmount := .number pos.realizedPnl.amount
  realizedCurrency := some pos.realizedPnl.currency
  strategyId := pos.strategyId

def venueQuantity (row : PositionRow) : Option Decimal :=
  match row.quantity with
  | .number val => some val
  | _ => none

def adoptionTolerance : Decimal := ⟨1, -2⟩

def agreesOnPrice (localRow venueRow : PositionRow) : Except TradingError Bool :=
  match localRow.avgPrice, venueRow.avgPrice with
  | .absent, _ => .ok true
  | _, .absent => .ok true
  | .number localPrice, .number venuePrice =>
    .ok (decide ((localPrice - venuePrice).abs ≤ adoptionTolerance))
  | .number _, .infinite _ => .ok false
  | .infinite _, .number _ => .ok false
  | .infinite localSign, .infinite venueSign =>
    if localSign = venueSign then .error (.other "decimal.InvalidOperation") else .ok false
  | _, _ => .error (.other "decimal.InvalidOperation")

section

variable (ccy : Instrument → String)

def flatPosition (reference : PositionRow) : Option Position :=
  reference.instrument.map fun instr ↦
    { instrument := instr
      quantity := 0
      avgPrice := Price.ofNat 0
      realizedPnl := ⟨0, ccy instr⟩
      unrealizedPnl := ⟨0, ccy instr⟩
      strategyId := reference.strategyId }

variable (venueRow : PositionRow)

-- rounding an infinity and storing a NaN raise, and no position is built
def venueAvgPriceValue : Option Decimal :=
  match venueRow.avgPrice with
  | .number val => some val
  | .nan | .infinite _ => none
  | _ => some 0

def venueRealized (ccy : String) : Money :=
  match venueRow.realizedAmount with
  | .number amount => ⟨amount, ccy⟩
  | _ => ⟨0, ccy⟩

def adoptedRealized (localRow : Option PositionRow) (venueRow : PositionRow) (ccy : String) :
    Money :=
  match localRow with
  | none => venueRealized venueRow ccy
  | some row =>
    match row.realizedAmount with
    | .number amount => ⟨amount, row.realizedCurrency.getD ccy⟩
    | _ => venueRealized venueRow ccy

def adoptedPrice : Option Price :=
  (venueAvgPriceValue venueRow).bind fun val ↦
    let price := Decimal.roundCents val.toRat
    if hprice : 0 ≤ price.toRat then some ⟨price, hprice⟩ else none

def adoptedQuantity : Decimal :=
  match venueQuantity venueRow with
  | some qty => if qty.toRat = 0 then 0 else qty
  | none => 0

def adoptedPosition (localRow : Option PositionRow) (venueRow : PositionRow) : Option Position :=
  match venueRow.instrument, adoptedPrice venueRow with
  | some instr, some price => some
      { instrument := instr
        quantity := adoptedQuantity venueRow
        avgPrice := price
        realizedPnl := adoptedRealized localRow venueRow (ccy instr)
        unrealizedPnl := ⟨0, ccy instr⟩
        strategyId := localRow.bind PositionRow.strategyId }
  | _, _ => none

end

inductive SkipReason where
  | unreadablePosition
  | unreadableQuantity
  | unreadableInstrument
  | unsettledFill
  | venueOmitted
deriving DecidableEq

inductive Verdict where
  | adopt (position : Position) (previous : Option PositionRow)
  | retain (row : PositionRow)
  | clear (flat : Option Position) (previous : PositionRow)
  | skip (reason : SkipReason)
deriving DecidableEq

def unreadableInstrument : String := "<unreadable:instrument>"

structure VenueAdoption where
  positions : Dict String Position
  retained : Dict String PositionRow
  cleared : Dict String (Option Position)
  skipped : Dict String SkipReason
  previous : Dict String PositionRow
deriving DecidableEq

namespace VenueAdoption

def empty : VenueAdoption := ⟨.empty, .empty, .empty, .empty, .empty⟩

def record (plan : VenueAdoption) (iid : String) : Verdict → VenueAdoption
  | .adopt pos prev =>
    { plan with
      positions := plan.positions.set iid pos
      previous := prev.elim plan.previous (plan.previous.set iid) }
  | .retain row => { plan with retained := plan.retained.set iid row }
  | .clear flat prev =>
    { plan with
      cleared := plan.cleared.set iid flat
      previous := plan.previous.set iid prev }
  | .skip why => { plan with skipped := plan.skipped.set iid why }

def isEmpty (plan : VenueAdoption) : Bool :=
  plan.positions.entries.isEmpty && plan.cleared.entries.isEmpty && plan.skipped.entries.isEmpty

end VenueAdoption

section Derivation

variable (ccy : Instrument → String)

def agrees (localRow venueRow : PositionRow) (held venue : Decimal) : Except TradingError Bool :=
  if venue.toRat = held.toRat then agreesOnPrice localRow venueRow else .ok false

variable (unpaid : Bool)

def correct (localRow venueRow : PositionRow) (venue : Decimal) : Verdict :=
  if unpaid then .skip .unsettledFill
  else if venue.toRat = 0 then
    .clear ((flatPosition ccy localRow).or (flatPosition ccy venueRow)) localRow
  else
    match adoptedPosition ccy (some localRow) venueRow with
    | none => .skip .unreadablePosition
    | some pos => .adopt pos (some localRow)

def judgeHeld (localRow : PositionRow) (venueRow : Option PositionRow) :
    Except TradingError Verdict :=
  match venueRow with
  | none => .ok (.skip .venueOmitted)
  | some venueRow =>
    match venueQuantity venueRow, venueQuantity localRow with
    | some venue, some held =>
      (agrees localRow venueRow held venue).map fun same ↦
        if same then .retain localRow else correct ccy unpaid localRow venueRow venue
    | _, _ => .ok (.skip .unreadableQuantity)

def judgeVenueOnly (venueRow : PositionRow) : Option Verdict :=
  match venueQuantity venueRow with
  | none => some (.skip .unreadableQuantity)
  | some qty =>
    if qty.toRat = 0 then none
    else if unpaid then some (.skip .unsettledFill)
    else
      match adoptedPosition ccy none venueRow with
      | none => some (.skip .unreadablePosition)
      | some pos => some (.adopt pos none)

def addRow (rows : Dict String PositionRow) (row : PositionRow) : Dict String PositionRow :=
  match positionInstrumentId row with
  | some iid => rows.set iid row
  | none => rows

def byId (rows : List PositionRow) : Dict String PositionRow := rows.foldl addRow .empty

def sortedIds (rows : Dict String PositionRow) : List String :=
  (rows.entries.map Prod.fst).insertionSort (· ≤ ·)

def recordHeld (held listed : Dict String PositionRow) (unpaid : Finset String)
    (plan : VenueAdoption) (iid : String) : Except TradingError VenueAdoption :=
  match held.get iid with
  | none => .ok plan
  | some localRow =>
    (judgeHeld ccy (decide (iid ∈ unpaid)) localRow (listed.get iid)).map (plan.record iid)

def recordListed (listed : Dict String PositionRow) (unpaid : Finset String)
    (plan : VenueAdoption) (iid : String) : VenueAdoption :=
  match (listed.get iid).bind (judgeVenueOnly ccy (decide (iid ∈ unpaid))) with
  | none => plan
  | some verdict => plan.record iid verdict

def recordUnreadable (venuePositions : List PositionRow) (plan : VenueAdoption) : VenueAdoption :=
  if venuePositions.any fun row ↦ (positionInstrumentId row).isNone then
    plan.record unreadableInstrument (.skip .unreadableInstrument)
  else plan

def venueOnlyIds (held listed : Dict String PositionRow) : List String :=
  (sortedIds listed).filter fun iid ↦ (held.get iid).isNone

def deriveVenueAdoption (localPositions venuePositions : List PositionRow)
    (unpaid : Finset String) : Except TradingError VenueAdoption :=
  let held := byId localPositions
  let listed := byId venuePositions
  ((sortedIds held).foldlM (recordHeld ccy held listed unpaid) .empty).map fun plan ↦
    recordUnreadable venuePositions
      ((venueOnlyIds held listed).foldl (recordListed ccy listed unpaid) plan)

end Derivation

def TradingCache.setPositions (cache : TradingCache) (rows : List Position) : TradingCache :=
  (rows.insertionSort fun left right ↦
    left.instrument.instrumentId ≤ right.instrument.instrumentId).foldl updatePosition cache

def applyVenueAdoption (plan : VenueAdoption) (cache : TradingCache) :
    Except TradingError TradingCache :=
  if plan.isEmpty then .ok cache
  else
    let rows := plan.positions.values.map some ++ plan.cleared.values
    if rows.all Option.isSome then .ok (cache.setPositions rows.reduceOption)
    else .error (.other "set_positions requires Position rows, got NoneType")

structure VenueRead where
  positions : List PositionRow := []
  unreadableInstruments : List String := []
  failed : Bool := false
  failure : String := ""
  readAt : Option ℤ := none

namespace VenueRead

variable (read : VenueRead)

def isPartial : Bool := !read.unreadableInstruments.isEmpty && !read.failed

def ok : Bool := !read.failed && !read.isPartial

def refused : String :=
  if read.failed then if read.failure = "" then "venue_read_failed" else read.failure
  else if read.isPartial then "venue_read_partial"
  else ""

end VenueRead

structure AdoptionOutcome where
  adoption : VenueAdoption
  applied : Bool
  refusal : String := ""
  read : VenueRead

def refusalOf (read : VenueRead) (lastReadAt : Option ℤ) : String :=
  if read.refused ≠ "" then read.refused
  else
    match lastReadAt, read.readAt with
    | some last, some readAt => if readAt < last then "venue_read_stale" else ""
    | _, _ => ""

def adoptVenuePositions (ccy : Instrument → String) (cache : TradingCache)
    (localPositions : List PositionRow) (unpaid : Finset String) (lastReadAt : Option ℤ)
    (adopt : Bool) (read : VenueRead) : Except TradingError AdoptionOutcome × TradingCache :=
  if refusalOf read lastReadAt ≠ "" then
    (.ok { adoption := .empty, applied := false, refusal := refusalOf read lastReadAt, read := read },
      cache)
  else
    match deriveVenueAdoption ccy localPositions read.positions unpaid with
    | .error err => (.error err, cache)
    | .ok plan =>
      if adopt then
        match applyVenueAdoption plan cache with
        | .error err => (.error err, cache)
        | .ok written => (.ok { adoption := plan, applied := true, read := read }, written)
      else (.ok { adoption := plan, applied := false, read := read }, cache)

def bookRows (cache : TradingCache) : List PositionRow := cache.positions.values.map rowOf

def unsettledStatus : OrderStatus → Bool
  | .new | .pending | .ack | .submitted | .partiallyFilled | .unknown => true
  | _ => false

def unsettledLocalInstruments (orders : List Order) : Finset String :=
  ((orders.filter fun order ↦ unsettledStatus order.status).map
    fun order ↦ order.instrument.instrumentId).toFinset

end Tradex.Execution

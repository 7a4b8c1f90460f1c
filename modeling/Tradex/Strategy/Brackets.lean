import Tradex.Domain.InstrumentId
import Tradex.Domain.Types

/-!
# Signals and their protective levels

The order that carries the declared stop and target of a signal. The two levels reach
the order only as a pair that brackets the entry on the side being traded; otherwise
they are dropped.
-/

namespace Tradex.Strategy

open Tradex.Domain

@[ext]
structure Amount where
  value : Decimal
  pos : 0 < value.toRat

instance : DecidableEq Amount := fun first second ↦
  decidable_of_iff (first.value = second.value) Amount.ext_iff.symm

def Amount.ofNat (val : ℕ) (hpos : 0 < val) : Amount where
  value := OfNat.ofNat val
  pos := by
    rw [Decimal.toRat_ofNat]
    exact Nat.cast_pos.mpr hpos

inductive RawAmount where
  | missing
  | unusable
  | number (value : Decimal)
deriving DecidableEq

structure ContractFields where
  lotSize : RawAmount := .missing
  tickSize : RawAmount := .missing

structure ListedInstrument where
  instrument : Instrument
  symbol : String
  assetClass : AssetClass
  fields : ContractFields := {}
  metaFields : ContractFields := {}
  extra : Option ContractFields := some {}

structure SignalMetadata where
  stopLossPrice : RawAmount := .missing
  targetPrice : RawAmount := .missing

structure Signal where
  instrument : ListedInstrument
  direction : OrderSide
  reason : String := ""
  quantity : RawAmount := .missing
  metadata : Option SignalMetadata := some {}

def asPrice : RawAmount → Option Price
  | .number val => if hpos : 0 < val.toRat then some ⟨val, hpos.le⟩ else none
  | .missing => none
  | .unusable => none

def declaredLevels : Option SignalMetadata → Option Price × Option Price
  | some metadata => (asPrice metadata.stopLossPrice, asPrice metadata.targetPrice)
  | none => (none, none)

def Signal.declaredStop (sig : Signal) : Option Price := (declaredLevels sig.metadata).1

def Signal.declaredTarget (sig : Signal) : Option Price := (declaredLevels sig.metadata).2

def isValidBracket (side : OrderSide) (entry stop target : Price) : Bool :=
  if side = .buy then stop.value < entry.value && entry.value < target.value
  else target.value < entry.value && entry.value < stop.value

def OnLosingSide (side : OrderSide) (entry stop : Price) : Prop :=
  match side with
  | .buy => stop.value < entry.value
  | .sell => entry.value < stop.value

variable {entry stop target : Price} {side : OrderSide}

theorem onLosingSide_of_isValidBracket
    (hvalid : isValidBracket side entry stop target = true) : OnLosingSide side entry stop := by
  cases side with
  | buy =>
    simp only [isValidBracket, if_true, Bool.and_eq_true, decide_eq_true_eq] at hvalid
    exact hvalid.1
  | sell =>
    simp only [isValidBracket, reduceCtorEq, if_false, Bool.and_eq_true, decide_eq_true_eq]
      at hvalid
    exact hvalid.2

structure ProtectiveLegs (side : OrderSide) (entry : Price) where
  stop : Price
  target : Price
  valid : isValidBracket side entry stop target = true

def protectiveLegs (side : OrderSide) (entry : Price) :
    Option Price × Option Price → Option (ProtectiveLegs side entry)
  | (some stop, some target) =>
    if hvalid : isValidBracket side entry stop target = true then some ⟨stop, target, hvalid⟩
    else none
  | (some _, none) => none
  | (none, some _) => none
  | (none, none) => none

variable {labels : RequestLabels} {qty : Amount} {sig : Signal}

theorem ProtectiveLegs.bracketValid (legs : ProtectiveLegs side entry) :
    bracketValid side (some entry) (some legs.stop) (some legs.target) = true := by
  cases side <;> exact legs.valid

structure RequestLabels where
  correlationId : Option CorrelationId := none
  tag : Option String := none
  strategyId : Option String := none
  referenceTimestamp : Option String := none

def unprotectedRequest (sig : Signal) (entry : Price) (qty : Amount)
    (labels : RequestLabels) : OrderRequest where
  instrument := sig.instrument.instrument
  side := sig.direction
  orderType := .market
  quantity := qty.value
  price := some entry
  correlationId := labels.correlationId
  tag := labels.tag
  strategyId := labels.strategyId
  referenceTimestamp := labels.referenceTimestamp
  quantity_pos := qty.pos
  bracket_valid := by simp

def bracketRequest (sig : Signal) (entry : Price) (qty : Amount) (labels : RequestLabels)
    (legs : ProtectiveLegs sig.direction entry) : OrderRequest :=
  { unprotectedRequest sig entry qty labels with
    stopLossPrice := some legs.stop
    targetPrice := some legs.target
    isBracket := true
    bracket_valid := fun _ ↦ legs.bracketValid }

def protectiveRequest (sig : Signal) (entry : Price) (qty : Amount)
    (labels : RequestLabels) : OrderRequest :=
  match protectiveLegs sig.direction entry (declaredLevels sig.metadata) with
  | some legs => bracketRequest sig entry qty labels legs
  | none => unprotectedRequest sig entry qty labels

theorem protectiveLegs_eq_some_iff {levels : Option Price × Option Price}
    {legs : ProtectiveLegs side entry} :
    protectiveLegs side entry levels = some legs ↔
      levels.1 = some legs.stop ∧ levels.2 = some legs.target := by
  obtain ⟨declaredStop, declaredTarget⟩ := levels
  cases legs with
  | mk stop target hvalid =>
    cases declaredStop with
    | none => cases declaredTarget <;> simp [protectiveLegs]
    | some level =>
      cases declaredTarget with
      | none => simp [protectiveLegs]
      | some other =>
        simp only [protectiveLegs, Option.some.injEq]
        constructor
        · intro hlegs
          split at hlegs
          · cases hlegs
            exact ⟨rfl, rfl⟩
          · cases hlegs
        · rintro ⟨rfl, rfl⟩
          rw [dif_pos hvalid]

theorem isBracket_protectiveRequest_iff :
    (protectiveRequest sig entry qty labels).isBracket = true ↔
      ∃ stop target, sig.declaredStop = some stop ∧ sig.declaredTarget = some target ∧
        isValidBracket sig.direction entry stop target = true := by
  unfold protectiveRequest
  constructor
  · intro hbrk
    cases hlegs : protectiveLegs sig.direction entry (declaredLevels sig.metadata) with
    | none => simp [hlegs, unprotectedRequest] at hbrk
    | some legs =>
      obtain ⟨hstop, htgt⟩ := protectiveLegs_eq_some_iff.mp hlegs
      exact ⟨legs.stop, legs.target, hstop, htgt, legs.valid⟩
  · rintro ⟨stop, target, hstop, htgt, hvalid⟩
    have hlegs : protectiveLegs sig.direction entry (declaredLevels sig.metadata) =
        some ⟨stop, target, hvalid⟩ :=
      protectiveLegs_eq_some_iff.mpr ⟨hstop, htgt⟩
    simp [hlegs, bracketRequest]

theorem stopLossPrice_protectiveRequest (hstop : sig.declaredStop = some stop)
    (htgt : sig.declaredTarget = some target)
    (hvalid : isValidBracket sig.direction entry stop target = true) :
    (protectiveRequest sig entry qty labels).stopLossPrice = some stop := by
  have hlegs : protectiveLegs sig.direction entry (declaredLevels sig.metadata) =
      some ⟨stop, target, hvalid⟩ :=
    protectiveLegs_eq_some_iff.mpr ⟨hstop, htgt⟩
  simp [protectiveRequest, hlegs, bracketRequest]

end Tradex.Strategy

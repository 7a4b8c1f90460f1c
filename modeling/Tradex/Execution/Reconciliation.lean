import Mathlib.Data.List.Sort
import Tradex.Domain.Types
import Tradex.Foundation.Dict

/-!
# Comparing positions with the broker's

Rows are keyed by instrument before they are compared, and a later row of an instrument replaces an
earlier one.
-/

namespace Tradex.Execution.ReconciliationEngine

open Tradex.Domain List

inductive DriftSeverity where
  | low | medium | high | critical
deriving DecidableEq

structure DriftItem where
  symbol : String := ""
  localQuantity : Decimal := 0
  brokerQuantity : Decimal := 0
  diff : Decimal := 0
  kind : String := "position"
  key : String := ""
  severity : DriftSeverity := .low
  reason : String := ""
  localValue : Option Decimal := none
  remote : Option Decimal := none
deriving DecidableEq

def keyed (positions : List Position) : Dict String Position :=
  positions.foldl (fun rows pos ↦ rows.set pos.instrument.instrumentId pos) .empty

def quantityOf (held : Option Position) : Decimal := held.elim 0 Position.quantity

def quantityDrift (key : String) (held listed : Option Position) : List DriftItem :=
  let diff := quantityOf held - quantityOf listed
  if diff.toRat ≠ 0 then
    [{ symbol := key
       localQuantity := quantityOf held
       brokerQuantity := quantityOf listed
       diff := diff }]
  else []

def priceDrift (key : String) : Option Position → Option Position → List DriftItem
  | some held, some listed =>
    let priceDiff := (held.avgPrice.value - listed.avgPrice.value).abs
    if held.quantity.toRat = listed.quantity.toRat ∧ held.quantity.toRat ≠ 0 ∧
        1 / 100 < priceDiff.toRat then
      [{ key := key
         severity := .medium
         reason := "avg_price drift"
         localValue := some held.avgPrice.value
         remote := some listed.avgPrice.value }]
    else []
  | _, _ => []

def reconcile (positions broker : List Position) : List DriftItem :=
  let localMap := keyed positions
  let brokerMap := keyed broker
  let allKeys := ((localMap.entries.map Prod.fst) ++ brokerMap.entries.map Prod.fst).dedup
  (allKeys.insertionSort (· ≤ ·)).flatMap fun key ↦
    quantityDrift key (localMap.get key) (brokerMap.get key) ++
      priceDrift key (localMap.get key) (brokerMap.get key)

variable (positions : List Position) (iid : String)

def quantities : List ℚ :=
  (positions.filter fun pos ↦ pos.instrument.instrumentId = iid).map
    fun pos ↦ pos.quantity.toRat

/-- What the rows before an instrument's last one sum to. -/
def overwritten : ℚ := (quantities positions iid).dropLast.sum

variable {positions} {iid}

theorem toRat_quantityOf_keyed :
    (quantityOf ((keyed positions).get iid)).toRat = ((quantities positions iid).getLast?).getD 0 := by
  induction positions using reverseRecOn with
  | nil => exact Decimal.toRat_zero
  | append_singleton positions pos ih =>
    rw [keyed, foldl_append, foldl_cons, foldl_nil, ← keyed, Dict.get_set]
    by_cases hsame : pos.instrument.instrumentId = iid
    · simp [quantities, hsame, quantityOf]
    · simpa [quantities, hsame] using ih

theorem sum_quantities :
    (quantities positions iid).sum =
      overwritten positions iid + (quantityOf ((keyed positions).get iid)).toRat := by
  rw [toRat_quantityOf_keyed, overwritten]
  cases hlast : (quantities positions iid).getLast? with
  | none => simp [getLast?_eq_none_iff.1 hlast]
  | some last =>
    nth_rewrite 1 [← dropLast_append_getLast? last hlast]
    simp

theorem quantities_agree_of_clean {broker : List Position}
    (hclean : reconcile positions broker = []) :
    (quantityOf ((keyed positions).get iid)).toRat = (quantityOf ((keyed broker).get iid)).toRat := by
  by_cases hlist :
      iid ∈ (keyed positions).entries.map Prod.fst ++ (keyed broker).entries.map Prod.fst
  · rw [reconcile, flatMap_eq_nil_iff] at hclean
    have hquiet := hclean iid ((mem_insertionSort _).2 (mem_dedup.2 hlist))
    have hdrift := (append_eq_nil_iff.1 hquiet).1
    rw [quantityDrift, ite_eq_right_iff] at hdrift
    rw [← sub_eq_zero, ← Decimal.toRat_sub]
    by_contra hne
    cases hdrift hne
  · rw [mem_append, not_or, ← Dict.lookupEntries_eq_none_iff, ← Dict.lookupEntries_eq_none_iff]
      at hlist
    rw [Dict.get, Dict.get, hlist.1, hlist.2]

/-- A clean reconciliation means equal totals exactly when the overwritten rows agree. -/
theorem clean_totals_agree_iff (positions broker : List Position)
    (hclean : reconcile positions broker = []) :
    (∀ iid, (quantities positions iid).sum = (quantities broker iid).sum) ↔
      ∀ iid, overwritten positions iid = overwritten broker iid := by
  refine forall_congr' fun iid ↦ ?_
  rw [sum_quantities, sum_quantities, quantities_agree_of_clean hclean, add_left_inj]

def infyRow (qty : Decimal) : Position where
  instrument := ⟨"NSE:INFY"⟩
  quantity := qty
  avgPrice := Price.ofNat 100
  realizedPnl := ⟨0, "INR"⟩
  unrealizedPnl := ⟨0, "INR"⟩

theorem several_rows_agree :
    reconcile [infyRow 5, infyRow 3] [infyRow 1, infyRow 4, infyRow ⟨30, -1⟩] = [] ∧
      ∀ iid, (quantities [infyRow 5, infyRow 3] iid).sum =
        (quantities [infyRow 1, infyRow 4, infyRow ⟨30, -1⟩] iid).sum := by
  have hclean : reconcile [infyRow 5, infyRow 3] [infyRow 1, infyRow 4, infyRow ⟨30, -1⟩] = [] := by
    decide +kernel
  refine ⟨hclean, (clean_totals_agree_iff _ _ hclean).2 fun iid ↦ ?_⟩
  by_cases hiid : "NSE:INFY" = iid
  · subst hiid
    decide +kernel
  · simp [overwritten, quantities, infyRow, hiid]

theorem second_product_hidden :
    reconcile [infyRow 5, infyRow 3] [infyRow 3] = [] ∧
      (quantities [infyRow 5, infyRow 3] "NSE:INFY").sum = 8 ∧
      (quantities [infyRow 3] "NSE:INFY").sum = 3 := by
  decide +kernel

end Tradex.Execution.ReconciliationEngine

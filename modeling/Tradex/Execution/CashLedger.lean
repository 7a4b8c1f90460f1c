import Tradex.Domain.PositionMath

/-!
# Cash ledger

Cash and cumulative fees with an optional buying-power floor. `settleFill` runs after
the affordability proof and the booking, and reports the ledger it leaves behind
together with the error it raises.
-/

namespace Tradex.Execution

open Tradex.Domain Decimal

structure CashLedger where
  cash : Decimal
  totalFees : Decimal := 0
  allowNegative : Bool := false
deriving DecidableEq

namespace CashLedger

variable (ledger : CashLedger) (amount : Decimal)

def refusesDebit : Bool :=
  !ledger.allowNegative && decide (ledger.cash - amount < 0)

def refusalMessage (what : String) : String :=
  "insufficient buying power: " ++ what ++ " of " ++ amount.str ++ " would take cash from " ++
    ledger.cash.str ++ " to " ++ (ledger.cash - amount).str

def requireDebit (what : String) : Except TradingError Unit :=
  if ledger.refusesDebit amount then .error (.value (ledger.refusalMessage amount what))
  else .ok ()

def debit (what : String) : Except TradingError CashLedger :=
  if ledger.refusesDebit amount then .error (.value (ledger.refusalMessage amount what))
  else .ok { ledger with cash := ledger.cash - amount }

variable (fill : Fill)

def notional : Decimal := fill.quantity * fill.price.value

def fillDebit (fee : Decimal) : Decimal :=
  (match fill.side with
    | .buy => notional fill
    | .sell => 0) + fee

def moveNotional (what : String) : Except TradingError CashLedger :=
  match fill.side with
  | .buy => ledger.debit (notional fill) what
  | .sell => .ok { ledger with cash := ledger.cash + notional fill }

def onFee (fee : Decimal) : Except TradingError CashLedger :=
  (ledger.debit fee "fee").map fun charged ↦
    { charged with totalFees := charged.totalFees + fee }

def settleFill (fee : Decimal) (what : String) : CashLedger × Except TradingError Unit :=
  match ledger.moveNotional fill what with
  | .error err => (ledger, .error err)
  | .ok moved =>
    match moved.onFee fee with
    | .error err => (moved, .error err)
    | .ok charged => (charged, .ok ())

def fillLabel : String := "fill " ++ fill.orderId

variable {ledger : CashLedger}

theorem refusesDebit_eq_false_iff {amount : Decimal} :
    ledger.refusesDebit amount = false ↔
      (ledger.allowNegative = false → amount.toRat ≤ ledger.cash.toRat) := by
  unfold refusesDebit
  cases ledger.allowNegative <;> simp [lt_iff]

theorem requireDebit_eq_ok_iff (ledger : CashLedger) (amount : Decimal) (what : String) :
    ledger.requireDebit amount what = .ok () ↔ ledger.refusesDebit amount = false := by
  unfold requireDebit
  cases ledger.refusesDebit amount <;> simp

def afterFill (ledger : CashLedger) (fill : Fill) (fee : Decimal) : CashLedger :=
  { ledger with
    cash := (match fill.side with
      | .buy => ledger.cash - notional fill
      | .sell => ledger.cash + notional fill) - fee
    totalFees := ledger.totalFees + fee }

theorem settleFill_of_affordable {fill : Fill} {fee : Decimal} (what : String)
    (hproof : ledger.refusesDebit (fillDebit fill fee) = false) (hfee : 0 ≤ fee.toRat)
    (hqty : 0 ≤ fill.quantity.toRat) :
    ledger.settleFill fill fee what = (ledger.afterFill fill fee, .ok ()) := by
  rw [refusesDebit_eq_false_iff] at hproof
  have hworth : 0 ≤ (notional fill).toRat := by
    rw [notional, toRat_mul]
    exact mul_nonneg hqty fill.price.nonneg
  have hfeeDebit : ∀ moved : CashLedger, moved.allowNegative = ledger.allowNegative →
      (ledger.allowNegative = false → fee.toRat ≤ moved.cash.toRat) →
      moved.onFee fee = .ok { moved with
        cash := moved.cash - fee, totalFees := moved.totalFees + fee } := by
    intro moved hfloor hcash
    have hacc : moved.refusesDebit fee = false := by
      rw [refusesDebit_eq_false_iff, hfloor]
      exact hcash
    simp [onFee, debit, hacc, Except.map]
  unfold settleFill moveNotional afterFill
  cases hside : fill.side with
  | buy =>
    have hproof' : ledger.allowNegative = false →
        (notional fill).toRat + fee.toRat ≤ ledger.cash.toRat := by
      simpa only [fillDebit, hside, toRat_add] using hproof
    have hacc : ledger.refusesDebit (notional fill) = false := by
      rw [refusesDebit_eq_false_iff]
      intro hfloor
      linarith [hproof' hfloor]
    have hmove := hfeeDebit { ledger with cash := ledger.cash - notional fill } rfl (by
      intro hfloor
      simp only [toRat_sub]
      linarith [hproof' hfloor])
    simp [debit, hacc, hmove]
  | sell =>
    have hproof' : ledger.allowNegative = false → fee.toRat ≤ ledger.cash.toRat := by
      simpa only [fillDebit, hside, toRat_add, toRat_zero, zero_add] using hproof
    have hmove := hfeeDebit { ledger with cash := ledger.cash + notional fill } rfl (by
      intro hfloor
      simp only [toRat_add]
      linarith [hproof' hfloor])
    simp [hmove]

end CashLedger

end Tradex.Execution

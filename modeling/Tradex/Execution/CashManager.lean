import Tradex.Execution.CashLedger

/-!
# Cash manager

The owner of the cash ledger. It makes a ledger without fees if there is none to
restore.
-/

namespace Tradex.Execution

open Tradex.Domain

structure CashManager where
  ledger : Option CashLedger := none
  allowNegative : Bool := false
  anchorAppended : Bool := false

namespace CashManager

variable (mgr : CashManager) (cash totalFees : Decimal)

def restoredLedger : CashLedger :=
  match mgr.ledger with
  | none => { cash := cash, allowNegative := mgr.allowNegative }
  | some ledger => { ledger with cash := cash, totalFees := totalFees }

/-- `appended` is what the write of a fresh anchor answers. -/
def restore (reAnchor appended : Bool) :
    CashManager where
  ledger := some (mgr.restoredLedger cash totalFees)
  allowNegative := mgr.allowNegative
  anchorAppended := if reAnchor && !mgr.anchorAppended then appended else true

def snapshot : Decimal × Decimal :=
  mgr.ledger.elim (0, 0) fun ledger ↦ (ledger.cash, ledger.totalFees)

inductive Booking where
  | applyFill (fill : Fill) (fee : Decimal)
  | onFee (fee : Decimal)

/-- What a booking leaves behind, also when it raises. -/
def Booking.apply (ledger : CashLedger) : Booking → CashLedger
  | .applyFill fill fee =>
    match ledger.requireDebit (CashLedger.fillDebit fill fee) (CashLedger.fillLabel fill) with
    | .ok _ => (ledger.settleFill fill fee (CashLedger.fillLabel fill)).1
    | .error _ => ledger
  | .onFee fee => (ledger.onFee fee).toOption.getD ledger

def book (bookings : List Booking) : CashManager :=
  { mgr with ledger := mgr.ledger.map (bookings.foldl Booking.apply) }

/-- The manager whose ledger went through the history that the pair was recovered from. -/
def livedThrough : CashManager :=
  { mgr with ledger := some ⟨cash, totalFees,
      mgr.ledger.elim mgr.allowNegative CashLedger.allowNegative⟩ }

def figures : ℚ × ℚ :=
  (mgr.snapshot.1.toRat, mgr.snapshot.2.toRat)

structure Alike (left right : CashLedger) : Prop where
  cash : left.cash = right.cash
  floor : left.allowNegative = right.allowNegative
  fees : left.totalFees.toRat = right.totalFees.toRat

variable {left right : CashLedger}

theorem Alike.refusesDebit (halike : Alike left right) (amount : Decimal) :
    left.refusesDebit amount = right.refusesDebit amount := by
  rw [CashLedger.refusesDebit, CashLedger.refusesDebit, halike.cash, halike.floor]

theorem Alike.onFee (halike : Alike left right) (fee : Decimal) :
    Alike ((left.onFee fee).toOption.getD left) ((right.onFee fee).toOption.getD right) := by
  unfold CashLedger.onFee CashLedger.debit
  rw [halike.refusesDebit]
  cases right.refusesDebit fee with
  | true => exact halike
  | false =>
    refine ⟨?_, halike.floor, ?_⟩
    · show left.cash - fee = right.cash - fee
      rw [halike.cash]
    · show (left.totalFees + fee).toRat = (right.totalFees + fee).toRat
      rw [Decimal.toRat_add, Decimal.toRat_add, halike.fees]

theorem Alike.moveNotional (halike : Alike left right) (fill : Fill) (what : String) :
    (∃ err, left.moveNotional fill what = .error err ∧
        ∃ other, right.moveNotional fill what = .error other) ∨
      ∃ next other, left.moveNotional fill what = .ok next ∧
        right.moveNotional fill what = .ok other ∧ Alike next other := by
  unfold CashLedger.moveNotional CashLedger.debit
  rw [halike.refusesDebit, halike.cash]
  cases fill.side with
  | sell => exact .inr ⟨_, _, rfl, rfl, rfl, halike.floor, halike.fees⟩
  | buy =>
    cases right.refusesDebit (CashLedger.notional fill) with
    | true => exact .inl ⟨_, rfl, _, rfl⟩
    | false => exact .inr ⟨_, _, rfl, rfl, rfl, halike.floor, halike.fees⟩

theorem settleFill_fst (ledger : CashLedger) (fill : Fill) (fee : Decimal) (what : String) :
    (ledger.settleFill fill fee what).1 =
      match ledger.moveNotional fill what with
      | .error _ => ledger
      | .ok moved => (moved.onFee fee).toOption.getD moved := by
  unfold CashLedger.settleFill
  cases ledger.moveNotional fill what with
  | error err => rfl
  | ok moved => cases hchg : moved.onFee fee <;> simp [hchg, Except.toOption]

theorem Alike.apply (halike : Alike left right) (booking : Booking) :
    Alike (booking.apply left) (booking.apply right) := by
  cases booking with
  | onFee fee => exact halike.onFee fee
  | applyFill fill fee =>
    simp only [Booking.apply, CashLedger.requireDebit, halike.refusesDebit, settleFill_fst]
    cases right.refusesDebit (CashLedger.fillDebit fill fee) with
    | true => exact halike
    | false =>
      rcases halike.moveNotional fill (CashLedger.fillLabel fill) with
        ⟨err, hleft, other, hright⟩ | ⟨next, other, hleft, hright, hmove⟩
      · rw [hleft, hright]
        exact halike
      · rw [hleft, hright]
        exact hmove.onFee fee

theorem Alike.bookings (halike : Alike left right) (bookings : List Booking) :
    Alike (bookings.foldl Booking.apply left) (bookings.foldl Booking.apply right) := by
  induction bookings generalizing left right with
  | nil => exact halike
  | cons booking rest ih => exact ih (halike.apply booking)

/-- A restore reports the pair, and goes on as if it had lived through the history, exactly if
there was a ledger to restore or no fee to lose. -/
theorem restore_keeps_fees_iff (mgr : CashManager) (cash totalFees : Decimal)
    (reAnchor appended : Bool) :
    ((mgr.restore cash totalFees reAnchor appended).figures = (cash.toRat, totalFees.toRat) ∧
      ∀ bookings, ((mgr.restore cash totalFees reAnchor appended).book bookings).figures =
        ((mgr.livedThrough cash totalFees).book bookings).figures) ↔
      mgr.ledger.isSome ∨ totalFees.toRat = 0 := by
  constructor
  · rintro ⟨hpair, -⟩
    cases hledger : mgr.ledger with
    | some ledger => exact .inl rfl
    | none =>
      have hfees := congrArg Prod.snd hpair
      simp only [figures, snapshot, restore, restoredLedger, hledger, Option.elim_some,
        Decimal.toRat_zero] at hfees
      exact .inr hfees.symm
  · intro hkept
    have halike : Alike (mgr.restoredLedger cash totalFees) ⟨cash, totalFees,
        mgr.ledger.elim mgr.allowNegative CashLedger.allowNegative⟩ := by
      rw [restoredLedger]
      cases hledger : mgr.ledger with
      | some ledger => exact ⟨rfl, rfl, rfl⟩
      | none =>
        rw [hledger] at hkept
        exact ⟨rfl, rfl, Decimal.toRat_zero.trans (hkept.resolve_left (by simp)).symm⟩
    constructor
    · simp [figures, snapshot, restore, halike.cash, halike.fees]
    · intro bookings
      have hbook := halike.bookings bookings
      simp [figures, snapshot, book, livedThrough, restore, hbook.cash, hbook.fees]

/-- A fresh manager that is given back a balance of 9990 after ten of fees reports no fees. -/
theorem restore_drops_fees : (CashManager.restore {} 9990 10 false false).figures = (9990, 0) := by
  decide +kernel

end CashManager

end Tradex.Execution

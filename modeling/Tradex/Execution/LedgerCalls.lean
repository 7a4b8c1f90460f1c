import Tradex.Execution.CashLedger
import Tradex.Foundation.CriticalSections
import Tradex.Foundation.DecimalContext
import Tradex.Foundation.Outcome

/-!
# Concurrent fills on one ledger

`apply_fill` proves its debit, runs the book hook and moves notional and fee under the
ledger's lock, each result rounded to the 28 digits of the decimal context. The floor holds
however they round; where every figure has at most 28 digits the call does what the exact
ledger does, and so it raises before it moves anything or not at all.
-/

namespace Tradex.Execution.CashLedger

open Tradex.Domain Decimal CriticalSections

structure FillCall where
  fill : Fill
  fee : Decimal
  what : String
  book : Except TradingError Unit
  quantity_pos : 0 < fill.quantity.toRat
  fee_nonneg : 0 ≤ fee.toRat

section

variable (ledger : CashLedger) (amount : Decimal)

def left : Decimal := (ledger.cash - amount).inContext

def debitInContext (what : String) : Except TradingError CashLedger :=
  if !ledger.allowNegative && ledger.left amount < 0 then
    .error (.value ("insufficient buying power: " ++ what ++ " of " ++ amount.str ++
      " would take cash from " ++ ledger.cash.str ++ " to " ++ (ledger.left amount).str))
  else .ok { ledger with cash := ledger.left amount }

end

variable (call : FillCall)

def FillCall.worth : Decimal := (notional call.fill).inContext

def FillCall.due : Decimal :=
  ((match call.fill.side with
    | .buy => call.worth
    | .sell => 0) + call.fee).inContext

def FillCall.steps : List (CashLedger → Except TradingError CashLedger) :=
  [fun ledger ↦ (ledger.debitInContext call.due call.what).map fun _ ↦ ledger,
    fun ledger ↦ call.book.map fun _ ↦ ledger,
    fun ledger ↦
      match call.fill.side with
      | .buy => ledger.debitInContext call.worth call.what
      | .sell => .ok { ledger with cash := (ledger.cash + call.worth).inContext },
    fun ledger ↦ (ledger.debitInContext call.fee "fee").map fun charged ↦
      { charged with totalFees := (charged.totalFees + call.fee).inContext }]

/-- The same steps in unbounded precision. -/
def FillCall.exactSteps : List (CashLedger → Except TradingError CashLedger) :=
  [fun ledger ↦ (ledger.requireDebit (fillDebit call.fill call.fee) call.what).map fun _ ↦ ledger,
    fun ledger ↦ call.book.map fun _ ↦ ledger,
    fun ledger ↦ ledger.moveNotional call.fill call.what,
    fun ledger ↦ ledger.onFee call.fee]

/-- Every figure of the call on this ledger has at most 28 digits. -/
structure FillCall.Fits (ledger : CashLedger) : Prop where
  worth : |(notional call.fill).coeff| < 10 ^ 28
  due : |(fillDebit call.fill call.fee).coeff| < 10 ^ 28
  proof : |(ledger.cash - fillDebit call.fill call.fee).coeff| < 10 ^ 28
  moved : |(match call.fill.side with
    | .buy => ledger.cash - notional call.fill
    | .sell => ledger.cash + notional call.fill).coeff| < 10 ^ 28
  cash : |(ledger.afterFill call.fill call.fee).cash.coeff| < 10 ^ 28
  fees : |(ledger.totalFees + call.fee).coeff| < 10 ^ 28

def FillCall.cashMove : ℚ :=
  (match call.fill.side with
    | .buy => -(notional call.fill).toRat
    | .sell => (notional call.fill).toRat) - call.fee.toRat

def returnedCalls (finished : List (Finished FillCall CashLedger TradingError)) : List FillCall :=
  (finished.filter fun out ↦ out.error.isNone).map Finished.call

variable {ledger : CashLedger}

theorem toRat_cash_afterFill :
    (ledger.afterFill call.fill call.fee).cash.toRat = ledger.cash.toRat + call.cashMove := by
  unfold afterFill FillCall.cashMove
  cases call.fill.side with
  | buy =>
    simp only [toRat_sub]
    ring
  | sell =>
    simp only [toRat_sub, toRat_add]
    ring

/-- A call returns with its whole effect, which it could afford, or raises with none. -/
theorem perform_exactSteps {call : FillCall} {ledger : CashLedger} :
    (perform call.exactSteps ledger = (ledger.afterFill call.fill call.fee, none) ∧
        ledger.refusesDebit (fillDebit call.fill call.fee) = false) ∨
      ∃ err, perform call.exactSteps ledger = (ledger, some err) := by
  cases hproof : ledger.refusesDebit (fillDebit call.fill call.fee) with
  | true => exact .inr ⟨_, by simp [FillCall.exactSteps, perform, requireDebit, hproof]; rfl⟩
  | false =>
    cases hbook : call.book with
    | error err =>
      exact .inr ⟨err, by
        simp [FillCall.exactSteps, perform, requireDebit, hproof, hbook, Except.map]⟩
    | ok _ =>
      have hsettle := settleFill_of_affordable call.what hproof call.fee_nonneg call.quantity_pos.le
      rw [settleFill] at hsettle
      simp only [FillCall.exactSteps, perform, requireDebit, hproof, hbook, Except.map]
      split at hsettle
      · cases congrArg Prod.snd hsettle
      next moved hmove =>
        split at hsettle
        · cases congrArg Prod.snd hsettle
        next charged hchg => simp [hmove, hchg, (Prod.mk.inj hsettle).1]

theorem debitInContext_of_fits {amount : Decimal} {what : String}
    (hfits : |(ledger.cash - amount).coeff| < 10 ^ 28) :
    ledger.debitInContext amount what = ledger.debit amount what := by
  have hleft : ledger.left amount = ledger.cash - amount := if_pos hfits
  rw [debitInContext, hleft]
  rfl

theorem moveNotional_ok {fill : Fill} {fee : Decimal} {what : String} {moved : CashLedger}
    (hok : ledger.moveNotional fill what = .ok moved) :
    (ledger.afterFill fill fee).cash = moved.cash - fee ∧ moved.totalFees = ledger.totalFees := by
  unfold moveNotional at hok
  unfold afterFill
  cases hside : fill.side with
  | buy =>
    rw [hside, debit] at hok
    dsimp only at hok
    split at hok <;> cases hok
    exact ⟨rfl, rfl⟩
  | sell =>
    rw [hside] at hok
    cases hok
    exact ⟨rfl, rfl⟩

/-- Where every figure fits, the call is the exact one. -/
theorem perform_steps_of_fits {call : FillCall} (hfits : call.Fits ledger) :
    perform call.steps ledger = perform call.exactSteps ledger := by
  have hworth : call.worth = notional call.fill := if_pos hfits.worth
  have hdue : call.due = fillDebit call.fill call.fee := by
    rw [FillCall.due, hworth]
    exact if_pos hfits.due
  have hproof : (ledger.debitInContext call.due call.what).map (fun _ ↦ ledger) =
      (ledger.requireDebit (fillDebit call.fill call.fee) call.what).map fun _ ↦ ledger := by
    rw [hdue, debitInContext_of_fits hfits.proof, debit, requireDebit]
    split <;> rfl
  have hmove : (match call.fill.side with
      | .buy => ledger.debitInContext call.worth call.what
      | .sell => .ok { ledger with cash := (ledger.cash + call.worth).inContext }) =
      ledger.moveNotional call.fill call.what := by
    have hmoved := hfits.moved
    rw [hworth, moveNotional]
    cases hside : call.fill.side with
    | buy =>
      rw [hside] at hmoved
      exact debitInContext_of_fits hmoved
    | sell =>
      rw [hside] at hmoved
      rw [inContext, if_pos hmoved]
  have hfee : ∀ moved, ledger.moveNotional call.fill call.what = .ok moved →
      (moved.debitInContext call.fee "fee").map (fun charged ↦
        { charged with totalFees := (charged.totalFees + call.fee).inContext }) =
      moved.onFee call.fee := by
    intro moved hok
    obtain ⟨hcash, hfees⟩ := moveNotional_ok hok
    rw [debitInContext_of_fits (hcash ▸ hfits.cash), onFee, debit]
    split
    · rfl
    · simp only [Except.map, hfees, inContext, if_pos hfits.fees]
  simp only [FillCall.steps, FillCall.exactSteps, perform, hproof]
  cases ledger.requireDebit (fillDebit call.fill call.fee) call.what with
  | error err => rfl
  | ok _ =>
    cases call.book with
    | error err => rfl
    | ok _ =>
      simp only [Except.map, hmove]
      cases hok : ledger.moveNotional call.fill call.what with
      | error err => rfl
      | ok moved => simp only [← hfee moved hok, Except.map]

def AboveFloor (ledger : CashLedger) : Prop :=
  ledger.allowNegative = false ∧ 0 ≤ ledger.cash.toRat

/-- The floor holds in every precision: the balance that is stored is the one that was tested. -/
theorem aboveFloor_perform (call : FillCall) (hledger : AboveFloor ledger) :
    AboveFloor (perform call.steps ledger).1 := by
  have hdebit : ∀ {amount what} {before after : CashLedger}, AboveFloor before →
      before.debitInContext amount what = .ok after → AboveFloor after := by
    intro amount what before after hpre hok
    unfold debitInContext at hok
    split at hok
    · cases hok
    next hcov =>
      cases hok
      exact ⟨hpre.1, by simpa [hpre.1, lt_iff] using hcov⟩
  have hworth : 0 ≤ call.worth.toRat := inContext_nonneg (by
    rw [notional, toRat_mul]
    exact mul_nonneg call.quantity_pos.le call.fill.price.nonneg)
  refine perform_keeps ?_ hledger
  intro step hmem before after hpre hok
  simp only [FillCall.steps, List.mem_cons, List.not_mem_nil, or_false] at hmem
  rcases hmem with rfl | rfl | rfl | rfl
  · obtain ⟨_, -, rfl⟩ := except_map_eq_ok hok
    exact hpre
  · obtain ⟨_, -, rfl⟩ := except_map_eq_ok hok
    exact hpre
  · cases hside : call.fill.side with
    | buy =>
      rw [hside] at hok
      exact hdebit hpre hok
    | sell =>
      rw [hside] at hok
      cases hok
      exact ⟨hpre.1, inContext_nonneg (by rw [toRat_add]; exact add_nonneg hpre.2 hworth)⟩
  · obtain ⟨charged, hcharged, rfl⟩ := except_map_eq_ok hok
    have hfloor := hdebit hpre hcharged
    exact ⟨hfloor.1, hfloor.2⟩

/-- The affordability proof or the book hook raises. -/
def FillCall.Refused (call : FillCall) (ledger : CashLedger) : Prop :=
  (ledger.debitInContext call.due call.what).isOk = false ∨ call.book.isOk = false

theorem perform_of_refused {call : FillCall} (href : call.Refused ledger) :
    ∃ err, perform call.steps ledger = (ledger, some err) := by
  simp only [FillCall.steps, perform]
  rcases href with hproof | hbook
  · cases hdebit : ledger.debitInContext call.due call.what with
    | error err => exact ⟨err, rfl⟩
    | ok after =>
      rw [hdebit] at hproof
      cases hproof
  · cases hdebit : ledger.debitInContext call.due call.what with
    | error err => exact ⟨err, rfl⟩
    | ok after =>
      cases hraise : call.book with
      | error err => exact ⟨err, rfl⟩
      | ok _ =>
        rw [hraise] at hbook
        cases hbook

structure Floored (finished : List (Finished FillCall CashLedger TradingError))
    (ledger : CashLedger) : Prop where
  floor : AboveFloor ledger
  refused : ∀ outcome ∈ finished, outcome.call.Refused outcome.before →
    outcome.error.isSome ∧ outcome.after = outcome.before

structure Settles (opening : Decimal) (finished : List (Finished FillCall CashLedger TradingError))
    (ledger : CashLedger) : Prop where
  cash : ledger.cash.toRat = opening.toRat + ((returnedCalls finished).map FillCall.cashMove).sum
  fees : ledger.totalFees.toRat = ((returnedCalls finished).map fun call ↦ call.fee.toRat).sum
  raised : ∀ outcome ∈ finished, outcome.error.isSome → outcome.after = outcome.before

variable {opening : Decimal} {finished : List (Finished FillCall CashLedger TradingError)}

theorem floored_of_serial (hopening : 0 ≤ opening.toRat)
    (hserial : Serial FillCall.steps { cash := opening } finished ledger) :
    Floored finished ledger := by
  induction finished generalizing ledger with
  | nil =>
    cases hserial
    exact ⟨⟨rfl, hopening⟩, by simp⟩
  | cons last prior ih =>
    obtain ⟨rfl, hrun, hpre⟩ := hserial
    obtain ⟨hfloor, href⟩ := ih hpre
    refine ⟨?_, List.forall_mem_cons.2 ⟨fun hraise ↦ ?_, href⟩⟩
    · have hkept := aboveFloor_perform last.call hfloor
      rwa [hrun] at hkept
    · obtain ⟨err, herr⟩ := perform_of_refused hraise
      obtain ⟨hafter, herror⟩ := Prod.mk.inj (hrun.symm.trans herr)
      exact ⟨by rw [herror]; rfl, hafter⟩

theorem settles_of_serial (hserial : Serial FillCall.steps { cash := opening } finished ledger)
    (hfits : ∀ outcome ∈ finished, outcome.call.Fits outcome.before) :
    Settles opening finished ledger := by
  induction finished generalizing ledger with
  | nil =>
    cases hserial
    exact ⟨by simp [returnedCalls], by simp [returnedCalls], by simp⟩
  | cons last prior ih =>
    obtain ⟨rfl, hrun, hpre⟩ := hserial
    obtain ⟨hlast, hprior⟩ := List.forall_mem_cons.1 hfits
    obtain ⟨hcash, hfees, hraise⟩ := ih hpre hprior
    rw [perform_steps_of_fits hlast] at hrun
    rcases perform_exactSteps with ⟨hreturns, hproof⟩ | ⟨err, hrse⟩
    · obtain ⟨hafter, herr⟩ := Prod.mk.inj (hrun.symm.trans hreturns)
      have hret : returnedCalls (last :: prior) = last.call :: returnedCalls prior := by
        simp [returnedCalls, herr]
      rw [hafter]
      refine ⟨?_, ?_, ?_⟩
      · rw [toRat_cash_afterFill, hcash, hret, List.map_cons, List.sum_cons, add_assoc,
          add_comm last.call.cashMove]
      · rw [hret, List.map_cons, List.sum_cons, ← hfees, add_comm]
        exact toRat_add
      · simpa [herr] using hraise
    · obtain ⟨hafter, herr⟩ := Prod.mk.inj (hrun.symm.trans hrse)
      have hret : returnedCalls (last :: prior) = returnedCalls prior := by
        simp [returnedCalls, herr]
      rw [hafter]
      exact ⟨hret ▸ hcash, hret ▸ hfees, by simpa [hafter] using hraise⟩

/-- The floor holds in every schedule, and where all figures have at most 28 digits the balance and
the fees are those of the calls that returned. -/
theorem ledger_exact_and_floored {Thread : Type} [DecidableEq Thread] (opening : Decimal)
    (hopening : 0 ≤ opening.toRat) (turns : List (Turn Thread FillCall)) :
    let final := turns.foldl (Shared.turn FillCall.steps) { state := { cash := opening } }
    0 ≤ final.released.cash.toRat ∧
      (∀ out ∈ final.finished, out.call.Refused out.before →
        out.error.isSome ∧ out.after = out.before) ∧
      ((∀ out ∈ final.finished, out.call.Fits out.before) →
        final.released.cash.toRat =
          opening.toRat + ((returnedCalls final.finished).map FillCall.cashMove).sum ∧
        final.released.totalFees.toRat =
          ((returnedCalls final.finished).map fun call ↦ call.fee.toRat).sum ∧
        ∀ out ∈ final.finished, out.error.isSome → out.after = out.before) := by
  obtain ⟨hfloor, href⟩ := floored_of_serial hopening (serialized_turns turns).serial
  refine ⟨hfloor.2, href, fun hfits ↦ ?_⟩
  have hsettles := settles_of_serial (serialized_turns turns).serial hfits
  exact ⟨hsettles.cash, hsettles.fees, hsettles.raised⟩

def purchaseCall (fee : Decimal) (hfee : 0 ≤ fee.toRat) : FillCall where
  fill :=
    { orderId := "ord-1", instrument := ⟨"NSE:INFY"⟩, side := .buy, quantity := 10
      price := .ofNat 100 }
  fee := fee
  what := "fill ord-1"
  book := .ok ()
  quantity_pos := by decide +kernel
  fee_nonneg := hfee

/-- Two threads buy with money for one: the second waits for the lock and is refused. -/
def contested (call : FillCall) : List (Turn ℕ FillCall) :=
  [.enter 0 call, .proceed 1] ++ List.replicate 5 (.proceed 0) ++ [.enter 1 call, .proceed 1]

def afterContest (call : FillCall) : Shared ℕ FillCall CashLedger TradingError :=
  (contested call).foldl (Shared.turn FillCall.steps) { state := { cash := 1500 } }

theorem second_purchase_refused :
    (afterContest (purchaseCall 7 (by decide +kernel))).finished.map (fun out ↦ out.error.isSome) =
        [true, false] ∧
      (afterContest (purchaseCall 7 (by decide +kernel))).released.cash.toRat = 493 := by
  refine ⟨by decide +kernel, ((ledger_exact_and_floored 1500 (by decide +kernel)
    (contested (purchaseCall 7 (by decide +kernel)))).2.2 ?_).1.trans (by decide +kernel)⟩
  exact fun out hmem ↦ ⟨by decide +kernel +revert, by decide +kernel +revert,
    by decide +kernel +revert, by decide +kernel +revert, by decide +kernel +revert,
    by decide +kernel +revert⟩

theorem third_of_a_rupee_rounded :
    let third := purchaseCall ⟨3333333333333333333333333333, -28⟩ (by decide +kernel)
    (returnedCalls (afterContest third).finished).map FillCall.cashMove =
        [-1000 - 3333333333333333333333333333 / 10 ^ 28] ∧
      (afterContest third).released.cash.toRat ≠
        1500 + ((returnedCalls (afterContest third).finished).map FillCall.cashMove).sum := by
  decide +kernel

end Tradex.Execution.CashLedger

import Tradex.Execution.Recovery

/-!
# Fills that are delivered again

The recovery of orders and positions remembers every identity since the beginning of the log.
-/

namespace Tradex.Execution.Recovery

open Tradex.Domain List

variable {fillId : String} {fill : Fill} {ev : DomainEvent}

namespace TakenFills

def observe (totals : Dict String Decimal) (taken : TakenFills) (ev : DomainEvent) :
    TakenFills :=
  match ev with
  | .orderFilled fill _ => if taken.isDuplicate totals fill then taken else taken.add fill
  | _ => taken

variable {taken : TakenFills} {totals : Dict String Decimal}

theorem isDuplicate_of_seen (hid : fill.fillId = some fillId)
    (hseen : fillIdentity fill ∈ taken.seen) : taken.isDuplicate totals fill = true := by
  rw [isDuplicate, if_pos hseen, hid]
  rfl

theorem mem_seen_observe {key : String} :
    key ∈ (taken.observe totals ev).seen ↔ key ∈ taken.seen ∨ key ∈ identities [ev] := by
  cases ev with
  | orderFilled fill charge =>
    have hidentities : identities [.orderFilled fill charge] = [fillIdentity fill] := rfl
    rw [hidentities, mem_singleton]
    unfold observe
    dsimp only
    split
    next hdup =>
      refine ⟨.inl, ?_⟩
      rintro (hseen | rfl)
      · exact hseen
      · by_contra hnew
        rw [isDuplicate_of_unseen _ hnew] at hdup
        cases hdup
    next => rw [add, mem_append, mem_singleton]
  | _ => exact (or_iff_left not_mem_nil).symm

theorem mem_seen_foldl_observe (totals : Dict String Decimal) (events : List DomainEvent)
    (taken : TakenFills) (key : String) :
    key ∈ (events.foldl (observe totals) taken).seen ↔
      key ∈ taken.seen ∨ key ∈ identities events := by
  induction events generalizing taken with
  | nil => exact (or_iff_left not_mem_nil).symm
  | cons ev rest ih =>
    rw [foldl_cons, ih, mem_seen_observe, or_assoc, ← mem_append, ← identities_append,
      singleton_append]

end TakenFills

variable {st : CashLedger × TakenFills}

section Folds

variable {totals : Dict String Decimal}

theorem taken_replayEvent (replay : Replay) (ev : DomainEvent) (next : Replay)
    (hnext : replayEvent totals replay ev = .ok next) :
    next.taken = replay.taken.observe totals ev := by
  cases ev with
  | orderFilled fill charge =>
    unfold replayEvent at hnext
    simp only  at hnext
    unfold TakenFills.observe
    dsimp only
    split
    next hdup =>
      rw [if_pos hdup] at hnext
      cases hnext
      rfl
    next hnew =>
      rw [if_neg hnew] at hnext
      obtain ⟨cache, -, rfl⟩ := except_map_eq_ok hnext
      rfl
  | _ =>
    cases hnext
    rfl

theorem taken_cashEvent (st : CashLedger × TakenFills) (ev : DomainEvent)
    (next : CashLedger × TakenFills) (hnext : cashEvent totals st ev = .ok next) :
    next.2 = st.2.observe totals ev := by
  cases ev with
  | orderFilled fill charge =>
    unfold cashEvent at hnext
    dsimp only at hnext
    unfold TakenFills.observe
    dsimp only
    split
    next hdup =>
      rw [if_pos hdup] at hnext
      cases hnext
      rfl
    next hnew =>
      rw [if_neg hnew] at hnext
      obtain ⟨ledger, -, rfl⟩ := except_map_eq_ok hnext
      rfl
  | _ =>
    cases hnext
    rfl

variable {charge : Option Decimal}

theorem replayEvent_of_seen {replay : Replay}
    (hid : fill.fillId = some fillId) (hseen : fillIdentity fill ∈ replay.taken.seen) :
    replayEvent totals replay (.orderFilled fill charge) = .ok replay := by
  unfold replayEvent
  simp only [DomainEvent.carriedOrder]
  rw [TakenFills.isDuplicate_of_seen hid hseen, if_pos rfl]

theorem cashEvent_of_seen
    (hid : fill.fillId = some fillId) (hseen : fillIdentity fill ∈ st.2.seen) :
    cashEvent totals st (.orderFilled fill charge) = .ok st := by
  unfold cashEvent
  dsimp only
  rw [TakenFills.isDuplicate_of_seen hid hseen, if_pos rfl]

end Folds

variable {prior later : List DomainEvent} {fill : Fill} {charge : Option Decimal}

theorem orderTotals_skip (hcarry : ev.carriedOrder = none) :
    orderTotals (prior ++ ev :: later) = orderTotals (prior ++ later) := by
  unfold orderTotals
  rw [foldl_append, foldl_append, foldl_cons, hcarry]

variable {events : List DomainEvent}

theorem mem_identities
    (hev : .orderFilled fill charge ∈ events) : fillIdentity fill ∈ identities events :=
  mem_map_of_mem (mem_filterMap.mpr ⟨_, hev, rfl⟩)

variable {later : List DomainEvent}

theorem recoverTradingCache_skip {prior : List DomainEvent}
    (hid : fill.fillId = some fillId) (hev : .orderFilled fill charge ∈ prior) :
    recoverTradingCache (prior ++ .orderFilled fill charge :: later) =
      recoverTradingCache (prior ++ later) := by
  unfold recoverTradingCache
  rw [orderTotals_skip rfl]
  apply foldlM_skip
  intro replay hrep
  apply replayEvent_of_seen hid
  rw [foldlM_view taken_replayEvent hrep, TakenFills.mem_seen_foldl_observe]
  exact .inr (mem_identities hev)

theorem latestAnchor_append :
    latestAnchor (prior ++ later) =
      match latestAnchor later with
      | some found => some found
      | none => (latestAnchor prior).map fun found ↦ (found.1, found.2 ++ later) := by
  induction prior with
  | nil => cases hlate : latestAnchor later <;> simp [latestAnchor, hlate]
  | cons ev rest ih =>
    cases hlate : latestAnchor later with
    | some found =>
      rw [hlate] at ih
      simp [latestAnchor, ih]
    | none =>
      rw [hlate] at ih
      cases hrest : latestAnchor rest with
      | some found => simp [latestAnchor, ih, hrest]
      | none => cases ev <;> simp [latestAnchor, ih, hrest]

theorem latestAnchor_fill :
    latestAnchor (.orderFilled fill charge :: later) = latestAnchor later := by
  cases hlate : latestAnchor later <;> simp only [latestAnchor, hlate]

theorem foldCash_since {since : List DomainEvent} {opening : Decimal}
    (hanc : latestAnchor events = some (opening, since)) :
    foldCash events =
      (since.foldlM (cashEvent (orderTotals events))
        ({ cash := opening, allowNegative := true }, TakenFills.empty)).map fun fin ↦
          { cash := fin.1.cash, totalFees := fin.1.totalFees, openingCash := opening } := by
  unfold foldCash
  rw [hanc]
  rfl

def Remembered (prior : List DomainEvent) (fill : Fill) : Prop :=
  ∀ opening since, latestAnchor prior = some (opening, since) →
    fillIdentity fill ∈ identities since

def Unchanged (prior : List DomainEvent) (ev : DomainEvent) (later : List DomainEvent) :
    Prop :=
  recoverTradingCache (prior ++ ev :: later) = recoverTradingCache (prior ++ later) ∧
    foldCash (prior ++ ev :: later) = foldCash (prior ++ later)

section Redelivery

variable {fillId : String}

theorem foldCash_of_later_anchor (hlate : (latestAnchor later).isSome = true) :
    foldCash (prior ++ .orderFilled fill charge :: later) = foldCash (prior ++ later) := by
  obtain ⟨⟨opening, since⟩, hanc⟩ := Option.isSome_iff_exists.mp hlate
  have hwith : latestAnchor (prior ++ .orderFilled fill charge :: later) =
      some (opening, since) := by
    rw [latestAnchor_append, latestAnchor_fill, hanc]
  have hsans : latestAnchor (prior ++ later) = some (opening, since) := by
    rw [latestAnchor_append, hanc]
  rw [foldCash_since hwith, foldCash_since hsans, orderTotals_skip rfl]

theorem foldCash_of_remembered (hid : fill.fillId = some fillId) (hlate : latestAnchor later = none)
    (hremem : Remembered prior fill) :
    foldCash (prior ++ .orderFilled fill charge :: later) = foldCash (prior ++ later) := by
  have hwith : latestAnchor (prior ++ .orderFilled fill charge :: later) =
      (latestAnchor prior).map fun found ↦
        (found.1, found.2 ++ .orderFilled fill charge :: later) := by
    rw [latestAnchor_append, latestAnchor_fill, hlate]
  have hsans : latestAnchor (prior ++ later) =
      (latestAnchor prior).map fun found ↦ (found.1, found.2 ++ later) := by
    rw [latestAnchor_append, hlate]
  cases hanc : latestAnchor prior with
  | none =>
    rw [hanc] at hwith hsans
    unfold foldCash
    rw [hwith, hsans]
    rfl
  | some found =>
    obtain ⟨opening, since⟩ := found
    rw [hanc] at hwith hsans
    rw [foldCash_since hwith, foldCash_since hsans, orderTotals_skip rfl, foldlM_skip]
    intro st hst
    apply cashEvent_of_seen hid
    rw [foldlM_view taken_cashEvent hst, TakenFills.mem_seen_foldl_observe]
    exact .inr (hremem opening since hanc)

theorem cashEvent_of_new {totals : Dict String Decimal}
    (hfloor : st.1.allowNegative = true) (hunseen : fillIdentity fill ∉ st.2.seen)
    {charge : Option Decimal} :
    ∃ next, cashEvent totals st (.orderFilled fill charge) = .ok next ∧
      fillIdentity fill ∈ next.2.seen ∧
      next.1.totalFees.toRat = st.1.totalFees.toRat + (charge.getD 0).toRat := by
  obtain ⟨ledger, hled, -, hfees⟩ := cashFill_returns hfloor
  have hnew : ∀ reported, (DomainEvent.orderFilled fill charge).reportedFill = some reported →
      fillIdentity reported ∉ st.2.seen := by
    intro reported hrep
    cases hrep
    exact hunseen
  obtain ⟨taken, htaken, hseen⟩ := cashEvent_of_unseen hnew hled
  refine ⟨(ledger, taken), htaken, ?_, hfees⟩
  rw [hseen]
  exact mem_append_right _ (mem_identities mem_cons_self)

theorem foldCash_ne_of_not_remembered (hid : fill.fillId = some fillId)
    (hlost : ¬Remembered prior fill) :
    ∃ later, latestAnchor later = none ∧
      foldCash (prior ++ .orderFilled fill charge :: later) ≠ foldCash (prior ++ later) := by
  unfold Remembered at hlost
  push Not at hlost
  obtain ⟨opening, since, hanc, hunreported⟩ := hlost
  let higher : Decimal := charge.getD 0 + 1
  let later : List DomainEvent := [.orderFilled fill (some higher)]
  let totals := orderTotals (prior ++ later)
  have hlate : latestAnchor later = none := rfl
  have hwith : latestAnchor (prior ++ .orderFilled fill charge :: later) =
      some (opening, since ++ .orderFilled fill charge :: later) := by
    rw [latestAnchor_append, latestAnchor_fill, hanc]
    rfl
  have hsans : latestAnchor (prior ++ later) = some (opening, since ++ later) := by
    rw [latestAnchor_append, hanc]
    rfl
  obtain ⟨st, hst, hfloor⟩ : ∃ st : CashLedger × TakenFills,
      since.foldlM (cashEvent totals)
        ({ cash := opening, allowNegative := true }, TakenFills.empty) = .ok st ∧
      st.1.allowNegative = true := foldlM_cashEvent_returns rfl
  have hnew : fillIdentity fill ∉ st.2.seen := by
    rw [foldlM_view taken_cashEvent hst, TakenFills.mem_seen_foldl_observe]
    rintro (hnone | hrep)
    · exact absurd hnone not_mem_nil
    · exact hunreported hrep
  obtain ⟨again, hagain, hseen, hagainFees⟩ := cashEvent_of_new hfloor hnew
  obtain ⟨once, honce, -, honceFees⟩ := cashEvent_of_new hfloor hnew
  have hfoldWith : (since ++ .orderFilled fill charge :: later).foldlM (cashEvent totals)
      ({ cash := opening, allowNegative := true }, TakenFills.empty) = .ok again := by
    rw [foldlM_append, hst]
    change cashEvent totals st (.orderFilled fill charge) >>= later.foldlM _ = _
    rw [hagain]
    change cashEvent totals again (.orderFilled fill (some higher)) >>= pure = _
    rw [cashEvent_of_seen hid hseen]
    rfl
  have hfoldWithout : (since ++ later).foldlM (cashEvent totals)
      ({ cash := opening, allowNegative := true }, TakenFills.empty) = .ok once := by
    rw [foldlM_append, hst]
    change cashEvent totals st (.orderFilled fill (some higher)) >>= pure = _
    rw [honce]
    rfl
  refine ⟨later, hlate, fun heq ↦ ?_⟩
  rw [foldCash_since hwith, foldCash_since hsans, orderTotals_skip rfl, hfoldWith,
    hfoldWithout] at heq
  have hfees : again.1.totalFees = once.1.totalFees :=
    congrArg CashState.totalFees (Except.ok.inj heq)
  rw [← hfees] at honceFees
  have hhigher : ((some higher).getD 0).toRat = (charge.getD 0).toRat + 1 := by
    change (charge.getD 0 + 1).toRat = _
    rw [Decimal.toRat_add, Decimal.toRat_ofNat, Nat.cast_one]
  linarith

/-- A repeated fill event leaves recovery unchanged exactly when an anchor follows it or the replay
still remembers the fill. -/
theorem redelivery_ignored_iff (hid : fill.fillId = some fillId)
    (hevent : .orderFilled fill charge ∈ prior) (anchored : Bool) :
    (∀ later, (latestAnchor later).isSome = anchored →
      Unchanged prior (.orderFilled fill charge) later) ↔
    anchored = true ∨ Remembered prior fill := by
  constructor
  · intro hunchanged
    cases anchored with
    | true => exact .inl rfl
    | false =>
      right
      by_contra hlost
      obtain ⟨later, hlater, hne⟩ := foldCash_ne_of_not_remembered hid hlost
      exact hne (hunchanged later (Option.isSome_eq_false_iff.mpr (hlater ▸ rfl))).2
  · intro hcond later hlater
    refine ⟨recoverTradingCache_skip hid hevent, ?_⟩
    cases hfound : latestAnchor later with
    | some found => exact foldCash_of_later_anchor (hfound ▸ rfl)
    | none =>
      rw [hfound] at hlater
      rcases hcond with hanchored | hmem
      · rw [hanchored] at hlater
        cases hlater
      · exact foldCash_of_remembered hid hfound hmem

end Redelivery

def purchase : Fill where
  orderId := "order-1"
  instrument := ⟨"NSE:INFY"⟩
  side := .buy
  quantity := 10
  price := .ofNat 100
  fillId := some "trade-1"

def purchaseLog : List DomainEvent :=
  [.cashAccountInitialized 10000, .orderFilled purchase none]

theorem anchored_purchase_paid_again :
    let prior := purchaseLog ++ [.cashAccountInitialized 9000]
    let again := prior ++ [.orderFilled purchase none]
    (foldCash prior).toOption.map (·.cash.toRat) = some 9000 ∧
      (foldCash again).toOption.map (·.cash.toRat) = some 8000 ∧
      (recoverTradingCache again).toOption.map (fun replay ↦
        (replay.cache.getPosition ⟨"NSE:INFY"⟩).map (·.quantity.toRat)) = some (some 10) := by
  decide +kernel

theorem unanchored_purchase_paid_once : Unchanged purchaseLog (.orderFilled purchase none) [] := by
  have hmem : Remembered purchaseLog purchase := by
    intro opening since hanc
    cases hanc
    exact mem_cons_self
  exact (redelivery_ignored_iff rfl (mem_cons_of_mem _ mem_cons_self) false).mpr
    (.inr hmem) [] rfl

end Tradex.Execution.Recovery

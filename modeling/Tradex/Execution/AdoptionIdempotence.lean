import Tradex.Execution.AdoptionPlan
import Mathlib.Data.List.ReduceOption

/-!
# Adopting twice

Deriving again from the answer that was adopted finds the two sides in agreement, because the price
was rounded by less than the tolerance.
-/

namespace Tradex.Execution

open Tradex.Domain Verdict Decimal List

section

variable {cache : TradingCache} {rows : List Position} {row : Position} {iid : String}

theorem get_updatePosition {cache : TradingCache} {row : Position} {iid : String} :
    (cache.updatePosition row).positions.get iid =
      if row.instrument.instrumentId = iid then some row else cache.positions.get iid :=
  Dict.get_set _ _ _ _

theorem get_foldl_updatePosition_of_absent
    (hgone : ∀ other ∈ rows, other.instrument.instrumentId ≠ iid) :
    (rows.foldl TradingCache.updatePosition cache).positions.get iid = cache.positions.get iid := by
  induction rows generalizing cache with
  | nil => rfl
  | cons first rest ih =>
    rw [forall_mem_cons] at hgone
    rw [foldl_cons, ih hgone.2, get_updatePosition, if_neg hgone.1]

variable (hmem : row ∈ rows) (hkey : row.instrument.instrumentId = iid)
  (hunique : ∀ other ∈ rows, other.instrument.instrumentId = iid → other = row)

include hmem hkey hunique in
theorem get_foldl_updatePosition_of_mem :
    (rows.foldl TradingCache.updatePosition cache).positions.get iid = some row := by
  induction rows generalizing cache with
  | nil => cases hmem
  | cons first rest ih =>
    rw [forall_mem_cons] at hunique
    rw [foldl_cons]
    by_cases hrest : row ∈ rest
    · exact ih hrest hunique.2
    · have hfst : row = first := (mem_cons.1 hmem).resolve_right hrest
      have hgone : ∀ other ∈ rest, other.instrument.instrumentId ≠ iid := by
        intro other hother hsame
        exact hrest (hunique.2 other hother hsame ▸ hother)
      rw [get_foldl_updatePosition_of_absent hgone, get_updatePosition, ← hfst, if_pos hkey]

theorem get_setPositions_of_absent (hgone : ∀ other ∈ rows, other.instrument.instrumentId ≠ iid) :
    (cache.setPositions rows).positions.get iid = cache.positions.get iid :=
  get_foldl_updatePosition_of_absent fun other hother ↦
    hgone other (mem_insertionSort _ |>.1 hother)

include hmem hkey hunique in
theorem get_setPositions_of_mem : (cache.setPositions rows).positions.get iid = some row :=
  get_foldl_updatePosition_of_mem (mem_insertionSort _ |>.2 hmem) hkey fun other hother ↦
    hunique other (mem_insertionSort _ |>.1 hother)

end

section

variable {ccy : Instrument → String} {venueRows : List PositionRow}
  {unpaid : Finset String} {cache : TradingCache} {plan : VenueAdoption} {iid : String}

def Verdict.written : Verdict → Option Position
  | .adopt pos _ => some pos
  | .clear flat _ => flat
  | _ => none

variable {localRow : Option PositionRow} {pos : Position} {venueRow : PositionRow} {pending : Bool}
  {qty : Decimal} (hadp : adoptedPosition ccy localRow venueRow = some pos)

include hadp in
theorem adoptedPosition_eq_some :
    ∃ instr price, venueRow.instrument = some instr ∧
      adoptedPrice venueRow = some price ∧ pos =
        { instrument := instr
          quantity := adoptedQuantity venueRow
          avgPrice := price
          realizedPnl := adoptedRealized localRow venueRow (ccy instr)
          unrealizedPnl := ⟨0, ccy instr⟩
          strategyId := localRow.bind PositionRow.strategyId } := by
  unfold adoptedPosition at hadp
  split at hadp
  next instr price hinstr hprice =>
    exact ⟨instr, price, hinstr, hprice, (Option.some.inj hadp).symm⟩
  · cases hadp

include hadp in
theorem instrumentId_of_adopted (hkey : positionInstrumentId venueRow = some iid) :
    pos.instrument.instrumentId = iid := by
  obtain ⟨instr, price, hinstr, -, rfl⟩ := adoptedPosition_eq_some hadp
  simpa [positionInstrumentId, hinstr] using hkey

def flattenedPosition (ccy : Instrument → String) (pos : Position) : Position where
  instrument := pos.instrument
  quantity := 0
  avgPrice := Price.ofNat 0
  realizedPnl := ⟨0, ccy pos.instrument⟩
  unrealizedPnl := ⟨0, ccy pos.instrument⟩
  strategyId := pos.strategyId

abbrev bookVerdict (ccy : Instrument → String) (cache : TradingCache)
    (venueRows : List PositionRow) (unpaid : Finset String) (iid : String) : Option Verdict :=
  verdictOf ccy (byId (bookRows cache)) (byId venueRows) unpaid iid

variable {flat : Option Position}

theorem of_bookVerdict_clear {prev : PositionRow}
    (hver : bookVerdict ccy cache venueRows unpaid iid = some (.clear flat prev)) :
    ∃ pos, cache.positions.get iid = some pos ∧ flat = some (flattenedPosition ccy pos) := by
  obtain ⟨-, hheld, -, -, -, -, -, -, -, -, rfl⟩ := of_verdictOf_clear hver
  rw [get_byId_bookRows] at hheld
  obtain ⟨pos, hpos, rfl⟩ := Option.map_eq_some_iff.1 hheld
  exact ⟨pos, hpos, rfl⟩

theorem instrumentId_of_written
    (hwrit : (bookVerdict ccy cache venueRows unpaid iid).bind written =
      some pos) : pos.instrument.instrumentId = iid := by
  obtain ⟨verdict, hver, hpos⟩ := Option.bind_eq_some_iff.1 hwrit
  cases verdict with
  | adopt adopted prev =>
    cases hpos
    obtain ⟨-, venueRow, -, hlist, -, -, hadp⟩ := of_verdictOf_adopt hver
    exact instrumentId_of_adopted hadp (positionInstrumentId_of_get hlist)
  | retain row | skip why => cases hpos
  | clear flat prev =>
    obtain ⟨held, hheld, hflat⟩ := of_bookVerdict_clear hver
    cases hflat.symm.trans hpos
    exact cache.positions_keyed iid held hheld

variable {extra : Bool}

section

variable (hfol : plan.Follows extra (bookVerdict ccy cache venueRows unpaid))

include hfol

theorem mem_batch :
    pos ∈ (plan.positions.values.map some ++ plan.cleared.values).reduceOption ↔
      ∃ iid, (bookVerdict ccy cache venueRows unpaid iid).bind written = some pos := by
  rw [reduceOption_mem_iff, mem_append]
  constructor
  · rintro (hadp | hclear)
    · obtain ⟨adopted, hmem, hsame⟩ := mem_map.1 hadp
      obtain ⟨iid, hiid⟩ := Dict.exists_get_of_mem_values hmem
      rw [hfol.positions, Option.bind_eq_some_iff] at hiid
      obtain ⟨verdict, hver, hpart⟩ := hiid
      refine ⟨iid, Option.bind_eq_some_iff.2 ⟨verdict, hver, ?_⟩⟩
      cases verdict <;> cases hpart
      exact hsame
    · obtain ⟨iid, hiid⟩ := Dict.exists_get_of_mem_values hclear
      rw [hfol.cleared, Option.bind_eq_some_iff] at hiid
      obtain ⟨verdict, hver, hpart⟩ := hiid
      refine ⟨iid, Option.bind_eq_some_iff.2 ⟨verdict, hver, ?_⟩⟩
      cases verdict <;> cases hpart
      rfl
  · rintro ⟨iid, hwrit⟩
    obtain ⟨verdict, hver, hpart⟩ := Option.bind_eq_some_iff.1 hwrit
    cases verdict with
    | adopt adopted prev =>
      have hget : plan.positions.get iid = some adopted := by
        rw [hfol.positions, hver]
        rfl
      exact .inl (mem_map.2 ⟨adopted, Dict.mem_values_of_get hget, hpart⟩)
    | clear flat prev =>
      have hget : plan.cleared.get iid = some flat := by
        rw [hfol.cleared, hver]
        rfl
      exact .inr (hpart ▸ Dict.mem_values_of_get hget)
    | retain row | skip why => cases hpart

theorem batch_all_isSome
    : (plan.positions.values.map some ++ plan.cleared.values).all Option.isSome = true := by
  rw [all_append, Bool.and_eq_true, all_eq_true, all_eq_true]
  constructor
  · intro row hrow
    obtain ⟨pos, -, rfl⟩ := mem_map.1 hrow
    rfl
  · intro flat hflat
    obtain ⟨iid, hiid⟩ := Dict.exists_get_of_mem_values hflat
    rw [hfol.cleared, Option.bind_eq_some_iff] at hiid
    obtain ⟨verdict, hver, hpart⟩ := hiid
    cases verdict <;> cases hpart
    obtain ⟨pos, -, hsome⟩ := of_bookVerdict_clear hver
    rw [hsome]
    rfl

theorem get_batch :
    (cache.setPositions
      (plan.positions.values.map some ++ plan.cleared.values).reduceOption).positions.get iid =
        ((bookVerdict ccy cache venueRows unpaid iid).bind written).or
          (cache.positions.get iid) := by
  cases hwrit : (bookVerdict ccy cache venueRows unpaid iid).bind written with
  | none =>
    apply get_setPositions_of_absent
    intro other hother hkey
    obtain ⟨own, hown⟩ := (mem_batch hfol).1 hother
    rw [← instrumentId_of_written hown, hkey, hwrit] at hown
    cases hown
  | some pos =>
    have hmem := (mem_batch hfol).2 ⟨iid, hwrit⟩
    apply get_setPositions_of_mem hmem (instrumentId_of_written hwrit)
    intro other hother hkey
    obtain ⟨own, hown⟩ := (mem_batch hfol).1 hother
    rw [← instrumentId_of_written hown, hkey, hwrit] at hown
    exact (Option.some.inj hown).symm

end

theorem get_eq_none_of_isEmpty {Value : Type} {dict : Dict String Value}
    (hnil : dict.entries.isEmpty = true) {iid : String} : dict.get iid = none := by
  rw [Dict.get, isEmpty_iff.1 hnil]
  rfl

theorem written_eq_none {verdict : Option Verdict} (hadp : verdict.bind adopted = none)
    (hclear : verdict.bind flattened = none) : verdict.bind written = none := by
  rcases verdict with _ | verdict
  · rfl
  · cases verdict with
    | adopt pos prev => cases hadp
    | clear flat prev => cases hclear
    | retain row | skip why => rfl

theorem applyVenueAdoption_book
    (hok : deriveVenueAdoption ccy (bookRows cache) venueRows unpaid = .ok plan) :
    ∃ written, applyVenueAdoption plan cache = .ok written ∧
      ∀ iid, written.positions.get iid =
        ((bookVerdict ccy cache venueRows unpaid iid).bind Verdict.written).or
          (cache.positions.get iid) := by
  have hfol : plan.Follows _ (bookVerdict ccy cache venueRows unpaid) :=
    (deriveVenueAdoption_ok hok).1
  by_cases hnil : plan.isEmpty = true
  · refine ⟨cache, by rw [applyVenueAdoption, if_pos hnil], fun iid ↦ ?_⟩
    rw [VenueAdoption.isEmpty, Bool.and_eq_true, Bool.and_eq_true] at hnil
    have hadp := hfol.positions iid
    have hclear := hfol.cleared iid
    rw [get_eq_none_of_isEmpty hnil.1.1] at hadp
    rw [get_eq_none_of_isEmpty hnil.1.2] at hclear
    rw [written_eq_none hadp.symm hclear.symm, Option.none_or]
  · refine ⟨_, ?_, fun iid ↦ get_batch hfol⟩
    rw [applyVenueAdoption, if_neg hnil]
    exact if_pos (batch_all_isSome hfol)

def priceRemains (venueRow : PositionRow) : Bool :=
  match venueRow.avgPrice with
  | .number price => decide (adoptionTolerance.toRat < |price.toRat|)
  | .infinite _ => true
  | _ => false

theorem agreesOnPrice_rowOf {price : Decimal} (hprice : venueRow.avgPrice = .number price) :
    agreesOnPrice (rowOf pos) venueRow =
      .ok (decide (|pos.avgPrice.value.toRat - price.toRat| ≤ adoptionTolerance.toRat)) := by
  simp [agreesOnPrice, rowOf, hprice, le_iff]

theorem agreesOnPrice_rowOf_absent (hprice : venueRow.avgPrice = .absent) :
    agreesOnPrice (rowOf pos) venueRow = .ok true := by
  simp [agreesOnPrice, rowOf, hprice]

variable (hqty : venueQuantity venueRow = some qty)

include hqty in
theorem judgeHeld_of_same (hsame : qty.toRat = pos.quantity.toRat) :
    judgeHeld ccy pending (rowOf pos) (some venueRow) =
      (agreesOnPrice (rowOf pos) venueRow).map fun same ↦
        if same then .retain (rowOf pos)
        else correct ccy pending (rowOf pos) venueRow qty := by
  have hown : venueQuantity (rowOf pos) = some pos.quantity := rfl
  simp [judgeHeld, hqty, hown, agrees, if_pos hsame]

include hqty in
include hadp in
theorem quantity_of_adopted (hnz : qty.toRat ≠ 0) : pos.quantity = qty := by
  obtain ⟨instr, price, -, -, rfl⟩ := adoptedPosition_eq_some hadp
  simp [adoptedQuantity, hqty, hnz]

include hqty in
include hadp in
theorem judgeHeld_adopted (hnz : qty.toRat ≠ 0) (hread : ¬ venueRow.avgPrice.NotANumber) :
    judgeHeld ccy pending (rowOf pos) (some venueRow) = .ok (.retain (rowOf pos)) := by
  obtain ⟨instr, price, -, hprice, hpos⟩ := adoptedPosition_eq_some hadp
  have hsame : qty.toRat = pos.quantity.toRat := by rw [quantity_of_adopted hadp hqty hnz]
  rw [judgeHeld_of_same hqty hsame]
  cases hreading : venueRow.avgPrice with
  | absent =>
    rw [agreesOnPrice_rowOf_absent hreading]
    rfl
  | unreadable => exact absurd (.inl hreading) hread
  | nan => exact absurd (.inr hreading) hread
  | infinite negative => simp [adoptedPrice, venueAvgPriceValue, hreading] at hprice
  | number val =>
    have hval : pos.avgPrice.value = roundCents val.toRat := by
      rw [hpos]
      simp only [adoptedPrice, venueAvgPriceValue, hreading, Option.bind_some] at hprice
      split at hprice
      · cases hprice
        rfl
      · cases hprice
    have hnear : |pos.avgPrice.value.toRat - val.toRat| ≤ adoptionTolerance.toRat := by
      rw [hval]
      exact (abs_roundCents_sub_le val.toRat).trans (by norm_num [adoptionTolerance, toRat])
    rw [agreesOnPrice_rowOf hreading, decide_eq_true hnear]
    rfl

include hqty in
theorem judgeHeld_flat {held : Position}
    (hflat : qty.toRat = 0) (hread : ¬ venueRow.avgPrice.NotANumber) :
    judgeHeld ccy pending (rowOf (flattenedPosition ccy held)) (some venueRow) =
      .ok (if priceRemains venueRow then
        correct ccy pending (rowOf (flattenedPosition ccy held)) venueRow qty
      else .retain (rowOf (flattenedPosition ccy held))) := by
  have hzero : (flattenedPosition ccy held).quantity.toRat = 0 := toRat_zero
  have hprice : (flattenedPosition ccy held).avgPrice.value.toRat = 0 := toRat_zero
  rw [judgeHeld_of_same hqty (hflat.trans hzero.symm)]
  cases hreading : venueRow.avgPrice with
  | absent =>
    rw [agreesOnPrice_rowOf_absent hreading]
    simp [Except.map, priceRemains, hreading]
  | unreadable => exact absurd (.inl hreading) hread
  | nan => exact absurd (.inr hreading) hread
  | infinite negative =>
    simp [agreesOnPrice, rowOf, Except.map, priceRemains, hreading]
  | number price =>
    rw [agreesOnPrice_rowOf hreading, hprice, zero_sub]
    by_cases hnear : |price.toRat| ≤ adoptionTolerance.toRat
    · simp [Except.map, priceRemains, hreading, hnear]
    · simp [Except.map, priceRemains, hreading, not_le.1 hnear]

/-! ## From one derivation to the next -/

variable {written : TradingCache}

variable (hok : deriveVenueAdoption ccy (bookRows cache) venueRows unpaid = .ok plan)
  (hwrit : ∀ iid, written.positions.get iid =
    ((bookVerdict ccy cache venueRows unpaid iid).bind Verdict.written).or
      (cache.positions.get iid))

include hwrit

theorem judge_again_of_unwritten
    (hunwritten : (bookVerdict ccy cache venueRows unpaid iid).bind Verdict.written =
      none) :
    judge ccy (byId (bookRows written)) (byId venueRows) unpaid iid =
      judge ccy (byId (bookRows cache)) (byId venueRows) unpaid iid := by
  have hsame : (byId (bookRows written)).get iid = (byId (bookRows cache)).get iid := by
    rw [get_byId_bookRows, get_byId_bookRows, hwrit, hunwritten, Option.none_or]
  rw [judge, judge, hsame]

variable {pos : Position}

theorem judge_again_of_written
    (hpos : (bookVerdict ccy cache venueRows unpaid iid).bind Verdict.written =
      some pos) :
    judge ccy (byId (bookRows written)) (byId venueRows) unpaid iid =
      (judgeHeld ccy (decide (iid ∈ unpaid)) (rowOf pos) ((byId venueRows).get iid)).map some := by
  apply judge_of_held
  rw [get_byId_bookRows, hwrit, hpos, Option.some_or, Option.map_some]

variable (hread : ∀ row ∈ venueRows, ¬ row.avgPrice.NotANumber)

include hok

theorem again_of_kept (hadp : plan.positions.get iid = none)
    (hclear : plan.cleared.get iid = none) :
    ∃ verdict, judge ccy (byId (bookRows written)) (byId venueRows) unpaid iid = .ok verdict ∧
      verdict.bind Verdict.adopted = none ∧ verdict.bind Verdict.flattened = none := by
  obtain ⟨hfol, hraise⟩ := deriveVenueAdoption_ok hok
  rw [hfol.positions] at hadp
  rw [hfol.cleared] at hclear
  rw [judge_again_of_unwritten hwrit (written_eq_none hadp hclear)]
  cases hjudge : judge ccy (byId (bookRows cache)) (byId venueRows) unpaid iid with
  | error err => exact absurd ⟨err, hjudge⟩ (hraise iid)
  | ok verdict =>
    rw [verdictOf_of_judge hjudge] at hadp hclear
    exact ⟨verdict, rfl, hadp, hclear⟩

include hread

theorem again_of_adopted (hadp : plan.positions.get iid = some pos) :
    judge ccy (byId (bookRows written)) (byId venueRows) unpaid iid =
      .ok (some (.retain (rowOf pos))) := by
  obtain ⟨hfol, -⟩ := deriveVenueAdoption_ok hok
  rw [hfol.positions, Option.bind_eq_some_iff] at hadp
  obtain ⟨verdict, hver, hpart⟩ := hadp
  cases verdict <;> cases hpart
  obtain ⟨-, venueRow, qty, hlist, hqty, hnz, hpos⟩ := of_verdictOf_adopt hver
  have hbook : (bookVerdict ccy cache venueRows unpaid iid).bind Verdict.written = some pos := by
    rw [bookVerdict, hver]
    rfl
  rw [judge_again_of_written hwrit hbook, hlist,
    judgeHeld_adopted hpos hqty hnz (hread venueRow (mem_of_get_byId hlist))]
  rfl

theorem again_of_cleared (hclear : plan.cleared.get iid = some flat) :
    ∃ verdict, judge ccy (byId (bookRows written)) (byId venueRows) unpaid iid =
        .ok (some verdict) ∧ verdict.adopted = none ∧
      ((∀ row, (byId venueRows).get iid = some row → priceRemains row = false) →
        verdict.flattened = none) := by
  obtain ⟨hfol, -⟩ := deriveVenueAdoption_ok hok
  rw [hfol.cleared, Option.bind_eq_some_iff] at hclear
  obtain ⟨verdict, hver, hpart⟩ := hclear
  cases verdict <;> cases hpart
  obtain ⟨held, -, rfl⟩ := of_bookVerdict_clear hver
  obtain ⟨-, -, venueRow, qty, -, hlist, hqty, hflat, -⟩ := of_verdictOf_clear hver
  have hbook : (bookVerdict ccy cache venueRows unpaid iid).bind Verdict.written =
      some (flattenedPosition ccy held) := by
    rw [bookVerdict, hver]
    rfl
  rw [judge_again_of_written hwrit hbook, hlist,
    judgeHeld_flat hqty hflat (hread venueRow (mem_of_get_byId hlist))]
  refine ⟨_, rfl, ?_, fun hpriceless ↦ ?_⟩
  · simp only [correct, if_pos hflat]
    split
    · split <;> rfl
    · rfl
  · rw [hpriceless venueRow rfl]
    rfl

/-- What an instrument is judged to be after the plan is written. -/
theorem judge_again (iid : String) :
    ∃ verdict, judge ccy (byId (bookRows written)) (byId venueRows) unpaid iid = .ok verdict ∧
      verdict.bind Verdict.adopted = none ∧
      ((∀ row, (byId venueRows).get iid = some row → priceRemains row = false) →
        verdict.bind Verdict.flattened = none) := by
  cases hclear : plan.cleared.get iid with
  | some flat =>
    obtain ⟨verdict, hjudge, hadp, hpriceless⟩ := again_of_cleared hok hwrit hread hclear
    exact ⟨some verdict, hjudge, hadp, hpriceless⟩
  | none =>
    cases hadp : plan.positions.get iid with
    | some pos => exact ⟨_, again_of_adopted hok hwrit hread hadp, rfl, fun _ ↦ rfl⟩
    | none =>
      obtain ⟨verdict, hjudge, hnone, hkept⟩ := again_of_kept hok hwrit hadp hclear
      exact ⟨verdict, hjudge, hnone, fun _ ↦ hkept⟩

end

structure VenueAdoption.Accounts (plan : VenueAdoption) (localRows venueRows : List PositionRow)
    (unsettled : Finset String) : Prop where
  inOneBucket : ∀ iid, unreadableInstrument ≠ iid ∨
      (∀ row ∈ venueRows, positionInstrumentId row ≠ none) →
    ((byId localRows).get iid).isSome ∨
      (∃ row, (byId venueRows).get iid = some row ∧ isFlat row = false) → plan.bucketsOf iid = 1
  inNoBucket : ∀ iid, unreadableInstrument ≠ iid ∨
      (∀ row ∈ venueRows, positionInstrumentId row ≠ none) →
    (byId localRows).get iid = none →
      (∀ row, (byId venueRows).get iid = some row → isFlat row = true) → plan.bucketsOf iid = 0
  placeholder : (∃ row ∈ venueRows, positionInstrumentId row = none) →
    plan.skipped.get unreadableInstrument = some .unreadableInstrument
  guarded : ∀ iid ∈ unsettled, plan.positions.get iid = none ∧ plan.cleared.get iid = none

variable {venueRows localRows : List PositionRow} {ccy : Instrument → String}
  {unpaid : Finset String}

theorem accounts_of_derive
    {plan : VenueAdoption}
    (hok : deriveVenueAdoption ccy localRows venueRows unpaid = .ok plan) :
    plan.Accounts localRows venueRows unpaid := by
  obtain ⟨hfol, hraise⟩ := deriveVenueAdoption_ok hok
  have hname : ∀ iid, unreadableInstrument ≠ iid ∨
      (∀ row ∈ venueRows, positionInstrumentId row ≠ none) →
      ¬ ((venueRows.any fun row ↦ (positionInstrumentId row).isNone) = true ∧
        unreadableInstrument = iid) := by
    rintro iid (hother | hread) ⟨hany, hsame⟩
    · exact hother hsame
    · obtain ⟨row, hrow, hnone⟩ := any_eq_true.1 hany
      exact hread row hrow (Option.isNone_iff_eq_none.1 hnone)
  refine ⟨?_, ?_, ?_, ?_⟩
  · intro iid hiid hsides
    rw [hfol.bucketsOf (hname iid hiid), if_pos ((verdictOf_isSome (hraise iid)).2 hsides)]
  · intro iid hiid hheld hflat
    rw [hfol.bucketsOf (hname iid hiid), if_neg]
    rw [verdictOf_isSome (hraise iid), hheld]
    rintro (hgone | ⟨row, hrow, hnonflat⟩)
    · cases hgone
    · cases (hflat row hrow).symm.trans hnonflat
  · rintro ⟨row, hrow, hnone⟩
    have hany : (venueRows.any fun row ↦ (positionInstrumentId row).isNone) = true :=
      any_eq_true.2 ⟨row, hrow, Option.isNone_iff_eq_none.2 hnone⟩
    rw [hfol.skipped, if_pos ⟨hany, rfl⟩]
  · intro iid hiid
    rw [hfol.positions, hfol.cleared]
    cases hver : verdictOf ccy (byId localRows) (byId venueRows) unpaid iid with
    | none => exact ⟨rfl, rfl⟩
    | some verdict =>
      cases verdict with
      | adopt pos prev => exact absurd hiid (of_verdictOf_adopt hver).1
      | clear flat prev => exact absurd hiid (of_verdictOf_clear hver).1
      | retain row | skip why => exact ⟨rfl, rfl⟩

/-- A plan that has nothing to write, rows that are flat and still show a price left aside. -/
structure VenueAdoption.Settled (plan : VenueAdoption) (venueRows : List PositionRow) : Prop where
  positions : ∀ iid, plan.positions.get iid = none
  cleared : ∀ iid, (∀ row, (byId venueRows).get iid = some row → priceRemains row = false) →
    plan.cleared.get iid = none

theorem derives_of_comparable
    (hlocal : ∀ row ∈ localRows, row.avgPrice = .absent ∨ ∃ price, row.avgPrice = .number price)
    (hread : ∀ row ∈ venueRows, ¬ row.avgPrice.NotANumber) :
    ∃ plan, deriveVenueAdoption ccy localRows venueRows unpaid = .ok plan := by
  cases hderiv : deriveVenueAdoption ccy localRows venueRows unpaid with
  | ok plan => exact ⟨plan, rfl⟩
  | error err =>
    obtain ⟨iid, hrse⟩ := deriveVenueAdoption_raises_iff.1 ⟨err, hderiv⟩
    obtain ⟨localRow, venueRow, hheld, hlist, own, venue, -, -, -, hsome, -, hclash⟩ :=
      raises_iff.1 hrse
    have hvenue := hread venueRow (mem_of_get_byId hlist)
    rcases hlocal localRow (mem_of_get_byId hheld) with hnone | ⟨price, hprice⟩
    · exact absurd hnone hsome
    · rcases hclash with (hnan | hnan) | hnan | ⟨negative, hinfinite, -⟩
      · cases hprice.symm.trans hnan
      · cases hprice.symm.trans hnan
      · exact absurd hnan hvenue
      · cases hprice.symm.trans hinfinite

/-- Every instrument of either side is accounted for in one bucket, flat venue rows that the book
does not hold apart, and a plan once written leaves nothing to write. -/
theorem deriveVenueAdoption_accounts (ccy : Instrument → String) (venueRows : List PositionRow)
    (unpaid : Finset String) (hread : ∀ row ∈ venueRows, ¬ row.avgPrice.NotANumber) :
    (∀ localRows : List PositionRow,
      (∀ row ∈ localRows, row.avgPrice = .absent ∨ ∃ price, row.avgPrice = .number price) →
      ∃ plan, deriveVenueAdoption ccy localRows venueRows unpaid = .ok plan ∧
        plan.Accounts localRows venueRows unpaid) ∧
    ∀ cache, ∃ plan written again,
      deriveVenueAdoption ccy (bookRows cache) venueRows unpaid = .ok plan ∧
      applyVenueAdoption plan cache = .ok written ∧
      deriveVenueAdoption ccy (bookRows written) venueRows unpaid = .ok again ∧
      again.Settled venueRows := by
  have hbook : ∀ cache, ∀ row ∈ bookRows cache,
      row.avgPrice = .absent ∨ ∃ price, row.avgPrice = .number price := by
    intro cache row hrow
    obtain ⟨pos, -, rfl⟩ := mem_map.1 hrow
    exact .inr ⟨_, rfl⟩
  refine ⟨fun localRows hlocal ↦ ?_, fun cache ↦ ?_⟩
  · obtain ⟨plan, hok⟩ := derives_of_comparable hlocal hread
    exact ⟨plan, hok, accounts_of_derive hok⟩
  · obtain ⟨plan, hok⟩ := derives_of_comparable (hbook cache) hread
    obtain ⟨written, happ, hwrit⟩ := applyVenueAdoption_book hok
    obtain ⟨again, hagain⟩ := derives_of_comparable (hbook written) hread
    obtain ⟨hfol, -⟩ := deriveVenueAdoption_ok hagain
    refine ⟨plan, written, again, hok, happ, hagain, fun iid ↦ ?_, fun iid hpriceless ↦ ?_⟩
    · obtain ⟨verdict, hjudge, hadp, -⟩ := judge_again hok hwrit hread iid
      rw [hfol.positions, verdictOf_of_judge hjudge, hadp]
    · obtain ⟨verdict, hjudge, -, hflattened⟩ := judge_again hok hwrit hread iid
      rw [hfol.cleared, verdictOf_of_judge hjudge, hflattened hpriceless]

def longFive : TradingCache :=
  TradingCache.empty.updatePosition
    { instrument := ⟨"NSE:INFY"⟩
      quantity := 5
      avgPrice := Price.ofNat 100
      realizedPnl := ⟨7, "INR"⟩
      unrealizedPnl := ⟨0, "INR"⟩ }

def flatAtHundred : PositionRow where
  instrument := some ⟨"NSE:INFY"⟩
  quantity := .number 0
  avgPrice := .number 100

def rupees : Instrument → String := fun _ ↦ "INR"

theorem flat_row_unlisted :
    (deriveVenueAdoption rupees [] [flatAtHundred] ∅).toOption.map
        (VenueAdoption.bucketsOf · "NSE:INFY") = some 0 := by
  decide +kernel

def venueSeven : PositionRow where
  instrument := some ⟨"NSE:INFY"⟩
  quantity := .number 7
  avgPrice := .number 100

theorem long_five_adopts_seven : ∃ plan written again,
    deriveVenueAdoption rupees (bookRows longFive) [venueSeven] ∅ = .ok plan ∧
    applyVenueAdoption plan longFive = .ok written ∧
    deriveVenueAdoption rupees (bookRows written) [venueSeven] ∅ = .ok again ∧
    again.Settled [venueSeven] :=
  (deriveVenueAdoption_accounts rupees [venueSeven] ∅ fun row hrow ↦ by
    rw [mem_singleton.1 hrow]
    simp [PriceReading.NotANumber, venueSeven]).2 longFive

end Tradex.Execution

import Tradex.Execution.AdoptionIdempotence

/-!
# The realized figures after an adoption

An adopted instrument keeps its realized figure, a cleared one is written with zero, and one that
only the venue names brings the venue's figure.
-/

namespace Tradex.Execution

open Tradex.Domain TradingCache

def SameMoney (left right : Money) : Prop :=
  left.amount.toRat = right.amount.toRat ∧ left.currency = right.currency

variable (cache : TradingCache)

def TradingCache.totalRealized : ℚ :=
  cache.positions.sumBy fun pos ↦ pos.realizedPnl.amount.toRat

structure KeepsLedger (before after : TradingCache) : Prop where
  held : ∀ iid position, before.positions.get iid = some position →
    ∃ written, after.positions.get iid = some written ∧
      SameMoney written.realizedPnl position.realizedPnl
  total : after.totalRealized = before.totalRealized

theorem keepsLedger_refl {cache : TradingCache} : KeepsLedger cache cache :=
  ⟨fun _ pos hpos ↦ ⟨pos, hpos, rfl, rfl⟩, rfl⟩

structure Flattens (unsettled : Finset String) (venueRows : List PositionRow) (iid : String)
    (position : Position) : Prop where
  settled : iid ∉ unsettled
  listed : ∃ venueRow, (byId venueRows).get iid = some venueRow ∧ isFlat venueRow = true ∧
    (position.quantity.toRat ≠ 0 ∨ agreesOnPrice (rowOf position) venueRow = .ok false)

def reportedRealized (venueRow : PositionRow) : ℚ :=
  match venueRow.realizedAmount with
  | .number amount => amount.toRat
  | _ => 0

def enters (venueRow : PositionRow) : Bool :=
  (venueQuantity venueRow).isSome && !isFlat venueRow && venueRow.instrument.isSome &&
    (adoptedPrice venueRow).isSome

def broughtBy (unpaid : Finset String) (iid : String) (venueRow : PositionRow) : ℚ :=
  if (cache.positions.get iid).isNone && decide (iid ∉ unpaid) && enters venueRow then
    reportedRealized venueRow
  else 0

def broughtIn (unpaid : Finset String) (venueRows : List PositionRow) : ℚ :=
  ((byId venueRows).entries.map fun entry ↦ broughtBy cache unpaid entry.1 entry.2).sum

section

variable {ccy : Instrument → String} {venueRows : List PositionRow}
  {unpaid : Finset String} {cache written : TradingCache} {plan : VenueAdoption}
  {iid : String} {pos : Position}

theorem bookVerdict_clear_iff (hheld : cache.positions.get iid = some pos) :
    (∃ flat prev, bookVerdict ccy cache venueRows unpaid iid =
        some (.clear flat prev)) ↔
      Flattens unpaid venueRows iid pos := by
  have hrow : (byId (bookRows cache)).get iid = some (rowOf pos) := by
    rw [get_byId_bookRows, hheld, Option.map_some]
  have hown : venueQuantity (rowOf pos) = some pos.quantity := rfl
  constructor
  · rintro ⟨flat, prev, hver⟩
    obtain ⟨hsettle, hprev, venueRow, qty, own, hlist, hqty, hflat, hheldQuantity,
      hagree, -⟩ := of_verdictOf_clear hver
    cases hrow.symm.trans hprev
    cases hown.symm.trans hheldQuantity
    refine ⟨hsettle, venueRow, hlist, (isFlat_iff hqty).2 hflat, ?_⟩
    rw [agrees, hflat] at hagree
    by_cases hzero : 0 = pos.quantity.toRat
    · rw [if_pos hzero] at hagree
      exact .inr hagree
    · exact .inl fun hsame ↦ hzero hsame.symm
  · rintro ⟨hsettle, venueRow, hlist, hflat, hdisagrees⟩
    obtain ⟨qty, hqty, hzero⟩ := venueQuantity_of_isFlat hflat
    have hagree : agrees (rowOf pos) venueRow pos.quantity qty = .ok false := by
      by_cases hsame : qty.toRat = pos.quantity.toRat
      · rw [agrees, if_pos hsame]
        exact hdisagrees.resolve_left fun hnz ↦ hnz (hsame.symm.trans hzero)
      · rw [agrees, if_neg hsame]
    have hjudge : judgeHeld ccy (decide (iid ∈ unpaid)) (rowOf pos)
        ((byId venueRows).get iid) =
          .ok (correct ccy (decide (iid ∈ unpaid)) (rowOf pos) venueRow qty) := by
      simp only [hlist, judgeHeld, hqty, hown, hagree]
      rfl
    have hclear : correct ccy (decide (iid ∈ unpaid)) (rowOf pos) venueRow qty =
        .clear ((flatPosition ccy (rowOf pos)).or (flatPosition ccy venueRow)) (rowOf pos) := by
      rw [correct, decide_eq_false hsettle, if_neg Bool.false_ne_true, if_pos hzero]
    rw [hclear] at hjudge
    exact ⟨_, _, (judgeHeld_of_verdict hrow hjudge).1⟩

theorem held_kept_iff (hheld : cache.positions.get iid = some pos)
    (hwrit : written.positions.get iid =
      ((bookVerdict ccy cache venueRows unpaid iid).bind Verdict.written).or
        (cache.positions.get iid)) :
    (∃ now, written.positions.get iid = some now ∧
        SameMoney now.realizedPnl pos.realizedPnl) ↔
      (Flattens unpaid venueRows iid pos → SameMoney pos.realizedPnl ⟨0, ccy pos.instrument⟩) := by
  rw [← bookVerdict_clear_iff hheld, hwrit, hheld]
  cases hver : bookVerdict ccy cache venueRows unpaid iid with
  | none => simp [SameMoney]
  | some verdict =>
    cases verdict with
    | adopt adopted prev =>
      obtain ⟨-, venueRow, qty, -, -, -, hadopt⟩ := of_verdictOf_adopt hver
      rw [get_byId_bookRows, hheld] at hadopt
      obtain ⟨instr, price, -, -, rfl⟩ := adoptedPosition_eq_some hadopt
      simp [Verdict.written, SameMoney, adoptedRealized, rowOf]
    | clear flat prev =>
      obtain ⟨held, hsame, rfl⟩ := of_bookVerdict_clear hver
      cases hheld.symm.trans hsame
      simp [Verdict.written, SameMoney, flattenedPosition, eq_comm]
    | retain row | skip why => simp [Verdict.written, SameMoney]

theorem adoptedPosition_isSome (localRow : Option PositionRow) (venueRow : PositionRow) :
    (adoptedPosition ccy localRow venueRow).isSome =
      (venueRow.instrument.isSome && (adoptedPrice venueRow).isSome) := by
  rw [adoptedPosition]
  cases venueRow.instrument <;> cases adoptedPrice venueRow <;> rfl

variable {venueRow : PositionRow}

theorem realized_of_adoptedPosition (hadopt : adoptedPosition ccy none venueRow = some pos) :
    pos.realizedPnl.amount.toRat = reportedRealized venueRow := by
  obtain ⟨instr, price, -, -, rfl⟩ := adoptedPosition_eq_some hadopt
  rw [adoptedRealized, venueRealized, reportedRealized]
  cases venueRow.realizedAmount with
  | absent | unreadable => exact Decimal.toRat_zero
  | number amount => rfl

theorem realized_of_judgeVenueOnly {pending : Bool} :
    ((judgeVenueOnly ccy pending venueRow).bind Verdict.written).elim 0
        (fun now ↦ now.realizedPnl.amount.toRat) =
      if !pending && enters venueRow then reportedRealized venueRow else 0 := by
  have hadpt := @adoptedPosition_isSome ccy none venueRow
  cases hqty : venueQuantity venueRow with
  | none => simp [judgeVenueOnly, enters, hqty, Verdict.written]
  | some qty =>
    by_cases hzero : qty.toRat = 0
    · simp [judgeVenueOnly, enters, isFlat, hqty, hzero]
    · cases pending with
      | true => simp [judgeVenueOnly, hqty, hzero, Verdict.written]
      | false =>
        cases hadopt : adoptedPosition ccy none venueRow with
        | none =>
          rw [hadopt] at hadpt
          have hstays : enters venueRow = false := by
            rw [enters, Bool.and_assoc, ← hadpt]
            exact Bool.and_false _
          simp [judgeVenueOnly, hqty, hzero, hadopt, hstays, Verdict.written]
        | some pos =>
          rw [hadopt] at hadpt
          have henters : enters venueRow = true := by
            rw [enters, Bool.and_assoc, ← hadpt]
            simp [isFlat, hqty, hzero]
          simp [judgeVenueOnly, hqty, hzero, hadopt, henters, Verdict.written,
            realized_of_adoptedPosition hadopt]

theorem realized_of_new (hheld : cache.positions.get iid = none)
    (hwrit : written.positions.get iid =
      ((bookVerdict ccy cache venueRows unpaid iid).bind Verdict.written).or
        (cache.positions.get iid)) :
    (written.positions.get iid).elim 0 (fun now ↦ now.realizedPnl.amount.toRat) =
      ((byId venueRows).get iid).elim 0 (broughtBy cache unpaid iid) := by
  have hver : bookVerdict ccy cache venueRows unpaid iid =
      ((byId venueRows).get iid).bind (judgeVenueOnly ccy (decide (iid ∈ unpaid))) := by
    rw [bookVerdict, verdictOf, judge, get_byId_bookRows, hheld]
    rfl
  rw [hwrit, hver, hheld, Option.or_none]
  cases hlist : (byId venueRows).get iid with
  | none => rfl
  | some venueRow =>
    rw [Option.bind_some, Option.elim_some, realized_of_judgeVenueOnly, broughtBy, hheld]
    simp

variable (hwrit : ∀ iid, written.positions.get iid = ((bookVerdict ccy cache venueRows
    unpaid iid).bind Verdict.written).or (cache.positions.get iid))

include hwrit in
theorem totalRealized_of_kept (hkept : ∀ iid pos, cache.positions.get iid = some pos →
      ∃ now, written.positions.get iid = some now ∧
        SameMoney now.realizedPnl pos.realizedPnl) :
    written.totalRealized = cache.totalRealized + broughtIn cache unpaid venueRows := by
  let ids := written.positions.keys ∪ cache.positions.keys ∪ (byId venueRows).keys
  have hafter : ∀ iid, (written.positions.get iid).isSome → iid ∈ ids := fun iid hiid ↦
    Finset.mem_union_left _ (Finset.mem_union_left _ (Dict.mem_keys.2 hiid))
  have hpre : ∀ iid, (cache.positions.get iid).isSome → iid ∈ ids := fun iid hiid ↦
    Finset.mem_union_left _ (Finset.mem_union_right _ (Dict.mem_keys.2 hiid))
  have hlist : ∀ iid, ((byId venueRows).get iid).isSome → iid ∈ ids := fun iid hiid ↦
    Finset.mem_union_right _ (Dict.mem_keys.2 hiid)
  rw [totalRealized, totalRealized, broughtIn,
    Dict.sumBy_eq_sum_get hafter, Dict.sumBy_eq_sum_get hpre,
    Dict.sum_entries_eq_sum_get hlist, ← Finset.sum_add_distrib]
  refine Finset.sum_congr rfl fun iid _ ↦ ?_
  cases hheld : cache.positions.get iid with
  | none => rw [realized_of_new hheld (hwrit iid), Option.elim_none, zero_add]
  | some pos =>
    obtain ⟨now, hnow, hamount, -⟩ := hkept iid pos hheld
    have hnone : ((byId venueRows).get iid).elim 0 (broughtBy cache unpaid iid) = 0 := by
      cases (byId venueRows).get iid with
      | none => rfl
      | some venueRow => simp [broughtBy, hheld]
    rw [hnow, hnone, add_zero, Option.elim_some, Option.elim_some, hamount]

include hwrit in
theorem keepsLedger_written_iff :
    KeepsLedger cache written ↔
      (∀ iid pos, cache.positions.get iid = some pos →
        Flattens unpaid venueRows iid pos →
          SameMoney pos.realizedPnl ⟨0, ccy pos.instrument⟩) ∧
      broughtIn cache unpaid venueRows = 0 := by
  have hheld : ∀ iid pos, cache.positions.get iid = some pos → _ :=
    fun iid pos hpos ↦ held_kept_iff hpos (hwrit iid)
  constructor
  · rintro ⟨hkept, htotal⟩
    refine ⟨fun iid pos hpos ↦ (hheld iid pos hpos).1 (hkept iid pos hpos), ?_⟩
    rw [totalRealized_of_kept hwrit hkept] at htotal
    linarith
  · rintro ⟨hzero, hbrought⟩
    have hkept := fun iid pos hpos ↦
      (hheld iid pos hpos).2 (hzero iid pos hpos)
    exact ⟨hkept, by rw [totalRealized_of_kept hwrit hkept, hbrought, add_zero]⟩

end

def VenueRead.OlderThan (read : VenueRead) (lastReadAt : Option ℤ) : Prop :=
  ∃ last readAt, lastReadAt = some last ∧ read.readAt = some readAt ∧ readAt < last

theorem refusalOf_ne_iff {read : VenueRead} {lastReadAt : Option ℤ} :
    refusalOf read lastReadAt ≠ "" ↔ read.refused ≠ "" ∨ read.OlderThan lastReadAt := by
  by_cases href : read.refused = ""
  · cases hlast : lastReadAt with
    | none => simp [refusalOf, VenueRead.OlderThan]
    | some last =>
      cases hreadAt : read.readAt with
      | none => simp [refusalOf, VenueRead.OlderThan, hreadAt]
      | some readAt => simp [refusalOf, href, VenueRead.OlderThan, hreadAt]
  · simp [refusalOf, href]

/-- An adoption keeps the realised total exactly when nothing is written, or neither flattened nor
new rows carry realised money. -/
theorem adoptVenuePositions_keepsLedger_iff (ccy : Instrument → String) (cache : TradingCache)
    (unpaid : Finset String) (lastReadAt : Option ℤ) (adopt : Bool) (read : VenueRead) :
    KeepsLedger cache (adoptVenuePositions ccy cache (bookRows cache) unpaid lastReadAt
        adopt read).2 ↔
      read.refused ≠ "" ∨ read.OlderThan lastReadAt ∨ adopt = false ∨
      (∃ iid pos venueRow, cache.positions.get iid = some pos ∧
        (byId read.positions).get iid = some venueRow ∧
        Incomparable (rowOf pos) venueRow) ∨
      (∀ iid pos, cache.positions.get iid = some pos →
        Flattens unpaid read.positions iid pos →
          SameMoney pos.realizedPnl ⟨0, ccy pos.instrument⟩) ∧
      broughtIn cache unpaid read.positions = 0 := by
  rw [← or_assoc, ← refusalOf_ne_iff]
  by_cases hrefused : refusalOf read lastReadAt ≠ ""
  · rw [adoptVenuePositions, if_pos hrefused]
    exact iff_of_true keepsLedger_refl (.inl hrefused)
  rw [adoptVenuePositions, if_neg hrefused, or_iff_right hrefused]
  have hrse : (∃ iid pos venueRow, cache.positions.get iid = some pos ∧
      (byId read.positions).get iid = some venueRow ∧ Incomparable (rowOf pos) venueRow) ↔
      ∃ err, deriveVenueAdoption ccy (bookRows cache) read.positions unpaid =
        .error err := by
    rw [deriveVenueAdoption_raises_iff]
    refine exists_congr fun iid ↦ ?_
    rw [raises_iff, get_byId_bookRows]
    cases cache.positions.get iid <;> simp
  rw [hrse]
  cases hderiv : deriveVenueAdoption ccy (bookRows cache) read.positions unpaid with
  | error err => exact iff_of_true keepsLedger_refl (.inr (.inl ⟨err, rfl⟩))
  | ok plan =>
    cases adopt with
    | false => exact iff_of_true keepsLedger_refl (.inl rfl)
    | true =>
      obtain ⟨written, happ, hwrit⟩ := applyVenueAdoption_book hderiv
      simp only [if_true, happ, keepsLedger_written_iff hwrit]
      simp

theorem realized_figure_rewritten :
    ¬ KeepsLedger longFive (adoptVenuePositions rupees longFive (bookRows longFive) ∅ none true
        { positions := [flatAtHundred] }).2 ∧
    ¬ KeepsLedger empty (adoptVenuePositions rupees empty (bookRows empty) ∅ none true
        { positions := [{ flatAtHundred with quantity := .number 5,
                                             realizedAmount := .number 10 }] }).2 :=
  ⟨fun hkeeps ↦ absurd hkeeps.total (by decide +kernel),
    fun hkeeps ↦ absurd hkeeps.total (by decide +kernel)⟩

end Tradex.Execution

import Tradex.Execution.VenueAdoption
import Tradex.Foundation.Outcome

/-!
# What an adoption plan contains

The two loops of the derivation decide each instrument once, so the plan is
determined by one decision per instrument. The lemmas here say what each decision
implies about the rows of the two sides.
-/

namespace Tradex.Execution

open Tradex.Domain List Option Function

variable {rows : List PositionRow} {iid : String}

theorem get_byId :
    (byId rows).get iid =
      rows.reverse.find? fun row ↦ decide (positionInstrumentId row = some iid) := by
  induction rows using reverseRecOn with
  | nil => rfl
  | append_singleton rows row ih =>
    have hconcat : byId (rows ++ [row]) = addRow (byId rows) row := by simp [byId]
    rw [hconcat, reverse_append, reverse_singleton, singleton_append, find?_cons]
    cases hkey : positionInstrumentId row with
    | none => simpa [addRow, hkey] using ih
    | some own =>
      simp only [addRow, hkey, Dict.get_set, ih]
      by_cases hsame : own = iid <;> simp [hsame]

variable {iid : String} {row : PositionRow}

theorem positionInstrumentId_of_get
    (hrow : (byId rows).get iid = some row) : positionInstrumentId row = some iid := by
  rw [get_byId] at hrow
  simpa using find?_some hrow

theorem mem_of_get_byId (hrow : (byId rows).get iid = some row) : row ∈ rows := by
  rw [get_byId] at hrow
  exact mem_reverse.1 (mem_of_find?_eq_some hrow)

theorem get_byId_eq_none_iff :
    (byId rows).get iid = none ↔ ∀ row ∈ rows, positionInstrumentId row ≠ some iid := by
  rw [get_byId]
  simp

theorem get_byId_bookRows {cache : TradingCache} :
    (byId (bookRows cache)).get iid = (cache.positions.get iid).map rowOf := by
  cases hheld : cache.positions.get iid with
  | none =>
    rw [map_none, get_byId_eq_none_iff]
    intro row hrow hkey
    obtain ⟨pos, hpos, rfl⟩ := mem_map.1 hrow
    obtain ⟨own, hown⟩ := Dict.exists_get_of_mem_values hpos
    have hown' : pos.instrument.instrumentId = own := cache.positions_keyed own pos hown
    have hiid : pos.instrument.instrumentId = iid := some.inj hkey
    rw [← hown', hiid, hheld] at hown
    cases hown
  | some pos =>
    cases hrow : (byId (bookRows cache)).get iid with
    | none =>
      rw [get_byId_eq_none_iff] at hrow
      have hkey := cache.positions_keyed iid pos hheld
      have hmem : rowOf pos ∈ bookRows cache := mem_map_of_mem (Dict.mem_values_of_get hheld)
      exact absurd (congrArg some hkey) (hrow _ hmem)
    | some row =>
      have hkey := positionInstrumentId_of_get hrow
      rw [get_byId] at hrow
      have hmem := mem_reverse.1 (mem_of_find?_eq_some hrow)
      obtain ⟨other, hother, rfl⟩ := mem_map.1 hmem
      obtain ⟨own, hown⟩ := Dict.exists_get_of_mem_values hother
      have hown' : other.instrument.instrumentId = own := cache.positions_keyed own other hown
      have hiid : other.instrument.instrumentId = iid := some.inj hkey
      rw [← hown', hiid, hheld] at hown
      rw [map_some, some.inj hown]

variable {rows : Dict String PositionRow}

theorem mem_sortedIds : iid ∈ sortedIds rows ↔ (rows.get iid).isSome := by
  rw [sortedIds, mem_insertionSort, ← not_iff_not, ← Dict.lookupEntries_eq_none_iff]
  cases hget : rows.get iid <;> simp [Dict.get] at hget ⊢ <;> simp [hget]

theorem nodup_sortedIds : (sortedIds rows).Nodup :=
  (perm_insertionSort _ _).nodup_iff.2 rows.nodupKeys

namespace Verdict

def adopted : Verdict → Option Position
  | adopt pos _ => some pos
  | _ => none

def kept : Verdict → Option PositionRow
  | retain row => some row
  | _ => none

def flattened : Verdict → Option (Option Position)
  | clear flat _ => some flat
  | _ => none

def skippedFor : Verdict → Option SkipReason
  | skip why => some why
  | _ => none

end Verdict

namespace VenueAdoption

structure Follows (plan : VenueAdoption) (extra : Bool) (judged : String → Option Verdict) :
    Prop where
  positions : ∀ iid, plan.positions.get iid = (judged iid).bind Verdict.adopted
  retained : ∀ iid, plan.retained.get iid = (judged iid).bind Verdict.kept
  cleared : ∀ iid, plan.cleared.get iid = (judged iid).bind Verdict.flattened
  skipped : ∀ iid, plan.skipped.get iid =
    if extra = true ∧ unreadableInstrument = iid then some .unreadableInstrument
    else (judged iid).bind Verdict.skippedFor

variable {plan : VenueAdoption} {judged : String → Option Verdict}

theorem Follows.record (hfol : plan.Follows false judged)
    (hnew : judged iid = none) (verdict : Verdict) :
    (plan.record iid verdict).Follows false (update judged iid (some verdict)) := by
  have hupd : ∀ {Part : Type} (part : Verdict → Option Part) (dict : Dict String Part),
      (∀ other, dict.get other = (judged other).bind part) →
        (∀ val, part verdict = some val → ∀ other, (dict.set iid val).get other =
          (update judged iid (some verdict) other).bind part) ∧
        (part verdict = none → ∀ other, dict.get other =
          (update judged iid (some verdict) other).bind part) := by
    intro Part part dict hdict
    refine ⟨fun val hval other ↦ ?_, fun hnone other ↦ ?_⟩
    · rw [Dict.get_set]
      by_cases hsame : iid = other
      · subst hsame
        simp [hval]
      · have hother : other ≠ iid := fun heq ↦ hsame heq.symm
        simp [hsame, hother, hdict]
    · by_cases hsame : other = iid
      · subst hsame
        simp [hdict, hnew, hnone]
      · simp [hsame, hdict]
  have hposn := hupd Verdict.adopted plan.positions hfol.positions
  have hkeep := hupd Verdict.kept plan.retained hfol.retained
  have hclear := hupd Verdict.flattened plan.cleared hfol.cleared
  have hskip := hupd Verdict.skippedFor plan.skipped hfol.skipped
  cases verdict with
  | adopt pos prev => exact ⟨hposn.1 pos rfl, hkeep.2 rfl, hclear.2 rfl, hskip.2 rfl⟩
  | retain row => exact ⟨hposn.2 rfl, hkeep.1 row rfl, hclear.2 rfl, hskip.2 rfl⟩
  | clear flat prev => exact ⟨hposn.2 rfl, hkeep.2 rfl, hclear.1 flat rfl, hskip.2 rfl⟩
  | skip why => exact ⟨hposn.2 rfl, hkeep.2 rfl, hclear.2 rfl, hskip.1 why rfl⟩

end VenueAdoption

variable {judged : String → Option Verdict} {plan : VenueAdoption}

section Derivation

variable (ccy : Instrument → String) (held listed : Dict String PositionRow)
  (unpaid : Finset String)

def judge (iid : String) : Except TradingError (Option Verdict) :=
  match held.get iid with
  | some localRow => (judgeHeld ccy (decide (iid ∈ unpaid)) localRow (listed.get iid)).map some
  | none => .ok ((listed.get iid).bind (judgeVenueOnly ccy (decide (iid ∈ unpaid))))

def verdictOf (iid : String) : Option Verdict :=
  match judge ccy held listed unpaid iid with
  | .ok verdict => verdict
  | .error _ => none

def Raises (iid : String) : Prop :=
  ∃ err, judge ccy held listed unpaid iid = .error err

variable {ccy held listed unpaid} {first : String} {rest : List String}

variable {row : PositionRow} {before : String → Option Verdict} {verdict : Verdict}
  {ids : List String} {plan : VenueAdoption}

theorem verdictOf_of_judge {verdict : Option Verdict}
    (hjudge : judge ccy held listed unpaid iid = .ok verdict) :
    verdictOf ccy held listed unpaid iid = verdict := by
  rw [verdictOf, hjudge]

theorem recordHeld_eq (hrow : held.get iid = some row) :
    recordHeld ccy held listed unpaid plan iid =
      (judgeHeld ccy (decide (iid ∈ unpaid)) row (listed.get iid)).map (plan.record iid) := by
  rw [recordHeld, hrow]

theorem judge_of_held (hrow : held.get iid = some row) :
    judge ccy held listed unpaid iid =
      (judgeHeld ccy (decide (iid ∈ unpaid)) row (listed.get iid)).map some := by
  rw [judge, hrow]

def overlay (ids : List String) (judged before : String → Option Verdict) (iid : String) :
    Option Verdict :=
  if iid ∈ ids then judged iid else before iid

theorem overlay_cons {before : String → Option Verdict} (hfst : first ∉ rest) :
    overlay rest judged (update before first (judged first)) =
      overlay (first :: rest) judged before := by
  funext iid
  by_cases hsame : iid = first
  · subst hsame
    simp [overlay]
  · simp [overlay, hsame]

theorem update_fresh (hfst : first ∉ rest) (hnew : ∀ iid ∈ first :: rest, before iid = none)
    {verdict : Option Verdict} : ∀ iid ∈ rest, update before first verdict iid = none := by
  intro iid hiid
  have hne : iid ≠ first := fun heq ↦ hfst (heq ▸ hiid)
  rw [update_of_ne hne]
  exact hnew iid (mem_cons_of_mem _ hiid)

theorem judgeHeld_of_verdict (hrow : held.get iid = some row)
    (hver : judgeHeld ccy (decide (iid ∈ unpaid)) row (listed.get iid) = .ok verdict) :
    verdictOf ccy held listed unpaid iid = some verdict ∧ ¬ Raises ccy held listed unpaid iid := by
  have hjudge : judge ccy held listed unpaid iid = .ok (some verdict) := by
    rw [judge_of_held hrow, hver]
    rfl
  refine ⟨verdictOf_of_judge hjudge, ?_⟩
  rintro ⟨err, herr⟩
  rw [hjudge] at herr
  cases herr

theorem foldlM_recordHeld_ok {after : VenueAdoption} (hnd : ids.Nodup)
    (hheld : ∀ iid ∈ ids, (held.get iid).isSome) (hnew : ∀ iid ∈ ids, before iid = none)
    (hfol : plan.Follows false before)
    (hok : ids.foldlM (recordHeld ccy held listed unpaid) plan = .ok after) :
    after.Follows false (overlay ids (verdictOf ccy held listed unpaid) before) ∧
      ∀ iid ∈ ids, ¬ Raises ccy held listed unpaid iid := by
  induction ids generalizing plan before with
  | nil =>
    cases hok
    exact ⟨hfol, by simp⟩
  | cons first rest ih =>
    obtain ⟨hfst, hrest⟩ := nodup_cons.1 hnd
    obtain ⟨row, hrow⟩ := isSome_iff_exists.1 (hheld first mem_cons_self)
    rw [foldlM_cons, recordHeld_eq hrow] at hok
    obtain ⟨next, hnext, hok⟩ := except_bind_eq_ok hok
    obtain ⟨verdict, hver, rfl⟩ := except_map_eq_ok hnext
    obtain ⟨hjudged, hraise⟩ := judgeHeld_of_verdict hrow hver
    have hrec := hfol.record (hnew first mem_cons_self) verdict
    rw [← hjudged] at hrec
    have hnext := ih hrest (fun iid hiid ↦ hheld iid (mem_cons_of_mem _ hiid))
      (update_fresh hfst hnew) hrec hok
    rw [overlay_cons hfst] at hnext
    exact ⟨hnext.1, forall_mem_cons.2 ⟨hraise, hnext.2⟩⟩

variable {err : TradingError}

theorem foldlM_recordHeld_error (hheld : ∀ iid ∈ ids, (held.get iid).isSome)
    (herr : ids.foldlM (recordHeld ccy held listed unpaid) plan = .error err) :
    ∃ iid ∈ ids, Raises ccy held listed unpaid iid := by
  induction ids generalizing plan with
  | nil => cases herr
  | cons first rest ih =>
    obtain ⟨row, hrow⟩ := isSome_iff_exists.1 (hheld first mem_cons_self)
    rw [foldlM_cons, recordHeld_eq hrow] at herr
    cases hver : judgeHeld ccy (decide (first ∈ unpaid)) row (listed.get first) with
    | error raised =>
      refine ⟨first, mem_cons_self, raised, ?_⟩
      rw [judge_of_held hrow, hver]
      rfl
    | ok verdict =>
      rw [hver] at herr
      obtain ⟨iid, hiid, hraise⟩ := ih (fun iid hiid ↦ hheld iid (mem_cons_of_mem _ hiid)) herr
      exact ⟨iid, mem_cons_of_mem _ hiid, hraise⟩

theorem foldl_recordListed (hnd : ids.Nodup) (hheld : ∀ iid ∈ ids, held.get iid = none)
    (hnew : ∀ iid ∈ ids, before iid = none) (hfol : plan.Follows false before) :
    (ids.foldl (recordListed ccy listed unpaid) plan).Follows false
      (overlay ids (verdictOf ccy held listed unpaid) before) := by
  induction ids generalizing plan before with
  | nil => exact hfol
  | cons first rest ih =>
    obtain ⟨hfst, hrest⟩ := nodup_cons.1 hnd
    have hjudged : verdictOf ccy held listed unpaid first = (listed.get first).bind
        (judgeVenueOnly ccy (decide (first ∈ unpaid))) := by
      rw [verdictOf, judge, hheld first mem_cons_self]
    have hrec : (recordListed ccy listed unpaid plan first).Follows false
        (update before first (verdictOf ccy held listed unpaid first)) := by
      rw [recordListed, ← hjudged]
      cases hver : verdictOf ccy held listed unpaid first with
      | none =>
        have hsame : update before first none = before := by
          rw [← hnew first mem_cons_self, update_eq_self]
        rw [hsame]
        exact hfol
      | some verdict => exact hfol.record (hnew first mem_cons_self) verdict
    have hnext := ih hrest (fun iid hiid ↦ hheld iid (mem_cons_of_mem _ hiid))
      (update_fresh hfst hnew) hrec
    rw [overlay_cons hfst] at hnext
    exact hnext

variable {localRows venueRows : List PositionRow}

theorem overlay_eq_verdictOf :
    overlay (venueOnlyIds held listed) (verdictOf ccy held listed unpaid)
      (overlay (sortedIds held) (verdictOf ccy held listed unpaid) fun _ ↦ none) =
        verdictOf ccy held listed unpaid := by
  funext iid
  by_cases hheld : iid ∈ sortedIds held
  · by_cases hlist : iid ∈ venueOnlyIds held listed <;> simp [overlay, hheld]
  · have hnone : held.get iid = none := by
      rw [mem_sortedIds, not_isSome_iff_eq_none] at hheld
      exact hheld
    by_cases hlist : iid ∈ venueOnlyIds held listed
    · simp [overlay, hlist]
    · have hunlisted : listed.get iid = none := by
        rw [venueOnlyIds, mem_filter, mem_sortedIds, hnone] at hlist
        simpa using hlist
      simp [overlay, verdictOf, judge, hnone, hunlisted]

theorem VenueAdoption.Follows.recordUnreadable
    (hfol : plan.Follows false judged) (venueRows : List PositionRow) :
    (recordUnreadable venueRows plan).Follows
      (venueRows.any fun row ↦ (positionInstrumentId row).isNone) judged := by
  unfold Execution.recordUnreadable
  split
  · rename_i hnew
    refine ⟨hfol.positions, hfol.retained, hfol.cleared, fun iid ↦ ?_⟩
    have hskip := hfol.skipped iid
    simp only [VenueAdoption.record, Dict.get_set, hnew, hskip]
    simp
  · rename_i hread
    rw [Bool.not_eq_true] at hread
    rw [hread]
    exact hfol

theorem deriveVenueAdoption_ok
    (hok : deriveVenueAdoption ccy localRows venueRows unpaid = .ok plan) :
    plan.Follows (venueRows.any fun row ↦ (positionInstrumentId row).isNone)
        (verdictOf ccy (byId localRows) (byId venueRows) unpaid) ∧
      ∀ iid, ¬ Raises ccy (byId localRows) (byId venueRows) unpaid iid := by
  obtain ⟨middle, hloop, rfl⟩ := except_map_eq_ok hok
  obtain ⟨hmid, hrse⟩ := foldlM_recordHeld_ok nodup_sortedIds
    (fun _ ↦ mem_sortedIds.1) (fun _ _ ↦ rfl)
    ⟨fun _ ↦ rfl, fun _ ↦ rfl, fun _ ↦ rfl, fun _ ↦ rfl⟩ hloop
  have hvenue : ∀ iid ∈ venueOnlyIds (byId localRows) (byId venueRows),
      (byId localRows).get iid = none := fun iid hiid ↦
    isNone_iff_eq_none.1 (mem_filter.1 hiid).2
  have hnew : ∀ iid ∈ venueOnlyIds (byId localRows) (byId venueRows),
      overlay (sortedIds (byId localRows))
        (verdictOf ccy (byId localRows) (byId venueRows) unpaid)
        (fun _ ↦ none) iid = none := by
    intro iid hiid
    have hnot : iid ∉ sortedIds (byId localRows) := by
      rw [mem_sortedIds, hvenue iid hiid]
      simp
    exact if_neg hnot
  have hlast : ((venueOnlyIds (byId localRows) (byId venueRows)).foldl
      (recordListed ccy (byId venueRows) unpaid) middle).Follows false _ :=
    foldl_recordListed (nodup_sortedIds.filter _) hvenue hnew hmid
  rw [overlay_eq_verdictOf] at hlast
  refine ⟨hlast.recordUnreadable venueRows, fun iid hraise ↦ ?_⟩
  by_cases hheld : iid ∈ sortedIds (byId localRows)
  · exact hrse iid hheld hraise
  · obtain ⟨err, herr⟩ := hraise
    rw [mem_sortedIds, not_isSome_iff_eq_none] at hheld
    rw [judge, hheld] at herr
    cases herr

theorem deriveVenueAdoption_error
    (herr : deriveVenueAdoption ccy localRows venueRows unpaid = .error err) :
    ∃ iid, Raises ccy (byId localRows) (byId venueRows) unpaid iid := by
  rw [deriveVenueAdoption] at herr
  cases hloop : (sortedIds (byId localRows)).foldlM (recordHeld ccy (byId localRows)
      (byId venueRows) unpaid) .empty with
  | error raised =>
    obtain ⟨iid, -, hraise⟩ := foldlM_recordHeld_error (fun _ ↦ mem_sortedIds.1) hloop
    exact ⟨iid, hraise⟩
  | ok middle =>
    rw [hloop] at herr
    cases herr

theorem deriveVenueAdoption_raises_iff :
    (∃ err, deriveVenueAdoption ccy localRows venueRows unpaid = .error err) ↔
      ∃ iid, Raises ccy (byId localRows) (byId venueRows) unpaid iid := by
  constructor
  · rintro ⟨err, herr⟩
    exact deriveVenueAdoption_error herr
  · rintro ⟨iid, hraise⟩
    cases hderiv : deriveVenueAdoption ccy localRows venueRows unpaid with
    | error err => exact ⟨err, rfl⟩
    | ok plan => exact absurd hraise ((deriveVenueAdoption_ok hderiv).2 iid)

def isFlat (row : PositionRow) : Bool :=
  match venueQuantity row with
  | some qty => decide (qty.toRat = 0)
  | none => false

theorem isFlat_iff {qty : Decimal}
    (hqty : venueQuantity row = some qty) : isFlat row = true ↔ qty.toRat = 0 := by
  rw [isFlat, hqty, decide_eq_true_iff]

theorem venueQuantity_of_isFlat (hflat : isFlat row = true) :
    ∃ qty, venueQuantity row = some qty ∧ qty.toRat = 0 := by
  cases hqty : venueQuantity row with
  | none => simp [isFlat, hqty] at hflat
  | some qty => exact ⟨qty, rfl, (isFlat_iff hqty).1 hflat⟩

variable {pending : Bool} {localRow venueRow : PositionRow}

theorem judgeVenueOnly_isSome {venueRow : PositionRow} :
    (judgeVenueOnly ccy pending venueRow).isSome = !isFlat venueRow := by
  cases hqty : venueQuantity venueRow with
  | none => simp [judgeVenueOnly, isFlat, hqty]
  | some qty =>
    by_cases hflat : qty.toRat = 0
    · simp [judgeVenueOnly, isFlat, hqty, hflat]
    · simp only [judgeVenueOnly, isFlat, hqty, hflat, if_false]
      split
      · rfl
      · split <;> rfl

theorem verdictOf_isSome (hraise : ¬ Raises ccy held listed unpaid iid) :
    (verdictOf ccy held listed unpaid iid).isSome ↔
      (held.get iid).isSome ∨ ∃ row, listed.get iid = some row ∧ isFlat row = false := by
  cases hheld : held.get iid with
  | none =>
    rw [verdictOf, judge, hheld]
    cases hlist : listed.get iid with
    | none => simp
    | some row => simp [judgeVenueOnly_isSome]
  | some row =>
    cases hver : judgeHeld ccy (decide (iid ∈ unpaid)) row (listed.get iid) with
    | error err =>
      refine absurd ⟨err, ?_⟩ hraise
      rw [judge_of_held hheld, hver]
      rfl
    | ok verdict => simp [(judgeHeld_of_verdict hheld hver).1]

def PriceReading.NotANumber (price : PriceReading) : Prop := price = .unreadable ∨ price = .nan

/-- The quantities are equal and the comparison of the prices raises. -/
def Incomparable (localRow venueRow : PositionRow) : Prop :=
  ∃ own venue, venueQuantity localRow = some own ∧ venueQuantity venueRow = some venue ∧
    venue.toRat = own.toRat ∧ localRow.avgPrice ≠ .absent ∧ venueRow.avgPrice ≠ .absent ∧
    (localRow.avgPrice.NotANumber ∨ venueRow.avgPrice.NotANumber ∨
      ∃ negative, localRow.avgPrice = .infinite negative ∧ venueRow.avgPrice = .infinite negative)

theorem agreesOnPrice_raises_iff :
    (∃ err, agreesOnPrice localRow venueRow = .error err) ↔
      localRow.avgPrice ≠ .absent ∧ venueRow.avgPrice ≠ .absent ∧
        (localRow.avgPrice.NotANumber ∨ venueRow.avgPrice.NotANumber ∨ ∃ negative,
          localRow.avgPrice = .infinite negative ∧ venueRow.avgPrice = .infinite negative) := by
  rw [agreesOnPrice]
  cases localRow.avgPrice <;> cases venueRow.avgPrice <;> simp [PriceReading.NotANumber]
  -- two infinities are left, and only equal ones raise
  split <;> simp_all [eq_comm]

theorem raises_iff :
    Raises ccy held listed unpaid iid ↔
      ∃ localRow venueRow, held.get iid = some localRow ∧ listed.get iid = some venueRow ∧
        Incomparable localRow venueRow := by
  cases hheld : held.get iid with
  | none => simp [Raises, judge, hheld]
  | some localRow =>
    rw [Raises, judge_of_held hheld]
    cases hlist : listed.get iid with
    | none => simp [judgeHeld, Except.map]
    | some venueRow =>
      simp only [some.injEq, Incomparable, ← agreesOnPrice_raises_iff]
      cases hvenue : venueQuantity venueRow with
      | none => simp [judgeHeld, hvenue, Except.map]
      | some venue =>
        cases hown : venueQuantity localRow with
        | none => simp [judgeHeld, hown, Except.map]
        | some own =>
          by_cases hsame : venue.toRat = own.toRat
          · cases hprice : agreesOnPrice localRow venueRow <;>
              simp [judgeHeld, hvenue, hown, agrees, hsame, hprice, Except.map]
          · simp [judgeHeld, hvenue, hown, agrees, hsame, Except.map]

variable {localRow : PositionRow}

theorem of_judgeHeld {listedRow : Option PositionRow}
    (hver : judgeHeld ccy pending localRow listedRow = .ok verdict) :
    (∃ why, verdict = .skip why) ∨ verdict = .retain localRow ∨
      ∃ venueRow venue own, listedRow = some venueRow ∧ venueQuantity venueRow = some venue ∧
        venueQuantity localRow = some own ∧ agrees localRow venueRow own venue = .ok false ∧
        verdict = correct ccy pending localRow venueRow venue := by
  unfold judgeHeld at hver
  split at hver
  · cases hver
    exact .inl ⟨_, rfl⟩
  next venueRow =>
    split at hver
    next venue own hvenue hown =>
      obtain ⟨same, hagree, rfl⟩ := except_map_eq_ok hver
      cases same with
      | true => exact .inr (.inl rfl)
      | false => exact .inr (.inr ⟨venueRow, venue, own, rfl, hvenue, hown, hagree, rfl⟩)
    next =>
      cases hver
      exact .inl ⟨_, rfl⟩

theorem correct_cases {venue : Decimal} :
    (∃ why, correct ccy pending localRow venueRow venue = .skip why) ∨
      (pending = false ∧ venue.toRat = 0 ∧ correct ccy pending localRow venueRow venue =
        .clear ((flatPosition ccy localRow).or (flatPosition ccy venueRow)) localRow) ∨
      ∃ pos, pending = false ∧ venue.toRat ≠ 0 ∧
        adoptedPosition ccy (some localRow) venueRow = some pos ∧
        correct ccy pending localRow venueRow venue = .adopt pos (some localRow) := by
  unfold correct
  cases pending with
  | true => exact .inl ⟨_, rfl⟩
  | false =>
    simp only [Bool.false_eq_true, if_false]
    by_cases hflat : venue.toRat = 0
    · simp only [if_pos hflat]
      exact .inr (.inl ⟨trivial, hflat, trivial⟩)
    · simp only [if_neg hflat]
      cases hadopt : adoptedPosition ccy (some localRow) venueRow with
      | none => exact .inl ⟨_, rfl⟩
      | some pos => exact .inr (.inr ⟨pos, trivial, hflat, rfl, rfl⟩)

theorem of_verdictOf_held (hheld : held.get iid = some localRow)
    (hver : verdictOf ccy held listed unpaid iid = some verdict) :
    (∃ why, verdict = .skip why) ∨ verdict = .retain localRow ∨
      ∃ venueRow venue own, listed.get iid = some venueRow ∧ venueQuantity venueRow = some venue ∧
        venueQuantity localRow = some own ∧ agrees localRow venueRow own venue = .ok false ∧
        verdict = correct ccy (decide (iid ∈ unpaid)) localRow venueRow venue := by
  cases hown : judgeHeld ccy (decide (iid ∈ unpaid)) localRow (listed.get iid) with
  | error err =>
    rw [verdictOf, judge_of_held hheld, hown] at hver
    cases hver
  | ok judged =>
    rw [(judgeHeld_of_verdict hheld hown).1] at hver
    cases hver
    exact of_judgeHeld hown

theorem of_verdictOf_venueOnly (hheld : held.get iid = none)
    (hver : verdictOf ccy held listed unpaid iid = some verdict) :
    (∃ why, verdict = .skip why) ∨
      ∃ venueRow qty pos, listed.get iid = some venueRow ∧
        venueQuantity venueRow = some qty ∧ qty.toRat ≠ 0 ∧ iid ∉ unpaid ∧
        adoptedPosition ccy none venueRow = some pos ∧
        verdict = .adopt pos none := by
  rw [verdictOf, judge, hheld] at hver
  obtain ⟨venueRow, hlist, hvenue⟩ := bind_eq_some_iff.1 hver
  unfold judgeVenueOnly at hvenue
  split at hvenue
  · cases hvenue
    exact .inl ⟨_, rfl⟩
  next qty hqty =>
    split_ifs at hvenue with hflat hpend
    · cases hvenue
      exact .inl ⟨_, rfl⟩
    · split at hvenue
      · cases hvenue
        exact .inl ⟨_, rfl⟩
      next written hadopt =>
        cases hvenue
        exact .inr ⟨venueRow, qty, written, hlist, hqty, hflat,
          by simpa using hpend, hadopt, rfl⟩

theorem of_verdictOf_adopt {pos : Position} {prev : Option PositionRow}
    (hver : verdictOf ccy held listed unpaid iid = some (.adopt pos prev)) :
    iid ∉ unpaid ∧ ∃ venueRow qty, listed.get iid = some venueRow ∧
      venueQuantity venueRow = some qty ∧ qty.toRat ≠ 0 ∧
      adoptedPosition ccy (held.get iid) venueRow = some pos := by
  cases hheld : held.get iid with
  | some localRow =>
    rcases of_verdictOf_held hheld hver with ⟨_, hskip⟩ | hkeep |
      ⟨venueRow, venue, own, hlist, hvenue, -, -, hcorr⟩
    · cases hskip
    · cases hkeep
    rcases correct_cases with
      ⟨_, hskip⟩ | ⟨-, -, hclear⟩ | ⟨written, hpend, hnz, hadp, hadopt⟩
    · cases hcorr.trans hskip
    · cases hcorr.trans hclear
    · cases hcorr.trans hadopt
      exact ⟨by simpa using hpend, venueRow, venue, hlist, hvenue, hnz, hadp⟩
  | none =>
    rcases of_verdictOf_venueOnly hheld hver with ⟨_, hskip⟩ |
      ⟨venueRow, qty, written, hlist, hqty, hnz, hsettle, hadp, hadopt⟩
    · cases hskip
    · cases hadopt
      exact ⟨hsettle, venueRow, qty, hlist, hqty, hnz, hadp⟩

theorem of_verdictOf_clear {flat : Option Position} {prev : PositionRow}
    (hver : verdictOf ccy held listed unpaid iid = some (.clear flat prev)) :
    iid ∉ unpaid ∧ held.get iid = some prev ∧ ∃ venueRow qty own,
      listed.get iid = some venueRow ∧ venueQuantity venueRow = some qty ∧
      qty.toRat = 0 ∧ venueQuantity prev = some own ∧
      agrees prev venueRow own qty = .ok false ∧
      flat = (flatPosition ccy prev).or (flatPosition ccy venueRow) := by
  cases hheld : held.get iid with
  | none =>
    rcases of_verdictOf_venueOnly hheld hver with ⟨_, hskip⟩ | ⟨_, _, _, -, -, -, -, -, hadopt⟩
    · cases hskip
    · cases hadopt
  | some localRow =>
    rcases of_verdictOf_held hheld hver with ⟨_, hskip⟩ | hkeep |
      ⟨venueRow, venue, own, hlist, hvenue, hown, hagree, hcorr⟩
    · cases hskip
    · cases hkeep
    rcases correct_cases with
      ⟨_, hskip⟩ | ⟨hpend, hflat, hclear⟩ | ⟨_, -, -, -, hadopt⟩
    · cases hcorr.trans hskip
    · cases hcorr.trans hclear
      exact ⟨by simpa using hpend, rfl, venueRow, venue, own, hlist, hvenue, hflat, hown,
        hagree, rfl⟩
    · cases hcorr.trans hadopt

end Derivation

def VenueAdoption.bucketsOf (plan : VenueAdoption) (iid : String) : ℕ :=
  [(plan.positions.get iid).isSome, (plan.retained.get iid).isSome,
    (plan.cleared.get iid).isSome, (plan.skipped.get iid).isSome].count true

theorem VenueAdoption.Follows.bucketsOf {extra : Bool} (hfol : plan.Follows extra judged)
    (hname : ¬ (extra = true ∧ unreadableInstrument = iid)) :
    plan.bucketsOf iid = if (judged iid).isSome then 1 else 0 := by
  rw [VenueAdoption.bucketsOf, hfol.positions, hfol.retained, hfol.cleared,
    hfol.skipped, if_neg hname]
  cases judged iid with
  | none => rfl
  | some verdict => cases verdict <;> rfl

end Tradex.Execution

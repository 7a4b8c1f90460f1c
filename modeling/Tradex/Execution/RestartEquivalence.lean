import Tradex.Execution.PipelineRules
import Tradex.Execution.Recovery

/-!
# A restart rebuilds the live book

With opening cash, a store that never fails and positions of its own, the log of every run replays
to the live positions, cash, fees and orders, but an order that was filled after its cancellation is
recovered as cancelled.
-/

namespace Tradex.Execution.RestartEquivalence

open Tradex.Domain Engine Recovery Program TradingCache PositionAccountant DomainEvent Decimal List

def carriageStep (oid : String) (st : Option Order × Bool) (ev : DomainEvent) :
    Option Order × Bool :=
  match ev.carriedOrder, ev.reportedFill with
  | some order, _ => if order.orderId = oid then (some order, false) else st
  | none, some fill => if fill.orderId = oid then (st.1, true) else st
  | none, none => st

variable (log : List DomainEvent)

def carriage (oid : String) : Option Order × Bool :=
  log.foldl (carriageStep oid) (none, false)

def LateFilled (oid : String) : Prop :=
  (carriage log oid).1.map Order.status = some .cancelled ∧ (carriage log oid).2 = true

instance (log : List DomainEvent) (oid : String) : Decidable (LateFilled log oid) :=
  inferInstanceAs (Decidable (_ ∧ _))

variable {oid : String} {ev : DomainEvent}

theorem carriage_append {log : List DomainEvent} :
    carriage (log ++ [ev]) oid = carriageStep oid (carriage log oid) ev := by
  rw [carriage, foldl_append]
  rfl

structure OrderAgrees (log : List DomainEvent) (orderId : String) (recovered live : Option Order) :
    Prop where
  same : ¬ LateFilled log orderId → recovered = live
  carried : (carriage log orderId).1.map Order.status = some .cancelled →
    recovered = (carriage log orderId).1
  cancelled : ∀ order, live = some order → order.status = .cancelled →
    (carriage log orderId).1.map Order.status = some .cancelled

theorem OrderAgrees.congr {log extended : List DomainEvent}
    {recovered live : Option Order} (hagree : OrderAgrees log oid recovered live)
    (hcarry : carriage extended oid = carriage log oid) :
    OrderAgrees extended oid recovered live := by
  constructor
  · simpa only [LateFilled, hcarry] using hagree.same
  · simpa only [hcarry] using hagree.carried
  · simpa only [hcarry] using hagree.cancelled

def Anchored (opening : Decimal) (log : List DomainEvent) (ledger : Option CashLedger) : Prop :=
  ∃ events folded live, log = .cashAccountInitialized opening :: events ∧
    (∀ ev ∈ events, isAnchor ev = false) ∧
    events.foldlM plainCash { cash := opening, allowNegative := true } = .ok folded ∧
    ledger = some live ∧ folded.allowNegative = true ∧
    folded.cash.toRat = live.cash.toRat ∧ folded.totalFees.toRat = live.totalFees.toRat

structure SyncAt (opening : Decimal) (log : List DomainEvent) (cache : TradingCache)
    (ledger : Option CashLedger) (dedup : FillDedup) : Prop where
  replayed : ∃ recovered, plainReplay TradingCache.empty log = .ok recovered ∧
    recovered.positions = cache.positions ∧
    ∀ orderId, OrderAgrees log orderId (recovered.getOrder orderId) (cache.getOrder orderId)
  distinct : (identities log).Nodup
  recorded : ∀ fill ∈ reportedFills log, fingerprint fill ∈ dedup.lru
  anchored : Anchored opening log ledger

variable {fee : Decimal}

section

variable {left right : TradingCache} {fill : Fill}

section

variable (hpositions : left.positions = right.positions)

include hpositions

theorem positions_onFill_congr :
    (onFill left fill).2.positions = (onFill right fill).2.positions := by
  simp [onFill, updatePosition, getPosition, hpositions]

theorem positions_onFee_congr {fee : Money} :
    (onFee left fill fee).2.positions = (onFee right fill fee).2.positions := by
  simp only [onFee, getPosition, hpositions]
  split
  · exact hpositions
  · simp [updatePosition, hpositions]

theorem positions_replayPosition (hfee : 0 ≤ fee.toRat) :
    (replayPosition left fill (some fee)).positions = (bookPosition right fill fee).positions := by
  have hfill : (onFill left fill).2.positions =
      (onFill right fill).2.positions := positions_onFill_congr hpositions
  unfold replayPosition bookPosition
  dsimp only
  by_cases hzero : fee.toRat = 0
  · have hnot_pos : ¬ (0 : Decimal) < fee := by
      rw [lt_iff, toRat_zero, hzero]
      exact lt_irrefl 0
    rw [if_neg (not_not.2 hzero), if_neg hnot_pos]
    exact hfill
  · have hpos : (0 : Decimal) < fee := by
      rw [lt_iff, toRat_zero]
      exact lt_of_le_of_ne hfee (Ne.symm hzero)
    rw [if_pos hzero, if_pos hpos]
    exact positions_onFee_congr hfill

end

@[simp] theorem getOrder_replayPosition (cache : TradingCache) (charge : Option Decimal)
    (oid : String) :
    (replayPosition cache fill charge).getOrder oid = cache.getOrder oid := by
  unfold replayPosition onFee
  cases charge with
  | none => rfl
  | some fee =>
    dsimp only
    split
    · split <;> rfl
    · rfl

theorem filledOrder_stub (hqty : 0 < fill.quantity.toRat) :
    filledOrder (stubOrder fill) fill = .ok (stubOrder fill) := by
  have hleft : (fill.quantity - fill.quantity).toRat < fill.quantity.toRat := by
    rw [toRat_sub, sub_self]
    exact hqty
  have hdelta : fillDelta (stubOrder fill) fill = fill.quantity - fill.quantity := if_pos hleft
  have hafter : filledAfter (stubOrder fill) fill = fill.quantity := by
    rw [filledAfter, hdelta, sub_self_eq]
    exact add_zero_at
  have hstat : statusAfter (stubOrder fill) fill = .filled := by
    rw [statusAfter, hafter]
    exact if_pos (le_refl fill.quantity.toRat)
  rw [filledOrder, hstat, hafter]
  rfl

end

section

variable {opening : Decimal} {log : List DomainEvent} {cache : TradingCache}
  {ledger : Option CashLedger} {dedup : FillDedup} {ev : DomainEvent} {advanced : Order}
  {recovered : TradingCache}

theorem plainReplay_snoc {next : TradingCache} (hlog : plainReplay empty log = .ok recovered)
    (hev : plainEvent recovered ev = .ok next) :
    plainReplay empty (log ++ [ev]) = .ok next := by
  rw [plainReplay, foldlM_append, ← plainReplay, hlog]
  show plainReplay recovered [ev] = .ok next
  unfold plainReplay
  rw [foldlM_cons, hev]
  rfl

theorem anchored_snoc (hanc : isAnchor ev = false) {moved : CashLedger → CashLedger}
    (hcash : ∀ folded live : CashLedger, folded.allowNegative = true →
      folded.cash.toRat = live.cash.toRat → folded.totalFees.toRat = live.totalFees.toRat →
      ∃ after, plainCash folded ev = .ok after ∧ after.allowNegative = true ∧
        after.cash.toRat = (moved live).cash.toRat ∧
        after.totalFees.toRat = (moved live).totalFees.toRat)
    (hanchored : Anchored opening log ledger) :
    Anchored opening (log ++ [ev]) (ledger.map moved) := by
  obtain ⟨events, folded, live, rfl, hancs, hfold, rfl, hfloor, hval, hfees⟩ := hanchored
  obtain ⟨after, hafter, hafterFloor, hafterCash, hafterFees⟩ := hcash folded live hfloor hval hfees
  refine ⟨events ++ [ev], after, moved live, rfl, ?_, ?_, rfl, hafterFloor, hafterCash, hafterFees⟩
  · intro other hother
    rcases mem_append.1 hother with hold | hnew
    · exact hancs other hold
    · rw [mem_singleton.1 hnew]
      exact hanc
  · rw [foldlM_append, hfold]
    show foldlM plainCash folded [ev] = .ok after
    rw [foldlM_cons, hafter]
    rfl

theorem anchored_snoc_same (hanc : isAnchor ev = false)
    (hcash : ∀ folded, plainCash folded ev = .ok folded)
    (hanchored : Anchored opening log ledger) : Anchored opening (log ++ [ev]) ledger := by
  have hsame := anchored_snoc hanc
    (fun folded live hfloor hval hfees ↦ ⟨folded, hcash folded, hfloor, hval, hfees⟩) hanchored
  rwa [Option.map_id'] at hsame

section

variable (hsync : SyncAt opening log cache ledger dedup)

include hsync

theorem SyncAt.reorder {asked : FillDedup}
    (hmem : ∀ key, key ∈ asked.lru ↔ key ∈ dedup.lru) : SyncAt opening log cache ledger asked where
  replayed := hsync.replayed
  distinct := hsync.distinct
  recorded := fun fill hfill ↦ (hmem _).2 (hsync.recorded fill hfill)
  anchored := hsync.anchored

theorem SyncAt.note (ev : DomainEvent)
    (hnote : isNote ev = true) : SyncAt opening (log ++ [ev]) cache ledger dedup := by
  have hrep : ev.reportedFill = none := by cases ev <;> simp_all [isNote, reportedFill]
  have hcarry : ∀ oid, carriage (log ++ [ev]) oid = carriage log oid := by
    intro oid
    rw [carriage_append]
    cases ev <;> simp_all [isNote, carriageStep, carriedOrder]
  obtain ⟨recovered, hreplay, hpositions, hords⟩ := hsync.replayed
  refine ⟨⟨recovered, plainReplay_snoc hreplay ?_, hpositions, fun oid ↦ ?_⟩, ?_, ?_, ?_⟩
  · cases ev <;> simp_all [isNote, plainEvent, carriedOrder]
  · exact (hords oid).congr (hcarry oid)
  · rw [identities_snoc_of_none hrep]
    exact hsync.distinct
  · rw [reportedFills_snoc_of_none hrep]
    exact hsync.recorded
  · refine anchored_snoc_same ?_ (fun folded ↦ ?_) hsync.anchored
    · cases ev <;> simp_all [isNote, isAnchor]
    · cases ev <;> simp_all [isNote, plainCash]

theorem SyncAt.carrier (ev : DomainEvent)
    {order : Order} (hcarries : ev.carriedOrder = some order) :
    SyncAt opening (log ++ [ev]) (cache.updateOrder order) ledger dedup := by
  have hrep : ev.reportedFill = none := by cases ev <;> simp_all [carriedOrder, reportedFill]
  obtain ⟨recovered, hreplay, hpositions, hords⟩ := hsync.replayed
  refine ⟨⟨recovered.updateOrder order, plainReplay_snoc hreplay ?_, hpositions,
    fun oid ↦ ?_⟩, ?_, ?_, ?_⟩
  · simp [plainEvent, hcarries]
  · have hcarry : carriage (log ++ [ev]) oid =
        if order.orderId = oid then (some order, false) else carriage log oid := by
      rw [carriage_append, carriageStep, hcarries]
    by_cases hkey : order.orderId = oid
    · constructor <;> simp [hcarry, getOrder_updateOrder, hkey]
    · rw [if_neg hkey] at hcarry
      simp only [getOrder_updateOrder, if_neg hkey]
      exact (hords oid).congr hcarry
  · rw [identities_snoc_of_none hrep]
    exact hsync.distinct
  · rw [reportedFills_snoc_of_none hrep]
    exact hsync.recorded
  · refine anchored_snoc_same ?_ (fun folded ↦ ?_) hsync.anchored
    · cases ev <;> simp_all [carriedOrder, isAnchor]
    · cases ev <;> simp_all [carriedOrder, plainCash]

end

theorem replayOrder_agrees {fill : Fill} (hqty : 0 < fill.quantity.toRat)
    (hagree : OrderAgrees log fill.orderId (recovered.getOrder fill.orderId)
      (cache.getOrder fill.orderId))
    (hopen : ∀ order, cache.getOrder fill.orderId = some order → order.status ≠ .rejected)
    (hadv : advancedOrder (cache.getOrder fill.orderId) fill = .ok advanced) :
    ∃ known, replayOrder recovered fill = .ok known ∧ known.positions = recovered.positions ∧
      (∀ oid, oid ≠ fill.orderId → known.getOrder oid = recovered.getOrder oid) ∧
      if (carriage log fill.orderId).1.map Order.status = some .cancelled then
        known.getOrder fill.orderId = (carriage log fill.orderId).1
      else known.getOrder fill.orderId = some advanced := by
  by_cases hcanc : (carriage log fill.orderId).1.map Order.status = some .cancelled
  · have hcarry := hagree.carried hcanc
    obtain ⟨carrier, hcarrier, hstat⟩ := Option.map_eq_some_iff.1 hcanc
    rw [hcarrier] at hcarry
    refine ⟨recovered, ?_, rfl, fun _ _ ↦ rfl, ?_⟩
    · simp [replayOrder, hcarry, hstat, terminalAfterFill]
    · rw [if_pos hcanc, hcarry, hcarrier]
  · have hsame := hagree.same fun hlate ↦ hcanc hlate.1
    simp only [if_neg hcanc]
    cases hlive : cache.getOrder fill.orderId with
    | none =>
      rw [hlive] at hsame
      rw [hlive, advancedOrder, unknownFillOrder, dif_pos hqty] at hadv
      cases hadv
      refine ⟨(recovered.updateOrder (stubOrder fill)).updateOrder (stubOrder fill), ?_, rfl, ?_,
        ?_⟩
      · have hfillable : (stubOrder fill).status ∉ terminalAfterFill := by
          show OrderStatus.filled ∉ terminalAfterFill
          decide
        simp [replayOrder, hsame, filledOrder_stub hqty, hfillable, Except.map]
      · intro oid hother
        have hkey : (stubOrder fill).orderId ≠ oid := fun heq ↦ hother heq.symm
        simp [getOrder_updateOrder, if_neg hkey]
      · exact getOrder_updateOrder_self _ (stubOrder fill)
    | some order =>
      have hkey := orderId_advancedOrder hadv
      rw [hlive] at hsame
      rw [hlive, advancedOrder] at hadv
      have hfillable : order.status ∉ terminalAfterFill := by
        have hnot_cancelled : order.status ≠ .cancelled :=
          fun hstat ↦ hcanc (hagree.cancelled order hlive hstat)
        simp [terminalAfterFill, hnot_cancelled, hopen order hlive]
      refine ⟨recovered.updateOrder advanced, ?_, rfl, ?_, ?_⟩
      · simp [replayOrder, hsame, hfillable, hadv, Except.map]
      · intro oid hother
        have hnot_key : advanced.orderId ≠ oid := fun heq ↦ hother (heq.symm.trans hkey)
        simp [getOrder_updateOrder, if_neg hnot_key]
      · rw [← hkey]
        exact getOrder_updateOrder_self _ advanced

theorem status_advancedOrder {old : Option Order} {fill : Fill}
    (hadv : advancedOrder old fill = .ok advanced) : advanced.status ≠ .cancelled := by
  cases old with
  | none =>
    rw [(unknownFillOrder_ok hadv).2.2.2.2.2]
    decide
  | some order =>
    rw [filledOrder_ok hadv]
    dsimp only [statusAfter]
    split <;> decide

theorem SyncAt.fill (hsync : SyncAt opening log cache ledger dedup) {fill : Fill}
    (hqty : 0 < fill.quantity.toRat) (hfee : 0 ≤ fee.toRat)
    (hnew : fillIdentity fill ∉ identities log)
    (hopen : ∀ order, cache.getOrder fill.orderId = some order → order.status ≠ .rejected)
    (hadv : advancedOrder (cache.getOrder fill.orderId) fill = .ok advanced)
    {after : FillDedup} (hafter : ∀ key,
      key ∈ dedup.lru ∨ key = fingerprint fill → key ∈ after.lru) :
    SyncAt opening (log ++ [.orderFilled fill (some fee)])
      ((bookPosition cache fill fee).updateOrder advanced)
      (ledger.map fun live ↦ live.afterFill fill fee) after := by
  obtain ⟨recovered, hrep, hpositions, hords⟩ := hsync.replayed
  have hagree := hords fill.orderId
  obtain ⟨known, hknown, hknownPositions, hoth, hown⟩ := replayOrder_agrees hqty hagree hopen hadv
  have hkey := orderId_advancedOrder hadv
  have hcarry : ∀ oid,
      carriage (log ++ [.orderFilled fill (some fee)]) oid =
        if fill.orderId = oid then ((carriage log oid).1,
          true) else carriage log oid := by
    intro oid
    rw [carriage_append]
    rfl
  refine ⟨⟨replayPosition known fill (some fee), plainReplay_snoc hrep ?_, ?_,
    fun oid ↦ ?_⟩, ?_, ?_, ?_⟩
  · show replayFill recovered fill (some fee) = _
    rw [replayFill, hknown]
    rfl
  · exact positions_replayPosition (hknownPositions.trans hpositions) hfee
  · rw [getOrder_replayPosition, getOrder_updateOrder, getOrder_bookPosition, hkey]
    by_cases hsame : fill.orderId = oid
    · subst hsame
      have hmark := hcarry fill.orderId
      rw [if_pos rfl] at hmark
      rw [if_pos rfl]
      constructor
      · intro hnot_late
        have hnot_cancelled : (carriage log fill.orderId).1.map Order.status ≠ some .cancelled :=
          fun hcanc ↦ hnot_late ⟨by rwa [hmark], by rw [hmark]⟩
        rwa [if_neg hnot_cancelled] at hown
      · rw [hmark]
        intro hcanc
        rwa [if_pos hcanc] at hown
      · intro order horder hstat
        cases horder
        exact absurd hstat (status_advancedOrder hadv)
    · have hunm := hcarry oid
      rw [if_neg hsame] at hunm
      rw [if_neg hsame, hoth oid (Ne.symm hsame)]
      exact (hords oid).congr hunm
  · rw [identities_append]
    refine nodup_append.2 ⟨hsync.distinct, nodup_singleton _, ?_⟩
    intro identity hidentity other hother heq
    rw [mem_singleton.1 hother] at heq
    exact hnew (heq ▸ hidentity)
  · intro logged hlog
    rw [reportedFills_append, mem_append] at hlog
    rcases hlog with hold | hlast
    · exact hafter _ (Or.inl (hsync.recorded logged hold))
    · rw [mem_singleton.1 hlast]
      exact hafter _ (Or.inr rfl)
  · refine anchored_snoc rfl (fun folded live hfloor hval hfees ↦ ?_) hsync.anchored
    exact cashFill_value hfloor hval hfees

end

/-! ## Calls of the engine -/

structure Sync (opening : Decimal) (world : World) : Prop where
  durable : world.environment.Durable
  synced : SyncAt opening world.log world.cache world.ledger world.dedup

def Distinguishable (fill : Fill) : Prop :=
  ∀ logged ∈ reportedFills log, fillIdentity logged = fillIdentity fill →
    fingerprint logged = fingerprint fill

structure Sound (log : List DomainEvent) (dedup : FillDedup) (fill : Fill) : Prop where
  positive : 0 < fill.quantity.toRat
  distinguishable : Distinguishable log fill
  room : dedup.lru.length < dedup.maxSize

variable {opening : Decimal}

theorem SyncAt.identity_new {log : List DomainEvent} {cache : TradingCache}
    {ledger : Option CashLedger} {dedup : FillDedup} (hsync : SyncAt opening log cache ledger dedup)
    {fill : Fill} (hdist : Distinguishable log fill)
    (hnew : fingerprint fill ∉ dedup.lru) : fillIdentity fill ∉ identities log := by
  intro hidentity
  obtain ⟨logged, hlog, hsame⟩ := mem_map.1 hidentity
  rw [← hdist logged hlog hsame] at hnew
  exact hnew (hsync.recorded logged hlog)

section Calls

variable {cfg : EngineConfig} {opening : Decimal} {world : World}
  {fail : TradingError → World → Prop} (hstore : cfg.hasStore = true)

include hstore

theorem wp_append_logged (hdur : world.environment.Durable)
    {post : Bool → World → Prop} (hpost : post true { world with log := world.log ++ [ev] }) :
    wp (exec cfg) (append cfg ev) post fail world := by
  refine wp_append_durable hdur ?_
  rwa [appendedLog, if_pos hstore]

variable {req : OrderRequest} {resv : Option CorrelationId}

section

variable (hsync : Sync opening world)

include hsync

theorem sync_rejectIntake {why : String} :
    wp (exec cfg) (rejectIntake cfg req why resv)
      (fun _ ↦ Sync opening) (fun _ _ ↦ True) world := by
  simp only [rejectIntake, wp_bind, wp_releaseReservation]
  refine wp_append_logged hstore (by exact hsync.durable) ?_
  exact ⟨hsync.durable, hsync.synced.carrier _ rfl⟩

theorem sync_riskRejected :
    wp (exec cfg) (riskRejected cfg req resv) (fun _ ↦ Sync opening) (fun _ _ ↦ True) world := by
  simp only [riskRejected, wp_bind, wp_releaseReservation]
  refine wp_append_logged hstore (by exact hsync.durable) ?_
  refine wp_append_logged hstore (by exact hsync.durable) ?_
  have hnoted := hsync.synced.note (.riskDecision req false "risk_check_failed") rfl
  exact ⟨hsync.durable, hnoted.carrier _ rfl⟩

theorem sync_cancel {oid : String} {cid : Option CorrelationId} :
    wp (exec cfg) (cancel cfg oid cid) (fun _ ↦ Sync opening) (fun _ _ ↦ True) world := by
  simp only [cancel, cancelWith, wp_bind]
  refine wp_reserveOwn (fun replay guard ↦ ?_) (fun _ _ ↦ trivial)
  cases replay with
  | some res => exact ⟨hsync.durable, hsync.synced⟩
  | none =>
    simp only [wp_bind, wp_releasingOnFailure, cancelAtVenue, wp_act, exec]
    split
    · trivial
    · simp only [wp_bind, wp_ofExcept]
      split
      · rename_i cancelled _
        refine wp_append_logged hstore (by exact hsync.durable) ?_
        refine wp_venueCancel (fun cancels ↦ ?_) (fun _ _ ↦ trivial)
        rw [wp_pure]
        obtain ⟨orderIndex, hpub⟩ := World.publish_eq
          { world with
            guard := guard
            log := world.log ++ [.cancelRequested oid]
            cache := world.cache.updateOrder cancelled
            environment := { world.environment with cancels := cancels } }
          (.orderCancelled cancelled)
        rw [hpub]
        refine wp_append_logged hstore (by exact hsync.durable) ?_
        refine wp_releaseSubmitKey fun guard cidForOrder ↦ ?_
        simp only [wp_recordResult]
        have hnoted := hsync.synced.note (.cancelRequested oid) rfl
        exact ⟨hsync.durable, hnoted.carrier _ rfl⟩
      · trivial

theorem sync_modify {oid : String} :
    wp (exec cfg) (modify cfg oid req) (fun _ ↦ Sync opening) (fun _ _ ↦ True) world := by
  refine wp_modify hsync ?_ ?_ ?_ ?_ ?_ ?_
  · exact fun _ _ hkept ↦ ⟨hkept.durable, hkept.synced⟩
  · exact fun _ _ hkept ↦ ⟨hkept.durable, hkept.synced⟩
  · exact fun _ _ hkept ↦ ⟨hkept.durable, hkept.synced⟩
  · exact fun _ _ hkept ↦ hkept
  · exact fun _ _ _ ↦ trivial
  · intro world order hkept _ _ _
    simp only [recordModified, wp_bind]
    refine wp_append_logged hstore (by exact hkept.durable) ?_
    exact ⟨hkept.durable, hkept.synced.carrier _ rfl⟩

end

section

variable (howned : cfg.positionProjectionOwned = false) {order : Order}

include howned

theorem sync_applyFill (hsync : Sync opening world)
    {fill : Fill} {charge : Option Decimal} (hsound : Sound world.log world.dedup fill)
    (hrec : ∀ recorded, charge = some recorded → 0 ≤ recorded.toRat) :
    wp (exec cfg) (applyFill cfg fill charge) (fun _ ↦ Sync opening) (fun _ _ ↦ True) world := by
  refine wp_applyFill howned hsound.positive.le hrec ?_ ?_ ?_ ?_ ?_ ?_
  · intro hseen
    exact ⟨hsync.durable, hsync.synced.reorder fun key ↦ FillDedup.mem_moveToEnd hseen⟩
  · exact fun _ _ _ ↦ hsync
  · exact fun _ _ _ ↦ trivial
  · exact fun _ _ _ _ _ ↦ trivial
  · exact fun _ _ _ _ _ hfail ↦ absurd hfail (hsync.durable.not_appendFails cfg)
  · intro fee accrued hfresh hopen hchg _ _
    rw [wp_advanceOrder]
    cases hadv : advancedOrder (world.cache.getOrder fill.orderId) fill with
    | error err => trivial
    | ok advanced =>
      have hnew := hsync.synced.identity_new hsound.distinguishable hfresh
      have hfill := hsync.synced.fill hsound.positive (charged_nonneg hchg hrec) hnew
        hopen hadv fun key hkey ↦ (FillDedup.mem_checkAndRecord hsound.room).2 hkey
      refine ⟨?_, ?_⟩
      · show (world.environment.afterAppend cfg).Durable
        rw [hsync.durable.afterAppend cfg]
        exact hsync.durable
      · simpa only [doorBooked, World.settled, appendedLog, if_pos hstore] using hfill

theorem sync_settleSynchronousFill
    (hsync : Sync opening world) (req : OrderRequest) (resv : Option CorrelationId)
        {fill : Fill} (hcache : world.cache.getOrder fill.orderId = some order)
    (hsound : Sound world.log world.dedup fill) (hnew : fingerprint fill ∉ world.dedup.lru) :
    wp (exec cfg) (settleSynchronousFill cfg req resv order fill)
      (fun _ ↦ Sync opening) (fun _ _ ↦ True) world := by
  simp only [settleSynchronousFill, wp_bind, wp_releasingOnFailure, applyFillToBook]
  refine wp_computeFee howned (fun _ _ ↦ trivial) (fun fee accrued hchg ↦ ?_)
  refine wp_append_logged hstore (by exact hsync.durable) ?_
  simp only [if_true, wp_bind]
  cases hproof : world.requireCash fill fee with
  | error err => exact wp_applyFillEffect_of_refused howned hproof trivial
  | ok _ =>
    have hfee := computeFee_nonneg hchg
    refine wp_applyFillEffect_of_affordable howned hproof hfee hsound.positive.le ?_
    rw [wp_onOrderFilled]
    cases hfill : filledOrder order fill with
    | error err => trivial
    | ok filled =>
      have hadv : advancedOrder (world.cache.getOrder fill.orderId) fill = .ok filled := by
        rw [hcache]
        exact hfill
      have hopen : ∀ cached, world.cache.getOrder fill.orderId = some cached →
          cached.status ≠ .rejected := by
        intro cached hsame
        rw [hcache] at hsame
        cases hsame
        exact status_of_filledOrder hfill
      have hknown : ∀ key, key ∈ world.dedup.lru ∨ key = fingerprint fill →
          key ∈ (world.dedup.checkAndRecord fill).2.lru :=
        fun key hkey ↦ (FillDedup.mem_checkAndRecord hsound.room).2 hkey
      have hbook := hsync.synced.fill hsound.positive hfee
        (hsync.synced.identity_new hsound.distinguishable hnew) hopen hadv hknown
      simp only [wp_act, exec]
      refine wp_publishFilled_of_recorded (hknown _ (Or.inr rfl)) ?_
      simp only [wp_recordResult]
      exact ⟨hsync.durable, hbook.reorder fun key ↦ FillDedup.mem_moveToEnd (hknown _ (Or.inr rfl))⟩

theorem sync_acceptOrder (hsync : Sync opening world) {fill : Option Fill}
    (hfill : ∀ reported, fill = some reported → reported.orderId = order.orderId ∧
      fingerprint reported ∉ world.dedup.lru ∧ Sound world.log world.dedup reported) :
    wp (exec cfg) (acceptOrder cfg req resv order fill)
      (fun _ ↦ Sync opening) (fun _ _ ↦ True) world := by
  have hplace := hsync.synced.carrier (.orderPlaced order) rfl
  have hcache := getOrder_updateOrder_self world.cache order
  have hack := hplace.carrier (.brokerOrderAcknowledged order) rfl
  rw [updateOrder_of_getOrder hcache] at hack
  have hdur := hsync.durable.afterAppend cfg
  have hacc : ∀ orderIndex cidForOrder, acceptedWorld cfg world order orderIndex cidForOrder =
      { world with
        cache := world.cache.updateOrder order
        orderIndex := orderIndex
        log := world.log ++ [.orderPlaced order] ++ [.brokerOrderAcknowledged order]
        cidForOrder := cidForOrder } := by
    simp [acceptedWorld, appendedLog, if_pos hstore, hdur]
  refine wp_acceptOrder ?_ ?_ ?_ ?_
  · exact fun _ _ _ _ ↦ trivial
  · exact fun _ _ _ _ ↦ trivial
  · intro _ orderIndex cidForOrder guard
    rw [hacc]
    exact ⟨hsync.durable, hack⟩
  · intro reported hrep orderIndex cidForOrder
    obtain ⟨hid, hnew, hsound⟩ := hfill reported hrep
    rw [hacc]
    refine sync_settleSynchronousFill hstore howned ?_ req resv ?_ ?_ hnew
    · exact ⟨hsync.durable, hack⟩
    · rw [hid]
      exact hcache
    · refine ⟨hsound.positive, ?_, hsound.room⟩
      unfold Distinguishable
      rw [reportedFills_snoc_of_none rfl, reportedFills_snoc_of_none rfl]
      exact hsound.distinguishable

end

theorem sync_submissionRaised (hsync : Sync opening world) {err : TradingError}
    {latch : Option Bool} :
    wp (exec cfg) (submissionRaised cfg req resv err latch)
      (fun _ ↦ Sync opening) (fun _ _ ↦ True) world := by
  unfold submissionRaised
  split
  · -- An unknown outcome ends in a raise, whatever the kill switch does before.
    simp only [wp_bind, wp_makeOrder, wp_ofExcept]
    refine wp_append_logged hstore (by exact hsync.durable) ?_
    split
    · refine wp_append_logged hstore (by exact hsync.durable) ?_
      exact wp_mono halts_tripKillSwitch (fun _ _ _ ↦ trivial) (fun _ _ _ ↦ trivial)
    · trivial
  · exact sync_rejectIntake hstore hsync

def SoundAnswer (world : World) (req : OrderRequest) : Prop :=
  ∀ order fill, world.environment.submits 0 req = .accepted order (some fill) →
    fill.orderId = order.orderId ∧ fingerprint fill ∉ world.dedup.lru ∧
      Sound world.log world.dedup fill

structure Intake (opening : Decimal) (start world : World) : Prop where
  sync : Sync opening world
  submits : world.environment.submits = start.environment.submits
  dedup : world.dedup = start.dedup
  fills : reportedFills world.log = reportedFills start.log

theorem keptByGates_intake (start : World) :
    KeptByGates cfg (Intake opening start) where
  guard := fun _ _ htake ↦
    ⟨⟨htake.sync.durable, htake.sync.synced⟩, htake.submits, htake.dedup, htake.fills⟩
  feeds := fun _ _ htake ↦
    ⟨⟨htake.sync.durable, htake.sync.synced⟩, htake.submits, htake.dedup, htake.fills⟩
  risks := fun _ _ htake ↦
    ⟨⟨htake.sync.durable, htake.sync.synced⟩, htake.submits, htake.dedup, htake.fills⟩
  note := by
    intro world ev hnote htake
    refine wp_append_logged hstore htake.sync.durable ?_
    have hrep : ev.reportedFill = none := by cases ev <;> simp_all [isNote, reportedFill]
    refine ⟨⟨htake.sync.durable, htake.sync.synced.note ev hnote⟩, htake.submits, htake.dedup, ?_⟩
    rw [reportedFills_snoc_of_none hrep]
    exact htake.fills

theorem sync_submit (howned : cfg.positionProjectionOwned = false) (hsync : Sync opening world)
    (hans : SoundAnswer world req) :
    wp (exec cfg) (submit cfg req) (fun _ ↦ Sync opening) (fun _ _ ↦ True) world := by
  refine wp_submit (keptByGates_intake hstore world) ⟨hsync, rfl, rfl, rfl⟩ ?_ ?_ ?_ ?_ ?_
  · exact fun _ _ htake ↦ htake.sync
  · exact fun _ _ _ ↦ trivial
  · exact fun _ why resv htake ↦
      sync_rejectIntake hstore htake.sync
  · exact fun _ resv htake ↦ sync_riskRejected hstore htake.sync
  · intro called resv htake
    simp only [callVenue, wp_bind, wp_act, exec, World.venueSubmit]
    have hask : ∀ venueAccepted submits, Sync opening { called with
        venueAccepted := venueAccepted
        environment := { called.environment with submits := submits } } :=
      fun _ _ ↦ ⟨htake.sync.durable, htake.sync.synced⟩
    split
    · rename_i order fill hout
      refine sync_acceptOrder hstore howned (hask _ _) ?_
      rintro reported rfl
      rw [htake.submits] at hout
      obtain ⟨hid, hnew, hsound⟩ := hans order reported hout
      simp only [htake.dedup]
      refine ⟨hid, hnew, hsound.positive, ?_, hsound.room⟩
      unfold Distinguishable
      rw [htake.fills]
      exact hsound.distinguishable
    · exact sync_submissionRaised hstore (hask _ _)

def Admissible (world : World) : EngineCall → Prop
  | .submit req => SoundAnswer world req
  | .cancel _ _ => True
  | .modify _ _ => True
  | .inbound fill charge => Sound world.log world.dedup fill ∧
      ∀ recorded, charge = some recorded → 0 ≤ recorded.toRat

theorem sync_call (howned : cfg.positionProjectionOwned = false) (hsync : Sync opening world)
    {call : EngineCall} (hadm : Admissible world call)
    (hret : (call.run cfg world).1 = .ok ()) : Sync opening (call.run cfg world).2 := by
  have hcall : wp (exec cfg) (call.program cfg) (fun _ ↦ Sync opening)
      (fun _ _ ↦ True) world := by
    cases call with
    | submit req =>
      simp only [EngineCall.program, wp_bind]
      exact sync_submit hstore howned hsync hadm
    | cancel oid cid =>
      simp only [EngineCall.program, wp_bind]
      exact sync_cancel hstore hsync
    | modify oid req =>
      simp only [EngineCall.program, wp_bind]
      exact sync_modify hstore hsync
    | inbound fill charge => exact sync_applyFill hstore howned hsync hadm.1 hadm.2
  rw [wp_iff_run] at hcall
  exact hcall.1 () hret

end Calls

inductive Run (cfg : EngineConfig) (start : World) : World → Prop where
  | start : Run cfg start start
  | call {world : World} (call : EngineCall) (hrun : Run cfg start world)
      (hadmissible : Admissible world call) (hreturned : (call.run cfg world).1 = .ok ()) :
      Run cfg start (call.run cfg world).2

theorem sync_opened {env : Environment} (hdur : env.Durable) {cash : Decimal}
    {allowNegative : Bool} : Sync cash (World.opened env cash allowNegative) := by
  refine ⟨hdur, ⟨empty, rfl, rfl, fun oid ↦ ?_⟩, nodup_nil, ?_, ?_⟩
  · exact ⟨fun _ ↦ rfl, fun _ ↦ rfl, fun _ horder ↦ nomatch horder⟩
  · exact fun _ hfill ↦ nomatch hfill
  · exact ⟨[], { cash := cash, allowNegative := true },
      { cash := cash, allowNegative := allowNegative }, rfl, (fun _ hev ↦ nomatch hev),
      rfl, rfl, rfl, rfl, rfl⟩

theorem sync_run {cfg : EngineConfig} {start world : World}
    (hstore : cfg.hasStore = true) (howned : cfg.positionProjectionOwned = false)
    (hstart : Sync opening start) (hrun : Run cfg start world) : Sync opening world := by
  induction hrun with
  | start => exact hstart
  | call call _ hadm hret ih => exact sync_call hstore howned ih hadm hret

/-- A restart recovers the live positions, cash and fees, and every order but those filled after
their cancellation was logged. -/
theorem restart_equals_live (cfg : EngineConfig) (env : Environment) (cash : Decimal)
    (allowNegative : Bool) (world : World) (hstore : cfg.hasStore = true)
    (howned : cfg.positionProjectionOwned = false) (hdurable : env.Durable)
    (hrun : Run cfg (World.opened env cash allowNegative) world) :
    ∃ replay st live, recoverTradingCache world.log = .ok replay ∧
      foldCash world.log = .ok st ∧ world.ledger = some live ∧
      (∀ instr, replay.cache.getPosition instr = world.cache.getPosition instr) ∧
      (∀ oid, ¬ LateFilled world.log oid →
        replay.cache.getOrder oid = world.cache.getOrder oid) ∧
      (∀ oid, LateFilled world.log oid →
        replay.cache.getOrder oid = (carriage world.log oid).1) ∧
      st.cash.toRat = live.cash.toRat ∧ st.totalFees.toRat = live.totalFees.toRat := by
  have hsync := (sync_run hstore howned (sync_opened hdurable) hrun).synced
  obtain ⟨recovered, hreplay, hpositions, hords⟩ := hsync.replayed
  obtain ⟨replay, hrecover, rfl, -⟩ := recoverTradingCache_of_nodup hsync.distinct hreplay
  obtain ⟨events, folded, live, hlog, hancs, hfold, hledger, -, hcash, hfees⟩ := hsync.anchored
  have hdistinct : (identities events).Nodup := by
    have hall := hsync.distinct
    rwa [hlog] at hall
  have hstate := foldCash_of_nodup hancs hdistinct hfold
  rw [← hlog] at hstate
  refine ⟨replay, _, live, hrecover, hstate, hledger, fun instr ↦ ?_,
    fun oid ↦ (hords oid).same, fun oid hlate ↦ (hords oid).carried hlate.1,
    hcash, hfees⟩
  rw [getPosition, hpositions, getPosition]

def purchase : OrderRequest :=
  .plain ⟨"NSE:INFY"⟩ .buy .limit 100 (some (.ofNat 10)) Decimal.hundred_pos

def lateFill : Fill where
  orderId := "order-1"
  instrument := ⟨"NSE:INFY"⟩
  side := .buy
  quantity := 40
  price := .ofNat 10
  fillId := some "trade-1"
  productType := some .intraday

def funded : World :=
  World.opened (.obliging fun req ↦ .accepted (createOrder req "order-1" .ack 0) none)
    10000 false

def submitted : World := (EngineCall.run .standard (.submit purchase) funded).2

def cancelled : World := (EngineCall.run .standard (.cancel "order-1" none) submitted).2

def filledLate : World := (EngineCall.run .standard (.inbound lateFill none) cancelled).2

theorem late_fill_recovers_cancelled :
    (EngineCall.run .standard (.submit purchase) funded).1 = .ok () ∧
      (EngineCall.run .standard (.cancel "order-1" none) submitted).1 = .ok () ∧
      (EngineCall.run .standard (.inbound lateFill none) cancelled).1 = .ok () ∧
      (filledLate.cache.getOrder "order-1").map (fun order ↦
        (order.status, order.filledQuantity.toRat)) = some (.partiallyFilled, 40) ∧
      (recoverTradingCache filledLate.log).toOption.map (fun replay ↦
        (replay.cache.getOrder "order-1").map fun order ↦
          (order.status, order.filledQuantity.toRat)) = some (some (.cancelled, 0)) := by
  decide +kernel

theorem restart_equals_live_late_fill :
    ∃ replay st live, recoverTradingCache filledLate.log = .ok replay ∧
      foldCash filledLate.log = .ok st ∧ filledLate.ledger = some live ∧
      (∀ instr, replay.cache.getPosition instr = filledLate.cache.getPosition instr) ∧
      (∀ oid, ¬ LateFilled filledLate.log oid →
        replay.cache.getOrder oid = filledLate.cache.getOrder oid) ∧
      (∀ oid, LateFilled filledLate.log oid →
        replay.cache.getOrder oid = (carriage filledLate.log oid).1) ∧
      st.cash.toRat = live.cash.toRat ∧ st.totalFees.toRat = live.totalFees.toRat := by
  have hanswer : SoundAnswer funded purchase := fun order fill haccepted ↦ nomatch haccepted
  have hsubmitted : Run .standard funded submitted :=
    .call (.submit purchase) .start hanswer (by decide +kernel)
  have hcancelled : Run .standard funded cancelled :=
    .call (.cancel "order-1" none) hsubmitted trivial (by decide +kernel)
  have hunreported : reportedFills cancelled.log = [] := by decide +kernel
  have hsound : Sound cancelled.log cancelled.dedup lateFill := by
    refine ⟨by decide +kernel, fun other hother ↦ ?_, by decide +kernel⟩
    rw [hunreported] at hother
    cases hother
  have hfilled : Run .standard funded filledLate :=
    .call (.inbound lateFill none) hcancelled ⟨hsound, nofun⟩ (by decide +kernel)
  exact restart_equals_live .standard _ 10000 false filledLate rfl rfl (fun _ ↦ rfl) hfilled

end Tradex.Execution.RestartEquivalence

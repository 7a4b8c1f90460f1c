import Tradex.Execution.PipelineRules

/-!
# Orders and positions agree on quantities

The position book takes a fill as it is, while the order manager clamps it to what is left of the
order. The two agree in every run in which each fill fits its order.
-/

namespace Tradex.Execution.QuantityAgreement

open Tradex.Domain Engine Program TradingCache Option

def signOf : OrderSide → ℚ
  | .buy => 1
  | .sell => -1

theorem toRat_signedQuantity_eq {fill : Fill} :
    fill.signedQuantity.toRat = signOf fill.side * fill.quantity.toRat := by
  rw [toRat_signedQuantity]
  cases fill.side with
  | buy => exact (one_mul _).symm
  | sell => exact (neg_one_mul _).symm

def signedFilled (instr : Instrument) (order : Order) : ℚ :=
  if order.instrument = instr then signOf order.side * order.filledQuantity.toRat else 0

def filledTotal (cache : TradingCache) (instr : Instrument) : ℚ :=
  cache.orders.sumBy (signedFilled instr)

structure AgreeAt (cache : TradingCache) : Prop where
  regular : ∀ orderId order, cache.getOrder orderId = some order → Regular order
  quantity : ∀ instrument, positionQuantity (cache.getPosition instrument) =
    filledTotal cache instrument

def Agree (world : World) : Prop := AgreeAt world.cache

variable {instr : Instrument} {cache : TradingCache}

theorem filledTotal_updateOrder {order : Order} :
    filledTotal (cache.updateOrder order) instr = filledTotal cache instr -
      (cache.getOrder order.orderId).elim 0 (signedFilled instr) +
      signedFilled instr order :=
  Dict.sumBy_set

section Orders

variable {cache : TradingCache} {order : Order}

theorem AgreeAt.rewrite (hagree : AgreeAt cache) (hreg : Regular order)
    (hsame : ∀ instr, signedFilled instr order =
      (cache.getOrder order.orderId).elim 0 (signedFilled instr)) :
    AgreeAt (cache.updateOrder order) where
  regular := by
    intro oid found hfind
    rw [getOrder_updateOrder] at hfind
    split at hfind
    · cases hfind
      exact hreg
    · exact hagree.regular oid found hfind
  quantity := by
    intro instr
    rw [filledTotal_updateOrder, hsame instr, sub_add_cancel]
    exact hagree.quantity instr

theorem AgreeAt.insert (hagree : AgreeAt cache)
    (hnew : cache.getOrder order.orderId = none) (hreg : Regular order)
    (hunfil : order.filledQuantity.toRat = 0) : AgreeAt (cache.updateOrder order) := by
  refine hagree.rewrite hreg fun instr ↦ ?_
  rw [hnew, elim_none, signedFilled, hunfil, mul_zero, ite_self]

theorem AgreeAt.amend (hagree : AgreeAt cache) {amended : Order}
    (hheld : cache.getOrder amended.orderId = some order) (hreg : Regular amended)
    (hinstr : amended.instrument = order.instrument) (hside : amended.side = order.side)
    (hfill : amended.filledQuantity = order.filledQuantity) :
    AgreeAt (cache.updateOrder amended) := by
  refine hagree.rewrite hreg fun instr ↦ ?_
  rw [hheld, elim_some, signedFilled, signedFilled, hinstr, hside, hfill]

end Orders

/-- A cached order that may still fill is the fill's own and has room for it. -/
def Fits (cache : TradingCache) (fill : Fill) : Prop :=
  ∀ order, cache.getOrder fill.orderId = some order → order.status ≠ .rejected →
    order.instrument = fill.instrument ∧ order.side = fill.side ∧
      order.filledQuantity.toRat + fill.quantity.toRat ≤ order.quantity.toRat

instance (cache : TradingCache) (fill : Fill) : Decidable (Fits cache fill) :=
  decidable_of_iff
    ((cache.getOrder fill.orderId).all fun order ↦
      decide (order.status ≠ .rejected → order.instrument = fill.instrument ∧
        order.side = fill.side ∧
        order.filledQuantity.toRat + fill.quantity.toRat ≤ order.quantity.toRat)) <| by
    unfold Fits
    cases cache.getOrder fill.orderId <;> simp [or_iff_not_imp_left]

theorem AgreeAt.fill {fill : Fill} (hagree : AgreeAt cache) (fee : Decimal)
    (hqty : 0 < fill.quantity.toRat) (hfits : Fits cache fill)
    (hopen : ∀ order, cache.getOrder fill.orderId = some order → order.status ≠ .rejected) :
    ∃ adv, advancedOrder (cache.getOrder fill.orderId) fill = .ok adv ∧
      AgreeAt ((bookPosition cache fill fee).updateOrder adv) := by
  have hregularAfter : ∀ adv : Order, Regular adv →
      ∀ oid order, ((bookPosition cache fill fee).updateOrder adv).getOrder oid =
        some order → Regular order := by
    intro adv hadv oid order horder
    rw [getOrder_updateOrder, getOrder_bookPosition] at horder
    split at horder
    · cases horder
      exact hadv
    · exact hagree.regular oid order horder
  have hposn : ∀ (adv : Order) (instr : Instrument),
      positionQuantity (((bookPosition cache fill fee).updateOrder adv).getPosition
        instr) = filledTotal cache instr +
          if fill.instrument = instr then fill.signedQuantity.toRat else 0 := by
    intro adv instr
    rw [← hagree.quantity instr]
    exact positionQuantity_bookPosition cache fill fee instr
  have htotal : ∀ (adv : Order) (instr : Instrument),
      filledTotal ((bookPosition cache fill fee).updateOrder adv) instr =
        filledTotal cache instr -
          (cache.getOrder adv.orderId).elim 0 (signedFilled instr) +
          signedFilled instr adv := by
    intro adv instr
    rw [filledTotal_updateOrder, getOrder_bookPosition, filledTotal, orders_bookPosition,
      filledTotal]
  cases hheld : cache.getOrder fill.orderId with
  | none =>
    obtain ⟨adv, hok⟩ := unknownFillOrder_of_pos hqty
    obtain ⟨hid, hinstr, hside, horderQuantity, hfill, hstat⟩ := unknownFillOrder_ok hok
    have hreg : Regular adv := by
      refine ⟨⟨?_, ?_⟩, ?_, ?_⟩
      · rw [hfill]
        exact hqty.le
      · rw [hfill, horderQuantity]
      · rw [hstat]
        decide
      · intro _
        rw [hfill, horderQuantity]
    refine ⟨adv, hok, hregularAfter adv hreg, ?_⟩
    intro instr
    rw [hposn, htotal, hid, hheld, elim_none, signedFilled, hinstr, hside,
      hfill, toRat_signedQuantity_eq, sub_zero]
  | some order =>
    have hreg := hagree.regular _ order hheld
    obtain ⟨hinstr, hside, hroom⟩ := hfits order hheld (hopen order hheld)
    have hok := filledOrder_of_legal hreg.within hqty.le (hreg.admits (hopen order hheld) hqty.le)
    refine ⟨_, hok, hregularAfter _ (hreg.filled hqty.le), ?_⟩
    intro instr
    have hkey := orderId_of_getOrder hheld
    have hafter : (filledAfter order fill).toRat =
        order.filledQuantity.toRat + fill.quantity.toRat := by
      rw [toRat_filledAfter, inf_eq_left.2 (by linarith)]
    rw [hposn, htotal, hkey, hheld, elim_some, toRat_signedQuantity_eq]
    simp only [signedFilled, hinstr, hside, hafter]
    split <;> ring

variable {world : World}

theorem agree_halts {fin : World} (hhalt : Halts world fin) (hagree : Agree world) : Agree fin := by
  refine hhalt.induct (fun before after hstep hpre ↦ ?_) hagree
  cases hstep with
  | control guard cidForOrder killActive killReason orderIndex appends cancels
  | logged ev hctl => exact hpre
  | cancelled order hheld hlegal =>
    have hreg := hpre.regular _ order hheld
    have hin := hreg.within
    refine hpre.amend hheld ⟨⟨hin.nonneg, hin.le⟩, ?_, ?_⟩ rfl rfl rfl
    · exact ⟨nofun, nofun⟩
    · exact nofun

section Calls

variable {cfg : EngineConfig} {world : World}

theorem agree_append (hagree : Agree world) (ev : DomainEvent) :
    wp (exec cfg) (append cfg ev) (fun _ ↦ Agree) (fun _ _ ↦ False) world :=
  wp_append (fun _ ↦ hagree) fun _ _ hhalt ↦ agree_halts hhalt hagree

theorem agree_applyFill (hown : cfg.positionProjectionOwned = false) (hagree : Agree world)
    {fill : Fill} {charge : Option Decimal} (hqty : 0 < fill.quantity.toRat)
    (hrec : ∀ recorded, charge = some recorded → 0 ≤ recorded.toRat)
    (hfits : fingerprint fill ∉ world.dedup.lru → Fits world.cache fill) :
    wp (exec cfg) (applyFill cfg fill charge) (fun _ ↦ Agree) (fun _ ↦ Agree) world := by
  refine wp_applyFill hown hqty.le hrec ?_ ?_ ?_ ?_ ?_ ?_
  · exact fun _ ↦ hagree
  · exact fun _ _ _ ↦ hagree
  · exact fun _ _ _ ↦ hagree
  · exact fun _ _ _ _ _ ↦ hagree
  · exact fun _ _ _ _ _ _ hhalt ↦ agree_halts hhalt hagree
  · intro fee accrued hnew hopen _ _ _
    obtain ⟨adv, hadv, hafter⟩ := hagree.fill fee hqty (hfits hnew) hopen
    rw [wp_advanceOrder, hadv]
    exact hafter

structure Pending (start world : World) : Prop where
  agree : Agree world
  unknown : ∀ orderId, start.cache.getOrder orderId = none → world.cache.getOrder orderId = none
  uuids : world.environment.uuids = start.environment.uuids
  dedup : world.dedup = start.dedup

variable {start : World} {order : Order}

theorem pending_append (hpend : Pending start world) (ev : DomainEvent) :
    wp (exec cfg) (append cfg ev)
      (fun _ fin ↦ Pending start fin ∧
        fin.environment.submits = world.environment.submits) (fun _ _ ↦ False) world := by
  refine wp_append (fun _ ↦ ?_) fun fin _ hhalt ↦ ?_
  · have hans : (world.environment.afterAppend cfg).submits = world.environment.submits ∧
        (world.environment.afterAppend cfg).uuids = world.environment.uuids := by
      unfold Environment.afterAppend
      split <;> exact ⟨rfl, rfl⟩
    exact ⟨⟨hpend.agree, hpend.unknown, hans.2.trans hpend.uuids, hpend.dedup⟩, hans.1⟩
  · obtain ⟨-, -, -, hdedup, -, -, -, hsub, huuids⟩ := hhalt.frame
    exact ⟨⟨agree_halts hhalt hpend.agree,
      fun oid hnone ↦ hhalt.getOrder_eq_none (hpend.unknown oid hnone),
      huuids.trans hpend.uuids, hdedup.trans hpend.dedup⟩, hsub⟩

def Intake (start world : World) : Prop :=
  Pending start world ∧ world.environment.submits = start.environment.submits

theorem keptByGates_intake (start : World) : KeptByGates cfg (Intake start) where
  guard := fun _ _ ⟨hpend, hsub⟩ ↦
    ⟨⟨hpend.agree, hpend.unknown, hpend.uuids, hpend.dedup⟩, hsub⟩
  feeds := fun _ _ ⟨hpend, hsub⟩ ↦
    ⟨⟨hpend.agree, hpend.unknown, hpend.uuids, hpend.dedup⟩, hsub⟩
  risks := fun _ _ ⟨hpend, hsub⟩ ↦
    ⟨⟨hpend.agree, hpend.unknown, hpend.uuids, hpend.dedup⟩, hsub⟩
  note := fun _ ev _ ⟨hpend, hsub⟩ ↦
    wp_mono (pending_append hpend ev)
      (fun _ _ ⟨hfin, hkept⟩ ↦ ⟨hfin, hkept.trans hsub⟩) (fun _ _ hfalse ↦ hfalse)

theorem regular_unfilled (hqty : 0 < order.quantity.toRat) (hfill : order.filledQuantity.toRat = 0)
    (hstat : order.status ≠ .new ∧ order.status ≠ .pending ∧ order.status ≠ .filled) :
    Regular order := by
  obtain ⟨hnew, hpend, hnot_filled⟩ := hstat
  refine ⟨⟨hfill.ge, ?_⟩, ⟨hnew, hpend⟩, fun hcompl ↦ absurd hcompl hnot_filled⟩
  rw [hfill]
  exact hqty.le

variable (hpend : Pending start world)
  (hid : start.cache.getOrder (start.environment.uuids 0) = none) {req : OrderRequest}

include hpend hid in
theorem agree_created
    {status : OrderStatus} (hstat : status ≠ .new ∧ status ≠ .pending ∧ status ≠ .filled) :
    AgreeAt (world.cache.updateOrder (createOrder req (world.environment.uuids 0) status 0)) := by
  rw [hpend.uuids]
  refine AgreeAt.insert hpend.agree (hpend.unknown _ hid)
    (regular_unfilled req.quantity_pos ?_ hstat) ?_
  · exact Decimal.toRat_zero
  · exact Decimal.toRat_zero

variable {req : OrderRequest} {resv : Option CorrelationId}

include hpend hid in
theorem agree_rejectIntake {why : String} :
    wp (exec cfg) (rejectIntake cfg req why resv) (fun _ ↦ Agree) (fun _ ↦ Agree) world := by
  simp only [rejectIntake, wp_bind, wp_releaseReservation, wp_makeOrder, wp_act, exec]
  refine wp_mono (agree_append ?_ _) (fun _ _ hfin ↦ hfin) (fun _ _ hfalse ↦ hfalse.elim)
  exact agree_created hpend hid (by decide)

include hpend hid in
theorem agree_riskRejected :
    wp (exec cfg) (riskRejected cfg req resv) (fun _ ↦ Agree) (fun _ ↦ Agree) world := by
  simp only [riskRejected, wp_bind, wp_releaseReservation, wp_makeOrder, wp_act, exec]
  refine wp_mono (agree_append ?_ _) ?_ (fun _ _ hfalse ↦ hfalse.elim)
  · exact agree_created hpend hid (by decide)
  · intro _ noted hnoted
    exact wp_mono (agree_append hnoted _) (fun _ _ hfin ↦ hfin) (fun _ _ hfalse ↦ hfalse.elim)

include hpend hid in
theorem agree_submissionRaised (req : OrderRequest)
    (resv : Option CorrelationId) (err : TradingError) (latch : Option Bool) :
    wp (exec cfg) (submissionRaised cfg req resv err latch)
      (fun _ ↦ Agree) (fun _ ↦ Agree) world := by
  unfold submissionRaised
  split
  · simp only [wp_bind, wp_makeOrder, transitionTo_unknown, wp_ofExcept, wp_act, exec]
    refine wp_mono (pending_append hpend _) ?_ (fun _ _ hfalse ↦ hfalse.elim)
    rintro _ noted ⟨hnoted, -⟩
    refine wp_mono (agree_append ?_ _) ?_ (fun _ _ hfalse ↦ hfalse.elim)
    · exact agree_created hnoted hid (by decide)
    · intro _ placed hplace
      exact wp_mono halts_tripKillSwitch
        (fun _ _ hhalt ↦ agree_halts hhalt hplace) (fun _ _ hfalse ↦ hfalse.elim)
  · exact agree_rejectIntake hpend hid

structure SoundAnswer (world : World) (order : Order) (fill : Option Fill) : Prop where
  unknown : world.cache.getOrder order.orderId = none
  positive : 0 < order.quantity.toRat
  unfilled : order.filledQuantity.toRat = 0
  status : order.status ≠ .new ∧ order.status ≠ .pending ∧ order.status ≠ .filled
  fill : ∀ reported, fill = some reported → order.status ≠ .rejected ∧
    0 < reported.quantity.toRat ∧ reported.quantity.toRat ≤ order.quantity.toRat ∧
    reported.orderId = order.orderId ∧ reported.instrument = order.instrument ∧
    reported.side = order.side ∧ 0 < world.dedup.maxSize

section

variable (hown : cfg.positionProjectionOwned = false)

include hown

theorem agree_settleSynchronousFill
    (hagree : Agree world) {fill : Fill} (hheld : world.cache.getOrder fill.orderId = some order)
    (hopen : order.status ≠ .rejected) (hqty : 0 < fill.quantity.toRat)
    (hfits : Fits world.cache fill) (hcap : 0 < world.dedup.maxSize) :
    wp (exec cfg) (settleSynchronousFill cfg req resv order fill)
      (fun _ ↦ Agree) (fun _ ↦ Agree) world := by
  simp only [settleSynchronousFill, wp_bind, wp_releasingOnFailure, applyFillToBook]
  refine wp_computeFee hown (fun _ _ ↦ hagree) (fun fee accrued hchg ↦ ?_)
  have hfee := computeFee_nonneg hchg
  have hstart : Agree { world with accrued := accrued } := hagree
  refine wp_append (fun _ ↦ ?_) fun fin _ hhalts ↦ ?_
  case refine_2 =>
    have hhalt : Agree fin := agree_halts hhalts hstart
    exact hhalt
  simp only [if_true, wp_bind]
  cases hproof : world.requireCash fill fee with
  | error err => exact wp_applyFillEffect_of_refused hown hproof hagree
  | ok _ =>
    refine wp_applyFillEffect_of_affordable hown hproof hfee hqty.le ?_
    obtain ⟨adv, hadv, hafter⟩ := hagree.fill fee hqty hfits fun cached hsame ↦ by
      rw [hheld] at hsame
      cases hsame
      exact hopen
    rw [hheld] at hadv
    have hfill : filledOrder order fill = .ok adv := hadv
    rw [wp_onOrderFilled, hfill]
    simp only [wp_act, exec]
    refine wp_publishFilled_of_recorded (FillDedup.mem_recorded hcap) ?_
    simp only [wp_recordResult]
    exact hafter

theorem agree_acceptOrder (hagree : Agree world)
    (req : OrderRequest) (resv : Option CorrelationId) {fill : Option Fill}
    (hans : SoundAnswer world order fill) :
    wp (exec cfg) (acceptOrder cfg req resv order fill) (fun _ ↦ Agree) (fun _ ↦ Agree) world := by
  have hplace : AgreeAt (world.cache.updateOrder order) :=
    AgreeAt.insert hagree hans.unknown
      (regular_unfilled hans.positive hans.unfilled hans.status) hans.unfilled
  refine wp_acceptOrder ?_ ?_ ?_ ?_
  · intro orderIndex fin _ hhalts
    have hhalt : Agree fin := agree_halts hhalts hplace
    exact hhalt
  · intro orderIndex fin _ hhalts
    have hhalt : Agree fin := agree_halts hhalts hplace
    exact hhalt
  · exact fun _ orderIndex cidForOrder guard ↦ hplace
  · intro reported hrep orderIndex cidForOrder
    obtain ⟨hopen, hqty, hroom, hid, hinstr, hside, hcap⟩ := hans.fill reported hrep
    have hheld : (acceptedWorld cfg world order orderIndex cidForOrder).cache.getOrder
        reported.orderId = some order := by
      rw [hid]
      exact getOrder_updateOrder_self _ _
    have hfin : Agree (acceptedWorld cfg world order orderIndex cidForOrder) := hplace
    refine agree_settleSynchronousFill hown hfin hheld hopen hqty ?_ hcap
    intro cached hsame _
    rw [hheld] at hsame
    cases hsame
    exact ⟨hinstr.symm, hside.symm, by rwa [hans.unfilled, zero_add]⟩

theorem agree_submit (hagree : Agree world)
    (hid : world.cache.getOrder (world.environment.uuids 0) = none)
    (hans : ∀ order fill, world.environment.submits 0 req = .accepted order fill →
      SoundAnswer world order fill) :
    wp (exec cfg) (submit cfg req) (fun _ ↦ Agree) (fun _ ↦ Agree) world := by
  refine wp_submit (keptByGates_intake world) ⟨⟨hagree, fun _ hnone ↦ hnone, rfl, rfl⟩, rfl⟩
    ?_ ?_ ?_ ?_ ?_
  · exact fun _ _ htake ↦ htake.1.agree
  · exact fun _ _ htake ↦ htake.1.agree
  · exact fun _ why resv htake ↦ agree_rejectIntake htake.1 hid
  · exact fun _ resv htake ↦ agree_riskRejected htake.1 hid
  · rintro called resv ⟨hpend, hsub⟩
    simp only [callVenue, wp_bind, wp_act, exec, World.venueSubmit]
    split
    · rename_i order fill hout
      rw [hsub] at hout
      have hsound := hans order fill hout
      refine agree_acceptOrder hown ?_ req resv ?_
      · exact hpend.agree
      · refine ⟨hpend.unknown _ hsound.unknown, hsound.positive, hsound.unfilled, hsound.status,
          fun reported hrep ↦ ?_⟩
        show _ ∧ _ ∧ _ ∧ _ ∧ _ ∧ _ ∧ 0 < called.dedup.maxSize
        rw [hpend.dedup]
        exact hsound.fill reported hrep
    · refine agree_submissionRaised ?_ hid req resv _ _
      exact ⟨hpend.agree, hpend.unknown, hpend.uuids, hpend.dedup⟩

end

theorem agree_modify (hagree : Agree world) {oid : String} :
    wp (exec cfg) (modify cfg oid req) (fun _ ↦ Agree) (fun _ ↦ Agree) world := by
  refine wp_modify hagree ?_ ?_ ?_ ?_ ?_ ?_
  · exact fun _ _ hkept ↦ hkept
  · exact fun _ _ hkept ↦ hkept
  · exact fun _ _ hkept ↦ hkept
  · exact fun _ _ hkept ↦ hkept
  · exact fun _ _ hkept ↦ hkept
  · intro kept order hkept hheld hopen hexc
    have hreg := hkept.regular _ order hheld
    have hkey := orderId_of_getOrder hheld
    have hmod : AgreeAt (kept.cache.updateOrder (modifiedOrder order req)) := by
      rw [← hkey] at hheld
      refine AgreeAt.amend hkept hheld ⟨⟨hreg.within.nonneg, hexc.le⟩, ?_, ?_⟩ rfl rfl rfl
      · exact hreg.acknowledged
      · intro hfill
        have hstat : order.status = .filled := hfill
        rw [hstat] at hopen
        cases hopen
    simp only [recordModified, wp_bind]
    refine wp_mono (agree_append ?_ _) (fun _ _ hfin ↦ hfin) (fun _ _ hfalse ↦ hfalse)
    exact hmod

/-- What a step must meet in the state before it: ids are new, an answer of the venue is sound and
a fill that the door has not seen fits its order. -/
def Admissible (world : World) : EngineCall → Prop
  | .submit req => world.cache.getOrder (world.environment.uuids 0) = none ∧
      ∀ order fill, world.environment.submits 0 req = .accepted order fill →
        SoundAnswer world order fill
  | .cancel _ _ => True
  | .modify _ _ => True
  | .inbound fill charge => 0 < fill.quantity.toRat ∧
      (∀ recorded, charge = some recorded → 0 ≤ recorded.toRat) ∧
      (fingerprint fill ∉ world.dedup.lru → Fits world.cache fill)

theorem agree_call (hown : cfg.positionProjectionOwned = false) (hagree : Agree world)
    {call : EngineCall} (hadm : Admissible world call) : Agree (call.run cfg world).2 := by
  have hcall : wp (exec cfg) (call.program cfg) (fun _ ↦ Agree)
      (fun _ ↦ Agree) world := by
    cases call with
    | submit req =>
      simp only [EngineCall.program, wp_bind]
      exact agree_submit hown hagree hadm.1 hadm.2
    | cancel oid cid =>
      simp only [EngineCall.program, wp_bind]
      exact wp_mono (halts_cancelWith haltingAppend_appendAt)
        (fun _ _ hhalt ↦ agree_halts hhalt hagree) (fun _ _ hhalt ↦ agree_halts hhalt hagree)
    | modify oid req =>
      simp only [EngineCall.program, wp_bind]
      exact agree_modify hagree
    | inbound fill charge => exact agree_applyFill hown hagree hadm.1 hadm.2.1 hadm.2.2
  rw [wp_iff_run] at hcall
  cases hres : (call.run cfg world).1 with
  | ok _ => exact hcall.1 () hres
  | error err => exact hcall.2 err hres

end Calls

inductive Reachable (cfg : EngineConfig) (start : World) : World → Prop where
  | start : Reachable cfg start start
  | call {world : World} (call : EngineCall) (hreachable : Reachable cfg start world)
      (hadmissible : Admissible world call) : Reachable cfg start (call.run cfg world).2

theorem agree_reachable {cfg : EngineConfig} {start : World}
    (hown : cfg.positionProjectionOwned = false) (hstart : Agree start)
    (hreach : Reachable cfg start world) : Agree world := by
  induction hreach with
  | start => exact hstart
  | call call _ hadm ih => exact agree_call hown ih hadm

/-- The position of an instrument is what its orders have filled, in every run whose fills fit. -/
theorem position_eq_filled (cfg : EngineConfig) (start world : World)
    (hown : cfg.positionProjectionOwned = false) (hcache : start.cache = TradingCache.empty)
    (hreachable : Reachable cfg start world) (instr : Instrument) :
    positionQuantity (world.cache.getPosition instr) = filledTotal world.cache instr := by
  have hstart : Agree start := by
    unfold Agree
    rw [hcache]
    exact ⟨fun _ _ hheld ↦ (nomatch hheld), fun _ ↦ rfl⟩
  exact (agree_reachable hown hstart hreachable).quantity instr

def purchase : OrderRequest :=
  .plain ⟨"NSE:INFY"⟩ .buy .market 100 none Decimal.hundred_pos

def part (tradeId : String) (quantity : Decimal) : Fill where
  orderId := "order-1"
  instrument := ⟨"NSE:INFY"⟩
  side := .buy
  quantity := quantity
  price := .ofNat 10
  fillId := some tradeId

def funded : World :=
  World.opened (.obliging fun req ↦ .accepted (createOrder req "order-1" .ack 0) none)
    10000 false

def submitted : World := (EngineCall.run .standard (.submit purchase) funded).2

def filledOnce : World := (EngineCall.run .standard (.inbound (part "trade-1" 60) none) submitted).2

def filledTwice (quantity : Decimal) : World :=
  (EngineCall.run .standard (.inbound (part "trade-2" quantity) none) filledOnce).2

theorem position_exceeds_filled :
    positionQuantity ((filledTwice 60).cache.getPosition ⟨"NSE:INFY"⟩) = 120 ∧
      filledTotal (filledTwice 60).cache ⟨"NSE:INFY"⟩ = 100 := by
  decide +kernel

theorem two_parts_agree :
    positionQuantity ((filledTwice 40).cache.getPosition ⟨"NSE:INFY"⟩) =
      filledTotal (filledTwice 40).cache ⟨"NSE:INFY"⟩ := by
  have hsubmitted : Reachable .standard funded submitted := by
    refine .call (.submit purchase) .start ⟨by decide +kernel, ?_⟩
    rintro order fill ⟨⟩
    exact ⟨by decide +kernel, by decide +kernel, by decide +kernel, by decide +kernel,
      fun _ hfill ↦ absurd hfill.symm (some_ne_none _)⟩
  have honce : Reachable .standard funded filledOnce :=
    .call (.inbound (part "trade-1" 60) none) hsubmitted
      ⟨by decide +kernel, nofun, fun _ ↦ by decide +kernel⟩
  have htwice : Reachable .standard funded (filledTwice 40) :=
    .call (.inbound (part "trade-2" 40) none) honce
      ⟨by decide +kernel, nofun, fun _ ↦ by decide +kernel⟩
  -- applied to the instrument in a second step, so that the run is not unfolded
  have hagree := position_eq_filled .standard funded (filledTwice 40) rfl rfl htwice
  exact hagree ⟨"NSE:INFY"⟩

end Tradex.Execution.QuantityAgreement

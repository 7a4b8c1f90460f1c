import Tradex.Execution.FillRules

/-!
# Rules for the submission and modification pipelines

The rule for submissions walks the pipeline once: what holds before the venue is
called is a predicate kept by the gates, and each way out is a premise. A modification
is walked in the same way.
-/

namespace Tradex.Execution.Engine

open Tradex.Domain Program

def isNote : DomainEvent → Bool
  | .riskDecision _ _ _ => true
  | .brokerOrderRequested _ => true
  | .unknownSubmission _ _ => true
  | .cancelRequested _ => true
  | _ => false

variable {cfg : EngineConfig} {fail : TradingError → World → Prop}

@[simp] theorem wp_makeOrder (req : OrderRequest) (status : OrderStatus) {world : World}
    {post : Order → World → Prop} :
    wp (exec cfg) (makeOrder req status) post fail world ↔
      post (createOrder req (world.environment.uuids 0) status 0)
        { world with
          environment := { world.environment with uuids := world.environment.uuids.rest } } := by
  simp [makeOrder, exec]

variable {req : OrderRequest} {order : Order}

theorem transitionTo_unknown {oid : String} :
    (createOrder req oid .new 0).transitionTo .unknown none =
      .ok (createOrder req oid .unknown 0) := by
  have hlegal : OrderStatus.unknown ∈ legalTransitions .new := by decide
  refine transitionTo_of_legal hlegal ?_ ?_
  · exact Decimal.toRat_zero.ge
  · exact Decimal.toRat_zero.le.trans req.quantity_pos.le

structure KeptByGates (cfg : EngineConfig) (before : World → Prop) : Prop where
  guard : ∀ world guard, before world → before { world with guard := guard }
  feeds : ∀ world feeds, before world →
    before { world with environment := { world.environment with feeds := feeds } }
  risks : ∀ world risks, before world →
    before { world with environment := { world.environment with risks := risks } }
  note : ∀ world event, isNote event = true → before world →
    Program.wp (exec cfg) (append cfg event) (fun _ final ↦ before final) (fun _ _ ↦ False) world

def acceptedWorld (cfg : EngineConfig) (world : World) (order : Order)
    (orderIndex : Dict CorrelationId String) (cidForOrder : Dict String CorrelationId) : World :=
  { world with
    cache := world.cache.updateOrder order
    orderIndex := orderIndex
    log := appendedLog cfg (appendedLog cfg world.log (.orderPlaced order))
      (.brokerOrderAcknowledged order)
    environment := (world.environment.afterAppend cfg).afterAppend cfg
    cidForOrder := cidForOrder }

variable {post : IdempotencyResult → World → Prop}

theorem wp_acceptOrder {world : World} {resv : Option CorrelationId} {fill : Option Fill}
    (hplace : ∀ orderIndex fin, world.environment.AppendFails cfg →
      Halts { world with cache := world.cache.updateOrder order, orderIndex := orderIndex } fin →
      fail (.runtime "order_placed_not_durable") fin)
    (hack : ∀ orderIndex fin, (world.environment.afterAppend cfg).AppendFails cfg →
      Halts { world with
        cache := world.cache.updateOrder order
        orderIndex := orderIndex
        log := appendedLog cfg world.log (.orderPlaced order)
        environment := world.environment.afterAppend cfg } fin →
      fail (.runtime "order_ack_not_durable") fin)
    (hunfil : fill = none → ∀ orderIndex cidForOrder guard,
      post (submittedReceipt order)
        { acceptedWorld cfg world order orderIndex cidForOrder with guard := guard })
    (hfill : ∀ reported, fill = some reported → ∀ orderIndex cidForOrder,
      wp (exec cfg) (settleSynchronousFill cfg req resv order reported) post fail
        (acceptedWorld cfg world order orderIndex cidForOrder)) :
    wp (exec cfg) (acceptOrder cfg req resv order fill) post fail world := by
  obtain ⟨orderIndex, hpub⟩ := World.publish_eq
    { world with cache := world.cache.updateOrder order } (.orderPlaced order)
  simp only [acceptOrder, wp_bind, wp_act, exec, hpub]
  refine wp_append (fun _ ↦ ?_) (hplace orderIndex)
  simp only [if_true, wp_bind]
  refine wp_append (fun _ ↦ ?_) (hack orderIndex)
  cases resv with
  | none =>
    cases fill with
    | none => exact hunfil rfl orderIndex _ _
    | some reported => exact hfill reported rfl orderIndex _
  | some cid =>
    simp only [if_true]
    cases fill with
    | none =>
      simp only [wp_bind, wp_recordResult]
      exact hunfil rfl orderIndex _ _
    | some reported => exact hfill reported rfl orderIndex _

section Submit

variable {before : World → Prop} {post : IdempotencyResult → World → Prop} {world : World}
  (hgates : KeptByGates cfg before) (hstart : before world)

include hgates hstart in
theorem wp_riskGate
    {resv : Option CorrelationId} {after : Option IdempotencyResult → World → Prop}
    (hpass : ∀ fin, before fin → after none fin)
    (href : ∀ fin err, before fin → fail err fin)
    (hrej : ∀ fin, before fin → wp (exec cfg) (riskRejected cfg req resv)
      (fun receipt ↦ after (some receipt)) fail fin) :
    wp (exec cfg) (riskGate cfg req resv) after fail world := by
  unfold riskGate
  split
  · simp only [wp_bind, wp_act, exec]
    have hchk := hgates.risks world world.environment.risks.rest hstart
    split
    · simp only [wp_bind, wp_releaseReservation]
      exact href _ _ (hgates.guard _ _ hchk)
    · simp only [wp_bind]
      exact hrej _ hchk
    · simp only [wp_bind]
      refine wp_mono (hgates.note _ _ rfl hchk) ?_ (fun _ _ hfalse ↦ hfalse.elim)
      intro durable fin hfin
      cases durable with
      | true => exact hpass fin hfin
      | false =>
        simp only [Bool.false_eq_true, if_false, wp_bind, wp_releaseReservation]
        exact href _ _ (hgates.guard _ _ hfin)
  · exact hpass world hstart

include hgates hstart in
theorem wp_intakeRefusal_kept
    {after : Option String → World → Prop} (hafter : ∀ refusal fin, before fin → after refusal fin) :
    wp (exec cfg) (intakeRefusal cfg) after fail world := by
  have hready := hgates.feeds world world.environment.feeds.rest hstart
  simp only [intakeRefusal, wp_bind, wp_act, wp_ite, wp_pure]
  split
  · exact hafter _ _ hstart
  · split
    · exact hafter _ _ hstart
    · split
      · split
        · exact hafter _ _ hready
        · split <;> exact hafter _ _ hready
      · split
        · exact hafter _ _ hstart
        · split <;> exact hafter _ _ hstart

include hgates hstart in
theorem wp_submit (hans : ∀ world res, before world → post res world)
    (href : ∀ world err, before world → fail err world)
    (hrej : ∀ world why resv, before world →
      wp (exec cfg) (rejectIntake cfg req why resv) post fail world)
    (hriskRejected : ∀ world resv, before world →
      wp (exec cfg) (riskRejected cfg req resv) post fail world)
    (hvenue : ∀ world resv, before world →
      wp (exec cfg) (callVenue cfg req resv) post fail world) :
    wp (exec cfg) (submit cfg req) post fail world := by
  have hcgt : ∀ err fin, fail err fin →
      wp (exec cfg)
        (do act (.publish (.errorOccurred err)); .raise err : EngineProgram IdempotencyResult)
        post fail fin := by
    intro err fin hfail
    simpa only [wp_bind, wp_act, exec, World.publish_errorOccurred, wp_raise] using hfail
  have hdispatch : ∀ world resv, before world →
      wp (exec cfg) (dispatch cfg req resv) post fail world := by
    intro world resv hpre
    simp only [dispatch, wp_bind]
    refine wp_mono (hgates.note world _ rfl hpre) ?_ (fun _ _ hfalse ↦ hfalse.elim)
    intro durable fin hfin
    cases durable with
    | true => exact hvenue fin resv hfin
    | false =>
      simp only [Bool.false_eq_true, if_false, wp_bind, wp_releaseReservation]
      exact href _ _ (hgates.guard _ _ hfin)
  have hafter : ∀ world resv, before world →
      wp (exec cfg) (afterReservation cfg req resv) post fail world := by
    intro world resv hpre
    simp only [afterReservation, wp_bind]
    refine wp_riskGate hgates hpre (fun fin hfin ↦ ?_) (fun fin err hfin ↦ href _ _ hfin)
      (fun fin hfin ↦ hriskRejected fin resv hfin)
    cases requireFeeSchedule (some req.productType) with
    | error err => exact hrej fin err.message resv hfin
    | ok _ => exact hdispatch fin resv hfin
  rw [submit, wp_tryCatch]
  have hbody : wp (exec cfg) (runPipelineBody cfg req) post fail world := by
    simp only [runPipelineBody, wp_bind]
    refine wp_intakeRefusal_kept hgates hstart fun refusal fin hfin ↦ ?_
    cases refusal with
    | some why => exact hrej fin why none hfin
    | none =>
      simp only [wp_bind]
      refine wp_checkKey (fun key guard ↦ ?_) fun err guard ↦ href _ _ (hgates.guard _ _ hfin)
      cases key with
      | answered res => exact hans _ _ (hgates.guard _ _ hfin)
      | proceed resv => exact hafter _ resv (hgates.guard _ _ hfin)
  exact wp_mono hbody (fun _ _ hret ↦ hret) hcgt

end Submit

variable {oid : String} {world : World}

theorem modifyRefusal_eq_none (hnone : modifyRefusal order oid req = none) :
    order.status.isTerminal = false ∧ order.filledQuantity.toRat < req.quantity.toRat := by
  unfold modifyRefusal at hnone
  split at hnone
  · cases hnone
  · rename_i hopen
    split at hnone
    · cases hnone
    · rename_i hexc
      rw [Decimal.le_iff, not_le] at hexc
      exact ⟨Bool.eq_false_iff.2 hopen, hexc⟩

theorem wp_modify {kept : World → Prop}
    (hstart : kept world) (hguard : ∀ world guard, kept world → kept { world with guard := guard })
    (hrisks : ∀ world risks, kept world →
      kept { world with environment := { world.environment with risks := risks } })
    (hmodifies : ∀ world modifies, kept world →
      kept { world with environment := { world.environment with modifies := modifies } })
    (hans : ∀ world res, kept world → post res world)
    (href : ∀ world err, kept world → fail err world)
    (hmod : ∀ world order, kept world → world.cache.getOrder oid = some order →
      order.status.isTerminal = false → order.filledQuantity.toRat < req.quantity.toRat →
      wp (exec cfg) (recordModified cfg (modifiedOrder order req))
        (fun _ ↦ kept) (fun _ _ ↦ False) world) :
    wp (exec cfg) (modify cfg oid req) post fail world := by
  have hrisk : ∀ world, kept world → wp (exec cfg) (modifyRisk cfg oid req)
      (fun _ fin ↦ kept fin ∧ fin.cache = world.cache) (fun _ ↦ kept) world := by
    intro world hkept
    unfold modifyRisk
    split
    · simp only [wp_bind, wp_act, exec]
      have hchk := hrisks world world.environment.risks.rest hkept
      split
      · exact hchk
      · exact ⟨hchk, rfl⟩
      · exact hchk
    · exact ⟨hkept, rfl⟩
  have hbody : ∀ world, kept world → wp (exec cfg) (modifyBody cfg oid req)
      (fun _ ↦ kept) (fun _ ↦ kept) world := by
    intro world hkept
    simp only [modifyBody, wp_bind, wp_act, exec]
    cases hheld : world.cache.getOrder oid with
    | none => exact hkept
    | some order =>
      dsimp only
      cases hrefusal : modifyRefusal order oid req with
      | some err => exact hkept
      | none =>
        obtain ⟨hopen, hexc⟩ := modifyRefusal_eq_none hrefusal
        simp only [wp_bind]
        refine wp_mono (hrisk world hkept) ?_ (fun _ _ hfin ↦ hfin)
        rintro _ checked ⟨hchk, hcache⟩
        have hrec : ∀ fin, kept fin → fin.cache = world.cache →
            wp (exec cfg) (recordModified cfg (modifiedOrder order req))
              (fun _ ↦ kept) (fun _ ↦ kept) fin := by
          intro fin hfin hsame
          refine wp_mono (hmod fin order hfin ?_ hopen hexc)
            (fun _ _ hdone ↦ hdone) (fun _ _ hfalse ↦ hfalse.elim)
          rw [hsame, hheld]
        split
        · simp only [wp_bind, wp_act, exec, wp_ofExcept]
          have hask := hmodifies checked checked.environment.modifies.rest hchk
          split
          · exact hrec _ hask hcache
          · exact hask
        · exact hrec checked hchk hcache
  simp only [modify, wp_bind]
  refine wp_reserveOwn (fun replay guard ↦ ?_) fun err guard ↦ href _ _ (hguard _ _ hstart)
  cases replay with
  | some res => exact hans _ _ (hguard _ _ hstart)
  | none =>
    simp only [wp_bind, wp_releasingOnFailure]
    refine wp_mono (hbody _ (hguard _ _ hstart)) ?_ ?_
    · intro modified fin hfin
      simp only [wp_recordResult]
      exact hans _ _ (hguard _ _ hfin)
    · intro err fin hfin
      exact href _ _ (hguard _ _ hfin)

end Tradex.Execution.Engine

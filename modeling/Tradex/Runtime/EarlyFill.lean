import Tradex.Execution.PipelineActions
import Tradex.Foundation.DecimalText
import Tradex.Runtime.BridgeBooking

/-!
# Fills that arrive during a submission

A submission writes the acknowledged order to the cache while another thread hands rows of the order
stream to the bridge.
-/

namespace Tradex.Runtime.EarlyFill

open Tradex.Domain Tradex.Execution Engine LiveFillBridge BridgeBooking Program List

def bridgeAt (world : World) : LiveFillBridge := ⟨world, none, 0, []⟩

variable (cfg : EngineConfig)

def takeUp (world : World) (update : StreamUpdate) : EngineProgram Unit :=
  let total := update.row.filledQuantity
  if update.row.status ∉ fillStatuses then pure ()
  else
    match rowPrice update.row with
    | none => pure ()
    | some price =>
      if total.toRat ≤ 0 ∨ price.value.toRat ≤ 0 then pure ()
      else
        let oid := (bridgeAt world).engineOrderId update.row
        let delta := total - applied world oid
        if delta.toRat ≤ 0 then pure ()
        else publishFilled cfg (fallbackFill update oid delta price) none

structure Scene where
  world : World
  submission : EngineProgram IdempotencyResult
  booking : EngineProgram Unit
  delivered : List StreamUpdate

inductive Turn where
  | submit
  | book
  | row (update : StreamUpdate)

variable (scene : Scene)

def Scene.turn : Turn → Scene
  | .submit =>
    match scene.submission with
    | .call op rest =>
      { scene with
        world := (exec cfg op scene.world).2
        submission := rest (exec cfg op scene.world).1 }
    | _ => scene
  | .book =>
    match scene.booking with
    | .call op rest =>
      { scene with
        world := (exec cfg op scene.world).2
        booking := rest (exec cfg op scene.world).1 }
    | _ => scene
  | .row update =>
    match scene.booking with
    | .ret _ =>
      { scene with
        booking := takeUp cfg scene.world update
        delivered := scene.delivered ++ [update] }
    | _ => scene

def acknowledged (req : OrderRequest) (resv : Option CorrelationId)
    (order : Order) (world : World) : Scene where
  world := world
  submission := acceptOrder cfg req resv order none
  booking := pure ()
  delivered := []

inductive Played (cfg : EngineConfig) (condition : StreamUpdate → World → Prop) (start : Scene) :
    Scene → Prop
  | start : Played cfg condition start start
  | turn {scene : Scene} (turn : Turn) (hplayed : Played cfg condition start scene)
      (hmeets : ∀ update, turn = .row update → scene.booking = pure () →
        condition update scene.world) :
      Played cfg condition start (scene.turn cfg turn)

def Beside (before after : World) : Prop :=
  ∃ log guard cidForOrder orderIndex, after = { before with
    log := log, guard := guard, cidForOrder := cidForOrder, orderIndex := orderIndex }

variable {world : World} {delivered : List StreamUpdate} {total : Decimal}

theorem beside_refl : Beside world world :=
  ⟨world.log, world.guard, world.cidForOrder, world.orderIndex, rfl⟩

variable {second first : World}

theorem Beside.trans {third : World} (hfst : Beside first second)
    (hsnd : Beside second third) : Beside first third := by
  obtain ⟨log, guard, cidForOrder, orderIndex, rfl⟩ := hfst
  obtain ⟨log', guard', cidForOrder', orderIndex', rfl⟩ := hsnd
  exact ⟨log', guard', cidForOrder', orderIndex', rfl⟩

theorem Beside.symm (hby : Beside first second) : Beside second first := by
  obtain ⟨log, guard, cidForOrder, orderIndex, rfl⟩ := hby
  exact ⟨first.log, first.guard, first.cidForOrder, first.orderIndex, rfl⟩

variable {ev : DomainEvent}

theorem beside_publish : Beside world (world.publish ev) := by
  obtain ⟨orderIndex, hpub⟩ := world.publish_eq ev
  exact ⟨world.log, world.guard, world.cidForOrder, orderIndex, hpub⟩

def Possible : (op : Op) → op.Res → Prop
  | .storeAppend _, ans => ans = .ok ()
  | _, _ => True

def Blind : Op → Prop
  | .checkAndReserve _ _ => False
  | .popCid _ => False
  | _ => True

def Aside : Op → Prop
  | .publish _ => True
  | .storeAppend _ => True
  | .stampCid _ _ => True
  | .recordResult _ _ => True
  | _ => False

section Actions

variable {cfg : EngineConfig} {op : Op}

theorem storeAppend_of_durable (hdur : world.environment.Durable) :
    exec cfg (.storeAppend ev) world = (.ok (), { world with log := world.log ++ [ev] }) := by
  have hrest : world.environment.appends.rest = world.environment.appends := by
    funext index
    rw [Answers.rest, hdur, hdur]
  change world.storeAppend ev = _
  unfold World.storeAppend
  rw [hdur 0, hrest]

theorem possible_exec (hdur : world.environment.Durable) : Possible op (exec cfg op world).1 := by
  cases op with
  | storeAppend ev =>
    rw [storeAppend_of_durable hdur]
    rfl
  | _ => trivial

theorem beside_exec (haside : Aside op) (hdur : world.environment.Durable) :
    Beside world (exec cfg op world).2 := by
  cases op with
  | publish ev => exact beside_publish
  | storeAppend ev =>
    rw [storeAppend_of_durable hdur]
    exact ⟨_, _, _, _, rfl⟩
  | stampCid oid cid | recordResult cid res => exact ⟨_, _, _, _, rfl⟩
  | _ => exact haside.elim

theorem durable_exec (hdur : world.environment.Durable) :
    (exec cfg op world).2.environment.Durable := by
  cases op with
  | storeAppend ev =>
    rw [storeAppend_of_durable hdur]
    exact hdur
  | computeFee fill =>
    change (world.computeFee cfg fill).2.environment.Durable
    unfold World.computeFee
    split <;> exact hdur
  | applyFillEffect fill fee =>
    change (world.applyFillEffect fill fee).2.environment.Durable
    unfold World.applyFillEffect
    split
    · exact hdur
    · split <;> exact hdur
  | publish ev =>
    obtain ⟨orderIndex, hpub⟩ := world.publish_eq ev
    change (world.publish ev).environment.Durable
    rw [hpub]
    exact hdur
  | _ => exact hdur

theorem exec_beside {alone shared : World} (hblind : Blind op)
    (hdur : alone.environment.Durable) (hby : Beside alone shared) :
    (exec cfg op shared).1 = (exec cfg op alone).1 ∧
      Beside (exec cfg op alone).2 (exec cfg op shared).2 := by
  obtain ⟨log, guard, cidForOrder, orderIndex, rfl⟩ := hby
  cases op with
  | checkAndReserve cid requestHash | popCid oid => exact hblind.elim
  | storeAppend ev =>
    rw [storeAppend_of_durable hdur, storeAppend_of_durable (by exact hdur)]
    exact ⟨rfl, _, _, _, _, rfl⟩
  | publish ev => exact ⟨rfl, (beside_publish.symm.trans ⟨_, _, _, _, rfl⟩).trans beside_publish⟩
  | computeFee fill =>
    change (World.computeFee cfg _ fill).1 = (alone.computeFee cfg fill).1 ∧
      Beside (alone.computeFee cfg fill).2 (World.computeFee cfg _ fill).2
    unfold World.computeFee
    dsimp only
    split <;> exact ⟨rfl, _, _, _, _, rfl⟩
  | applyFillEffect fill fee =>
    change (World.applyFillEffect _ fill fee).1 = (alone.applyFillEffect fill fee).1 ∧
      Beside (alone.applyFillEffect fill fee).2 (World.applyFillEffect _ fill fee).2
    unfold World.applyFillEffect
    dsimp only
    split
    · exact ⟨rfl, _, _, _, _, rfl⟩
    · split <;> exact ⟨rfl, _, _, _, _, rfl⟩
  | _ => exact ⟨rfl, _, _, _, _, rfl⟩

end Actions

variable {update : StreamUpdate} {world : World} {order : Order}

section

variable {cfg : EngineConfig}

theorem performsIf_append {allowed : Op → Prop} (hev : allowed (.storeAppend ev)) :
    Program.PerformsIf Possible allowed (append cfg ev) := by
  rw [append, appendAt_eq]
  unfold appendWith
  split
  · refine ⟨hev, fun ans hans ↦ ?_⟩
    obtain rfl : ans = .ok () := hans
    trivial
  · trivial

def afterCaching (cfg : EngineConfig) (resv : Option CorrelationId) (order : Order) :
    EngineProgram IdempotencyResult := do
  act (.publish (.orderPlaced order))
  let placed ← append cfg (.orderPlaced order)
  if placed then
    let acknowledged ← append cfg (.brokerOrderAcknowledged order)
    if acknowledged then
      match resv with
      | some cid => act (.stampCid order.orderId cid)
      | none => pure ()
      recordResult cfg resv (submittedReceipt order)
      pure (submittedReceipt order)
    else .raise (.runtime "order_ack_not_durable")
  else .raise (.runtime "order_placed_not_durable")

theorem aside_afterCaching {resv : Option CorrelationId} :
    Program.PerformsIf Possible Aside (afterCaching cfg resv order) :=
  Parts.afterCaching composes_performsIf (fun _ ↦ performsIf_append trivial) order
    ⟨trivial, fun _ _ ↦ trivial⟩ (fun _ ↦ ⟨trivial, fun _ _ ↦ trivial⟩)
    (Parts.recordResult composes_performsIf (fun _ _ ↦ ⟨trivial, fun _ _ ↦ trivial⟩) resv _)

theorem blind_publishFilled {fill : Fill} :
    Program.PerformsIf Possible Blind (publishFilled cfg fill none) := by
  have hfill : Program.PerformsIf Possible Blind (Engine.applyFill cfg fill none) := by
    refine Parts.applyFill composes_performsIf (fun op hbook ↦ ⟨?_, fun _ _ ↦ trivial⟩)
      (fun _ ↦ performsIf_append trivial) fill none
    cases op with
    | checkAndReserve cid requestHash | popCid oid => exact hbook
    | _ => trivial
  exact ⟨trivial, fun _ _ ↦ performsIf_tryCatch hfill fun _ ↦ trivial⟩

theorem blind_takeUp : Program.PerformsIf Possible Blind (takeUp cfg world update) := by
  unfold takeUp
  split
  · trivial
  · cases rowPrice update.row with
    | none => trivial
    | some price =>
      dsimp only
      split
      · trivial
      · split
        · trivial
        · exact blind_publishFilled

end

def totalFingerprint (venueId : String) (total : Decimal) : Fingerprint :=
  .byFillId (avgPriceFallbackPrefix ++ venueId ++ ":" ++ total.str)

variable {total : Decimal} {venueId : String}

theorem totalFingerprint_injective {other : Decimal}
    (heq : totalFingerprint venueId total = totalFingerprint venueId other) :
    total.toRat = other.toRat := by
  have htext := congrArg String.toList (Fingerprint.byFillId.inj heq)
  simp only [String.toList_append] at htext
  exact (Decimal.toRat_exp_eq_of_str_eq (String.toList_injective (append_cancel_left htext))).1

structure Caught (order : Order) (venueId : String) (level : ℚ) (world : World) : Prop where
  cached : ∃ current, world.cache.getOrder order.orderId = some current ∧ Regular current ∧
    current.status ≠ .rejected ∧ current.quantity = order.quantity ∧
    current.filledQuantity.toRat = level
  booked : bookedFor order.orderId world = level
  fresh : ∀ total : Decimal, level < total.toRat → totalFingerprint venueId total ∉ world.dedup.lru
  durable : world.environment.Durable

theorem Caught.beside {level : ℚ} {before after : World}
    (hby : Beside before after) (hcgt : Caught order venueId level before) :
    Caught order venueId level after := by
  obtain ⟨log, guard, cidForOrder, orderIndex, rfl⟩ := hby
  exact ⟨hcgt.cached, hcgt.booked, hcgt.fresh, hcgt.durable⟩

def payable (world : World) (fill : Fill) : Bool :=
  match Execution.computeFee cfg.hasFeeCalculator world.accrued fill with
  | .ok charged => (world.requireCash fill charged.1).isOk
  | .error _ => false

theorem exists_fee_of_payable {cfg : EngineConfig} {fill : Fill}
    (hpay : payable cfg world fill = true) :
    ∃ fee accrued, Execution.computeFee cfg.hasFeeCalculator world.accrued fill =
      .ok (fee, accrued) ∧ world.requireCash fill fee = .ok () := by
  unfold payable at hpay
  split at hpay
  next charged hfee =>
    refine ⟨charged.1, charged.2, hfee, ?_⟩
    cases hpaid : world.requireCash fill charged.1 with
    | ok done => rfl
    | error err =>
      rw [hpaid] at hpay
      cases hpay
  next => cases hpay

section Row

variable {cfg : EngineConfig} {order : Order} {venueId : String} {level : ℚ} {fill : Fill}

theorem caught_settled {cur : Order} {fee : Decimal} {accrued : Accrual}
    (hcgt : Caught order venueId level world)
    (hcur : world.cache.getOrder order.orderId = some cur)
    (hfill : fill.orderId = order.orderId) (hid : fingerprint fill = totalFingerprint venueId total)
    (hqty : fill.quantity.toRat = total.toRat - level) (hnew : level < total.toRat)
    (hin : total.toRat ≤ order.quantity.toRat) :
    ∃ adv, filledOrder cur fill = .ok adv ∧
      ∀ overfills, Caught order venueId total.toRat { doorBooked cfg world fill fee accrued with
        cache := (doorBooked cfg world fill fee accrued).cache.updateOrder adv
        overfills := overfills } := by
  obtain ⟨found, hfind, hreg, hopen, hsize, hlevel⟩ := hcgt.cached
  obtain rfl : cur = found := Option.some_inj.mp (hcur.symm.trans hfind)
  have hpos : 0 ≤ fill.quantity.toRat := by linarith
  have hadv := filledOrder_of_legal hreg.within hpos (hreg.admits hopen hpos)
  refine ⟨_, hadv, fun overfills ↦ ⟨⟨_, ?_, hreg.filled hpos, ?_, hsize, ?_⟩, ?_, ?_, ?_⟩⟩
  · have hkey : cur.orderId = order.orderId := TradingCache.orderId_of_getOrder hcur
    rw [TradingCache.getOrder_updateOrder, if_pos hkey]
  · dsimp only [statusAfter]
    split <;> decide
  · rw [toRat_filledAfter, hlevel, hsize, hqty, min_eq_left (by linarith)]
    ring
  · calc
      _ = bookedFor order.orderId world + fill.quantity.toRat := bookedFor_snoc hfill rfl
      _ = total.toRat := by
        rw [hcgt.booked, hqty]
        ring
  · intro later hlate hknown
    rcases FillDedup.of_mem_checkAndRecord hknown with hpre | hrec
    · exact hcgt.fresh later (hnew.trans hlate) hpre
    · rw [hid] at hrec
      exact hlate.ne' (totalFingerprint_injective hrec)
  · change (world.environment.afterAppend cfg).Durable
    rw [hcgt.durable.afterAppend]
    exact hcgt.durable

variable (hown : cfg.positionProjectionOwned = false) (hcgt : Caught order venueId level world)

include hown hcgt in
theorem wp_publishFilled_caught
    (hfill : fill.orderId = order.orderId) (hid : fingerprint fill = totalFingerprint venueId total)
    (hqty : fill.quantity.toRat = total.toRat - level) (hnew : level < total.toRat)
    (hin : total.toRat ≤ order.quantity.toRat) (hpay : payable cfg world fill = true) :
    wp (exec cfg) (publishFilled cfg fill none)
      (fun _ ↦ Caught order venueId total.toRat) (fun _ _ ↦ False) world := by
  obtain ⟨cur, hcur, -, hopen, -⟩ := hcgt.cached
  obtain ⟨fee, accrued, hfee, hpaid⟩ := exists_fee_of_payable hpay
  have hfind : world.cache.getOrder fill.orderId = some cur := hfill ▸ hcur
  simp only [publishFilled, wp_bind, wp_act, exec, World.publish_orderFilled, wp_tryCatch]
  refine wp_applyFill hown (by linarith) (fun _ hnone ↦ absurd hnone.symm (Option.some_ne_none _))
    ?_ ?_ ?_ ?_ ?_ ?_
  · intro hseen
    exact absurd (hid ▸ hseen) (hcgt.fresh total hnew)
  · intro rejected hrej hstat
    rw [hfind, Option.some_inj] at hrej
    exact absurd (hrej ▸ hstat) hopen
  · intro err _ hraise
    rw [hfee] at hraise
    cases hraise
  · intro charged after err hchg href
    have hsame : (fee, accrued) = (charged, after) := Except.ok.inj (hfee.symm.trans hchg)
    cases hsame
    rw [hpaid] at href
    cases href
  · exact fun _ _ _ _ _ hfail ↦ absurd hfail (hcgt.durable.not_appendFails cfg)
  · intro charged after _ _ _ _ _
    obtain ⟨adv, hadv, hafter⟩ := caught_settled hcgt hcur hfill hid hqty hnew hin
    rw [wp_advanceOrder, hfind, advancedOrder, hadv]
    exact hafter _

structure Row (cfg : EngineConfig) (order : Order) (venueId : String) (update : StreamUpdate)
    (world : World) : Prop where
  known : world.cache.getOrder order.orderId ≠ none
  resolves : (bridgeAt world).engineOrderId update.row = order.orderId
  venue : update.row.orderId = venueId
  reports : ReportsFill update.row
  within : update.row.filledQuantity.toRat ≤ order.quantity.toRat
  payable : 0 < (newQuantity (bridgeAt world) update.row).toRat → ∀ price,
    rowPrice update.row = some price → payable cfg world
      (fallbackFill update order.orderId (newQuantity (bridgeAt world) update.row) price) = true

include hown hcgt in
theorem wp_takeUp (hrow : Row cfg order venueId update world) (hlevel : 0 ≤ level) :
    wp (exec cfg) (takeUp cfg world update)
      (fun _ fin ↦ Caught order venueId (max level update.row.filledQuantity.toRat) fin)
      (fun _ _ ↦ False) world := by
  obtain ⟨cur, hcur, -, -, -, hfill⟩ := hcgt.cached
  obtain ⟨hstat, price, hprice, hpos⟩ := hrow.reports
  have happ : applied world order.orderId = cur.filledQuantity := by rw [applied, hcur]
  have hnewQuantity : newQuantity (bridgeAt world) update.row =
      update.row.filledQuantity - cur.filledQuantity := by
    rw [newQuantity, hrow.resolves]
    exact congrArg (update.row.filledQuantity - ·) happ
  have hval : (newQuantity (bridgeAt world) update.row).toRat =
      update.row.filledQuantity.toRat - level := by
    rw [hnewQuantity, Decimal.toRat_sub, hfill]
  have hsame : update.row.filledQuantity.toRat ≤ level →
      Caught order venueId (max level update.row.filledQuantity.toRat) world := by
    intro hold
    rwa [max_eq_left hold]
  unfold takeUp
  rw [if_neg (not_not.mpr hstat), hprice]
  dsimp only
  rw [hrow.resolves, happ, ← hnewQuantity]
  split
  next hunusable => exact hsame ((hunusable.resolve_right hpos.not_ge).trans hlevel)
  next =>
    split
    next hold => exact hsame (by linarith)
    next hnew =>
      have hbeyond : level < update.row.filledQuantity.toRat := by linarith
      rw [max_eq_right hbeyond.le]
      refine wp_publishFilled_caught hown hcgt rfl ?_ hval hbeyond hrow.within
        (hrow.payable (not_le.mp hnew) price hprice)
      rw [← hrow.venue]
      rfl

end Row

/-! ## Interleavings -/

def largestTotal (delivered : List StreamUpdate) : ℚ :=
  delivered.foldl (fun level update ↦ max level update.row.filledQuantity.toRat) 0

theorem largestTotal_snoc :
    largestTotal (delivered ++ [update]) =
      max (largestTotal delivered) update.row.filledQuantity.toRat := by
  rw [largestTotal, foldl_append]
  rfl

theorem largestTotal_nonneg : 0 ≤ largestTotal delivered := by
  induction delivered using reverseRecOn with
  | nil => exact le_refl _
  | append_singleton delivered update ih =>
    rw [largestTotal_snoc]
    exact le_max_of_le_left ih

structure NewOrder (order : Order) (venueId : String) (world : World) : Prop where
  status : order.status = .ack
  unfilled : order.filledQuantity.toRat = 0
  quantity : 0 ≤ order.quantity.toRat
  uncached : world.cache.getOrder order.orderId = none
  unbooked : bookedFor order.orderId world = 0
  fresh : ∀ total, totalFingerprint venueId total ∉ world.dedup.lru
  durable : world.environment.Durable

structure Running (cfg : EngineConfig) (order : Order) (venueId : String) (scene : Scene) :
    Prop where
  submission : Program.PerformsIf Possible Aside scene.submission
  durable : scene.world.environment.Durable
  booking : Program.Withstands (exec cfg) Beside scene.booking
    (fun _ final ↦ Caught order venueId (largestTotal scene.delivered) final) (fun _ _ ↦ False)
    scene.world

section Interleaving

variable {cfg : EngineConfig} {req : OrderRequest} {resv : Option CorrelationId}
  {order : Order} {venueId : String} {start : World} {scene : Scene}

theorem caught_cacheWrite (hnew : NewOrder order venueId start) :
    Caught order venueId 0 (exec cfg (.updateOrder order) start).2 where
  cached := by
    refine ⟨order, TradingCache.getOrder_updateOrder_self _ _, ⟨⟨?_, ?_⟩, ?_, ?_⟩, ?_, rfl,
      hnew.unfilled⟩
    · exact hnew.unfilled.ge
    · exact hnew.unfilled.trans_le hnew.quantity
    · rw [hnew.status]
      decide
    · rw [hnew.status]
      intro hfill
      cases hfill
    · rw [hnew.status]
      decide
  booked := hnew.unbooked
  fresh total _ := hnew.fresh total
  durable := hnew.durable

theorem running_cacheWrite (hnew : NewOrder order venueId start) :
    Running cfg order venueId
      ((acknowledged cfg req resv order start).turn cfg .submit) where
  submission := aside_afterCaching
  durable := hnew.durable
  booking := by
    have hcgt : Caught order venueId 0 (exec cfg (.updateOrder order) start).2 :=
      caught_cacheWrite hnew
    exact fun _ hlate ↦ hcgt.beside hlate

theorem Running.submit (hrun : Running cfg order venueId scene) :
    Running cfg order venueId (scene.turn cfg .submit) := by
  cases hsub : scene.submission with
  | call op rest =>
    have hperf := hrun.submission
    rw [hsub] at hperf
    have hby : Beside scene.world (exec cfg op scene.world).2 := beside_exec hperf.1 hrun.durable
    have hbook := hrun.booking.later (fun _ _ _ hfst hsnd ↦ hfst.trans hsnd) hby
    simp only [Scene.turn, hsub]
    exact ⟨hperf.2 _ (possible_exec hrun.durable), durable_exec hrun.durable, hbook⟩
  | ret receipt | raise err => simpa only [Scene.turn, hsub] using hrun

theorem Running.book (hrun : Running cfg order venueId scene) :
    Running cfg order venueId (scene.turn cfg .book) := by
  cases hbook : scene.booking with
  | call op rest =>
    have hwith := hrun.booking
    rw [hbook] at hwith
    simp only [Scene.turn, hbook]
    exact ⟨hrun.submission, durable_exec hrun.durable, hwith scene.world beside_refl⟩
  | ret done | raise err => simpa only [Scene.turn, hbook] using hrun

variable (hown : cfg.positionProjectionOwned = false) {update : StreamUpdate}

include hown

theorem withstands_takeUp {level : ℚ}
    (hcgt : Caught order venueId level world) (hrow : Row cfg order venueId update world)
    (hlevel : 0 ≤ level) :
    Program.Withstands (exec cfg) Beside (takeUp cfg world update)
      (fun _ fin ↦ Caught order venueId (max level update.row.filledQuantity.toRat) fin)
      (fun _ _ ↦ False) world := by
  let simulates : World → World → Prop :=
    fun alone shared ↦ alone.environment.Durable ∧ Beside alone shared
  have hrely : ∀ alone shared later, simulates alone shared → Beside shared later →
      simulates alone later := fun _ _ _ hsim hlate ↦
    ⟨hsim.1, hsim.2.trans hlate⟩
  have hexec : ∀ op alone shared, Blind op → simulates alone shared →
      Possible op (exec cfg op alone).1 ∧ (exec cfg op shared).1 = (exec cfg op alone).1 ∧
        simulates (exec cfg op alone).2 (exec cfg op shared).2 := by
    intro op alone shared hblind hsim
    obtain ⟨hans, hby⟩ := exec_beside hblind hsim.1 hsim.2
    exact ⟨possible_exec hsim.1, hans, durable_exec hsim.1, hby⟩
  exact withstands_of_wp hrely hexec (fun _ _ _ hsim ↦ Caught.beside hsim.2)
    (fun _ _ _ _ hfalse ↦ hfalse) blind_takeUp ⟨hcgt.durable, beside_refl⟩
    (wp_takeUp hown hcgt hrow hlevel)

theorem Running.row (hrun : Running cfg order venueId scene)
    (hidle : scene.booking = pure ()) (hrow : Row cfg order venueId update scene.world) :
    Running cfg order venueId (scene.turn cfg (.row update)) := by
  have hwith := hrun.booking
  rw [hidle] at hwith
  have hcgt := hwith scene.world beside_refl
  have hturn : scene.turn cfg (.row update) =
      { scene with
        booking := takeUp cfg scene.world update
        delivered := scene.delivered ++ [update] } := by
    rw [Scene.turn, hidle]
    rfl
  rw [hturn]
  refine ⟨hrun.submission, hrun.durable, ?_⟩
  rw [largestTotal_snoc]
  exact withstands_takeUp hown hcgt hrow largestTotal_nonneg

theorem running_of_played (hnew : NewOrder order venueId start)
    (hplay : Played cfg (Row cfg order venueId) (acknowledged cfg req resv order start)
      scene) :
    scene = acknowledged cfg req resv order start ∨ Running cfg order venueId scene := by
  induction hplay with
  | start => exact .inl rfl
  | @turn scene turn hplay hmeets ih =>
    rcases ih with rfl | hrun
    · cases turn with
      | submit => exact .inr (running_cacheWrite hnew)
      | book => exact .inl rfl
      | row update => exact absurd hnew.uncached (hmeets update rfl rfl).known
    · right
      cases turn with
      | submit => exact hrun.submit
      | book => exact hrun.book
      | row update =>
        cases hbook : scene.booking with
        | ret done => exact hrun.row hown hbook (hmeets update rfl hbook)
        | raise err | call op rest => simpa only [Scene.turn, hbook] using hrun

/-- Rows taken up after the order is cached are booked up to the largest total delivered, once. -/
theorem delivered_fills_booked_once (hnew : NewOrder order venueId start)
    (hplayed : Played cfg (Row cfg order venueId) (acknowledged cfg req resv order start)
      scene) (hidle : scene.booking = pure ()) :
    bookedFor order.orderId scene.world = largestTotal scene.delivered := by
  rcases running_of_played hown hnew hplayed with rfl | hrunning
  · exact hnew.unbooked
  · have hfirm := hrunning.booking
    rw [hidle] at hfirm
    exact (hfirm scene.world beside_refl).booked

end Interleaving

def purchase : OrderRequest :=
  OrderRequest.plain ⟨"NSE:INFY"⟩ .buy .market 200 none (by decide +kernel)

def acknowledgedPurchase : Scene :=
  acknowledged .standard purchase none placed (bridgeOver .empty).world

def play (turns : List Turn) : Scene := turns.foldl (Scene.turn .standard) scene

def Scene.finished : Bool :=
  match scene.submission, scene.booking with
  | .ret _, .ret _ => true
  | _, _ => false

variable {scene : Scene}

theorem Scene.booking_of_finished (hfin : scene.finished = true) : scene.booking = pure () := by
  unfold finished at hfin
  cases hbook : scene.booking with
  | ret done => rfl
  | raise err | call op rest => cases hsub : scene.submission <;> simp [hbook] at hfin

def earlyRow : Scene :=
  play acknowledgedPurchase ([.row (reported 50)] ++ List.replicate 12 .book ++
    List.replicate 12 .submit ++ [.row (reported 200)] ++ List.replicate 12 .book)

theorem early_row_booked_twice :
    earlyRow.finished = true ∧ largestTotal earlyRow.delivered = 200 ∧
      bookedFor "order-1" earlyRow.world = 250 ∧
      (earlyRow.world.cache.getPosition ⟨"NSE:INFY"⟩).map (·.quantity.toRat) = some 250 := by
  decide +kernel

theorem newOrder_placed : NewOrder placed "order-1" (bridgeOver .empty).world where
  status := rfl
  unfilled := by decide +kernel
  quantity := by decide +kernel
  uncached := by decide +kernel
  unbooked := by decide +kernel
  fresh _ := not_mem_nil
  durable _ := rfl

theorem Played.quiet {condition : StreamUpdate → World → Prop} {start : Scene}
    (hplay : Played .standard condition start scene) (turns : List Turn)
    (hquiet : ∀ update, Turn.row update ∉ turns) :
    Played .standard condition start (play scene turns) := by
  induction turns generalizing scene with
  | nil => exact hplay
  | cons turn rest ih =>
    refine ih (.turn turn hplay fun update hrow ↦ ?_) fun update hmem ↦
      hquiet update (mem_cons_of_mem _ hmem)
    exact absurd (hrow ▸ mem_cons_self) (hquiet update)

def firstRow : Scene :=
  play acknowledgedPurchase ([.submit, .row (reported 50)] ++ List.replicate 3 .book ++
    List.replicate 2 .submit ++ List.replicate 9 .book ++ List.replicate 9 .submit)

def lastRow : Scene := play firstRow ([.row (reported 200)] ++ List.replicate 12 .book)

theorem rowPrice_reported : rowPrice (reported total).row = some (.ofNat 10) := by
  have hpos : 0 < (Price.ofNat 10).value.toRat := by decide +kernel
  exact if_pos hpos

theorem row_reported (hknown : (world.cache.getOrder "order-1").isSome = true)
    (hin : total.toRat ≤ 200)
    (hpay : payable .standard world (fallbackFill (reported total) "order-1"
      (newQuantity (bridgeAt world) (reported total).row) (.ofNat 10)) = true) :
    Row .standard placed "order-1" (reported total) world where
  known := Option.isSome_iff_ne_none.mp hknown
  resolves := rfl
  venue := rfl
  reports := ⟨mem_cons_of_mem _ mem_cons_self, .ofNat 10, rowPrice_reported,
    by decide +kernel⟩
  within := hin.trans (by decide +kernel)
  payable _ price hprice := by
    rw [rowPrice_reported, Option.some_inj] at hprice
    exact hprice ▸ hpay

theorem late_rows_booked_once :
    lastRow.finished = true ∧ bookedFor "order-1" lastRow.world = largestTotal lastRow.delivered := by
  have hdone : lastRow.finished = true := by decide +kernel
  have hcached : Played .standard (Row .standard placed "order-1") acknowledgedPurchase
      (acknowledgedPurchase.turn .standard .submit) :=
    .turn .submit .start fun _ hrow ↦ by cases hrow
  have hfifty : Played .standard (Row .standard placed "order-1") acknowledgedPurchase firstRow := by
    refine (Played.turn (.row (reported 50)) hcached fun update hrow _ ↦ ?_).quiet
      (replicate 3 .book ++ replicate 2 .submit ++ replicate 9 .book ++
        replicate 9 .submit) (by simp)
    cases hrow
    exact row_reported (by decide +kernel) (by decide +kernel) (by decide +kernel)
  have hall : Played .standard (Row .standard placed "order-1") acknowledgedPurchase lastRow := by
    refine (Played.turn (.row (reported 200)) hfifty fun update hrow _ ↦ ?_).quiet
      (replicate 12 .book) (by simp)
    cases hrow
    exact row_reported (by decide +kernel) (by decide +kernel) (by decide +kernel)
  exact ⟨hdone, delivered_fills_booked_once rfl newOrder_placed hall
    (Scene.booking_of_finished hdone)⟩

end Tradex.Runtime.EarlyFill

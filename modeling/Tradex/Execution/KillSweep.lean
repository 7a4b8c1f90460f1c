import Tradex.Execution.Halting
import Tradex.Execution.HaltingActions
import Tradex.Foundation.Interference

/-!
# The sweep of the kill switch

Every order of the list that the kill switch takes is closed in the end, or its
cancellation raised and its id is reported, as long as nobody takes it out of the
cache or opens it again.
-/

namespace Tradex.Execution.Engine

open Tradex.Domain Program TradingCache

variable (target : String) (world : World)

def Cached : Prop :=
  ∃ order, world.cache.getOrder target = some order

def Closed : Prop :=
  ∃ order, world.cache.getOrder target = some order ∧ order.status.isTerminal = true

theorem Closed.cached {target : String} {world : World} (hclose : Closed target world) :
    Cached target world := by
  obtain ⟨order, horder, -⟩ := hclose
  exact ⟨order, horder⟩

structure Keeps (target : String) (before after : World) : Prop where
  cached : Cached target before → Cached target after
  closed : Closed target before → Closed target after

theorem keeps_refl : Keeps target world world := ⟨id, id⟩

theorem keeps_trans (first second third : World)
    (hfst : Keeps target first second) (hsnd : Keeps target second third) :
    Keeps target first third :=
  ⟨hsnd.cached ∘ hfst.cached, hsnd.closed ∘ hfst.closed⟩

def Closing : Op → Prop
  | .updateOrder order => order.status.isTerminal = true
  | .applyFillEffect _ _ => False
  | _ => True

variable {op : Op}

theorem closing_of_haltAction (hhalt : HaltAction op) : Closing op := by
  cases op with
  | updateOrder order =>
    have hstat : order.status = .cancelled := hhalt
    change order.status.isTerminal = true
    rw [hstat]
    rfl
  | applyFillEffect fill fee => exact hhalt
  | _ => trivial

section Actions

variable {cfg : EngineConfig} {target : String} {world : World}

theorem cache_exec (hclose : Closing op) (hwrite : ∀ order, op ≠ .updateOrder order) :
    (exec cfg op world).2.cache = world.cache := by
  refine World.kept_exec (fun after ↦ after.cache = world.cache) (fun _ _ _ _ ↦ rfl) ?_
    fun hplain ↦ ?_
  · rintro fill fee rfl
    exact hclose.elim
  · cases op with
    | updateOrder order => exact absurd rfl (hwrite order)
    | _ => first | exact hplain.elim | rfl

theorem keeps_exec (hclose : Closing op) : Keeps target world (exec cfg op world).2 := by
  by_cases hwrite : ∃ order, op = .updateOrder order
  · obtain ⟨order, rfl⟩ := hwrite
    have hterm : order.status.isTerminal = true := hclose
    by_cases hsame : order.orderId = target
    · have hshut : Closed target (exec cfg (.updateOrder order) world).2 :=
        ⟨order, hsame ▸ getOrder_updateOrder_self _ _, hterm⟩
      exact ⟨fun _ ↦ hshut.cached, fun _ ↦ hshut⟩
    · have hother : (exec cfg (.updateOrder order) world).2.cache.getOrder target =
          world.cache.getOrder target := by
        change (world.cache.updateOrder order).getOrder target = _
        rw [getOrder_updateOrder, if_neg hsame]
      constructor
      · exact fun hcached ↦ by rwa [Cached, hother]
      · exact fun hshut ↦ by rwa [Closed, hother]
  · have hcache : (exec cfg op world).2.cache = world.cache :=
      cache_exec hclose fun order heq ↦ hwrite ⟨order, heq⟩
    constructor
    · exact fun hcached ↦ by rwa [Cached, hcache]
    · exact fun hshut ↦ by rwa [Closed, hcache]

end Actions

variable {cfg : EngineConfig} {append : DomainEvent → EngineProgram Bool} {target : String}
  {world : World} {prop : World → Prop} {Output : Type}

theorem withstands_act_bind {next : op.Res → EngineProgram Output}
    {rely : World → World → Prop} {post : Output → World → Prop}
    {fail : TradingError → World → Prop} :
    Program.Withstands (exec cfg) rely (act op >>= next) post fail world ↔
      ∀ later, rely world later → Program.Withstands (exec cfg) rely
        (next (exec cfg op later).1) post fail (exec cfg op later).2 := Iff.rfl

theorem withstands_halting {prog : EngineProgram Output}
    {returned : Output → Prop} (hperf : prog.Performs HaltAction returned)
    (hkept : ∀ before after, Keeps target before after → prop before → prop after)
    (hstart : prop world) :
    Program.Withstands (exec cfg) (Keeps target) prog
      (fun val fin ↦ returned val ∧ prop fin) (fun _ ↦ prop) world := by
  have hstep : ∀ op before, HaltAction op → prop before → prop (exec cfg op before).2 :=
    fun op before hhalt ↦ hkept before _ (keeps_exec (closing_of_haltAction hhalt))
  exact withstands_of_performs hkept hstep hperf hstart

variable (happ : AppendHalts append) (hcached : Cached target world)

include happ hcached in
theorem withstands_cancelAtVenue :
    Program.Withstands (exec cfg) (Keeps target) (cancelAtVenue cfg append target)
      (fun cancelled _ ↦ cancelled.orderId = target ∧ cancelled.status = .cancelled)
      (fun _ ↦ Cached target) world := by
  unfold cancelAtVenue
  rw [withstands_act_bind]
  intro later hlate
  obtain ⟨order, horder⟩ := hlate.cached hcached
  have hkey : order.orderId = target := orderId_of_getOrder horder
  have hans : exec cfg (.getOrder target) later = (some order, later) := congrArg (·, later) horder
  rw [hans]
  dsimp only
  cases htrans : order.transitionTo .cancelled none with
  | error err => exact fun last hlast ↦ Keeps.cached hlast ⟨order, horder⟩
  | ok cancelled =>
    have hcanc : cancelled.orderId = target ∧ cancelled.status = .cancelled := by
      rw [(transitionTo_ok htrans).2]
      exact ⟨hkey, rfl⟩
    have hperf : Program.Performs HaltAction
        (do let _ ← append (.cancelRequested target)
            venueCancel cfg order target
            pure cancelled : EngineProgram Order)
        fun ans ↦ ans.orderId = target ∧ ans.status = .cancelled :=
      performs_then (happ _ trivial) fun _ _ ↦
        performs_then performs_venueCancel fun _ _ ↦ hcanc
    exact (withstands_halting hperf (fun _ _ hkeep ↦ hkeep.cached) ⟨order, horder⟩).mono
      (fun _ _ hans ↦ hans.1) fun _ _ hfin ↦ hfin

include happ hcached in
theorem withstands_cancelWith :
    Program.Withstands (exec cfg) (Keeps target) (cancelWith cfg append target none)
      (fun _ ↦ Closed target) (fun _ ↦ Cached target) world := by
  refine withstands_bind (keeps_refl target) fun later hlate ↦ ?_
  refine withstands_bind (keeps_refl target) ?_
  refine withstands_tryCatch (keeps_refl target) ?_
  refine (withstands_cancelAtVenue happ (hlate.cached hcached)).mono ?_ ?_
  · rintro cancelled middle ⟨hkey, hstat⟩
    intro last hlast
    have hclose : Closed target (exec cfg (.updateOrder cancelled) last).2 := by
      refine ⟨cancelled, hkey ▸ getOrder_updateOrder_self _ _, ?_⟩
      rw [hstat]
      rfl
    have hperf : Program.Performs HaltAction
        (do act (.publish (.orderCancelled cancelled))
            let _ ← append (.orderCancelled cancelled)
            releaseSubmitKey cfg target
            pure (.order cancelled) : EngineProgram IdempotencyResult) fun _ ↦ True :=
      performs_act_bind (by trivial) fun _ ↦ performs_then (happ _ hstat) fun _ _ ↦
        performs_then performs_releaseSubmitKey fun _ _ ↦ trivial
    exact (withstands_halting hperf (fun _ _ hkeep ↦ hkeep.closed) hclose).mono
      (fun _ _ hans ↦ hans.2) fun _ _ hfin ↦ hfin.cached
  · exact fun _ middle hmid last hlast ↦ hlast.cached hmid

variable {order : Order} {orders : List Order} {before after : World}

theorem withstands_cancelAll_cons {rest : List Order} {post : List String → World → Prop}
    (hstable : ∀ failures before after, Keeps target before after → post failures before →
      post failures after)
    (hskip : order.status.isTerminal = true →
      Program.Withstands (exec cfg) (Keeps target) (cancelAll cfg append rest) post
        (fun _ _ ↦ False) world)
    (hcanc : order.status.isTerminal = false →
      Program.Withstands (exec cfg) (Keeps target) (cancelWith cfg append order.orderId none)
        (fun _ middle ↦ Program.Withstands (exec cfg) (Keeps target) (cancelAll cfg append rest)
          post (fun _ _ ↦ False) middle)
        (fun _ middle ↦ Program.Withstands (exec cfg) (Keeps target) (cancelAll cfg append rest)
          (fun others ↦ post (order.orderId :: others)) (fun _ _ ↦ False) middle) world) :
    Program.Withstands (exec cfg) (Keeps target) (cancelAll cfg append (order :: rest)) post
      (fun _ _ ↦ False) world := by
  have hrest : ∀ (failed : List String) middle,
      Program.Withstands (exec cfg) (Keeps target) (cancelAll cfg append rest)
        (fun others ↦ post (failed ++ others)) (fun _ _ ↦ False) middle →
      Program.Withstands (exec cfg) (Keeps target)
        (do let others ← cancelAll cfg append rest; pure (failed ++ others)) post
        (fun _ _ ↦ False) middle :=
    fun failed middle hoth ↦ withstands_bind (keeps_refl target)
      (hoth.mono (fun others fin hfin later hlate ↦ hstable _ _ _ hlate hfin)
        fun _ _ hfalse ↦ hfalse)
  unfold cancelAll
  split
  next hterm => exact hrest [] world (hskip hterm)
  next hopen =>
    refine withstands_bind (keeps_refl target) ?_
    refine withstands_tryCatch (keeps_refl target) ?_
    refine withstands_bind (keeps_refl target) ?_
    refine (hcanc (Bool.eq_false_iff.mpr hopen)).mono ?_ ?_
    · exact fun _ middle hmid later hlate ↦
        hrest [] later (hmid.later (keeps_trans target) hlate)
    · exact fun _ middle hmid later hlate ↦
        hrest _ later (hmid.later (keeps_trans target) hlate)

variable {orders : List Order}

theorem withstands_cancelAll_of_kept (happ : AppendHalts append)
    (hkept : ∀ before after, Keeps target before after → prop before → prop after)
    (hstart : prop world) :
    Program.Withstands (exec cfg) (Keeps target) (cancelAll cfg append orders)
      (fun _ ↦ prop) (fun _ _ ↦ False) world := by
  induction orders generalizing world with
  | nil => exact fun later hlate ↦ hkept _ _ hlate hstart
  | cons order rest ih =>
    refine withstands_cancelAll_cons (fun _ ↦ hkept) (fun _ ↦ ih hstart) fun _ ↦ ?_
    exact (withstands_halting (performs_cancelWith_none happ) hkept
      hstart).mono (fun _ _ hmid ↦ ih hmid.2) fun _ _ hmid ↦ ih hmid

structure Tracked (target : String) (orders : List Order) (world : World) : Prop where
  cached : Cached target world
  closed : ∀ order ∈ orders, order.orderId = target → order.status.isTerminal = true →
    Closed target world

theorem Tracked.keeps (hkeep : Keeps target before after) (htrack : Tracked target orders before) :
    Tracked target orders after where
  cached := hkeep.cached htrack.cached
  closed order horder hkey hterm := hkeep.closed (htrack.closed order horder hkey hterm)

theorem Tracked.tail
    (htrack : Tracked target (order :: orders) world) : Tracked target orders world where
  cached := htrack.cached
  closed later hlate := htrack.closed later (List.mem_cons_of_mem _ hlate)

def Accounted (target : String) (orders : List Order) (failures : List String) (world : World) :
    Prop :=
  Closed target world ∨ target ∈ failures ∨ ∀ order ∈ orders, order.orderId ≠ target

variable {failures : List String}

theorem Accounted.keeps
    (hkeep : Keeps target before after) (hacct : Accounted target orders failures before) :
    Accounted target orders failures after :=
  hacct.imp_left hkeep.closed

theorem Accounted.cons {reported : List String} (hother : order.orderId ≠ target)
    (hrep : failures ⊆ reported) (hacct : Accounted target orders failures world) :
    Accounted target (order :: orders) reported world :=
  hacct.imp_right (.imp (@hrep target) (List.forall_mem_cons.mpr ⟨hother, ·⟩))

theorem withstands_cancelAll (happ : AppendHalts append) (htrack : Tracked target orders world) :
    Program.Withstands (exec cfg) (Keeps target) (cancelAll cfg append orders)
      (Accounted target orders) (fun _ _ ↦ False) world := by
  induction orders generalizing world with
  | nil => exact fun _ _ ↦ .inr (.inr fun _ hnil ↦ (List.not_mem_nil hnil).elim)
  | cons order rest ih =>
    have hclose : ∀ middle, Closed target middle →
        Program.Withstands (exec cfg) (Keeps target) (cancelAll cfg append rest)
          (Accounted target (order :: rest)) (fun _ _ ↦ False) middle := fun middle hmid ↦
      (withstands_cancelAll_of_kept happ (fun _ _ hkeep ↦ hkeep.closed) hmid).mono
        (fun _ _ hfin ↦ .inl hfin) fun _ _ hfalse ↦ hfalse
    refine withstands_cancelAll_cons (fun _ _ _ ↦ Accounted.keeps) (fun hterm ↦ ?_) fun _ ↦ ?_
    · by_cases hsame : order.orderId = target
      · exact hclose world (htrack.closed order List.mem_cons_self hsame hterm)
      · exact (ih htrack.tail).mono
          (fun _ _ ↦ Accounted.cons hsame (List.Subset.refl _)) fun _ _ hfalse ↦ hfalse
    · by_cases hsame : order.orderId = target
      · subst hsame
        refine (withstands_cancelWith happ htrack.cached).mono
          (fun _ middle ↦ hclose middle) fun _ middle hmid ↦ ?_
        exact (withstands_cancelAll_of_kept happ (fun _ _ hkeep ↦ hkeep.cached)
          hmid).mono (fun _ _ _ ↦ .inr (.inl List.mem_cons_self)) fun _ _ hfalse ↦ hfalse
      · -- Another order is cancelled; what is known about this one is carried along.
        refine (withstands_halting (performs_cancelWith_none happ)
          (fun _ _ ↦ Tracked.keeps) htrack.tail).mono ?_ ?_
        · exact fun _ middle hmid ↦ (ih hmid.2).mono
            (fun _ _ ↦ Accounted.cons hsame (List.Subset.refl _)) fun _ _ hfalse ↦ hfalse
        · exact fun _ middle hmid ↦ (ih hmid).mono
            (fun _ _ ↦ Accounted.cons hsame (List.subset_cons_self _ _)) fun _ _ hfalse ↦ hfalse

theorem tracked_allOrders (hcached : Cached target world) :
    Tracked target world.cache.allOrders world ∧
      ∃ order ∈ world.cache.allOrders, order.orderId = target := by
  obtain ⟨cached, hget⟩ := hcached
  refine ⟨⟨⟨cached, hget⟩, ?_⟩, cached, Dict.mem_values_of_get hget, orderId_of_getOrder hget⟩
  intro order horder hkey hterm
  obtain ⟨key, hlist⟩ := Dict.exists_get_of_mem_values horder
  have hsame : key = target := (orderId_of_getOrder hlist).symm.trans hkey
  exact ⟨order, hsame ▸ hlist, hterm⟩

include happ hcached in
theorem withstands_sweep :
    Program.Withstands (exec cfg) (Keeps target) (cancelAll cfg append world.cache.allOrders)
      (fun failures fin ↦ Closed target fin ∨ target ∈ failures) (fun _ _ ↦ False) world := by
  obtain ⟨htrack, listed, hlist, hkey⟩ := tracked_allOrders hcached
  refine (withstands_cancelAll happ htrack).mono (fun failures fin hacct ↦ ?_)
    fun _ _ hfalse ↦ hfalse
  rcases hacct with hclose | hrep | hgone
  · exact .inl hclose
  · exact .inr hrep
  · exact absurd hkey (hgone listed hlist)

theorem withstands_tripWith (happ : AppendHalts append) (why : String)
    (hcached : Cached target world) :
    Program.Withstands (exec cfg) (Keeps target) (tripWith cfg append why)
      (fun failures fin ↦ Closed target fin ∨ target ∈ failures) (fun _ _ ↦ False) world := by
  unfold tripWith
  rw [withstands_act_bind]
  intro later hlate last hlast
  exact withstands_sweep happ (hlast.cached (hlate.cached hcached))

/-- After `trip` every cached order is terminal or listed among the failures. -/
theorem trip_accounts_for_every_order (cfg : EngineConfig) (why : String) (world : World) :
    ∃ failures final, Program.run (exec cfg) (tripKillSwitch cfg why) world =
        (.ok failures, final) ∧
      ∀ oid order, final.cache.getOrder oid = some order →
        order.status.isTerminal = true ∨ oid ∈ failures := by
  have hhalts : wp (exec cfg) (tripKillSwitch cfg why)
      (fun _ final ↦ Halts world final) (fun _ _ ↦ False) world := halts_tripKillSwitch
  have hswept : ∀ oid, Cached oid world →
      wp (exec cfg) (tripKillSwitch cfg why)
        (fun failures final ↦ Closed oid final ∨ oid ∈ failures) (fun _ _ ↦ False) world :=
    fun oid hcached ↦
      (withstands_tripWith (appendHalts_append) why hcached).wp (keeps_refl oid)
  unfold wp at hhalts hswept
  cases hrun : run (exec cfg) (tripKillSwitch cfg why) world with
  | mk out final =>
    simp only [hrun] at hhalts hswept
    cases out with
    | error err => exact hhalts.elim
    | ok failures =>
      refine ⟨failures, final, rfl, fun oid order horder ↦ ?_⟩
      have hcached : Cached oid world := by
        cases hpre : world.cache.getOrder oid with
        | some before => exact ⟨before, hpre⟩
        | none =>
          rw [hhalts.getOrder_eq_none hpre] at horder
          cases horder
      refine (hswept oid hcached).imp_left ?_
      rintro ⟨closed, hshut, hterminal⟩
      rw [horder] at hshut
      cases hshut
      exact hterminal

end Tradex.Execution.Engine

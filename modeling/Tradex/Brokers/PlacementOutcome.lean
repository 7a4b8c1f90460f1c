import Tradex.Brokers.DhanOrders
import Tradex.Execution.PlacementCall

/-!
# Orders that may be live

What the engine files for an order, by the way in which its placement at Dhan ends.
-/

namespace Tradex.Brokers.Dhan

open Tradex.Domain Tradex.Execution Engine KeyStamps PlacementCall Mutation Program DhanApiClient
open Mutation.Shared
open ProviderHttpClient
open RetryableHttpClient

def Foreseen : FetchReply → Prop
  | .raised exc => exc.isInstance .osError = true
  | .pair (.int _) _ => True
  | _ => False

def isLost : FetchReply → Bool
  | .raised _ => true
  | _ => false

def isServerError : FetchReply → Bool
  | .pair (.int status) _ => 500 ≤ status
  | _ => false

namespace Placement

variable (placement : Placement) (req : OrderRequest)

def admits : Bool :=
  (placement.broker.gates req).isOk &&
    if req.isBracket then (placement.broker.client.superPayload req).isOk
    else (placement.broker.client.orderPayload req).isOk &&
      !(req.correlationId.map CorrelationId.key).any placement.session.tracker.isUnresolved

def httpBlocked : Bool :=
  placement.broker.client.http.refuses placement.ops placement.around placement.session.http ||
    placement.broker.client.http.pipeline.retry.config.maxAttempts = 0

def reachesWire : Bool := placement.admits req && !placement.httpBlocked

def tracked : Bool :=
  !req.isBracket && (isLost placement.reply || isServerError placement.reply)

def namesOrder : Bool :=
  match normalizeTransportResult placement.reply with
  | .error _ => false
  | .ok body =>
    if req.isBracket then (responseOrderId placement.ops body "Dhan").isOk
    else (orderIdText placement.ops (rawOrderId body) "Dhan order response missing orderId").isOk

end Placement

section

variable {client : RetryableHttpClient} {ops : TextOps} {method url : String} {network : Network}
  {tries : ℕ}

theorem send_unrepeatable (hinj : client.injected = true)
    (hunretried : retryable ops method = false) (hatts : 1 ≤ client.config.maxAttempts) :
    client.send ops method url network tries =
      (normalizeTransportResult (network.fetch tries), tries + 1) := by
  have hpass : client.pass ops method network tries =
      (.done (normalizeTransportResult (network.fetch tries)), tries + 1) := by
    simp only [RetryableHttpClient.pass, hinj, if_true, fetchAttempt]
    cases normalizeTransportResult (network.fetch tries) with
    | error exc => simp [onException, hinj, hunretried]
    | ok res => simp only [hunretried, Bool.false_and, Bool.false_eq_true, if_false]
  have hreach : client.reachesNetwork network = true := by rw [reachesNetwork, hinj, Bool.true_or]
  rw [send_of_reachesNetwork hreach]
  obtain ⟨rem, hrem⟩ := Nat.exists_eq_add_of_le' hatts
  rw [hrem, attemptLoop, hpass]

theorem send_without_attempts (hinj : client.injected = true)
    (hatts : client.config.maxAttempts = 0) :
    (client.send ops method url network tries).2 = tries := by
  have hreach : client.reachesNetwork network = true := by rw [reachesNetwork, hinj, Bool.true_or]
  rw [send_of_reachesNetwork hreach, hatts, attemptLoop]

variable {reply : FetchReply} (hsee : Foreseen reply)

include hsee

theorem statusOf_normalized {res : Fields} (hres : normalizeTransportResult reply = .ok res) :
    ∃ status body, reply = .pair (.int status) body ∧ statusOf res = .int status := by
  cases reply with
  | raised exc => cases hres
  | plain body => exact hsee.elim
  | pair code body =>
    cases code with
    | int status =>
      refine ⟨status, body, rfl, ?_⟩
      cases body with
      | object fields =>
        cases hres
        rw [statusOf, Fields.get_set, if_pos rfl, Option.getD_some]
      | _ =>
        cases hres
        rfl
    | _ => exact hsee.elim

theorem lost_of_normalized {exc : Raised} (hres : normalizeTransportResult reply = .error exc) :
    isLost reply = true ∧ exc.isInstance .osError = true := by
  cases reply with
  | raised other =>
    cases hres
    exact ⟨rfl, hsee⟩
  | plain body => exact hsee.elim
  | pair code body => cases body <;> cases hres

theorem settle_normalized {breaker : CircuitBreaker} {now : ℚ} :
    (breaker.settle now (normalizeTransportResult reply)).1 = normalizeTransportResult reply := by
  cases hres : normalizeTransportResult reply with
  | error exc => rfl
  | ok res =>
    obtain ⟨status, body, -, hstat⟩ := statusOf_normalized hsee hres
    rw [statusOf] at hstat
    simp only [CircuitBreaker.settle, hstat, Json.atLeast]
    split <;> rfl

theorem pipeline_send_sent {pipeline : ResiliencePipeline} {around : Surroundings}
    {st : PipelineState} (hadm : around.refuses ops st = false)
    (hsend : pipeline.retry.send ops method url around.network st.attempts =
      (normalizeTransportResult reply, tries)) :
    (pipeline.send ops around method url st).1 = normalizeTransportResult reply := by
  obtain ⟨-, breaker, hset⟩ := ResiliencePipeline.send_of_admitted hadm
  rw [hset, hsend]
  exact settle_normalized hsee

end

section

variable {http : ProviderHttpClient} {ops : TextOps} {around : ClientSurroundings} {path : String}
  {args : RequestArgs} {st : ClientState}

theorem upper_post : ops.upper "POST" = "POST" := ops.upper_capitals "POST" (by decide)

theorem isMutation_post : IsMutation ops "POST" (some false) where
  method_unsafe := by
    rw [upper_post]
    decide
  not_read := by decide

theorem retryable_post : retryable ops "POST" = false := by
  have hstrip : Text.strip "POST" = "POST" := by decide
  rw [retryable, hstrip, upper_post]
  decide

/-- Whatever is posted goes out once, and is answered by the reply. -/
def Posts (http : ProviderHttpClient) (ops : TextOps) (around : ClientSurroundings)
    (st : ClientState) (reply : FetchReply) : Prop :=
  ∀ path args, (http.request ops around "POST" path (some false) args st).1 =
      normalizeTransportResult reply ∧
    (http.request ops around "POST" path (some false) args st).2.pipeline.attempts =
      st.pipeline.attempts + 1

theorem posts_of_admitted (hinj : http.pipeline.retry.injected = true)
    (hadm : http.refuses ops around st = false)
    (hatts : 1 ≤ http.pipeline.retry.config.maxAttempts)
    (hsee : Foreseen (around.network.fetch st.pipeline.attempts)) :
    Posts http ops around st (around.network.fetch st.pipeline.attempts) := by
  intro path args
  have hsend : ∀ url, http.pipeline.retry.send ops "POST" url around.network
      st.pipeline.attempts = (normalizeTransportResult
        (around.network.fetch st.pipeline.attempts), st.pipeline.attempts + 1) :=
    fun url ↦ send_unrepeatable hinj retryable_post hatts
  rw [isMutation_post.request_eq]
  refine ⟨?_, ?_⟩
  · rw [refuses, Bool.or_eq_false_iff] at hadm
    unfold authenticatedSend
    cases htoken : http.injectAuth around st with
    | error exc =>
      rw [htoken] at hadm
      cases hadm.1
    | ok token =>
      have hans : ∀ url, (http.pipeline.send ops around.toSurroundings "POST" url
          st.pipeline).1 = normalizeTransportResult (around.network.fetch st.pipeline.attempts) :=
        fun url ↦ pipeline_send_sent hsee hadm.2 (hsend url)
      dsimp only
      rw [hans]
      cases normalizeTransportResult (around.network.fetch st.pipeline.attempts) <;> rfl
  · rw [authenticatedSend_of_admitted hadm, hsend]

theorem request_post_unsent (hinj : http.pipeline.retry.injected = true)
    (hblock : http.refuses ops around st = true ∨ http.pipeline.retry.config.maxAttempts = 0) :
    (http.request ops around "POST" path (some false) args st).2.pipeline.attempts =
      st.pipeline.attempts := by
  rw [isMutation_post.request_eq]
  cases href : http.refuses ops around st with
  | true => exact authenticatedSend_of_refuses href
  | false =>
    rw [authenticatedSend_of_admitted href]
    exact send_without_attempts hinj (hblock.resolve_left (Bool.eq_false_iff.1 href))

end

section

variable {ops : TextOps} {operation : String} {cid : Option String} {exchanges : Mutation.Exchanges}
  {shared : Mutation.Shared} {fail : Raised → Mutation.Shared → Prop}
  {post : Unit → Mutation.Shared → Prop}

theorem wp_markUnresolved (hpost : ∀ fin, fin.prepared = shared.prepared → post () fin) :
    wp (exec exchanges) (markUnresolved cid) post fail shared := by
  cases cid <;> exact hpost _ rfl

theorem wp_commit (hpost : ∀ fin, fin.prepared = shared.prepared → post () fin) :
    wp (exec exchanges) (commit cid) post fail shared := by
  cases cid <;> exact hpost _ rfl

theorem prepared_of_unresolved (hunres : cid.any shared.tracker.isUnresolved = true) :
    ((Mutation.submitMutation ops operation cid).run (Mutation.exec exchanges)
      shared).2.prepared = shared.prepared := by
  cases cid with
  | none => cases hunres
  | some key =>
    rw [Option.any_some] at hunres
    have href : wp (Mutation.exec exchanges)
        (Mutation.submitMutation ops operation (some key))
        (fun _ fin ↦ fin.prepared = shared.prepared)
        (fun _ fin ↦ fin.prepared = shared.prepared) shared := by
      simp [Mutation.submitMutation, Mutation.admission, Mutation.act, Mutation.exec, isUnresolved,
        hunres]
    exact run_of_wp href

variable {reply : FetchReply} (hsee : Foreseen reply)
  (hfix : cid.any shared.tracker.isUnresolved = false)
  (hprep : exchanges.prepare shared.prepared = .ok ())
  (hreply : exchanges.reply shared.answered = normalizeTransportResult reply)

/-- How a mutation ends by its reply: with an unknown outcome, or with what is read off the body. -/
def EndsBy {Output : Type} (reply : FetchReply) (read : Fields → Except Raised Output)
    (ended : Except Raised Output) : Prop :=
  if isLost reply || isServerError reply then
    ∃ exc, ended = .error exc ∧ exc.isInstance .orderSubmissionUnknownError = true
  else ∃ body, normalizeTransportResult reply = .ok body ∧ ended = read body

include hsee hfix hprep hreply in
theorem wp_submitMutation_sent :
    wp (Mutation.exec exchanges) (Mutation.submitMutation ops operation cid)
      (fun res fin ↦ EndsBy reply .ok (.ok res) ∧ fin.prepared = shared.prepared + 1)
      (fun exc fin ↦ EndsBy reply .ok (.error exc) ∧ fin.prepared = shared.prepared + 1)
      shared := by
  have hsettle : ∀ st : Mutation.Shared, st.prepared = shared.prepared + 1 →
      wp (Mutation.exec exchanges)
        (Mutation.settle ops operation cid (normalizeTransportResult reply))
        (fun res fin ↦ EndsBy reply .ok (.ok res) ∧ fin.prepared = shared.prepared + 1)
        (fun exc fin ↦ EndsBy reply .ok (.error exc) ∧ fin.prepared = shared.prepared + 1)
        st := by
    intro st hst
    cases hres : normalizeTransportResult reply with
    | error exc =>
      obtain ⟨hlost, hraise⟩ := lost_of_normalized hsee hres
      simp only [Mutation.settle, hraise, if_true, wp_bind]
      refine wp_markUnresolved fun marked hmark ↦ ⟨?_, hmark.trans hst⟩
      rw [EndsBy, hlost]
      exact ⟨_, rfl, rfl⟩
    | ok res =>
      obtain ⟨status, body, rfl, hstat⟩ := statusOf_normalized hsee hres
      simp only [Mutation.settle, hstat, Json.atLeast]
      cases hserver : decide ((500 : ℤ) ≤ status) with
      | true =>
        simp only [wp_bind]
        refine wp_markUnresolved fun marked hmark ↦ ⟨?_, hmark.trans hst⟩
        rw [EndsBy, isServerError, hserver, Bool.or_true]
        exact ⟨_, rfl, rfl⟩
      | false =>
        simp only [wp_bind]
        refine wp_commit fun committed hcomm ↦ ⟨?_, hcomm.trans hst⟩
        rw [EndsBy, isServerError, hserver]
        exact ⟨res, hres, rfl⟩
  cases cid with
  | none =>
    simp only [Mutation.submitMutation, Mutation.admission, Mutation.send, Mutation.act,
      wp_bind, wp_pure, wp_perform, Mutation.exec, hprep,
      launch, hreply]
    exact hsettle _ rfl
  | some key =>
    rw [Option.any_some] at hfix
    simp only [Mutation.submitMutation, Mutation.admission, Mutation.send, Mutation.act,
      wp_bind, wp_perform, Mutation.exec, isUnresolved, hfix,
      Bool.false_eq_true, if_false, hprep, launch, hreply]
    exact hsettle _ rfl

variable {http : ProviderHttpClient} {around : ClientSurroundings} {path : String}
  {args : RequestArgs} {sess : Session}

theorem submitMutation_unsent {operation : String}
    (hblock : cid.any sess.tracker.isUnresolved = true ∨
      (http.request ops around "POST" path (some false) args sess.http).2.pipeline.attempts =
        sess.http.pipeline.attempts) :
    (submitMutation http ops around "POST" path operation cid args
      sess).2.http.pipeline.attempts = sess.http.pipeline.attempts := by
  simp only [submitMutation]
  split
  · rfl
  · rename_i hprep
    rcases hblock with hunres | hpend
    · exact absurd (prepared_of_unresolved hunres) hprep
    · exact hpend

include hsee hfix hprep hreply in
theorem run_submitMutation_sent :
    let ran := (Mutation.submitMutation ops operation cid).run (Mutation.exec exchanges)
      shared
    EndsBy reply .ok ran.1 ∧ ran.2.prepared = shared.prepared + 1 := by
  intro ran
  obtain ⟨hret, hraise⟩ := wp_iff_run.1 (wp_submitMutation_sent hsee hfix hprep hreply)
  cases hres : ran.1 with
  | ok body => exact hret body hres
  | error exc => exact hraise exc hres

theorem submitMutation_sent (hsee : Foreseen reply)
    (hfix : cid.any sess.tracker.isUnresolved = false)
    (hposts : Posts http ops around sess.http reply) :
    let sent := submitMutation http ops around "POST" path operation cid args sess
    EndsBy reply .ok sent.1 ∧ sent.2.http.pipeline.attempts = sess.http.pipeline.attempts + 1 := by
  obtain ⟨hans, hatts⟩ := hposts path args
  have hnew := hatts.trans_ne (Nat.succ_ne_self _)
  refine ⟨(run_submitMutation_sent hsee hfix (if_neg hnew) hans).1, ?_⟩
  simp only [submitMutation]
  rw [(run_submitMutation_sent hsee hfix (if_neg hnew) hans).2, if_neg]
  · exact hatts
  · exact Nat.succ_ne_zero _

end

/-! ## One placement -/

theorem not_unknown_of_osError {cls : ExceptionClass} (hos : cls.isSubclass .osError = true) :
    cls.isSubclass .orderSubmissionUnknownError = false := by
  induction cls with
  | derived name base ih =>
    have hsame : ∀ cls : ExceptionClass, (∀ name base, cls ≠ .derived name base) →
        (ExceptionClass.derived name base).isSubclass cls = base.isSubclass cls := by
      intro cls hnot
      rw [ExceptionClass.isSubclass, decide_eq_false (hnot name base).symm,
        ExceptionClass.isSubclass, ← Bool.decide_or]
      exact decide_eq_decide.2 (List.mem_cons.trans (or_congr_left eq_comm))
    rw [hsame _ fun _ _ heq ↦ ExceptionClass.noConfusion heq] at hos ⊢
    exact ih hos
  | _ => first | rfl | cases hos

section Client

variable {client : DhanApiClient} {ops : TextOps} {around : ClientSurroundings}
  {req : OrderRequest} {sess : Session} {payload : Fields}

theorem submitOrder_attempts (hpay : client.orderPayload req = .ok payload) :
    (client.submitOrder ops around req sess).2.http.pipeline.attempts =
      (submitMutation client.http ops around "POST" (client.url "/orders") "Dhan order placement"
        (req.correlationId.map CorrelationId.key) { json := some (.object payload) }
        sess).2.http.pipeline.attempts := by
  simp only [submitOrder, hpay]
  rcases submitMutation client.http ops around "POST" (client.url "/orders")
    "Dhan order placement" (req.correlationId.map CorrelationId.key)
    { json := some (.object payload) } sess with ⟨out, after⟩
  cases out with
  | error exc => rfl
  | ok body =>
    dsimp only
    cases orderIdText ops (rawOrderId body) "Dhan order response missing orderId" <;> rfl

theorem submitSuperOrder_attempts (hpay : client.superPayload req = .ok payload) :
    (client.submitSuperOrder ops around req sess).2.http.pipeline.attempts =
      (client.http.request ops around "POST" (client.url "/super/orders") (some false)
        { json := some (.object payload) } sess.http).2.pipeline.attempts := by
  simp only [submitSuperOrder, hpay]
  rcases client.http.request ops around "POST" (client.url "/super/orders") (some false)
    { json := some (.object payload) } sess.http with ⟨out, after⟩
  cases out <;> rfl

variable {reply : FetchReply} (hposts : Posts client.http ops around sess.http reply)

include hposts

theorem submitOrder_sent (hsee : Foreseen reply) (hpay : client.orderPayload req = .ok payload)
    (hfix : (req.correlationId.map CorrelationId.key).any
      sess.tracker.isUnresolved = false) :
    EndsBy reply
      (fun body ↦ orderIdText ops (rawOrderId body) "Dhan order response missing orderId")
      (client.submitOrder ops around req sess).1 := by
  have hmut := fun path args ↦ (@submitMutation_sent ops "Dhan order placement" _ reply
    client.http around path args sess hsee hfix hposts).1
  have hends := hmut (client.url "/orders") { json := some (.object payload) }
  simp only [submitOrder, hpay]
  rcases hsub : submitMutation client.http ops around "POST" (client.url "/orders")
    "Dhan order placement" (req.correlationId.map CorrelationId.key)
    { json := some (.object payload) } sess with ⟨out, after⟩
  rw [hsub] at hends
  unfold EndsBy at hends ⊢
  split
  next huncertain =>
    rw [if_pos huncertain] at hends
    obtain ⟨exc, rfl, hunk⟩ := hends
    exact ⟨exc, rfl, hunk⟩
  next hcert =>
    rw [if_neg hcert] at hends
    obtain ⟨body, hbody, rfl⟩ := hends
    refine ⟨body, hbody, ?_⟩
    dsimp only
    cases orderIdText ops (rawOrderId body) "Dhan order response missing orderId" <;> rfl

theorem submitSuperOrder_sent (hpay : client.superPayload req = .ok payload) :
    (client.submitSuperOrder ops around req sess).1 =
      (normalizeTransportResult reply).bind fun body ↦ responseOrderId ops body "Dhan" := by
  rw [← (hposts (client.url "/super/orders") { json := some (.object payload) }).1]
  simp only [submitSuperOrder, hpay]
  rcases client.http.request ops around "POST" (client.url "/super/orders") (some false)
    { json := some (.object payload) } sess.http with ⟨out, after⟩
  cases out <;> rfl

end Client

namespace Placement

variable {placement : Placement} {req : OrderRequest}
  (hinj : placement.broker.client.http.pipeline.retry.injected = true)

include hinj in
theorem place_unsent (hblock : placement.reachesWire req = false) :
    (placement.place req).2.http.pipeline.attempts = placement.session.http.pipeline.attempts := by
  rw [reachesWire, Bool.and_eq_false_iff, Bool.not_eq_false', httpBlocked, Bool.or_eq_true,
    decide_eq_true_iff] at hblock
  unfold place
  cases hgate : placement.broker.gates req with
  | error exc => rfl
  | ok _ =>
    cases hbrk : req.isBracket with
    | true =>
      simp only [if_true]
      cases hpay : placement.broker.client.superPayload req with
      | error exc => simp only [submitSuperOrder, hpay]
      | ok payload =>
        rw [submitSuperOrder_attempts hpay]
        refine request_post_unsent hinj (hblock.resolve_left ?_)
        simp only [admits, hgate, hbrk, hpay]
        exact nofun
    | false =>
      simp only [Bool.false_eq_true, if_false]
      cases hpay : placement.broker.client.orderPayload req with
      | error exc => simp only [submitOrder, hpay]
      | ok payload =>
        rw [submitOrder_attempts hpay]
        refine submitMutation_unsent (hblock.imp (fun href ↦ ?_)
          fun href ↦ request_post_unsent hinj href)
        simp only [admits, hgate, hbrk, hpay, Bool.false_eq_true, if_false, Except.toBool,
          Bool.true_and, Bool.not_eq_false'] at href
        exact href

theorem not_unknown_of_orderIdText {ops : TextOps} {raw : Json} {missing : String} {exc : Raised}
    (hmiss : orderIdText ops raw missing = .error exc) :
    exc.isInstance .orderSubmissionUnknownError = false := by
  cases raw with
  | null =>
    cases hmiss
    rfl
  | _ => cases hmiss

theorem exists_ok_of_isOk {Err Output : Type} {out : Except Err Output}
    (hok : out.isOk = true) : ∃ val, out = .ok val := by
  cases out with
  | ok val => exact ⟨val, rfl⟩
  | error err => cases hok

def EndsAsAnswered (placement : Placement) (req : OrderRequest)
    (ended : Except Raised String) : Prop :=
  match ended with
  | .ok _ => placement.tracked req = false ∧ placement.namesOrder req = true
  | .error exc =>
    if exc.isInstance .orderSubmissionUnknownError then placement.tracked req = true
    else placement.tracked req = false ∧ placement.namesOrder req = false

theorem endsAsAnswered_bracket (hsee : Foreseen placement.reply) (hbrk : req.isBracket = true) :
    EndsAsAnswered placement req ((normalizeTransportResult placement.reply).bind fun body ↦
      responseOrderId placement.ops body "Dhan") := by
  have htrack : placement.tracked req = false := by
    rw [tracked, hbrk, Bool.not_true, Bool.false_and]
  cases hres : normalizeTransportResult placement.reply with
  | error exc =>
    have hclass := not_unknown_of_osError (lost_of_normalized hsee hres).2
    simp only [Except.bind, EndsAsAnswered, Raised.isInstance, hclass]
    exact ⟨htrack, by rw [namesOrder, hres]⟩
  | ok body =>
    have hnames : placement.namesOrder req =
        (responseOrderId placement.ops body "Dhan").isOk := by
      simp [namesOrder, hres, hbrk]
    simp only [Except.bind]
    cases hid : responseOrderId placement.ops body "Dhan" with
    | ok oid => exact ⟨htrack, by rw [hnames, hid]; rfl⟩
    | error exc =>
      simp only [EndsAsAnswered, not_unknown_of_orderIdText hid]
      exact ⟨htrack, by rw [hnames, hid]; rfl⟩

theorem endsAsAnswered_plain (hplain : req.isBracket = false) {body : Fields}
    (hcert : (isLost placement.reply || isServerError placement.reply) = false)
    (hres : normalizeTransportResult placement.reply = .ok body) :
    EndsAsAnswered placement req (orderIdText placement.ops (rawOrderId body)
      "Dhan order response missing orderId") := by
  have htrack : placement.tracked req = false := by rw [tracked, hcert, Bool.and_false]
  have hnames : placement.namesOrder req = (orderIdText placement.ops (rawOrderId body)
      "Dhan order response missing orderId").isOk := by
    simp [namesOrder, hres, hplain]
  cases hid : orderIdText placement.ops (rawOrderId body) "Dhan order response missing orderId" with
  | ok oid => exact ⟨htrack, by rw [hnames, hid]; rfl⟩
  | error exc =>
    simp only [EndsAsAnswered, not_unknown_of_orderIdText hid]
    exact ⟨htrack, by rw [hnames, hid]; rfl⟩

include hinj in
theorem place_sent (hsee : Foreseen placement.reply) (hreach : placement.reachesWire req = true) :
    (placement.place req).2.http.pipeline.attempts =
        placement.session.http.pipeline.attempts + 1 ∧
      EndsAsAnswered placement req (placement.place req).1 := by
  rw [reachesWire, Bool.and_eq_true, Bool.not_eq_true', admits, Bool.and_eq_true, httpBlocked,
    Bool.or_eq_false_iff, decide_eq_false_iff_not] at hreach
  obtain ⟨⟨hgate, hpay⟩, hadm, hatts⟩ := hreach
  obtain ⟨_, hgate⟩ := exists_ok_of_isOk hgate
  have hposts := posts_of_admitted hinj hadm (Nat.one_le_iff_ne_zero.2 hatts) hsee
  unfold place
  rw [hgate]
  cases hbrk : req.isBracket with
  | true =>
    simp only [hbrk, if_true] at hpay ⊢
    obtain ⟨payload, hpay⟩ := exists_ok_of_isOk hpay
    refine ⟨?_, ?_⟩
    · rw [submitSuperOrder_attempts hpay]
      exact (hposts _ _).2
    · rw [submitSuperOrder_sent hposts hpay]
      exact endsAsAnswered_bracket hsee hbrk
  | false =>
    simp only [hbrk, Bool.false_eq_true, if_false, Bool.and_eq_true, Bool.not_eq_true'] at hpay ⊢
    obtain ⟨hpay, hfix⟩ := hpay
    obtain ⟨payload, hpay⟩ := exists_ok_of_isOk hpay
    refine ⟨?_, ?_⟩
    · rw [submitOrder_attempts hpay]
      exact (submitMutation_sent hsee hfix hposts).2
    · have hends := submitOrder_sent hposts hsee hpay hfix
      unfold EndsBy at hends
      split at hends
      next huncertain =>
        obtain ⟨exc, hraise, hunk⟩ := hends
        rw [hraise]
        simp only [EndsAsAnswered, hunk]
        exact (congrArg₂ _ (congrArg _ hbrk) huncertain)
      next hcert =>
        obtain ⟨body, hbody, hret⟩ := hends
        rw [hret]
        exact endsAsAnswered_plain hbrk (Bool.eq_false_iff.2 hcert) hbody

include hinj in
theorem wasSent_eq_reachesWire (hsee : Foreseen placement.reply) :
    placement.wasSent req = placement.reachesWire req := by
  cases hreach : placement.reachesWire req with
  | false => exact decide_eq_false (not_not.2 (place_unsent hinj hreach))
  | true =>
    refine decide_eq_true ?_
    rw [(place_sent hinj hsee hreach).1]
    exact Nat.succ_ne_self _

theorem neverFills_submit {env : Environment}
    (hsrc : ∀ index, env.submits index = placement.submit) : NeverFills env := by
  intro index req order fill hacc
  rw [hsrc, submit] at hacc
  split at hacc
  · cases hacc
    rfl
  · cases hacc

end Placement

variable (cfg : EngineConfig)

def FiledSafely (placement : Placement) (req : OrderRequest) (world : World) : Prop :=
  placement.certainlyNotTaken req = true ∨
    Accounted cfg req ((submit cfg req).run (exec cfg) world)

def OutcomeTraced (placement : Placement) (req : OrderRequest) (world : World) : Prop :=
  placement.reachesWire req = false ∨ isClientError placement.reply = true ∨
    placement.tracked req = true ∨
    placement.namesOrder req = true ∧ Recorded cfg world

theorem boundaryCrossed_tradingError (exc : Raised) :
    boundaryCrossed cfg (tradingError exc)
        (some (exc.isInstance .orderSubmissionUnknownError)) =
      exc.isInstance .orderSubmissionUnknownError := by
  unfold boundaryCrossed tradingError
  cases exc.isInstance .orderSubmissionUnknownError with
  | true => simp
  | false => cases exc.isInstance .orderRejectedError <;> cases exc.isInstance .valueError <;> simp

/-- A placement is acknowledged, rejected or filed as unknown in step with the venue exactly when
its outcome can be traced. -/
theorem filed_safely_iff (cfg : EngineConfig) (placement : Placement) (req : OrderRequest)
    (start world : World) (hstmp : start.cidForOrder = Dict.empty)
    (hvenue : NeverFills start.environment) (hreached : Reached cfg start world)
    (hmade : PlacementMade cfg world req)
    (hanswer : world.environment.submits 0 req = placement.submit req)
    (hinj : placement.broker.client.http.pipeline.retry.injected = true)
    (hsee : Foreseen placement.reply) :
    FiledSafely cfg placement req world ↔ OutcomeTraced cfg placement req world := by
  have hregl := regular_reached (regular_of_unstamped hstmp hvenue) hreached
  rw [FiledSafely, OutcomeTraced, Placement.certainlyNotTaken,
    Placement.wasSent_eq_reachesWire hinj hsee, Bool.or_eq_true, Bool.not_eq_true',
    or_assoc]
  cases hreaches : placement.reachesWire req with
  | false => exact iff_of_true (Or.inl rfl) (Or.inl rfl)
  | true =>
    refine or_congr_right (or_congr_right ?_)
    have hends := (Placement.place_sent hinj hsee hreaches).2
    unfold Placement.submit at hanswer
    cases hplace : (placement.place req).1 with
    | ok oid =>
      rw [hplace] at hanswer hends
      obtain ⟨htrk, hnames⟩ := hends
      rw [accounted_accepted_iff hmade hanswer rfl, htrk, hnames]
      simp
    | error exc =>
      rw [hplace] at hanswer hends
      simp only [Placement.EndsAsAnswered] at hends
      have hcrossed := boundaryCrossed_tradingError cfg exc
      cases hunknown : exc.isInstance .orderSubmissionUnknownError with
      | true =>
        rw [hunknown] at hends
        exact iff_of_true
          (accounted_crossed hregl hmade hanswer (hcrossed.trans hunknown)) (Or.inl hends)
      | false =>
        rw [hunknown] at hends
        rw [hends.1, hends.2]
        simp only [Bool.false_eq_true, false_and, or_false, iff_false]
        exact not_accounted_local hmade hanswer (hcrossed.trans hunknown)

def purchase : OrderRequest :=
  { OrderRequest.plain ⟨"NSE:INFY"⟩ .buy .limit 10 (some (.ofNat 100)) Decimal.ten_pos with
    correlationId := some (.plain "key-1") }

def bracketPurchase : OrderRequest where
  instrument := ⟨"NSE:INFY"⟩
  side := .buy
  orderType := .limit
  quantity := 10
  price := some (.ofNat 100)
  correlationId := some (.plain "key-1")
  stopLossPrice := some (.ofNat 90)
  targetPrice := some (.ofNat 120)
  isBracket := true
  quantity_pos := Decimal.ten_pos
  bracket_valid := by decide +kernel

def placementOver (reply : FetchReply) : Placement where
  broker :=
    { client :=
        { http := exampleClient true
          baseUrl := ""
          clientId := "client-1"
          segment := fun _ ↦ .ok "NSE_EQ"
          securityId := fun _ ↦ .ok "1594" }
      allowOrderOperations := true
      supportsSuperOrder := true
      connected := true }
  ops := .ascii
  around :=
    { lossySurroundings with
      network := { lossySurroundings.network with fetch := fun _ ↦ reply } }
  session := { http := .initial, tracker := ⟨∅, ∅⟩ }

def engineOver (placement : Placement) : World := World.constructed (.obliging placement.submit)

/-- Whether the order is certainly not at the venue, the status that the caller sees, and the keys
that stay reserved. -/
def filing (placement : Placement) (req : OrderRequest) : Bool × Option OrderStatus × Finset String :=
  let (out, world) := (submit .standard req).run (exec .standard) (engineOver placement)
  (placement.certainlyNotTaken req, match out with
    | .ok (.receipt receipt) => some receipt.status
    | _ => none, world.guard.reserved)

theorem live_orders_filed_as_rejected :
    filing (placementOver (.raised connectionLost)) bracketPurchase = (false, some .rejected, ∅) ∧
    filing (placementOver (.pair (.int 200) (.object []))) purchase = (false, some .rejected, ∅) := by
  decide +kernel

theorem lost_purchase_filed_safely :
    FiledSafely .standard (placementOver (.raised connectionLost)) purchase
      (engineOver (placementOver (.raised connectionLost))) :=
  (filed_safely_iff .standard (placementOver (.raised connectionLost)) purchase _ _ rfl
    (Placement.neverFills_submit fun _ ↦ rfl) .start
    ⟨⟨rfl, nofun, nofun, nofun, nofun, fun _ _ _ ↦ rfl, rfl⟩, fun _ _ _ ↦ rfl⟩ rfl rfl rfl).2
    (.inr (.inr (.inl rfl)))

end Tradex.Brokers.Dhan

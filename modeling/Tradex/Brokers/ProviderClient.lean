import Tradex.Brokers.Resilience

/-!
# The provider client

One request of a broker adapter: the read cache, the token, the pipeline, and the
single replay after a rejected token. A request that is not a read goes through the
pipeline once.
-/

namespace Tradex.Brokers

structure ReadCache where
  maxEntries : ℕ
  entries : Dict String (Fields × ℚ)
  maxEntries_pos : 0 < maxEntries

namespace ReadCache

def get (cache : ReadCache) (key : String) (now : ℚ) : Option Fields × ReadCache :=
  match cache.entries.get key with
  | none => (none, cache)
  | some (val, expiresAt) =>
    if expiresAt ≤ now then (none, { cache with entries := cache.entries.erase key })
    else (some val, cache)

def oldest : List (String × (Fields × ℚ)) → Option (String × ℚ)
  | [] => none
  | (key, (_, expiresAt)) :: rest =>
    match oldest rest with
    | none => some (key, expiresAt)
    | some (other, earliest) =>
      if earliest < expiresAt then some (other, earliest) else some (key, expiresAt)

def makeRoom (cache : ReadCache) (key : String) : Dict String (Fields × ℚ) :=
  if (cache.entries.get key).isNone && cache.maxEntries ≤ cache.entries.entries.length then
    match oldest cache.entries.entries with
    | some (other, _) => cache.entries.erase other
    | none => cache.entries
  else cache.entries

def set (cache : ReadCache) (key : String) (val : Fields) (ttl now : ℚ) : ReadCache :=
  if ttl ≤ 0 then cache
  else { cache with entries := (cache.makeRoom key).set key (val, now + ttl) }

end ReadCache

def tokenRejectionMarkers : List String :=
  ["dh-901", "dh-906", "invalid_authentication", "invalid token", "invalid_token", "unauthorized",
    "udapi100050", "authentication failed"]

def containsText (text part : String) : Bool :=
  text.toList.tails.any fun tail ↦ part.toList.isPrefixOf tail

variable (ops : TextOps)

def hasTokenRejectionMarker (text : String) : Bool :=
  tokenRejectionMarkers.any fun marker ↦ containsText (ops.lower text) marker

def isTokenRejectionResponse (status : Json) (body : Fields) : Bool :=
  (status.equalsInt 401 || status.equalsInt 403) ||
    (status.equalsInt 400 && hasTokenRejectionMarker ops (ops.str (.object body)))

def isBusinessTokenRejection (body : Fields) : Bool :=
  hasTokenRejectionMarker ops (ops.str (.object body))

def isAuthFailure (res : Fields) : Bool :=
  match Fields.getOrNull res "_http_status" with
  | .null => isBusinessTokenRejection ops res
  | status => isTokenRejectionResponse ops status res

structure AuthConfig where
  hasTokenProvider : Bool
  hasAuthHeaders : Bool
  hasOnAuthFailure : Bool
  hasTokenManager : Bool
  hasRetryPolicy : Bool

structure ProviderHttpClient where
  baseUrl : String
  auth : AuthConfig
  pipeline : ResiliencePipeline
  cacheTtl : ℚ

structure ClientSurroundings extends Surroundings where
  token : ℕ → Except Raised String
  refresh : ℕ → String → Except Raised Unit
  cacheClock : ℕ → ℚ

structure ClientState where
  pipeline : PipelineState
  cache : Option ReadCache
  tokens : ℕ
  ticks : ℕ

structure RequestArgs where
  params : Option Json := none
  json : Option Json := none

namespace ProviderHttpClient

variable (client : ProviderHttpClient) (ops : TextOps) (around : ClientSurroundings)

def buildUrl (path : String) : String :=
  if "http://".toList.isPrefixOf path.toList || "https://".toList.isPrefixOf path.toList then path
  else if client.baseUrl = "" then path
  else client.baseUrl ++ "/" ++ String.ofList (path.toList.dropWhile fun c ↦ c = '/')

variable (method url : String)

def cacheKey (args : RequestArgs) : String :=
  let optional (name : String) : Option Json → List String
    | some val => [name ++ "=" ++ ops.dumps val]
    | none => []
  "|".intercalate
    ([ops.upper method, url] ++ optional "params" args.params ++ optional "json" args.json)

def shouldCache (method : String) (cacheRead : Option Bool) (st : ClientState) : Bool :=
  if st.cache.isNone || cacheRead = some false then false
  else cacheRead = some true || ops.upper method ∈ ["GET", "HEAD"]

def injectAuth (st : ClientState) : Except Raised (Option String) :=
  if client.auth.hasTokenProvider && client.auth.hasAuthHeaders then
    (around.token st.tokens).map some
  else if !client.auth.hasTokenManager then .ok none
  else (around.token st.tokens).map fun token ↦ if token = "" then none else some token

def authenticatedSend (st : ClientState) :
    Except Raised (Fields × Option String) × ClientState :=
  let asked := { st with tokens := st.tokens + 1 }
  match client.injectAuth around st with
  | .error exc => (.error exc, asked)
  | .ok token =>
    let sent := client.pipeline.send ops around.toSurroundings method url st.pipeline
    (sent.1.map fun res ↦ (res, token), { asked with pipeline := sent.2 })

def retryEnabled : Bool :=
  (client.auth.hasTokenProvider && client.auth.hasOnAuthFailure) ||
    (client.auth.hasRetryPolicy && client.auth.hasTokenManager)

def authRetryEligible (method : String) (cacheRead : Option Bool) : Bool :=
  ops.upper method ∈ safeMethods || cacheRead = some true

def reportRejection (token : Option String) (st : ClientState) : Except Raised Unit :=
  match client.auth.hasOnAuthFailure, token with
  | true, some token =>
    if token = "" then .ok ()
    else
      match around.refresh st.tokens token with
      | .ok _ => .ok ()
      | .error exc => .error
          { cls := .authenticationError
            message := "token rejected by broker and refresh failed: " ++ exc.message }
  | _, _ => .ok ()

def sendWithReplay (cacheRead : Option Bool) (st : ClientState) :
    Except Raised Fields × ClientState :=
  match client.authenticatedSend ops around method url st with
  | (.error exc, st) => (.error exc, st)
  | (.ok (res, token), st) =>
    if client.retryEnabled && authRetryEligible ops method cacheRead &&
        isAuthFailure ops res then
      match client.reportRejection around token st with
      | .error exc => (.error exc, st)
      | .ok _ =>
        let replayed := client.authenticatedSend ops around method url st
        (replayed.1.map Prod.fst, replayed.2)
    else (.ok res, st)

def lookup (key : Option String) (st : ClientState) : Option Fields × ClientState :=
  match key, st.cache with
  | some key, some cache =>
    let found := cache.get key (around.cacheClock st.ticks)
    (found.1, { st with cache := some found.2, ticks := st.ticks + 1 })
  | _, _ => (none, st)

def store (key : Option String) (res : Fields) (st : ClientState) : ClientState :=
  match key, st.cache with
  | some key, some cache =>
    { st with
      cache := some (cache.set key res client.cacheTtl (around.cacheClock st.ticks))
      ticks := st.ticks + 1 }
  | _, _ => st

def request (method path : String) (cacheRead : Option Bool) (args : RequestArgs)
    (st : ClientState) : Except Raised Fields × ClientState :=
  let url := client.buildUrl path
  let key := if shouldCache ops method cacheRead st then some (cacheKey ops method url args)
    else none
  match lookup around key st with
  | (some cached, st) => (.ok cached, st)
  | (none, st) =>
    match client.sendWithReplay ops around method url cacheRead st with
    | (.error exc, st) => (.error exc, st)
    | (.ok res, st) => (.ok res, client.store around key res st)

end ProviderHttpClient

section

variable {client : ProviderHttpClient} {ops : TextOps} {around : ClientSurroundings}
  {method path url : String} {cacheRead : Option Bool} {args : RequestArgs} {st : ClientState}

structure IsMutation (ops : TextOps) (method : String) (cacheRead : Option Bool) : Prop where
  method_unsafe : ops.upper method ∉ safeMethods
  not_read : cacheRead ≠ some true

namespace IsMutation

variable (hmut : IsMutation ops method cacheRead)

include hmut

theorem authRetryEligible_eq_false :
    ProviderHttpClient.authRetryEligible ops method cacheRead = false := by
  rw [ProviderHttpClient.authRetryEligible, Bool.or_eq_false_iff, decide_eq_false_iff_not,
    decide_eq_false_iff_not]
  exact ⟨hmut.method_unsafe, hmut.not_read⟩

theorem shouldCache_eq_false : ProviderHttpClient.shouldCache ops method cacheRead st = false := by
  have hmethod : ops.upper method ∉ ["GET", "HEAD"] := by
    intro hread
    apply hmut.method_unsafe
    rw [safeMethods]
    simp only [List.mem_cons, List.not_mem_nil, or_false] at hread ⊢
    exact hread.imp_right Or.inl
  unfold ProviderHttpClient.shouldCache
  split
  · rfl
  · rw [Bool.or_eq_false_iff, decide_eq_false_iff_not, decide_eq_false_iff_not]
    exact ⟨hmut.not_read, hmethod⟩

theorem request_eq :
    client.request ops around method path cacheRead args st =
      ((client.authenticatedSend ops around method (client.buildUrl path) st).1.map Prod.fst,
        (client.authenticatedSend ops around method (client.buildUrl path) st).2) := by
  have hkey : ∀ url : String, (if ProviderHttpClient.shouldCache ops method cacheRead st then
      some (ProviderHttpClient.cacheKey ops method url args) else none) = none := by
    intro url
    rw [hmut.shouldCache_eq_false]
    rfl
  unfold ProviderHttpClient.request
  simp only [hkey, ProviderHttpClient.lookup, ProviderHttpClient.sendWithReplay,
    hmut.authRetryEligible_eq_false, Bool.and_false]
  rcases client.authenticatedSend ops around method (client.buildUrl path) st with
    ⟨out, after⟩
  cases out with
  | error exc | ok ans => rfl

end IsMutation

def ProviderHttpClient.refuses (client : ProviderHttpClient) (ops : TextOps)
    (around : ClientSurroundings) (st : ClientState) : Bool :=
  !(client.injectAuth around st).isOk || around.refuses ops st.pipeline

theorem ProviderHttpClient.authenticatedSend_of_refuses
    (href : client.refuses ops around st = true) :
    (client.authenticatedSend ops around method url st).2.pipeline.attempts =
      st.pipeline.attempts := by
  unfold ProviderHttpClient.authenticatedSend
  cases htoken : client.injectAuth around st with
  | error exc => rfl
  | ok token =>
    rw [ProviderHttpClient.refuses, htoken] at href
    exact ResiliencePipeline.send_of_refuses href

theorem ProviderHttpClient.authenticatedSend_of_admitted
    (hadm : client.refuses ops around st = false) :
    (client.authenticatedSend ops around method url st).2.pipeline.attempts =
      (client.pipeline.retry.send ops method url around.network st.pipeline.attempts).2 := by
  rw [ProviderHttpClient.refuses, Bool.or_eq_false_iff] at hadm
  unfold ProviderHttpClient.authenticatedSend
  cases htoken : client.injectAuth around st with
  | error exc =>
    rw [htoken] at hadm
    cases hadm.1
  | ok token => exact (ResiliencePipeline.send_of_admitted hadm.2).1

/-- A mutation makes at most one network attempt exactly when it is refused, may not retry, or its
first attempt asks for no other. -/
theorem request_attempts_le_one_iff (client : ProviderHttpClient) (ops : TextOps)
    (around : ClientSurroundings) (method path : String) (cacheRead : Option Bool)
    (args : RequestArgs) (st : ClientState) (hmut : IsMutation ops method cacheRead) :
    (client.request ops around method path cacheRead args st).2.pipeline.attempts ≤
        st.pipeline.attempts + 1 ↔
      client.refuses ops around st = true ∨ client.pipeline.retry.config.maxAttempts ≤ 1 ∨
        client.pipeline.retry.asksAgain ops method around.network st.pipeline.attempts =
          false := by
  rw [hmut.request_eq]
  cases hrefuses : client.refuses ops around st with
  | true =>
    rw [ProviderHttpClient.authenticatedSend_of_refuses hrefuses]
    exact ⟨fun _ ↦ Or.inl rfl, fun _ ↦ Nat.le_succ _⟩
  | false =>
    rw [ProviderHttpClient.authenticatedSend_of_admitted hrefuses,
      RetryableHttpClient.send_attempts_le_iff]
    exact ⟨Or.inr, fun hcases ↦ hcases.resolve_left nofun⟩

end

def exampleClient (injected : Bool) : ProviderHttpClient where
  baseUrl := ""
  auth :=
    { hasTokenProvider := false, hasAuthHeaders := false, hasOnAuthFailure := false
      hasTokenManager := false, hasRetryPolicy := false }
  pipeline :=
    { retry :=
        { config := { maxAttempts := 3, retryableExceptions := [.osError] }
          injected := injected }
      rateLimitTimeout := 30 }
  cacheTtl := 0

def connectionLost : Raised := { cls := .connectionError, message := "connection reset by peer" }

def lossySurroundings : ClientSurroundings where
  network :=
    { encodingError := none
      requestError := none
      fetch := fun _ ↦ .raised connectionLost
      urlopen := fun _ ↦ .raised connectionLost }
  admitted _ := true
  entered _ := 0
  left _ := 0
  token _ := .ok ""
  refresh _ _ := .ok ()
  cacheClock _ := 0

def ClientState.initial : ClientState where
  pipeline := { breaker := .fresh, sends := 0, attempts := 0 }
  cache := none
  tokens := 0
  ticks := 0

theorem lost_post_sent_three_times :
    IsMutation .ascii "POST" none ∧
      ((exampleClient false).request .ascii lossySurroundings "POST" "/orders" none {}
        .initial).2.pipeline.attempts = 3 :=
  ⟨⟨by decide, by decide⟩, by decide +kernel⟩

theorem lost_post_through_fetch_sent_once :
    ((exampleClient true).request .ascii lossySurroundings "POST" "/orders" none {}
      .initial).2.pipeline.attempts ≤ 0 + 1 :=
  (request_attempts_le_one_iff (exampleClient true) .ascii lossySurroundings "POST" "/orders" none
    {} .initial ⟨by decide, by decide⟩).2 (Or.inr (Or.inr (by decide)))

end Tradex.Brokers

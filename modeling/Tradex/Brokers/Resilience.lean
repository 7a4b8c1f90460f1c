import Tradex.Brokers.Wire

/-!
# Retry, circuit breaker and pipeline

The retrying HTTP client, the three-state circuit breaker, and the pipeline that puts a rate limiter
and the breaker in front of the client.
-/

namespace Tradex.Brokers

open Tradex.Text (strip)

def safeMethods : List String := ["GET", "HEAD", "OPTIONS"]

def retryable (ops : TextOps) (method : String) : Bool := ops.upper (strip method) ∈ safeMethods

def retryableStatus (status : Json) : Bool := status.isIntAtLeast 500

def normalizeTransportResult : FetchReply → Except Raised Fields
  | .raised exc => .error exc
  | .pair status (.object body) => .ok (Fields.set body "_http_status" status)
  | .pair status body => .ok [("data", body), ("_http_status", status)]
  | .plain (.object body) => .ok body
  | .plain body => .ok [("data", body)]

def readResponse : UrlopenReply → Except Raised Fields
  | .raised exc => .error exc
  | .response status _ (some (.object body)) => .ok (Fields.set body "_http_status" (.int status))
  | .response status raw none => .ok [("data", .text raw), ("_http_status", .int status)]
  | .response _ _ (some _) => .error
      { cls := .typeError, message := "object does not support item assignment" }

structure RetryConfig where
  maxAttempts : ℕ
  retryableExceptions : List ExceptionClass

structure RetryableHttpClient where
  config : RetryConfig
  injected : Bool

structure Network where
  encodingError : Option Raised
  requestError : Option Raised
  fetch : ℕ → FetchReply
  urlopen : ℕ → UrlopenReply

inductive Verdict where
  | done (outcome : Except Raised Fields)
  | again (exc : Option Raised) (result : Option Fields)

def Verdict.isAgain : Verdict → Bool
  | .again _ _ => true
  | .done _ => false

def isDefiniteClientError (exc : Raised) : Bool :=
  exc.isInstance .httpError && 400 ≤ exc.status.getD 0 && exc.status.getD 0 < 500 &&
    !(exc.status.getD 0 = 408 || exc.status.getD 0 = 429)

namespace RetryableHttpClient

variable (client : RetryableHttpClient) (ops : TextOps) (method url : String) (network : Network)

def onException (exc : Raised) : Verdict :=
  if !exc.isInstanceOfAny client.config.retryableExceptions then .done (.error exc)
  else if isDefiniteClientError exc then .done (.error exc)
  else if client.injected && !retryable ops method then .done (.error exc)
  else .again (some exc) none

def fetchAttempt (reply : FetchReply) : Verdict :=
  match normalizeTransportResult reply with
  | .error exc => client.onException ops method exc
  | .ok res =>
    if retryable ops method && retryableStatus (Fields.getOrNull res "_http_status") then
      .again none (some res)
    else .done (.ok res)

def urlopenAttempt (reply : UrlopenReply) : Verdict :=
  match readResponse reply with
  | .error exc => client.onException ops method exc
  | .ok res => .done (.ok res)

def pass (tries : ℕ) : Verdict × ℕ :=
  if client.injected then
    (client.fetchAttempt ops method (network.fetch tries), tries + 1)
  else
    match network.requestError with
    | some exc => (client.onException ops method exc, tries)
    | none => (client.urlopenAttempt ops method (network.urlopen tries), tries + 1)

def exhausted (lastExc : Option Raised) (lastResult : Option Fields) : Except Raised Fields :=
  match client.injected, lastResult with
  | true, some res => .ok res
  | _, _ => .error
      { cls := .retryExhaustedError
        message := "Request to " ++ url ++ " failed after " ++
          toString client.config.maxAttempts ++ " attempts"
        status := lastExc.bind fun exc ↦ if exc.isInstance .httpError then exc.status else none }

def attemptLoop : ℕ → Option Raised → Option Fields → ℕ → Except Raised Fields × ℕ
  | 0, lastExc, lastResult, tries => (client.exhausted url lastExc lastResult, tries)
  | rem + 1, lastExc, _, tries =>
    match client.pass ops method network tries with
    | (.done out, tries) => (out, tries)
    | (.again exc res, tries) => attemptLoop rem (exc <|> lastExc) res tries

def send (tries : ℕ) : Except Raised Fields × ℕ :=
  match client.injected, network.encodingError with
  | false, some exc => (.error exc, tries)
  | _, _ => client.attemptLoop ops method url network client.config.maxAttempts none none tries

end RetryableHttpClient

inductive CircuitState where
  | closed
  | opened
  | halfOpen
deriving DecidableEq

structure CircuitBreaker where
  failureThreshold : ℕ
  recoveryTimeout : ℚ
  halfOpenMax : ℕ
  threshold_pos : 0 < failureThreshold
  timeout_pos : 0 < recoveryTimeout
  max_pos : 0 < halfOpenMax
  state : CircuitState
  failureCount : ℕ
  successCount : ℕ
  halfOpenCalls : ℕ
  openedAt : ℚ

namespace CircuitBreaker

def fresh : CircuitBreaker where
  failureThreshold := 5
  recoveryTimeout := 30
  halfOpenMax := 1
  threshold_pos := by decide
  timeout_pos := by decide +kernel
  max_pos := by decide
  state := .closed
  failureCount := 0
  successCount := 0
  halfOpenCalls := 0
  openedAt := 0

variable (breaker : CircuitBreaker) (now : ℚ)

def maybeTransition : CircuitBreaker :=
  if breaker.state = .opened ∧ breaker.recoveryTimeout ≤ now - breaker.openedAt then
    { breaker with state := .halfOpen, halfOpenCalls := 0 }
  else breaker

def recordSuccess : CircuitBreaker :=
  match breaker.state with
  | .halfOpen =>
    if breaker.halfOpenMax ≤ breaker.successCount + 1 then
      { breaker with state := .closed, failureCount := 0, successCount := 0 }
    else { breaker with successCount := breaker.successCount + 1 }
  | .closed => { breaker with failureCount := 0 }
  | .opened => breaker

def recordFailure : CircuitBreaker :=
  match breaker.state with
  | .halfOpen => { breaker with state := .opened, openedAt := now, successCount := 0 }
  | .closed =>
    if breaker.failureThreshold ≤ breaker.failureCount + 1 then
      { breaker with
        state := .opened, failureCount := breaker.failureCount + 1, openedAt := now }
    else { breaker with failureCount := breaker.failureCount + 1 }
  | .opened => breaker

def admission (ops : TextOps) (now : ℚ) : Except Raised Unit × CircuitBreaker :=
  let breaker := breaker.maybeTransition now
  match breaker.state with
  | .opened => (.error
      { cls := .brokerUnavailableError
        message := "Circuit breaker is OPEN; calls blocked until " ++
          ops.seconds breaker.recoveryTimeout ++ "s recovery window elapses." }, breaker)
  | .halfOpen =>
    if breaker.halfOpenMax ≤ breaker.halfOpenCalls then
      (.error
        { cls := .brokerUnavailableError
          message := "Circuit breaker HALF_OPEN probe limit reached." }, breaker)
    else (.ok (), { breaker with halfOpenCalls := breaker.halfOpenCalls + 1 })
  | .closed => (.ok (), breaker)

def settle (out : Except Raised Fields) : Except Raised Fields × CircuitBreaker :=
  match out with
  | .error exc => (.error exc, breaker.recordFailure now)
  | .ok res =>
    let status := (Fields.get res "_http_status").getD (.int 0)
    match status.atLeast 500 with
    | .error exc => (.error exc, breaker)
    | .ok failed =>
      if failed || status.equalsInt 429 then (.ok res, breaker.recordFailure now)
      else (.ok res, breaker.recordSuccess)

end CircuitBreaker

structure Surroundings where
  network : Network
  admitted : ℕ → Bool
  entered : ℕ → ℚ
  left : ℕ → ℚ

structure ResiliencePipeline where
  retry : RetryableHttpClient
  rateLimitTimeout : ℚ

structure PipelineState where
  breaker : CircuitBreaker
  sends : ℕ
  attempts : ℕ

def ResiliencePipeline.send (pipeline : ResiliencePipeline) (ops : TextOps)
    (around : Surroundings) (method url : String) (st : PipelineState) :
    Except Raised Fields × PipelineState :=
  if !around.admitted st.sends then
    (.error
      { cls := .rateLimitError
        message := "Rate limiter could not provide a token within " ++
          ops.seconds pipeline.rateLimitTimeout ++ "s for " ++ url },
      { st with sends := st.sends + 1 })
  else
    match st.breaker.admission ops (around.entered st.sends) with
    | (.error exc, breaker) => (.error exc, { st with breaker := breaker, sends := st.sends + 1 })
    | (.ok _, breaker) =>
      let sent := pipeline.retry.send ops method url around.network st.attempts
      let settled := breaker.settle (around.left st.sends) sent.1
      (settled.1, { breaker := settled.2, sends := st.sends + 1, attempts := sent.2 })

variable {client : RetryableHttpClient} {ops : TextOps} {method url : String} {network : Network}

def RetryableHttpClient.retries (client : RetryableHttpClient) (exc : Raised) : Bool :=
  exc.isInstanceOfAny client.config.retryableExceptions && !isDefiniteClientError exc

def RetryableHttpClient.asksAgain (client : RetryableHttpClient) (ops : TextOps)
    (method : String) (network : Network) (attempt : ℕ) : Bool :=
  if client.injected then
    retryable ops method &&
      match normalizeTransportResult (network.fetch attempt) with
      | .error exc => client.retries exc
      | .ok res => retryableStatus (Fields.getOrNull res "_http_status")
  else
    network.encodingError.isNone && network.requestError.isNone &&
      match readResponse (network.urlopen attempt) with
      | .error exc => client.retries exc
      | .ok _ => false

namespace RetryableHttpClient

def reachesNetwork (client : RetryableHttpClient) (network : Network) : Bool :=
  client.injected || (network.encodingError.isNone && network.requestError.isNone)

variable {exc : Raised} {tries : ℕ}

theorem isAgain_onException :
    (client.onException ops method exc).isAgain =
      (client.retries exc && (!client.injected || retryable ops method)) := by
  unfold onException retries
  cases exc.isInstanceOfAny client.config.retryableExceptions <;>
    cases isDefiniteClientError exc <;> cases client.injected <;>
    cases retryable ops method <;> rfl

theorem isAgain_fetchAttempt (hinj : client.injected = true) {reply : FetchReply} :
    (client.fetchAttempt ops method reply).isAgain = (retryable ops method &&
      match normalizeTransportResult reply with
      | .error exc => client.retries exc
      | .ok res => retryableStatus (Fields.getOrNull res "_http_status")) := by
  unfold fetchAttempt
  cases normalizeTransportResult reply with
  | error exc => rw [isAgain_onException, hinj, Bool.not_true, Bool.false_or, Bool.and_comm]
  | ok res =>
    dsimp only
    cases hagain : retryable ops method && retryableStatus (Fields.getOrNull res "_http_status")
      <;> rfl

theorem isAgain_urlopenAttempt (hplain : client.injected = false) {reply : UrlopenReply} :
    (client.urlopenAttempt ops method reply).isAgain =
      match readResponse reply with
      | .error exc => client.retries exc
      | .ok _ => false := by
  unfold urlopenAttempt
  cases readResponse reply with
  | error exc => rw [isAgain_onException, hplain, Bool.not_false, Bool.true_or, Bool.and_true]
  | ok res => rfl

theorem le_pass (tries : ℕ) : tries ≤ (client.pass ops method network tries).2 := by
  unfold pass
  split
  · exact Nat.le_succ tries
  · split
    · exact le_rfl
    · exact Nat.le_succ tries

theorem pass_of_reachesNetwork (hreach : client.reachesNetwork network = true) :
    (client.pass ops method network tries).2 = tries + 1 ∧
      (client.pass ops method network tries).1.isAgain =
        client.asksAgain ops method network tries := by
  rw [reachesNetwork] at hreach
  unfold pass asksAgain
  cases hinj : client.injected with
  | true => exact ⟨rfl, isAgain_fetchAttempt hinj⟩
  | false =>
    rw [hinj, Bool.false_or, Bool.and_eq_true, Option.isNone_iff_eq_none,
      Option.isNone_iff_eq_none] at hreach
    rw [hreach.1, hreach.2]
    exact ⟨rfl, isAgain_urlopenAttempt hinj⟩

theorem le_attemptLoop (rem : ℕ) (lastExc : Option Raised) (lastResult : Option Fields)
    (tries : ℕ) :
    tries ≤ (client.attemptLoop ops method url network rem lastExc lastResult tries).2 := by
  induction rem generalizing lastExc lastResult tries with
  | zero => exact le_rfl
  | succ rem ih =>
    have hcnt : tries ≤ (client.pass ops method network tries).2 := le_pass tries
    unfold attemptLoop
    rcases hpass : client.pass ops method network tries with ⟨verdict, count⟩
    rw [hpass] at hcnt
    cases verdict with
    | done out => exact hcnt
    | again exc res => exact hcnt.trans (ih _ _ _)

theorem attemptLoop_of_requestError (hplain : client.injected = false)
    (hreq : network.requestError = some exc) (rem : ℕ) (lastExc : Option Raised)
    (lastResult : Option Fields) (tries : ℕ) :
    (client.attemptLoop ops method url network rem lastExc lastResult tries).2 = tries := by
  induction rem generalizing lastExc lastResult with
  | zero => rfl
  | succ rem ih =>
    have hcnt : (client.pass ops method network tries).2 = tries :=
      by simp [pass, hplain, hreq]
    unfold attemptLoop
    rcases hpass : client.pass ops method network tries with ⟨verdict, count⟩
    rw [hpass] at hcnt
    cases verdict with
    | done out => exact hcnt
    | again exc res =>
      rw [show count = tries from hcnt]
      exact ih _ _

theorem send_of_not_reachesNetwork (hblock : client.reachesNetwork network = false)
    (tries : ℕ) : (client.send ops method url network tries).2 = tries := by
  rw [reachesNetwork, Bool.or_eq_false_iff] at hblock
  unfold send
  rw [hblock.1]
  cases hencoding : network.encodingError with
  | some exc => rfl
  | none =>
    rw [hencoding, Option.isNone_none, Bool.true_and, Option.isNone_eq_false_iff,
      Option.isSome_iff_exists] at hblock
    obtain ⟨exc, hreq⟩ := hblock.2
    exact attemptLoop_of_requestError hblock.1 hreq _ _ _ _

theorem send_of_reachesNetwork (hreach : client.reachesNetwork network = true) :
    client.send ops method url network tries =
      client.attemptLoop ops method url network client.config.maxAttempts none none tries := by
  rw [reachesNetwork, Bool.or_eq_true] at hreach
  unfold send
  cases hinj : client.injected with
  | true => rfl
  | false =>
    rw [hinj, Bool.and_eq_true, Option.isNone_iff_eq_none] at hreach
    rw [(hreach.resolve_left nofun).1]

theorem attemptLoop_succ_of_reachesNetwork (hreach : client.reachesNetwork network = true)
    (rem : ℕ) (lastExc : Option Raised) (lastResult : Option Fields) (tries : ℕ) :
    tries + 1 ≤ (client.attemptLoop ops method url network (rem + 1) lastExc lastResult
        tries).2 ∧
      ((client.attemptLoop ops method url network (rem + 1) lastExc lastResult
          tries).2 ≤ tries + 1 ↔
        rem = 0 ∨ client.asksAgain ops method network tries = false) := by
  obtain ⟨hcnt, hagain⟩ :
      (client.pass ops method network tries).2 = tries + 1 ∧
        (client.pass ops method network tries).1.isAgain =
          client.asksAgain ops method network tries := pass_of_reachesNetwork hreach
  unfold attemptLoop
  rcases hpass : client.pass ops method network tries with ⟨verdict, count⟩
  rw [hpass] at hcnt hagain
  subst hcnt
  rw [← hagain]
  cases verdict with
  | done out => exact ⟨le_rfl, fun _ ↦ Or.inr rfl, fun _ ↦ le_rfl⟩
  | again exc res =>
    refine ⟨le_attemptLoop _ _ _ _, ?_⟩
    cases rem with
    | zero => exact ⟨fun _ ↦ Or.inl rfl, fun _ ↦ le_rfl⟩
    | succ rem =>
      have hsnd := (attemptLoop_succ_of_reachesNetwork hreach rem
        (exc <|> lastExc) res (tries + 1)).1
      constructor
      · intro hle
        exact absurd (hsnd.trans hle) (Nat.not_succ_le_self _)
      · rintro (hzero | hdone)
        · cases hzero
        · cases hdone

theorem send_attempts_le_iff :
    (client.send ops method url network tries).2 ≤ tries + 1 ↔
      client.config.maxAttempts ≤ 1 ∨ client.asksAgain ops method network tries = false := by
  cases hreach : client.reachesNetwork network with
  | false =>
    rw [send_of_not_reachesNetwork hreach]
    rw [reachesNetwork, Bool.or_eq_false_iff] at hreach
    exact ⟨fun _ ↦ Or.inr (by simp [asksAgain, hreach]), fun _ ↦ Nat.le_succ tries⟩
  | true =>
    rw [send_of_reachesNetwork hreach]
    cases client.config.maxAttempts with
    | zero => exact ⟨fun _ ↦ Or.inl (Nat.zero_le 1), fun _ ↦ Nat.le_succ tries⟩
    | succ rem =>
      rw [(attemptLoop_succ_of_reachesNetwork hreach rem none none tries).2,
        Nat.succ_le_succ_iff, Nat.le_zero]

end RetryableHttpClient

def Surroundings.refuses (around : Surroundings) (ops : TextOps) (st : PipelineState) : Bool :=
  !around.admitted st.sends || !(st.breaker.admission ops (around.entered st.sends)).1.isOk

variable {pipeline : ResiliencePipeline} {around : Surroundings} {st : PipelineState}

theorem ResiliencePipeline.send_of_refuses (href : around.refuses ops st = true) :
    (pipeline.send ops around method url st).2.attempts = st.attempts := by
  unfold ResiliencePipeline.send
  cases hadm : around.admitted st.sends with
  | false => rfl
  | true =>
    rw [Surroundings.refuses, hadm, Bool.not_true] at href
    rcases hver : st.breaker.admission ops (around.entered st.sends) with ⟨verdict, breaker⟩
    rw [hver] at href
    cases verdict with
    | error exc => rfl
    | ok _ => cases href

theorem ResiliencePipeline.send_of_admitted (hadm : around.refuses ops st = false) :
    let sent := pipeline.retry.send ops method url around.network st.attempts
    let fin := pipeline.send ops around method url st
    fin.2.attempts = sent.2 ∧
      ∃ breaker : CircuitBreaker, fin.1 = (breaker.settle (around.left st.sends) sent.1).1 := by
  rw [Surroundings.refuses, Bool.or_eq_false_iff] at hadm
  unfold ResiliencePipeline.send
  rw [hadm.1]
  rcases hver : st.breaker.admission ops (around.entered st.sends) with ⟨verdict, breaker⟩
  have hok := hadm.2
  rw [hver] at hok
  cases verdict with
  | error exc => cases hok
  | ok _ => exact ⟨rfl, breaker, rfl⟩

end Tradex.Brokers

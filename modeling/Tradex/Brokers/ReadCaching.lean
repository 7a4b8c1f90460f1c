import Mathlib.Tactic.Linarith
import Tradex.Brokers.ProviderClient
import Tradex.Foundation.Outcome

/-!
# What the read cache serves

The cache keeps every answer of the pipeline, whatever its status, under a text that two requests
may share.
-/

namespace Tradex.Brokers.ProviderHttpClient

open List

structure ReadCall where
  method : String
  path : String
  cacheRead : Option Bool := none
  args : RequestArgs := {}

structure StoredAnswer where
  call : ReadCall
  body : Fields
  storedAt : ℚ

/-- `answers` is a history, newest first, that no modelled function reads. -/
structure Reading where
  state : ClientState
  answers : List StoredAnswer := []

def isSuccess (body : Fields) : Bool :=
  (body.getOrNull "_http_status").isIntAtLeast 200 &&
    !(body.getOrNull "_http_status").isIntAtLeast 300

variable (client : ProviderHttpClient) (ops : TextOps) (around : ClientSurroundings)

def keyOf (call : ReadCall) : String :=
  cacheKey ops call.method (client.buildUrl call.path) call.args

variable (st : ClientState) (reading : Reading) (call : ReadCall)

def keyIn : Option String :=
  if shouldCache ops call.method call.cacheRead st then some (client.keyOf ops call) else none

def served : Option Fields × ClientState := lookup around (client.keyIn ops st call) st

/-- A request, with the answer that it stores. -/
def read : Reading :=
  match client.served ops around reading.state call with
  | (some _, found) => { reading with state := found }
  | (none, missed) =>
    match client.sendWithReplay ops around call.method (client.buildUrl call.path) call.cacheRead
      missed with
    | (.error _, after) => { reading with state := after }
    | (.ok body, after) =>
      { state := client.store around (client.keyIn ops reading.state call) body after
        answers :=
          if (client.keyIn ops reading.state call).isSome ∧ 0 < client.cacheTtl then
            ⟨call, body, around.cacheClock after.ticks⟩ :: reading.answers
          else reading.answers }

def newest (key : String) (answers : List StoredAnswer) : Option StoredAnswer :=
  answers.find? fun ans ↦ client.keyOf ops ans.call = key

def Same (other : ReadCall) : Prop :=
  ops.upper other.method = ops.upper call.method ∧
    client.buildUrl other.path = client.buildUrl call.path ∧ other.args = call.args

def Fresh (ans : StoredAnswer) : Prop :=
  around.cacheClock reading.state.ticks - ans.storedAt < client.cacheTtl

def Backed (body : Fields) : Prop :=
  ∃ ans ∈ reading.answers, ans.body = body ∧ client.Same ops call ans.call ∧
    client.Fresh around reading ans

def ServesSuccess : Prop :=
  ∀ body ∈ (client.served ops around reading.state call).1,
    isSuccess body = true ∧ client.Backed ops around reading call body

/-- The last answer under the request's key is a success that answered the same request. -/
def LastAnswered : Prop :=
  ∀ last ∈ client.newest ops (client.keyOf ops call) reading.answers,
    (client.served ops around reading.state call).1.isSome →
      isSuccess last.body = true ∧ client.Same ops call last.call

/-- It is a success, and another request's only if the same request has had an equal answer. -/
def LastSucceeded : Prop :=
  ∀ last ∈ client.newest ops (client.keyOf ops call) reading.answers,
    (client.served ops around reading.state call).1.isSome → isSuccess last.body = true ∧
      (client.Same ops call last.call ∨ client.Backed ops around reading call last.body)

def Holds (answers : List StoredAnswer) (st : ClientState) : Prop :=
  ∀ cache ∈ st.cache, ∀ key entry, cache.entries.get key = some entry →
    ∃ last ∈ client.newest ops key answers, entry = (last.body, last.storedAt + client.cacheTtl)

variable {client ops around st reading call}

theorem state_read : (client.read ops around reading call).state =
    (client.request ops around call.method call.path call.cacheRead call.args reading.state).2 := by
  have hserve : lookup around (if shouldCache ops call.method call.cacheRead reading.state then
      some (cacheKey ops call.method (client.buildUrl call.path) call.args) else none)
      reading.state = client.served ops around reading.state call := rfl
  simp only [read, request, hserve]
  rcases client.served ops around reading.state call with ⟨_ | found, missed⟩
  · dsimp only
    rcases client.sendWithReplay ops around call.method (client.buildUrl call.path) call.cacheRead
      missed with ⟨_ | body, after⟩ <;> rfl
  · rfl

theorem cache_sendWithReplay {method url : String} {cacheRead : Option Bool} :
    (client.sendWithReplay ops around method url cacheRead st).2.cache = st.cache := by
  have hfst : ∀ st,
      (client.authenticatedSend ops around method url st).2.cache = st.cache := by
    unfold authenticatedSend
    grind
  unfold sendWithReplay
  grind

theorem Holds.store {answers : List StoredAnswer} (hhold : client.Holds ops answers st)
    {body : Fields} (hon : 0 < client.cacheTtl) :
    client.Holds ops (⟨call, body, around.cacheClock st.ticks⟩ :: answers)
      (client.store around (some (client.keyOf ops call)) body st) := by
  unfold ProviderHttpClient.store
  split
  next key cache hkey hcache =>
    cases hkey
    rintro _ ⟨⟩ other entry hent
    rw [ReadCache.set, if_neg hon.not_ge, Dict.get_set] at hent
    rw [newest, find?_cons]
    by_cases hkey : client.keyOf ops call = other
    · simp_all
    · unfold ReadCache.makeRoom at hent
      have := hhold cache hcache other entry
      grind [Dict.get_erase, newest]
  next hcache => exact fun cache hsome ↦ (hcache _ cache rfl hsome).elim

theorem holds_read (hhold : client.Holds ops reading.answers reading.state) :
    client.Holds ops (client.read ops around reading call).answers
      (client.read ops around reading call).state := by
  have hserve : client.Holds ops reading.answers
      (client.served ops around reading.state call).2 := by
    unfold served lookup ReadCache.get
    grind [Holds, Dict.get_erase]
  unfold read
  split
  next hfind => rwa [hfind] at hserve
  next missed hmissed =>
    rw [hmissed] at hserve
    have hcache := @cache_sendWithReplay client ops around missed call.method
      (client.buildUrl call.path) call.cacheRead
    split
    · grind [Holds]
    next body after hsent =>
      have hafter : client.Holds ops reading.answers after := by grind [Holds]
      split
      · grind [keyIn, Holds.store]
      · unfold ProviderHttpClient.store ReadCache.set
        grind [Holds]

theorem serves_iff (hhold : client.Holds ops reading.answers reading.state) :
    client.ServesSuccess ops around reading call ↔
      client.LastSucceeded ops around reading call := by
  have hlast : ∀ body ∈ (client.served ops around reading.state call).1,
      ∃ last ∈ client.newest ops (client.keyOf ops call) reading.answers,
        last.body = body ∧ client.Fresh around reading last := by
    unfold served lookup ReadCache.get
    grind [Holds, Fresh, keyIn]
  constructor
  · intro hserves last hnewest hsome
    obtain ⟨body, hserve⟩ := Option.isSome_iff_exists.1 hsome
    obtain ⟨_, hsame, rfl, -⟩ := hlast body hserve
    cases hnewest.symm.trans hsame
    exact ⟨(hserves _ hserve).1, .inr (hserves _ hserve).2⟩
  · intro hsucceeded body hserve
    obtain ⟨last, hnewest, rfl, hnew⟩ := hlast body hserve
    obtain ⟨hsuccess, hsame | hback⟩ :=
      hsucceeded last hnewest (Option.isSome_iff_exists.2 ⟨_, hserve⟩)
    · exact ⟨hsuccess, last, mem_of_find?_eq_some hnewest, rfl, hsame, hnew⟩
    · exact ⟨hsuccess, hback⟩

/-- From an empty cache on, requests are served successes of their own while the last answer under
each key is one, and otherwise only where another answer was equal. -/
theorem serves_success_iff (client : ProviderHttpClient) (ops : TextOps)
    (around : ClientSurroundings) (st : ClientState) (cache : ReadCache)
    (calls : List ReadCall) :
    let start : Reading := ⟨{ st with cache := some { cache with entries := .empty } }, []⟩
    (Along (client.read ops around) (client.LastAnswered ops around) start calls →
      Along (client.read ops around) (client.ServesSuccess ops around) start calls) ∧
    (Along (client.read ops around) (client.ServesSuccess ops around) start calls ↔
      Along (client.read ops around) (client.LastSucceeded ops around) start calls) := by
  intro start
  have hstart : client.Holds ops start.answers start.state := by
    rintro _ ⟨⟩ key entry hentry
    cases hentry
  refine ⟨fun hanswered ↦ ?_, ?_⟩
  · refine hanswered.imp_of_invariant hstart fun reading call hholds hlast ↦
      ⟨serves_iff hholds |>.2 fun last hnewest hserved ↦ ?_, holds_read hholds⟩
    obtain ⟨hsuccess, hsame⟩ := hlast last hnewest hserved
    exact ⟨hsuccess, .inl hsame⟩
  · exact along_congr (fun reading ↦ client.Holds ops reading.answers reading.state)
      (fun _ _ hholds ↦ ⟨serves_iff hholds, fun _ ↦ holds_read hholds⟩) hstart

/-- The second request is served the first one's answer that nothing was found. -/
theorem missing_page_served :
    let client := { exampleClient true with cacheTtl := 60 }
    let network := { lossySurroundings.network with fetch := fun _ ↦ .pair (.int 404) (.object []) }
    let around := { lossySurroundings with network := network }
    let call : ReadCall := { method := "GET", path := "/quote" }
    let start := { ClientState.initial with cache := some ⟨1, .empty, by decide⟩ }
    (client.served .ascii around (client.read .ascii around ⟨start, []⟩ call).state call).1.map
      isSuccess = some false := by
  decide +kernel

end Tradex.Brokers.ProviderHttpClient

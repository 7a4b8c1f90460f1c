import Mathlib.Algebra.Order.Ring.Rat

/-!
# Rejected tokens

A caller whose token the broker rejected asks for another. The port manager returns its cached token
while the port does not call it expired, be it the rejected one. The mint manager mints for its
current token only.
-/

namespace Tradex.Brokers

structure TokenLifecyclePort where
  isExpired : Bool
  refresh : Except String String

structure PortTokenManager where
  cachedToken : Option String

namespace PortTokenManager

def refreshLocked (mgr : PortTokenManager) (port : TokenLifecyclePort) :
    Except String String × PortTokenManager :=
  match port.refresh with
  | .error msg => (.error ("Token refresh failed: " ++ msg), mgr)
  | .ok token => (.ok token, ⟨some token⟩)

def getTokenWithRejection (mgr : PortTokenManager) (port : TokenLifecyclePort)
    (rejected : Option String) : Except String String × PortTokenManager :=
  match mgr.cachedToken with
  | none => mgr.refreshLocked port
  | some cached =>
    if rejected.any (· ≠ cached) ∨ cached ≠ "" ∧ port.isExpired = false then (.ok cached, mgr)
    else mgr.refreshLocked port

variable {mgr : PortTokenManager} {port : TokenLifecyclePort} {token : String}

theorem refreshLocked_ne (hrfr : port.refresh ≠ .ok token) :
    (mgr.refreshLocked port).1 ≠ .ok token := by
  unfold refreshLocked
  split
  · simp
  next hother => exact fun hsame ↦ hrfr (hother.trans hsame)

theorem getTokenWithRejection_ne_iff (hrfr : port.refresh ≠ .ok token) :
    (mgr.getTokenWithRejection port (some token)).1 ≠ .ok token ↔
      ¬ (mgr.cachedToken = some token ∧ token ≠ "" ∧ port.isExpired = false) := by
  unfold getTokenWithRejection
  cases hcache : mgr.cachedToken with
  | none => simpa using refreshLocked_ne hrfr
  | some cached =>
    by_cases hsame : token = cached
    · subst hsame
      by_cases hkept : token ≠ "" ∧ port.isExpired = false
      · simp [hkept]
      · simpa [hkept] using refreshLocked_ne hrfr
    · simp [hsame, Ne.symm hsame]

end PortTokenManager

structure TokenState where
  generation : ℕ
  token : String
  expiresAt : Option ℚ

/-- Whether there are a state file and a mint, and how early a token counts as expired. -/
structure MintTokenManager where
  durable : Bool
  minting : Bool
  buffer : ℚ

/-- `mints` is a history that no modelled function reads. -/
structure TokenStore where
  memory : Option TokenState := none
  file : Option TokenState := none
  marker : ℕ := 0
  highestGeneration : ℕ := 0
  mints : ℕ := 0

/-- The arguments of a call, and what the clock, the mint and the disk answer. -/
structure EnsureCall where
  forceRefresh : Bool := false
  rejected : Option String
  now : ℚ
  minted : Except String (String × Option ℚ)
  written : Bool := true

namespace MintTokenManager

variable (mgr : MintTokenManager)

def load (store : TokenStore) : TokenStore :=
  if mgr.durable then
    { store with
      memory := store.file
      highestGeneration := max (max store.highestGeneration store.marker)
        (store.file.elim 0 TokenState.generation) }
  else store

def expired (now : ℚ) (st : TokenState) : Bool :=
  st.expiresAt.any fun limit ↦ limit ≤ now + mgr.buffer

variable (call : EnsureCall)

def mint (generation : ℕ) : Except String (String × Option ℚ) :=
  if mgr.minting then call.minted else .ok ("gen-" ++ toString (generation + 1), none)

def save (st : TokenState) (store : TokenStore) : Except String String × TokenStore :=
  let highest := max store.highestGeneration st.generation
  let kept := { store with memory := some st, highestGeneration := highest }
  if mgr.durable = false then (.ok st.token, kept)
  else if call.written then (.ok st.token, { kept with file := some st, marker := highest })
  else (.error "state file not written", kept)

def mintAndPersist (store : TokenStore) : Except String String × TokenStore :=
  let generation := store.memory.elim store.highestGeneration TokenState.generation
  match mgr.mint call generation with
  | .error msg => (.error msg, store)
  | .ok (token, expiresAt) =>
    mgr.save call
      ⟨generation + 1, token, expiresAt.filter fun limit ↦ call.now + mgr.buffer < limit⟩
      { store with mints := store.mints + 1 }

def mintFresh (store : TokenStore) : Except String String × TokenStore :=
  if mgr.minting = false ∧ mgr.durable then
    (.error "no mint strategy and no valid persisted token", store)
  else mgr.mintAndPersist call store

def ensureTokenFromState (store : TokenStore) : Except String String × TokenStore :=
  match store.memory, call.rejected with
  | some st, some rejected =>
    if rejected ≠ st.token then (.ok st.token, store) else mgr.mintAndPersist call store
  | some st, none =>
    if call.forceRefresh = false ∧ st.token ≠ "" ∧ mgr.expired call.now st = false ∧
        (mgr.durable ∨ mgr.minting) then (.ok st.token, store)
    else mgr.mintFresh call store
  | none, _ => mgr.mintFresh call store

/-- The whole body runs under the locks, so callers that interleave are served one by one. -/
def ensureToken (store : TokenStore) : Except String String × TokenStore :=
  mgr.ensureTokenFromState call (mgr.load store)

def serve : TokenStore → List EnsureCall → TokenStore :=
  List.foldl fun store call ↦ (mgr.ensureToken call store).2

structure Reports (manager : MintTokenManager) (token : String) (call : EnsureCall) : Prop where
  rejected : call.rejected = some token
  fresh : ∀ generation expiresAt, manager.mint call generation ≠ .ok (token, expiresAt)
  written : call.written = true

/-- The store holds a token other than the rejected one. -/
def Replaced (token : String) (store : TokenStore) : Prop :=
  ∃ st, (mgr.load store).memory = some st ∧ st.token ≠ token

variable {mgr : MintTokenManager} {call : EnsureCall} {token : String} {store : TokenStore}

theorem load_load : (mgr.load (mgr.load store)).memory = (mgr.load store).memory := by
  cases hdur : mgr.durable <;> simp [load, hdur]

theorem mints_load : (mgr.load store).mints = store.mints := by
  cases hdur : mgr.durable <;> simp [load, hdur]

/-- What a report does: it mints only while the current token is the rejected one. -/
structure Handled (manager : MintTokenManager) (token : String) (store : TokenStore)
    (final : Except String String × TokenStore) : Prop where
  answer : final.1 ≠ .ok token
  mints : final.2 = manager.load store ∨
    ¬ manager.Replaced token store ∧ final.2.mints = store.mints + 1 ∧
      manager.Replaced token final.2

theorem handled_mintAndPersist (hcall : mgr.Reports token call)
    (hstale : ¬ mgr.Replaced token store) :
    mgr.Handled token store (mgr.mintAndPersist call (mgr.load store)) := by
  unfold mintAndPersist
  dsimp only
  split
  · exact ⟨by simp, .inl rfl⟩
  next other expiresAt hmint =>
    have hother : other ≠ token := by
      rintro rfl
      exact hcall.fresh _ _ hmint
    constructor
    · cases hdur : mgr.durable <;> simp [save, hdur, hcall.written, hother]
    · refine .inr ⟨hstale, ?_⟩
      cases hdur : mgr.durable <;> simp [save, load, hdur, hcall.written, Replaced, hother]

theorem handled_ensureToken (hcall : mgr.Reports token call) :
    mgr.Handled token store (mgr.ensureToken call store) := by
  unfold ensureToken ensureTokenFromState
  rw [hcall.rejected]
  cases hmemory : (mgr.load store).memory with
  | none =>
    unfold mintFresh
    dsimp only
    split
    · exact ⟨by simp, .inl rfl⟩
    · exact handled_mintAndPersist hcall (by simp [Replaced, hmemory])
  | some st =>
    dsimp only
    split
    next hother => exact ⟨fun hsame ↦ hother (Except.ok.inj hsame).symm, .inl rfl⟩
    next hsame =>
      exact handled_mintAndPersist hcall (by simpa [Replaced, hmemory, eq_comm] using hsame)

theorem mints_serve {calls : List EnsureCall} (hcalls : ∀ call ∈ calls, mgr.Reports token call) :
    (mgr.serve store calls).mints ≤ store.mints + 1 ∧
      (mgr.Replaced token store → (mgr.serve store calls).mints = store.mints) := by
  induction calls generalizing store with
  | nil => simp [serve]
  | cons call rest ih =>
    obtain ⟨hcall, hrest⟩ := List.forall_mem_cons.1 hcalls
    rcases (handled_ensureToken hcall).mints with hkept | ⟨hstale, hminted, hrepl⟩
    · have hserve : mgr.serve store (call :: rest) = mgr.serve (mgr.load store) rest :=
        congrArg (mgr.serve · rest) hkept
      have hlate := @ih (mgr.load store) hrest
      rwa [mints_load, Replaced, load_load, ← hserve] at hlate
    · have hmints := (ih hrest).2 hrepl
      exact ⟨(hmints.trans hminted).le, fun hpre ↦ absurd hpre hstale⟩

/-- The port manager hands the rejected token back exactly while it caches it and the port does not
call it expired. The mint manager never does, and it mints once. -/
theorem rejected_token_replaced_iff (cache : PortTokenManager) (port : TokenLifecyclePort)
    (hrfr : port.refresh ≠ .ok token) (store : TokenStore) (calls : List EnsureCall)
    (hcalls : ∀ call ∈ calls, mgr.Reports token call) :
    ((cache.getTokenWithRejection port (some token)).1 ≠ .ok token ∧
        (∀ call ∈ calls, ∀ store, (mgr.ensureToken call store).1 ≠ .ok token) ∧
        (mgr.serve store calls).mints ≤ store.mints + 1) ↔
      ¬ (cache.cachedToken = some token ∧ token ≠ "" ∧ port.isExpired = false) := by
  rw [PortTokenManager.getTokenWithRejection_ne_iff hrfr]
  refine and_iff_left ⟨fun call hcall store ↦ ?_, (mints_serve hcalls).1⟩
  exact (handled_ensureToken (hcalls call hcall)).answer

def rejection : EnsureCall where
  rejected := some "t"
  now := 0
  minted := .ok ("u", none)

theorem second_report_reuses :
    ((⟨none⟩ : PortTokenManager).getTokenWithRejection ⟨true, .ok "u"⟩ (some "t")).1 ≠ .ok "t" ∧
      (serve ⟨true, true, 0⟩ { file := some ⟨1, "t", none⟩ } [rejection, rejection]).mints ≤ 1 :=
  have hreports : ∀ call ∈ [rejection, rejection], Reports ⟨true, true, 0⟩ "t" call := by
    simpa using (⟨rfl, by simp [mint, rejection], rfl⟩ : Reports ⟨true, true, 0⟩ "t" rejection)
  have hrepl := (rejected_token_replaced_iff ⟨none⟩ ⟨true, .ok "u"⟩ (by simp)
    { file := some ⟨1, "t", none⟩ } _ hreports).2 (by simp)
  ⟨hrepl.1, hrepl.2.2⟩

theorem rejected_token_handed_back :
    ((⟨some "t"⟩ : PortTokenManager).getTokenWithRejection ⟨false, .ok "u"⟩ (some "t")).1 =
      .ok "t" := by
  rfl

end MintTokenManager

end Tradex.Brokers

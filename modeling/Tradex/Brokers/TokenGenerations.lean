import Tradex.Brokers.TokenManagers
import Tradex.Foundation.Outcome

/-!
# Token generations

Processes that share a state path number a new token from the state file, and from the marker beside
it only when no file can be read. The number is a new one unless the file is behind the marker.
-/

namespace Tradex.Brokers.MintTokenManager

/-- A minted token, with what the two files held then and all they had held by then. -/
structure Minting where
  generation : ℕ
  found : Option ℕ
  marker : ℕ
  persisted : List ℕ

/-- `highest` is what each process remembers. The last two fields are histories. -/
structure StatePath where
  file : Option TokenState := none
  marker : ℕ := 0
  highest : ℕ → ℕ := fun _ ↦ 0
  persisted : List ℕ := []
  minted : List Minting := []

/-- A crash falls between the two writes of a save, or before them if `written` is false. A file
that is no JSON reads as a deleted one, and one without a generation as generation zero. -/
inductive PathEvent where
  | ensureToken (process : ℕ) (call : EnsureCall)
  | crash (process : ℕ) (call : EnsureCall)
  | deleteFile
  | legacyFile (token : String) (expiresAt : Option ℚ)

variable (minting : ℕ → Bool) (buffer : ℕ → ℚ) (path : StatePath) (process : ℕ) (call : EnsureCall)

def called : TokenStore :=
  (ensureToken ⟨true, minting process, buffer process⟩ call
    { file := path.file, marker := path.marker, highestGeneration := path.highest process }).2

/-- The state after a call that left `store` and `file` behind, the process knowing `known`. -/
def StatePath.after (store : TokenStore) (file : Option TokenState) (known : ℕ) : StatePath where
  file := file
  marker := store.marker
  highest := Function.update path.highest process known
  persisted := store.marker :: (file.map TokenState.generation).toList ++ path.persisted
  minted :=
    if store.mints = 0 then path.minted
    else ⟨store.memory.elim 0 TokenState.generation, path.file.map TokenState.generation,
      path.marker, path.persisted⟩ :: path.minted

def pathStep (path : StatePath) : PathEvent → StatePath
  | .ensureToken process call =>
    let store := called minting buffer path process call
    path.after process store store.file store.highestGeneration
  | .crash process call => path.after process (called minting buffer path process call) path.file 0
  | .deleteFile => { path with file := none }
  | .legacyFile token expiresAt => { path with file := some ⟨0, token, expiresAt⟩ }

def pathRun : List PathEvent → StatePath := List.foldl (pathStep minting buffer) {}

def Covers (marker : ℕ) (persisted : List ℕ) : Prop :=
  (∀ prior ∈ persisted, prior ≤ marker) ∧ (marker = 0 ∨ marker ∈ persisted)

structure Minting.Numbered (minted : Minting) : Prop where
  covers : Covers minted.marker minted.persisted
  absent : minted.found = none → minted.marker < minted.generation
  present : ∀ found ∈ minted.found, minted.generation = found + 1

structure StatePath.Kept (path : StatePath) : Prop where
  covers : Covers path.marker path.persisted
  file : ∀ state ∈ path.file, state.generation ≤ path.marker
  minted : ∀ minted ∈ path.minted, minted.Numbered

variable {minting : ℕ → Bool} {buffer : ℕ → ℚ} {path : StatePath} {process : ℕ} {call : EnsureCall}

theorem Minting.Numbered.grows_iff {minted : Minting} (hnumbered : minted.Numbered) :
    (∀ prior ∈ minted.persisted, prior < minted.generation) ↔
      ∀ found ∈ minted.found, minted.marker ≤ found := by
  obtain ⟨hlow, hmarker⟩ := hnumbered.covers
  cases hfind : minted.found with
  | none => simpa using fun prior hmem ↦ (hlow prior hmem).trans_lt (hnumbered.absent hfind)
  | some found =>
    rw [hnumbered.present found hfind]
    constructor
    · rintro hgrows _ ⟨⟩
      rcases hmarker with hzero | hmem
      · exact hzero ▸ found.zero_le
      · exact Nat.lt_succ_iff.1 (hgrows _ hmem)
    · exact fun hnew prior hmem ↦ Nat.lt_succ_iff.2 ((hlow prior hmem).trans (hnew found rfl))

/-- What a call leaves: nothing minted and nothing written, or one token more. -/
structure Leaves (path : StatePath) (store : TokenStore) : Prop where
  marker : path.marker ≤ store.marker
  file : store.file = path.file ∨ ∀ state ∈ store.file, state.generation ≤ store.marker
  minted : store.mints ≠ 0 → ∃ state, store.memory = some state ∧
    (path.file = none → path.marker < state.generation) ∧
    ∀ found ∈ path.file, state.generation = found.generation + 1

/-- The store as `load` leaves it to the rest of a call. -/
structure Loaded (path : StatePath) (store : TokenStore) : Prop where
  memory : store.memory = path.file
  file : store.file = path.file
  marker : store.marker = path.marker
  highest : path.marker ≤ store.highestGeneration
  mints : store.mints = 0

variable {mgr : MintTokenManager} {store : TokenStore}

theorem Loaded.leaves (hload : Loaded path store) : Leaves path store :=
  ⟨hload.marker.ge, .inl hload.file, fun hminted ↦ absurd hload.mints hminted⟩

theorem Loaded.mintAndPersist (hload : Loaded path store) :
    Leaves path (mgr.mintAndPersist call store).2 := by
  unfold MintTokenManager.mintAndPersist
  dsimp only
  split
  · exact hload.leaves
  · have hgone : path.file = none →
        path.marker < store.memory.elim store.highestGeneration TokenState.generation + 1 := by
      intro hnone
      simpa [hload.memory, hnone, Nat.lt_succ_iff] using hload.highest
    have hpresent : ∀ found ∈ path.file,
        store.memory.elim store.highestGeneration TokenState.generation + 1 =
          found.generation + 1 := by
      intro found hfind
      rw [hload.memory, hfind, Option.elim_some]
    unfold save
    dsimp only
    split_ifs
    · exact ⟨hload.marker.ge, .inl hload.file, fun _ ↦ ⟨_, rfl, hgone, hpresent⟩⟩
    · refine ⟨le_max_of_le_left hload.highest, .inr ?_, fun _ ↦ ⟨_, rfl, hgone, hpresent⟩⟩
      rintro _ ⟨⟩
      exact le_max_right _ _
    · exact ⟨hload.marker.ge, .inl hload.file, fun _ ↦ ⟨_, rfl, hgone, hpresent⟩⟩

theorem Loaded.ensureTokenFromState (hload : Loaded path store) :
    Leaves path (mgr.ensureTokenFromState call store).2 := by
  unfold MintTokenManager.ensureTokenFromState mintFresh
  repeat' split
  all_goals first | exact hload.leaves | exact hload.mintAndPersist

theorem leaves_called : Leaves path (called minting buffer path process call) :=
  Loaded.ensureTokenFromState ⟨rfl, rfl, rfl, by simp [load], rfl⟩

theorem StatePath.Kept.after {file : Option TokenState} {known : ℕ}
    (hkept : path.Kept) (hleaves : Leaves path store)
    (hfile : ∀ st ∈ file, st.generation ≤ store.marker) :
    (path.after process store file known).Kept where
  covers := by
    refine ⟨?_, .inr (by simp [StatePath.after])⟩
    have hlow := fun prior hmem ↦ (hkept.covers.1 prior hmem).trans hleaves.marker
    simpa [StatePath.after, or_imp, forall_and] using ⟨hfile, hlow⟩
  file := hfile
  minted := by
    unfold StatePath.after
    dsimp only
    split
    · exact hkept.minted
    next hminted =>
      obtain ⟨st, hst, hgone, hpresent⟩ := hleaves.minted hminted
      refine List.forall_mem_cons.2 ⟨⟨hkept.covers, ?_, ?_⟩, hkept.minted⟩
      · simpa [hst] using hgone
      · simpa [hst] using hpresent

theorem StatePath.Kept.step (hkept : path.Kept) (ev : PathEvent) :
    (pathStep minting buffer path ev).Kept := by
  cases ev with
  | ensureToken process call =>
    refine hkept.after leaves_called ?_
    rcases leaves_called.file with hsame | hlow
    · rw [hsame]
      exact fun st hst ↦ (hkept.file st hst).trans leaves_called.marker
    · exact hlow
  | crash process call =>
    exact hkept.after leaves_called fun st hst ↦ (hkept.file st hst).trans leaves_called.marker
  | deleteFile | legacyFile token expiresAt => exact ⟨hkept.covers, by simp [pathStep], hkept.minted⟩

/-- The generations grow exactly while no token is minted on a state file behind the marker. -/
theorem generations_grow_iff (minting : ℕ → Bool) (buffer : ℕ → ℚ) (events : List PathEvent) :
    (∀ minted ∈ (pathRun minting buffer events).minted, ∀ prior ∈ minted.persisted,
        prior < minted.generation) ↔
      ∀ minted ∈ (pathRun minting buffer events).minted, ∀ found ∈ minted.found,
        minted.marker ≤ found := by
  have hkept : (pathRun minting buffer events).Kept := by
    refine foldl_invariant StatePath.Kept ⟨?_, ?_, ?_⟩ fun path ev _ hkept ↦ hkept.step ev
    all_goals simp [Covers]
  exact forall₂_congr fun minted hmem ↦ (hkept.minted minted hmem).grows_iff

theorem legacy_file_repeats_generation :
    ((pathRun (fun _ ↦ true) 0 [.ensureToken 0 rejection, .legacyFile "t" none,
      .ensureToken 1 rejection]).minted.map fun minted ↦ (minted.generation, minted.persisted)) =
        [(1, [1, 1]), (1, [])] := by
  rfl

end Tradex.Brokers.MintTokenManager

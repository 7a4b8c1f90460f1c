import Mathlib.Algebra.Order.Ring.Rat
import Mathlib.Tactic.Linarith
import Tradex.Foundation.Outcome

/-!
# Spacing of TOTP attempts

Every durable call reads the state file afresh under the lock, so the calls of all processes form one
sequence. Late records of earlier attempts overwrite newer stamps in it.
-/

namespace Tradex.Brokers.TotpCooldownGuard

open List

structure TotpState where
  lastAttemptAt : Option ℚ := none
  lastSuccessAt : Option ℚ := none
  rateLimitedAt : Option ℚ := none

/-- Stamps below this are taken for those of a monotonic clock and not read back. -/
def wallClockFrom : ℚ := 1000000000

def coerceWallClock (val : Option ℚ) : Option ℚ := val.filter fun stamp ↦ wallClockFrom ≤ stamp

def loadState (file : TotpState) : TotpState where
  lastAttemptAt := coerceWallClock file.lastAttemptAt <|> coerceWallClock file.rateLimitedAt
  lastSuccessAt := coerceWallClock file.lastSuccessAt

variable (cooldown : ℚ) (file : TotpState)

def remaining (now : ℚ) (st : TotpState) : ℚ :=
  st.lastAttemptAt.elim 0 fun last ↦ max 0 (cooldown - (now - last))

/-- The clock is read for the check and again for the reservation. -/
def acquireAttempt (checkedAt reservedAt : ℚ) : Except ℚ ℚ × TotpState :=
  if 0 < remaining cooldown checkedAt (loadState file) then
    (.error (remaining cooldown checkedAt (loadState file)), file)
  else (.ok reservedAt, { loadState file with lastAttemptAt := some reservedAt })

def releaseAttempt (reservedAt : ℚ) : TotpState :=
  if (loadState file).lastAttemptAt = some reservedAt then
    { loadState file with lastAttemptAt := (loadState file).lastSuccessAt }
  else file

def recordSuccess (now : ℚ) : TotpState := { lastAttemptAt := some now, lastSuccessAt := some now }

def recordRateLimited (now : ℚ) : TotpState :=
  if (loadState file).lastSuccessAt.any fun success ↦
      (loadState file).lastAttemptAt.any (· ≤ success) then file
  else { loadState file with lastAttemptAt := some now }

/-- A call of some process, with the time since the clock was last read. -/
inductive Call where
  | acquireAttempt (elapsed pause : ℚ≥0)
  | releaseAttempt (reservedAt : ℚ)
  | recordSuccess (elapsed : ℚ≥0)
  | recordRateLimited (elapsed : ℚ≥0)

/-- `held` are the reservations returned and not released, newest first. -/
structure Timeline where
  file : TotpState
  now : ℚ
  held : List ℚ := []

def step (timeline : Timeline) : Call → Timeline
  | .acquireAttempt elapsed pause =>
    match acquireAttempt cooldown timeline.file (timeline.now + elapsed)
      (timeline.now + elapsed + pause) with
    | (.error _, file) => { timeline with file, now := timeline.now + elapsed }
    | (.ok reservedAt, file) => ⟨file, reservedAt, reservedAt :: timeline.held⟩
  | .releaseAttempt reservedAt =>
    -- A process releases a reservation of its own, and once.
    if reservedAt ∈ timeline.held then
      { timeline with
        file := releaseAttempt timeline.file reservedAt
        held := timeline.held.erase reservedAt }
    else timeline
  | .recordSuccess elapsed =>
    { timeline with file := recordSuccess (timeline.now + elapsed), now := timeline.now + elapsed }
  | .recordRateLimited elapsed =>
    { timeline with
      file := recordRateLimited timeline.file (timeline.now + elapsed)
      now := timeline.now + elapsed }

def run : Timeline → List Call → Timeline := foldl (step cooldown)

def Spaced (later prior : ℚ) : Prop := wallClockFrom ≤ prior → prior + cooldown ≤ later

/-- A held reservation is not behind the last attempt on file, or its cooldown is over. -/
structure Guarded (timeline : Timeline) : Prop where
  spaced : timeline.held.Pairwise (Spaced cooldown)
  past : ∀ stamp ∈ timeline.held, stamp ≤ timeline.now
  blocked : ∀ stamp ∈ timeline.held, wallClockFrom ≤ stamp →
    (∃ last, (loadState timeline.file).lastAttemptAt = some last ∧ stamp ≤ last) ∨
      stamp + cooldown ≤ timeline.now

variable {cooldown : ℚ} {timeline : Timeline} {file : TotpState} {now : ℚ}

section

variable (hgrd : Guarded cooldown timeline)

include hgrd

theorem Guarded.wait (hnow : timeline.now ≤ now) : Guarded cooldown { timeline with now } where
  spaced := hgrd.spaced
  past stamp hheld := (hgrd.past stamp hheld).trans hnow
  blocked stamp hheld hclock := (hgrd.blocked stamp hheld hclock).imp_right hnow.trans'

theorem Guarded.restamp (hnow : timeline.now ≤ now) (hfile : file.lastAttemptAt = some now) :
    Guarded cooldown { timeline with file, now } where
  spaced := hgrd.spaced
  past stamp hheld := (hgrd.past stamp hheld).trans hnow
  blocked stamp hheld hclock := by
    have hpast := (hgrd.past stamp hheld).trans hnow
    exact .inl ⟨now, by simp [loadState, coerceWallClock, hfile, hclock.trans hpast], hpast⟩

theorem Guarded.acquire {checkedAt : ℚ} (hchk : timeline.now ≤ checkedAt)
    (hnow : checkedAt ≤ now) (hfree : remaining cooldown checkedAt (loadState timeline.file) ≤ 0) :
    Guarded cooldown ⟨{ loadState timeline.file with lastAttemptAt := some now }, now,
      now :: timeline.held⟩ := by
  have hstamped := hgrd.restamp (hchk.trans hnow)
    (rfl : { loadState timeline.file with lastAttemptAt := some now }.lastAttemptAt = some now)
  refine ⟨pairwise_cons.2 ⟨fun stamp hheld hclock ↦ ?_, hgrd.spaced⟩,
    forall_mem_cons.2 ⟨le_rfl, hstamped.past⟩,
    forall_mem_cons.2 ⟨fun hclock ↦ ?_, hstamped.blocked⟩⟩
  · obtain ⟨last, hlast, hle⟩ | hcooled := hgrd.blocked stamp hheld hclock
    · rw [remaining, hlast, Option.elim_some, max_le_iff] at hfree
      linarith [hfree.2]
    · exact hcooled.trans (hchk.trans hnow)
  · exact .inl ⟨now, by simp [loadState, coerceWallClock, hclock], le_rfl⟩

theorem Guarded.release {reservedAt : ℚ} (hown : reservedAt ∈ timeline.held) :
    Guarded cooldown { timeline with
      file := releaseAttempt timeline.file reservedAt
      held := timeline.held.erase reservedAt } := by
  refine ⟨hgrd.spaced.sublist erase_sublist,
    fun stamp hheld ↦ hgrd.past stamp (mem_of_mem_erase hheld), fun stamp hheld hclock ↦ ?_⟩
  have hpast := hgrd.past stamp (mem_of_mem_erase hheld)
  unfold releaseAttempt
  split
  next hlast =>
    right
    obtain ⟨last, hsame, hle⟩ | hcooled := hgrd.blocked stamp (mem_of_mem_erase hheld) hclock
    · obtain rfl : last = reservedAt := Option.some.inj (hsame.symm.trans hlast)
      -- The other reservation is a cooldown older, or it is as old and there is no cooldown.
      have hapart := ((perm_cons_erase hown).pairwise_iff (R := fun first second ↦
        Spaced cooldown first second ∨ Spaced cooldown second first) Or.symm).1
        (hgrd.spaced.imp .inl)
      rcases (pairwise_cons.1 hapart).1 stamp hheld with hpre | hafter
      · exact (hpre hclock).trans (hgrd.past last hown)
      · linarith [hafter (hclock.trans hle)]
    · exact hcooled
  next => exact hgrd.blocked stamp (mem_of_mem_erase hheld) hclock

theorem Guarded.step (call : Call) : Guarded cooldown (step cooldown timeline call) := by
  have hlate : ∀ elapsed : ℚ≥0, timeline.now ≤ timeline.now + elapsed :=
    fun elapsed ↦ le_add_of_nonneg_right elapsed.2
  cases call with
  | acquireAttempt elapsed pause =>
    unfold TotpCooldownGuard.step acquireAttempt
    by_cases hblock : 0 < remaining cooldown (timeline.now + elapsed) (loadState timeline.file)
    · simpa [hblock] using hgrd.wait (hlate elapsed)
    · simpa [hblock] using hgrd.acquire (hlate elapsed)
        (le_add_of_nonneg_right pause.2) (not_lt.1 hblock)
  | releaseAttempt reservedAt =>
    simp only [TotpCooldownGuard.step]
    split
    next hown => exact hgrd.release hown
    next => exact hgrd
  | recordSuccess elapsed => exact hgrd.restamp (hlate elapsed) rfl
  | recordRateLimited elapsed =>
    simp only [TotpCooldownGuard.step, recordRateLimited]
    split
    · exact hgrd.wait (hlate elapsed)
    · exact hgrd.restamp (hlate elapsed) rfl

end

/-- Any two kept reservations are a cooldown apart, if the earlier was made on a wall clock. -/
theorem attempts_spaced (cooldown : ℚ) (file : TotpState) (now : ℚ) (calls : List Call) :
    (run cooldown { file, now } calls).held.Pairwise fun later prior ↦
      wallClockFrom ≤ prior → prior + cooldown ≤ later := by
  have hrun : Guarded cooldown (run cooldown { file, now } calls) :=
    foldl_invariant _ ⟨.nil, by simp, by simp⟩ fun _ call _ hgrd ↦ hgrd.step call
  exact hrun.spaced

theorem early_clock_unspaced :
    (run 120 { file := {}, now := 5 } [.acquireAttempt 0 0, .acquireAttempt 0 0]).held =
      [5, 5] := by
  decide +kernel

end Tradex.Brokers.TotpCooldownGuard

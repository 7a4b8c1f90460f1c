import Tradex.Domain.RateLimiting
import Mathlib.Data.List.TakeWhile
import Mathlib.Tactic.Linarith
import Mathlib.Tactic.Ring

/-!
# What a rate-limited call charges

A call records itself in the windows of its category one after the other and then waits for a token.
-/

namespace Tradex.Domain

open List

/-! ## Waiting for a bucket

A turn that only refills leaves no trace: refilling twice is refilling once, at
the later instant. The outcome of the wait can therefore be read off the bucket
as it was before the call. -/

variable {now : ℚ} {turn fuel : ℕ}

namespace TokenBucketRateLimiter

variable {later : ℚ}

theorem now_le_checkAt (poll : Poll) : poll.now ≤ poll.checkAt := poll.now_le.trans poll.refillAt_le

theorem refill_refill {bucket : TokenBucketRateLimiter}
    (hnow : bucket.lastRefill ≤ now) (hlate : now ≤ later) :
    (bucket.refill now).refill later = bucket.refill later := by
  have hbound := bucket.tokens_le_burst
  simp only [refill, mk.injEq, true_and, and_true]
  rcases le_total 0 bucket.rate with hrate | hrate
  · -- With a non-negative rate the second refill only adds tokens.
    have hmore : 0 ≤ (later - now) * bucket.rate := mul_nonneg (by linarith) hrate
    rcases le_total (bucket.burst : ℚ)
      (bucket.tokens + (now - bucket.lastRefill) * bucket.rate) with hfull | hfull
    · rw [min_eq_left hfull, min_eq_left (by linarith), min_eq_left (by linarith)]
    · rw [min_eq_right hfull]
      ring_nf
  · -- With a negative rate the burst size is never reached.
    have hless : (now - bucket.lastRefill) * bucket.rate ≤ 0 :=
      mul_nonpos_of_nonneg_of_nonpos (by linarith) hrate
    rw [min_eq_right (show bucket.tokens + (now - bucket.lastRefill) * bucket.rate ≤ _ by linarith)]
    ring_nf

variable (units : ℕ)

def Gives (bucket : TokenBucketRateLimiter) (poll : Poll) : Prop :=
  ¬ poll.now < bucket.cooldownUntil ∧ bucket.spaced poll.now ∧
    units ≤ (bucket.refill poll.refillAt).tokens

variable (deadline : Option ℚ)

def GivesUp (bucket : TokenBucketRateLimiter) (poll : Poll) : Prop :=
  (poll.now < bucket.cooldownUntil ∧ bucket.waitCooldown = false) ∨
    (¬ bucket.Gives units poll ∧ ∃ limit ∈ deadline, limit ≤ poll.checkAt)

def WaitsUntil (bucket : TokenBucketRateLimiter) (polls : ℕ → Poll) (turn : ℕ) : Prop :=
  ∀ prior < turn,
    ¬ bucket.Gives units (polls prior) ∧ ¬ bucket.GivesUp units deadline (polls prior)

def Granted (bucket : TokenBucketRateLimiter) (polls : ℕ → Poll) (turn : ℕ) : Prop :=
  bucket.WaitsUntil units deadline polls turn ∧ bucket.Gives units (polls turn)

def TimedOut (bucket : TokenBucketRateLimiter) (polls : ℕ → Poll) (turn : ℕ) : Prop :=
  bucket.WaitsUntil units deadline polls turn ∧ bucket.GivesUp units deadline (polls turn)

section Wait

variable {units : ℕ} {deadline : Option ℚ} {bucket next : TokenBucketRateLimiter} {polls : ℕ → Poll}

def Refilled (bucket next : TokenBucketRateLimiter) (now : ℚ) : Prop :=
  next = bucket ∨ ∃ instant, bucket.lastRefill ≤ instant ∧ instant ≤ now ∧
    next = bucket.refill instant

theorem Refilled.refill (hnext : bucket.Refilled next now) (hlate : now ≤ later) :
    next.refill later = bucket.refill later := by
  rcases hnext with rfl | ⟨instant, hinstant, hnow, rfl⟩
  · rfl
  · exact refill_refill hinstant (hnow.trans hlate)

theorem Refilled.trans {fin : TokenBucketRateLimiter}
    (hnext : bucket.Refilled next now) (hfin : next.Refilled fin later)
    (hlate : now ≤ later) : bucket.Refilled fin later := by
  rcases hnext with rfl | ⟨instant, hinstant, hnow, rfl⟩
  · exact hfin
  · rcases hfin with rfl | ⟨last, hlast, hend, rfl⟩
    · exact .inr ⟨instant, hinstant, hnow.trans hlate, rfl⟩
    · have hlast' : instant ≤ last := hlast
      exact .inr ⟨last, hinstant.trans hlast', hend, refill_refill hinstant hlast'⟩

variable {now : ℚ}

theorem Refilled.lastRefill_le (hnext : bucket.Refilled next now)
    (hpast : bucket.lastRefill ≤ now) : next.lastRefill ≤ now := by
  rcases hnext with rfl | ⟨instant, -, hnow, rfl⟩
  · exact hpast
  · exact hnow

variable {poll : Poll}

theorem Refilled.gives_iff (hnext : bucket.Refilled next now)
    (hpoll : now ≤ poll.now) : next.Gives units poll ↔ bucket.Gives units poll := by
  have hrefill := hnext.refill (hpoll.trans poll.now_le)
  rcases hnext with rfl | ⟨instant, -, -, rfl⟩
  · exact Iff.rfl
  · simp only [Gives, hrefill]
    exact Iff.rfl

theorem Refilled.givesUp_iff (hnext : bucket.Refilled next now) (hpoll : now ≤ poll.now) :
    next.GivesUp units deadline poll ↔ bucket.GivesUp units deadline poll := by
  have hgives : next.Gives units poll ↔ bucket.Gives units poll := hnext.gives_iff hpoll
  rcases hnext with rfl | ⟨instant, -, -, rfl⟩
  · exact Iff.rfl
  · simp only [GivesUp, hgives]
    exact Iff.rfl

theorem attempt_cases (hpast : bucket.lastRefill ≤ poll.now) :
    (bucket.Gives units poll ∧
      bucket.attempt units poll = .ok (true, (bucket.refill poll.refillAt).take units poll.now)) ∨
    ((poll.now < bucket.cooldownUntil ∧ bucket.waitCooldown = false) ∧
      ∃ text, bucket.attempt units poll = .error text) ∨
    (¬ bucket.Gives units poll ∧
      ¬ (poll.now < bucket.cooldownUntil ∧ bucket.waitCooldown = false) ∧
      ∃ next, bucket.Refilled next poll.checkAt ∧
        bucket.attempt units poll = .ok (false, next)) := by
  by_cases hcool : poll.now < bucket.cooldownUntil
  · cases hwaits : bucket.waitCooldown with
    | false =>
      exact .inr (.inl ⟨⟨hcool, rfl⟩, "rate limiter cooldown", by
        simp only [attempt, hcool, if_true, hwaits, Bool.false_eq_true, if_false]⟩)
    | true =>
      refine .inr (.inr ⟨fun hgives ↦ hgives.1 hcool, by simp, bucket, .inl rfl, ?_⟩)
      simp [attempt, hcool, hwaits]
  · have hcalm : ∀ waits : Prop, ¬ (poll.now < bucket.cooldownUntil ∧ waits) :=
      fun waits h ↦ hcool h.1
    by_cases hspaced : bucket.spaced poll.now
    · by_cases henough : (units : ℚ) ≤ (bucket.refill poll.refillAt).tokens
      · exact .inl ⟨⟨hcool, hspaced, henough⟩, by
          simp only [attempt, hcool, if_false, hspaced, if_true, henough]⟩
      · refine .inr (.inr ⟨fun hgives ↦ henough hgives.2.2, hcalm _, bucket.refill poll.refillAt,
          .inr ⟨_, hpast.trans poll.now_le, poll.refillAt_le, rfl⟩, ?_⟩)
        simp [attempt, hcool, hspaced, henough]
    · refine .inr (.inr ⟨fun hgives ↦ hspaced hgives.2.1, hcalm _, bucket, .inl rfl, ?_⟩)
      simp [attempt, hcool, hspaced]

theorem WaitsUntil.succ (hgives : ¬ bucket.Gives units (polls 0))
    (hup : ¬ bucket.GivesUp units deadline (polls 0)) (hnext : bucket.Refilled next now)
    (hpolls : ∀ turn, now ≤ (polls (turn + 1)).now)
    (hwaits : next.WaitsUntil units deadline (fun turn ↦ polls (turn + 1)) turn) :
    bucket.WaitsUntil units deadline polls (turn + 1) := by
  intro prior hprior
  cases prior with
  | zero => exact ⟨hgives, hup⟩
  | succ prior =>
    have hboth := hwaits prior (by omega)
    rwa [hnext.gives_iff (hpolls prior), hnext.givesUp_iff (hpolls prior)] at hboth

def Settled (units : ℕ) (deadline : Option ℚ) (bucket : TokenBucketRateLimiter)
    (polls : ℕ → Poll) (fuel : ℕ) (after : TokenBucketRateLimiter) : Except String Unit → Prop
  | .ok () => ∃ turn < fuel, bucket.Granted units deadline polls turn ∧
      after = (bucket.refill (polls turn).refillAt).take units (polls turn).now
  | .error _ => ∃ turn < fuel, bucket.TimedOut units deadline polls turn ∧
      bucket.Refilled after (polls turn).checkAt

end Wait

variable {units : ℕ} {deadline : Option ℚ} {bucket : TokenBucketRateLimiter} {polls : ℕ → Poll}

theorem checkAt_le_now (hpolls : ∀ turn, (polls turn).checkAt ≤ (polls (turn + 1)).now)
    (turn : ℕ) : (polls 0).checkAt ≤ (polls (turn + 1)).now := by
  induction turn with
  | zero => exact hpolls 0
  | succ turn ih =>
    calc
      (polls 0).checkAt ≤ (polls (turn + 1)).now := ih
      _ ≤ (polls (turn + 1)).checkAt := now_le_checkAt _
      _ ≤ (polls (turn + 1 + 1)).now := hpolls (turn + 1)

theorem acquire_settled {res : Except String Unit} {after : TokenBucketRateLimiter}
    (hpast : bucket.lastRefill ≤ (polls 0).now)
    (hpolls : ∀ turn, (polls turn).checkAt ≤ (polls (turn + 1)).now)
    (hacq : acquire units deadline fuel bucket polls = some (res, after)) :
    bucket.Settled units deadline polls fuel after res := by
  induction fuel generalizing bucket polls with
  | zero => cases hacq
  | succ fuel ih =>
    have hnone : ∀ bucket : TokenBucketRateLimiter, bucket.WaitsUntil units deadline polls 0 :=
      fun _ prior hprior ↦ absurd hprior (Nat.not_lt_zero prior)
    rw [acquire] at hacq
    obtain ⟨hgives, hatt⟩ | ⟨hcool, text, hatt⟩ |
      ⟨hgives, hcalm, next, hnext, hatt⟩ := @attempt_cases units bucket (polls 0) hpast
    · rw [hatt] at hacq
      cases hacq
      exact ⟨0, Nat.succ_pos fuel, ⟨hnone _, hgives⟩, rfl⟩
    · rw [hatt] at hacq
      cases hacq
      exact ⟨0, Nat.succ_pos fuel, ⟨hnone _, .inl hcool⟩, .inl rfl⟩
    · simp only [hatt] at hacq
      split at hacq
      next hlate =>
        cases hacq
        exact ⟨0, Nat.succ_pos fuel, ⟨hnone _, .inr ⟨hgives, hlate⟩⟩, hnext⟩
      next htime =>
        have hlater := checkAt_le_now hpolls
        have hup : ¬ bucket.GivesUp units deadline (polls 0) := by
          rintro (hup | hup)
          · exact hcalm hup
          · exact htime hup.2
        have hrest := ih ((hnext.lastRefill_le (hpast.trans (now_le_checkAt _))).trans (hpolls 0))
          (fun turn ↦ hpolls (turn + 1)) hacq
        cases res with
        | ok _ =>
          obtain ⟨turn, hfuel, ⟨hwaits, hgrant⟩, hafter⟩ := hrest
          refine ⟨turn + 1, Nat.succ_lt_succ hfuel, ⟨hwaits.succ hgives hup hnext hlater, ?_⟩, ?_⟩
          · exact (hnext.gives_iff (hlater turn)).1 hgrant
          · rw [hafter, hnext.refill ((hlater turn).trans (polls (turn + 1)).now_le)]
        | error text =>
          obtain ⟨turn, hfuel, ⟨hwaits, hfail⟩, hafter⟩ := hrest
          refine ⟨turn + 1, Nat.succ_lt_succ hfuel, ⟨hwaits.succ hgives hup hnext hlater, ?_⟩, ?_⟩
          · exact (hnext.givesUp_iff (hlater turn)).1 hfail
          · exact hnext.trans hafter ((hlater turn).trans (now_le_checkAt _))

theorem Granted.not_timedOut {other : ℕ} (hgrant : bucket.Granted units deadline polls turn) :
    ¬ bucket.TimedOut units deadline polls other := by
  rintro ⟨hwaits, hfail⟩
  rcases Nat.lt_trichotomy turn other with hlt | rfl | hlt
  · exact (hwaits turn hlt).1 hgrant.2
  · rcases hfail with hcool | hnil
    · exact hgrant.2.1 hcool.1
    · exact hnil.1 hgrant.2
  · exact (hgrant.1 other hlt).2 hfail

end TokenBucketRateLimiter

theorem dropWhile_dropWhile_append {Item : Type} {first second : Item → Bool}
    (himp : ∀ item, first item = true → second item = true) {items more : List Item} :
    (items.dropWhile first ++ more).dropWhile second = (items ++ more).dropWhile second := by
  induction items with
  | nil => rfl
  | cons item rest ih =>
    by_cases hfst : first item = true
    · rw [dropWhile_cons_of_pos hfst, ih, cons_append, dropWhile_cons_of_pos (himp item hfst)]
    · rw [dropWhile_cons_of_neg hfst]

namespace RollingWindowCounter

variable {before after ctr : RollingWindowCounter} {units : ℤ} {now later horizon : ℚ}

def Charged (units : ℤ) (horizon : ℚ) (before after : RollingWindowCounter) : Prop :=
  ∃ charges : List ℚ, (charges.length : ℤ) = units ∧
    ∀ now, horizon ≤ now → after.prune now = (before.extend charges).prune now

theorem Charged.length_recorded (hchg : Charged units horizon before after) :
    (after.recorded.length : ℤ) = before.recorded.length + units := by
  obtain ⟨charges, hlen, hprune⟩ := hchg
  have hrec : after.recorded = before.recorded ++ charges :=
    congrArg recorded (hprune horizon le_rfl)
  rw [hrec, length_append, Nat.cast_add, hlen]

theorem prune_extend_prune {charges : List ℚ} (hlate : now ≤ later) :
    ((ctr.prune now).extend charges).prune later = (ctr.extend charges).prune later := by
  refine congrArg
    (fun timestamps ↦ { ctr with timestamps := timestamps, recorded := ctr.recorded ++ charges })
    (dropWhile_dropWhile_append fun instant hexpired ↦ ?_)
  rw [expired, decide_eq_true_eq] at hexpired ⊢
  exact hexpired.trans (sub_le_sub_right hlate _)

theorem charged_self : Charged 0 horizon ctr ctr := ⟨[], rfl, fun now _ ↦ by simp [extend]⟩

theorem charged_prune (hnow : now ≤ horizon) : Charged 0 horizon ctr (ctr.prune now) := by
  refine ⟨[], rfl, fun later hlate ↦ ?_⟩
  rw [← prune_extend_prune (hnow.trans hlate)]
  simp [extend]

theorem charged_extend (hnow : now ≤ horizon) :
    Charged 1 horizon ctr ((ctr.prune now).extend [now]) :=
  ⟨[now], rfl, fun _ hlate ↦ prune_extend_prune (hnow.trans hlate)⟩

end RollingWindowCounter

def HasRoom (windows : List RollingWindowCounter) (recordAt : ℕ → ℚ) : Prop :=
  ∀ (index : ℕ) (ctr : RollingWindowCounter), windows[index]? = some ctr →
    ¬ ctr.full (recordAt index)

variable {recordAt : ℕ → ℚ}

theorem hasRoom_nil : HasRoom [] recordAt := by
  intro index ctr hctr
  simp at hctr

section Windows

open RollingWindowCounter

variable {windows : List RollingWindowCounter} {ctr : RollingWindowCounter}
  {recordAt : ℕ → ℚ} {horizon : ℚ}

theorem hasRoom_cons_iff :
    HasRoom (ctr :: windows) recordAt ↔
      ¬ ctr.full (recordAt 0) ∧ HasRoom windows fun index ↦ recordAt (index + 1) := by
  constructor
  · intro hroom
    exact ⟨hroom 0 ctr rfl, fun index other hother ↦ hroom (index + 1) other hother⟩
  · rintro ⟨hfst, hrest⟩ index other hother
    cases index with
    | zero =>
      cases hother
      exact hfst
    | succ index => exact hrest index other hother

theorem recordAll_cons_of_full (hfull : ctr.full (recordAt 0)) :
    recordAll (ctr :: windows) recordAt = (false, ctr.prune (recordAt 0) :: windows) := by
  simp [recordAll, record, if_pos hfull]

theorem recordAll_cons_of_not_full (hroom : ¬ ctr.full (recordAt 0)) :
    recordAll (ctr :: windows) recordAt =
      ((recordAll windows fun index ↦ recordAt (index + 1)).1,
        (ctr.prune (recordAt 0)).extend [recordAt 0] ::
          (recordAll windows fun index ↦ recordAt (index + 1)).2) := by
  simp [recordAll, record, if_neg hroom]

theorem recordAll_fst_iff : (recordAll windows recordAt).1 = true ↔ HasRoom windows recordAt := by
  induction windows generalizing recordAt with
  | nil => exact iff_of_true rfl hasRoom_nil
  | cons ctr rest ih =>
    rw [hasRoom_cons_iff]
    by_cases hfull : ctr.full (recordAt 0)
    · simp [recordAll_cons_of_full hfull, hfull]
    · simp [recordAll_cons_of_not_full hfull, hfull, ih]

theorem length_recordAll : (recordAll windows recordAt).2.length = windows.length := by
  induction windows generalizing recordAt with
  | nil => rfl
  | cons ctr rest ih =>
    by_cases hfull : ctr.full (recordAt 0)
    · rw [recordAll_cons_of_full hfull, length_cons, length_cons]
    · rw [recordAll_cons_of_not_full hfull, length_cons, length_cons, ih]

theorem charged_recordAll (hhor : ∀ index, recordAt index ≤ horizon)
    (hroom : HasRoom windows recordAt) :
    List.Forall₂ (Charged 1 horizon) windows (recordAll windows recordAt).2 := by
  induction windows generalizing recordAt with
  | nil => exact .nil
  | cons ctr rest ih =>
    obtain ⟨hfst, hrest⟩ := hasRoom_cons_iff.1 hroom
    rw [recordAll_cons_of_not_full hfst]
    exact .cons (charged_extend (hhor 0)) (ih (fun index ↦ hhor (index + 1)) hrest)

theorem uncharged_recordAll_iff (hhor : ∀ index, recordAt index ≤ horizon)
    (hroom : ¬ HasRoom windows recordAt) :
    List.Forall₂ (Charged 0 horizon) windows (recordAll windows recordAt).2 ↔
      ∃ first, windows.head? = some first ∧ first.full (recordAt 0) := by
  cases windows with
  | nil => exact absurd hasRoom_nil hroom
  | cons ctr rest =>
    by_cases hfull : ctr.full (recordAt 0)
    · rw [recordAll_cons_of_full hfull]
      exact iff_of_true
        (.cons (charged_prune (hhor 0)) (forall₂_same.2 fun other _ ↦ charged_self))
        ⟨ctr, rfl, hfull⟩
    · rw [recordAll_cons_of_not_full hfull, forall₂_cons]
      refine iff_of_false (fun hchg ↦ ?_) ?_
      · have hzero := hchg.1.length_recorded
        have hone := (charged_extend (hhor 0) : Charged 1 horizon ctr _).length_recorded
        omega
      · rintro ⟨first, hfst, hfirstFull⟩
        cases hfst
        exact hfull hfirstFull

end Windows

namespace RollingWindowCounter

def inside (ctr : RollingWindowCounter) (instant ev : ℚ) : Bool :=
  instant - ctr.window < ev ∧ ev ≤ instant

def within (ctr : RollingWindowCounter) (instant : ℚ) : ℕ :=
  (ctr.recorded.filter (ctr.inside instant)).length

structure Kept (counter : RollingWindowCounter) (now : ℚ) : Prop where
  recent : ∀ later, now ≤ later →
    (counter.prune later).timestamps = counter.recorded.dropWhile (counter.expired later)
  within_le : ∀ instant, counter.within instant ≤ counter.maxCount

variable {ctr : RollingWindowCounter} {now later : ℚ}

theorem Kept.mono (hkept : ctr.Kept now) (hlate : now ≤ later) : ctr.Kept later :=
  ⟨fun instant hnow ↦ hkept.recent instant (hlate.trans hnow), hkept.within_le⟩

theorem kept_of_empty (htimestamps : ctr.timestamps = []) (hrec : ctr.recorded = []) :
    ctr.Kept now := by
  refine ⟨fun later _ ↦ ?_, fun instant ↦ ?_⟩
  · simp [prune, htimestamps, hrec]
  · simp [within, hrec]

theorem Kept.prune (hkept : ctr.Kept now) (hlate : now ≤ later) : (ctr.prune later).Kept later := by
  refine ⟨fun instant hnow ↦ ?_, hkept.within_le⟩
  have hprune : (ctr.prune later).prune instant = ctr.prune instant := by
    have hextend : ((ctr.prune later).extend []).prune instant =
        (ctr.extend []).prune instant := prune_extend_prune hnow
    simpa only [extend, append_nil] using hextend
  rw [hprune]
  exact hkept.recent instant (hlate.trans hnow)

theorem Kept.within_le_pruned (hkept : ctr.Kept now) {instant : ℚ} (hnow : now ≤ instant) :
    ctr.within instant ≤ (ctr.prune now).timestamps.length := by
  have hold : ∀ ev ∈ ctr.recorded.takeWhile (ctr.expired now),
      ¬ ctr.inside instant ev = true := by
    intro ev hev hin
    have hexpired := mem_takeWhile_imp hev
    rw [expired, decide_eq_true_eq] at hexpired
    rw [inside, decide_eq_true_eq] at hin
    linarith
  calc
    ctr.within instant
        = ((ctr.recorded.takeWhile (ctr.expired now) ++
            ctr.recorded.dropWhile (ctr.expired now)).filter (ctr.inside instant)).length := by
          rw [takeWhile_append_dropWhile, within]
    _ = ((ctr.recorded.dropWhile (ctr.expired now)).filter
          (ctr.inside instant)).length := by
          rw [filter_append, filter_eq_nil_iff.2 hold, nil_append]
    _ ≤ (ctr.recorded.dropWhile (ctr.expired now)).length := length_filter_le _ _
    _ = (ctr.prune now).timestamps.length := by rw [hkept.recent now le_rfl]

theorem within_extend {instant : ℚ} :
    ((ctr.prune now).extend [now]).within instant =
      ctr.within instant + if ctr.inside instant now then 1 else 0 := by
  change ((ctr.recorded ++ [now]).filter (ctr.inside instant)).length = _
  rw [filter_append, length_append, within]
  by_cases hin : ctr.inside instant now = true
  · rw [filter_cons_of_pos hin, if_pos hin, filter_nil, length_singleton]
  · rw [filter_cons_of_neg hin, if_neg hin, filter_nil, length_nil]

theorem Kept.extend (hkept : ctr.Kept now) (hroom : ¬ ctr.full now) :
    ((ctr.prune now).extend [now]).Kept now := by
  constructor
  · intro later hlate
    have hrecent : ctr.timestamps.dropWhile (ctr.expired later) =
        ctr.recorded.dropWhile (ctr.expired later) := hkept.recent later hlate
    rw [prune_extend_prune hlate]
    change (ctr.timestamps ++ [now]).dropWhile (ctr.expired later) =
      (ctr.recorded ++ [now]).dropWhile (ctr.expired later)
    rw [dropWhile_append, dropWhile_append, hrecent]
  · intro instant
    rw [within_extend]
    change _ ≤ ctr.maxCount
    split
    next hin =>
      -- The interval ends at the new event or later, so the deque held what is in it.
      rw [inside, decide_eq_true_eq] at hin
      have hpre := hkept.within_le_pruned hin.2
      have hspace : (ctr.prune now).timestamps.length < ctr.maxCount := not_le.1 hroom
      omega
    next => exact hkept.within_le instant

end RollingWindowCounter

/-! ## The account of a call -/

namespace Readings

variable (reads : Readings)

def finishedBy (fuel : ℕ) : ℚ := (reads.polls fuel).checkAt

theorem checkAt_le_finishedBy (hturn : turn ≤ fuel) :
    (reads.polls turn).checkAt ≤ reads.finishedBy fuel := by
  induction fuel, hturn using Nat.le_induction with
  | base => exact le_rfl
  | succ fuel _ ih =>
    calc
      (reads.polls turn).checkAt ≤ reads.finishedBy fuel := ih
      _ ≤ (reads.polls (fuel + 1)).now := reads.polls_le fuel
      _ ≤ reads.finishedBy (fuel + 1) := TokenBucketRateLimiter.now_le_checkAt _

theorem startedAt_le_finishedBy : reads.startedAt ≤ reads.finishedBy fuel :=
  calc
    reads.startedAt ≤ (reads.polls 0).now := reads.startedAt_le
    _ ≤ (reads.polls 0).checkAt := TokenBucketRateLimiter.now_le_checkAt _
    _ ≤ reads.finishedBy fuel := reads.checkAt_le_finishedBy (Nat.zero_le fuel)

theorem recordAt_le_finishedBy (fuel index : ℕ) : reads.recordAt index ≤ reads.finishedBy fuel :=
  (reads.recordAt_le_createdAt index).trans (reads.createdAt_le.trans reads.startedAt_le_finishedBy)

def still (now : ℚ) : Readings where
  recordAt _ := now
  createdAt := now
  startedAt := now
  polls _ := ⟨now, now, now, le_rfl, le_rfl⟩
  recordAt_le _ := le_rfl
  recordAt_le_createdAt _ := le_rfl
  createdAt_le := le_rfl
  startedAt_le := le_rfl
  polls_le _ := le_rfl

end Readings

namespace MultiBucketRateLimiter

open RollingWindowCounter

variable {lim after : MultiBucketRateLimiter} {cat : String} {tokens : ℤ}
  {timeout : Option ℚ} {reads : Readings} {fuel : ℕ} {granted : Bool}

structure Uncharged (limiter after : MultiBucketRateLimiter) (readings : Readings)
    (horizon : ℚ) : Prop where
  windows : ∀ category,
    List.Forall₂ (Charged 0 horizon) (limiter.windowsOf category) (after.windowsOf category)
  buckets : ∀ category now, horizon ≤ now →
    (after.bucketOf category readings.createdAt).refill now =
      (limiter.bucketOf category readings.createdAt).refill now

structure ChargedWith (limiter after : MultiBucketRateLimiter) (category : String) (tokens : ℤ)
    (readings : Readings) (horizon : ℚ) : Prop where
  windows :
    List.Forall₂ (Charged tokens horizon) (limiter.windowsOf category) (after.windowsOf category)
  bucket :
    (after.bucketOf category readings.createdAt).tokens =
      ((limiter.bucketOf category readings.createdAt).refill
        (after.bucketOf category readings.createdAt).lastRefill).tokens - tokens
  elsewhere : ∀ other, other ≠ category →
    after.windowsOf other = limiter.windowsOf other ∧
      after.buckets.get other = limiter.buckets.get other

def Accounted (lim after : MultiBucketRateLimiter) (cat : String) (tokens : ℤ)
    (reads : Readings) (horizon : ℚ) (granted : Bool) : Prop :=
  (granted = false → lim.Uncharged after reads horizon) ∧
    (granted = true → lim.ChargedWith after cat tokens reads horizon)

structure Chargeable (limiter : MultiBucketRateLimiter) (category : String) (tokens : ℤ)
    (timeout : Option ℚ) (readings : Readings) : Prop where
  firstFull : ¬ HasRoom (limiter.windowsOf category) readings.recordAt →
    ∃ first, (limiter.windowsOf category).head? = some first ∧ first.full (readings.recordAt 0)
  granted : HasRoom (limiter.windowsOf category) readings.recordAt →
    (∃ turn, (limiter.bucketOf category readings.createdAt).Granted 1
      (deadlineOf timeout readings) readings.polls turn) → tokens = 1
  timedOut : HasRoom (limiter.windowsOf category) readings.recordAt →
    (∃ turn, (limiter.bucketOf category readings.createdAt).TimedOut 1
      (deadlineOf timeout readings) readings.polls turn) → limiter.windowsOf category = []

section Parts

variable {windows : List RollingWindowCounter} {bucket : TokenBucketRateLimiter} {other : String}

theorem windowsOf_setWindows (hlen : windows.length = (lim.windowsOf cat).length) :
    (lim.setWindows cat windows).windowsOf other =
      if cat = other then windows else lim.windowsOf other := by
  unfold setWindows
  split
  next hrolling =>
    have hnone : lim.windowsOf cat = [] := by rw [windowsOf, hrolling, Option.getD_none]
    split
    next hother =>
      rw [hnone] at hlen
      rw [← hother, hnone, eq_nil_of_length_eq_zero hlen]
    next => rfl
  next =>
    simp only [windowsOf, Dict.get_set]
    split <;> rfl

@[simp] theorem bucketOf_setWindows :
    (lim.setWindows cat windows).bucketOf other now = lim.bucketOf other now := by
  unfold setWindows
  split <;> rfl

@[simp] theorem buckets_setWindows : (lim.setWindows cat windows).buckets = lim.buckets := by
  unfold setWindows
  split <;> rfl

@[simp] theorem windowsOf_setBucket :
    (lim.setBucket cat bucket).windowsOf other = lim.windowsOf other := rfl

theorem bucketOf_setBucket :
    (lim.setBucket cat bucket).bucketOf other now =
      if cat = other then bucket else lim.bucketOf other now := by
  simp only [bucketOf, setBucket, Dict.get_set]
  split <;> rfl

end Parts

def offered (lim : MultiBucketRateLimiter) (cat : String) (reads : Readings) :
    MultiBucketRateLimiter :=
  lim.setWindows cat (recordAll (lim.windowsOf cat) reads.recordAt).2

variable {other : String}

theorem windowsOf_offered :
    (lim.offered cat reads).windowsOf other =
      if cat = other then (recordAll (lim.windowsOf cat) reads.recordAt).2
      else lim.windowsOf other :=
  windowsOf_setWindows length_recordAll

variable (hpast : (lim.bucketOf cat reads.createdAt).lastRefill ≤ reads.startedAt)
  (hreturns : lim.acquire cat tokens timeout reads fuel = some (granted, after))

include hpast hreturns in
theorem acquire_cases :
    (granted = false ∧ ¬ HasRoom (lim.windowsOf cat) reads.recordAt ∧
      after = lim.offered cat reads) ∨
    (granted = true ∧ HasRoom (lim.windowsOf cat) reads.recordAt ∧ ∃ turn < fuel,
      (lim.bucketOf cat reads.createdAt).Granted 1 (deadlineOf timeout reads)
        reads.polls turn ∧
      after = (lim.offered cat reads).setBucket cat
        (((lim.bucketOf cat reads.createdAt).refill
          (reads.polls turn).refillAt).take 1 (reads.polls turn).now)) ∨
    (granted = false ∧ HasRoom (lim.windowsOf cat) reads.recordAt ∧ ∃ turn < fuel,
      (lim.bucketOf cat reads.createdAt).TimedOut 1 (deadlineOf timeout reads)
        reads.polls turn ∧
      ∃ next, (lim.bucketOf cat reads.createdAt).Refilled next
          (reads.polls turn).checkAt ∧
        after = (lim.offered cat reads).setBucket cat next) := by
  have hroom : (recordAll (lim.windowsOf cat) reads.recordAt).1 = true ↔
      HasRoom (lim.windowsOf cat) reads.recordAt := recordAll_fst_iff
  unfold acquire at hreturns
  split at hreturns
  next windows hrec =>
    cases hreturns
    rw [hrec, Bool.false_eq_true, false_iff] at hroom
    exact .inl ⟨rfl, hroom, by rw [offered, hrec]⟩
  next windows hrec =>
    rw [hrec] at hroom
    have hroom := hroom.1 rfl
    simp only [bucketOf_setWindows] at hreturns
    have hoffer : lim.setWindows cat windows = lim.offered cat reads := by rw [offered, hrec]
    rw [hoffer] at hreturns
    split at hreturns
    next => cases hreturns
    next bucket hacq =>
      obtain ⟨turn, hturn, hgrant, hbkt⟩ :=
        TokenBucketRateLimiter.acquire_settled (hpast.trans reads.startedAt_le) reads.polls_le hacq
      cases hreturns
      exact .inr (.inl ⟨rfl, hroom, turn, hturn, hgrant, by rw [hbkt]⟩)
    next text bucket hacq =>
      obtain ⟨turn, hturn, htimedOut, hbkt⟩ :=
        TokenBucketRateLimiter.acquire_settled (hpast.trans reads.startedAt_le) reads.polls_le hacq
      cases hreturns
      exact .inr (.inr ⟨rfl, hroom, turn, hturn, htimedOut, bucket, hbkt, rfl⟩)

theorem uncharged_offered_iff (hroom : ¬ HasRoom (lim.windowsOf cat) reads.recordAt) :
    lim.Uncharged (lim.offered cat reads) reads (reads.finishedBy fuel) ↔
      ∃ first, (lim.windowsOf cat).head? = some first ∧ first.full (reads.recordAt 0) := by
  have hhor := reads.recordAt_le_finishedBy fuel
  rw [← uncharged_recordAll_iff hhor hroom]
  constructor
  · intro hfree
    have hwins := hfree.windows cat
    rwa [windowsOf_offered, if_pos rfl] at hwins
  · intro hwins
    refine ⟨fun other ↦ ?_, fun other now _ ↦ ?_⟩
    · rw [windowsOf_offered]
      split
      next hother => exact hother ▸ hwins
      next => exact forall₂_same.2 fun _ _ ↦ charged_self
    · rw [offered, bucketOf_setWindows]

theorem uncharged_timedOut_iff {next : TokenBucketRateLimiter} (hturn : turn < fuel)
    (hroom : HasRoom (lim.windowsOf cat) reads.recordAt)
    (hnext : (lim.bucketOf cat reads.createdAt).Refilled next
      (reads.polls turn).checkAt) :
    lim.Uncharged ((lim.offered cat reads).setBucket cat next) reads
      (reads.finishedBy fuel) ↔ lim.windowsOf cat = [] := by
  have hchg := charged_recordAll (reads.recordAt_le_finishedBy fuel) hroom
  constructor
  · intro hfree
    have hwins := hfree.windows cat
    rw [windowsOf_setBucket, windowsOf_offered, if_pos rfl] at hwins
    cases hlist : lim.windowsOf cat with
    | nil => rfl
    | cons ctr rest =>
      -- One event more and no event more are different counts.
      rw [hlist] at hwins hchg
      generalize (recordAll (ctr :: rest) reads.recordAt).2 = recorded at *
      cases hwins with
      | cons hzero _ =>
        cases hchg with
        | cons hone _ =>
          have hpre := hzero.length_recorded
          have hafter := hone.length_recorded
          omega
  · intro hnil
    refine ⟨fun other ↦ ?_, fun other now hnow ↦ ?_⟩
    · rw [windowsOf_setBucket, windowsOf_offered]
      split
      next hother =>
        rw [← hother, hnil]
        exact .nil
      next => exact forall₂_same.2 fun _ _ ↦ charged_self
    · rw [bucketOf_setBucket, offered, bucketOf_setWindows]
      split
      next hother =>
        have hlate := (reads.checkAt_le_finishedBy hturn.le).trans hnow
        rw [← hother]
        exact hnext.refill hlate
      next => rfl

theorem chargedWith_granted_iff (hroom : HasRoom (lim.windowsOf cat) reads.recordAt) :
    lim.ChargedWith ((lim.offered cat reads).setBucket cat
      (((lim.bucketOf cat reads.createdAt).refill
        (reads.polls turn).refillAt).take 1 (reads.polls turn).now))
      cat tokens reads (reads.finishedBy fuel) ↔ tokens = 1 := by
  constructor
  · intro hchg
    have hbkt := hchg.bucket
    rw [bucketOf_setBucket, if_pos rfl] at hbkt
    simp only [TokenBucketRateLimiter.take, TokenBucketRateLimiter.refill, sub_right_inj] at hbkt
    exact_mod_cast hbkt.symm
  · rintro rfl
    refine ⟨?_, ?_, fun other hother ↦ ⟨?_, ?_⟩⟩
    · rw [windowsOf_setBucket, windowsOf_offered, if_pos rfl]
      exact charged_recordAll (reads.recordAt_le_finishedBy fuel) hroom
    · rw [bucketOf_setBucket]
      simp [TokenBucketRateLimiter.take, TokenBucketRateLimiter.refill]
    · rw [windowsOf_setBucket, windowsOf_offered, if_neg (Ne.symm hother)]
    · simp [setBucket, offered, Dict.get_set, if_neg (Ne.symm hother)]

include hpast hreturns in
theorem accounted_iff_chargeable :
    lim.Accounted after cat tokens reads (reads.finishedBy fuel) granted ↔
      lim.Chargeable cat tokens timeout reads := by
  obtain ⟨rfl, hroom, rfl⟩ | ⟨rfl, hroom, turn, hturn, hgrant, rfl⟩ |
    ⟨rfl, hroom, turn, hturn, htimedOut, next, hnext, rfl⟩ := acquire_cases hpast hreturns
  · have hfree : lim.Uncharged (lim.offered cat reads) reads
        (reads.finishedBy fuel) ↔ _ := uncharged_offered_iff hroom
    constructor
    · intro hacct
      exact ⟨fun _ ↦ hfree.1 (hacct.1 rfl), fun h ↦ absurd h hroom, fun h ↦ absurd h hroom⟩
    · intro hcond
      exact ⟨fun _ ↦ hfree.2 (hcond.firstFull hroom), (by intro heq; cases heq)⟩
  · constructor
    · intro hacct
      exact ⟨fun h ↦ absurd hroom h, fun _ _ ↦ (chargedWith_granted_iff hroom).1 (hacct.2 rfl),
        fun _ ⟨_, hother⟩ ↦ absurd hother hgrant.not_timedOut⟩
    · intro hcond
      exact ⟨(by intro heq; cases heq), fun _ ↦ (chargedWith_granted_iff hroom).2
        (hcond.granted hroom ⟨turn, hgrant⟩)⟩
  · constructor
    · intro hacct
      exact ⟨fun h ↦ absurd hroom h, fun _ ⟨_, hother⟩ ↦ absurd htimedOut hother.not_timedOut,
        fun _ _ ↦ (uncharged_timedOut_iff hturn hroom hnext).1 (hacct.1 rfl)⟩
    · intro hcond
      exact ⟨fun _ ↦ (uncharged_timedOut_iff hturn hroom hnext).2
        (hcond.timedOut hroom ⟨turn, htimedOut⟩), (by intro heq; cases heq)⟩

inductive Reachable : MultiBucketRateLimiter → ℚ → Prop
  | built (limiter : MultiBucketRateLimiter) (now : ℚ)
      (hempty : ∀ category, ∀ counter ∈ limiter.windowsOf category,
        counter.timestamps = [] ∧ counter.recorded = []) : Reachable limiter now
  | later {limiter : MultiBucketRateLimiter} {now later : ℚ} (hreach : Reachable limiter now)
      (hlater : now ≤ later) : Reachable limiter later
  | acquire {limiter after : MultiBucketRateLimiter} {now : ℚ} (category : String) (tokens : ℤ)
      (timeout : Option ℚ) (readings : Readings) (fuel : ℕ) (granted : Bool)
      (hreach : Reachable limiter now) (hnow : now ≤ readings.recordAt 0)
      (hreturns : limiter.acquire category tokens timeout readings fuel = some (granted, after)) :
      Reachable after (readings.finishedBy fuel)
  | reduceRate {limiter : MultiBucketRateLimiter} {now : ℚ} (category : String) (factor : ℚ)
      (hreach : Reachable limiter now) : Reachable (limiter.reduceRate category factor now) now
  | triggerCooldown {limiter : MultiBucketRateLimiter} {now later : ℚ} (category : String)
      (hreach : Reachable limiter now) (hlater : now ≤ later) :
      Reachable (limiter.triggerCooldown category now later) later

def KeepsWindows (lim : MultiBucketRateLimiter) (now : ℚ) : Prop :=
  ∀ cat, ∀ ctr ∈ lim.windowsOf cat, ctr.Kept now

theorem kept_recordAll {windows : List RollingWindowCounter} {horizon : ℚ}
    (hnow : now ≤ recordAt 0) (hmono : ∀ index, recordAt index ≤ recordAt (index + 1))
    (hhor : ∀ index, recordAt index ≤ horizon) (hkept : ∀ ctr ∈ windows, ctr.Kept now) :
    ∀ ctr ∈ (recordAll windows recordAt).2, ctr.Kept horizon := by
  induction windows generalizing recordAt now with
  | nil =>
    intro ctr hctr
    cases hctr
  | cons first rest ih =>
    obtain ⟨hfst, hrest⟩ := forall_mem_cons.1 hkept
    by_cases hfull : first.full (recordAt 0)
    · rw [recordAll_cons_of_full hfull, forall_mem_cons]
      exact ⟨(hfst.prune hnow).mono (hhor 0),
        fun ctr hctr ↦ (hrest ctr hctr).mono (hnow.trans (hhor 0))⟩
    · rw [recordAll_cons_of_not_full hfull, forall_mem_cons]
      refine ⟨((hfst.mono hnow).extend hfull).mono (hhor 0), ?_⟩
      exact ih (hnow.trans (hmono 0)) (fun index ↦ hmono (index + 1))
        (fun index ↦ hhor (index + 1)) hrest

theorem windowsOf_acquire
    (hreturns : lim.acquire cat tokens timeout reads fuel = some (granted, after)) :
    after.windowsOf other = (lim.offered cat reads).windowsOf other := by
  unfold acquire at hreturns
  rw [offered]
  split at hreturns
  next windows hrec =>
    cases hreturns
    rw [hrec]
  next windows hrec =>
    rw [hrec]
    dsimp only at hreturns
    split at hreturns
    · cases hreturns
    · cases hreturns
      rfl
    · cases hreturns
      rfl

theorem keepsWindows_acquire (hkeep : lim.KeepsWindows now) (hnow : now ≤ reads.recordAt 0)
    (hreturns : lim.acquire cat tokens timeout reads fuel = some (granted, after)) :
    after.KeepsWindows (reads.finishedBy fuel) := by
  have hhor := reads.recordAt_le_finishedBy fuel
  intro other ctr hctr
  rw [windowsOf_acquire hreturns, windowsOf_offered] at hctr
  split at hctr
  · exact kept_recordAll hnow reads.recordAt_le hhor (hkeep cat) ctr hctr
  · exact (hkeep other ctr hctr).mono (hnow.trans (hhor 0))

theorem Reachable.keepsWindows (hreach : lim.Reachable now) : lim.KeepsWindows now := by
  induction hreach with
  | built lim now hnil =>
    intro cat ctr hctr
    exact kept_of_empty (hnil cat ctr hctr).1 (hnil cat ctr hctr).2
  | later _ hlate ih => exact fun cat ctr hctr ↦ (ih cat ctr hctr).mono hlate
  | acquire cat tokens timeout reads fuel granted _ hnow hreturns ih =>
    exact keepsWindows_acquire ih hnow hreturns
  | reduceRate cat factor _ ih => exact ih
  | triggerCooldown cat _ hlate ih => exact fun other ctr hctr ↦ (ih other ctr hctr).mono hlate

/-- A returning `acquire` charges what it grants and nothing else exactly when its windows and
bucket agree; no window ever exceeds its count. -/
theorem acquire_accounted_iff
    (hpast : (lim.bucketOf cat reads.createdAt).lastRefill ≤ reads.startedAt)
    (hreturns : lim.acquire cat tokens timeout reads fuel = some (granted, after)) :
    (lim.Accounted after cat tokens reads (reads.finishedBy fuel) granted ↔
      lim.Chargeable cat tokens timeout reads) ∧
    ∀ now, lim.Reachable now → now ≤ reads.recordAt 0 →
      ∀ other, ∀ ctr ∈ after.windowsOf other, ∀ instant,
        ctr.within instant ≤ ctr.maxCount := by
  refine ⟨accounted_iff_chargeable hpast hreturns, ?_⟩
  intro now hreach hnow other ctr hcounter
  exact (keepsWindows_acquire hreach.keepsWindows hnow hreturns other ctr hcounter).within_le

def orderLimiter (recorded : List ℚ) : MultiBucketRateLimiter where
  defaultCfg := {}
  buckets := .empty
  rolling := .single "orders" [⟨5, 10, recorded, recorded, by decide, by decide⟩,
    ⟨1, 60, recorded, recorded, by decide, by decide⟩]

theorem hasRoom_orderLimiter :
    HasRoom ((orderLimiter []).windowsOf "orders") (Readings.still 100).recordAt :=
  recordAll_fst_iff.1 (by decide +kernel)

theorem granted_orderLimiter :
    ((orderLimiter []).bucketOf "orders" 100).Granted 1 none (Readings.still 100).polls 0 := by
  refine ⟨fun prior hprior ↦ absurd hprior (Nat.not_lt_zero prior), ?_⟩
  exact ⟨by decide +kernel, by decide +kernel, by decide +kernel⟩

def acquired (recorded : List ℚ) (tokens : ℤ) : Option (Bool × MultiBucketRateLimiter) :=
  (orderLimiter recorded).acquire "orders" tokens none (.still 100) 1

def Counted (recorded : List ℚ) (tokens : ℤ) (granted : Bool) (after : MultiBucketRateLimiter) :
    Prop :=
  (orderLimiter recorded).Accounted after "orders" tokens (.still 100)
    ((Readings.still 100).finishedBy 1) granted

theorem refusal_and_grant_miscounted :
    ((acquired [60] 1).map Prod.fst = some false ∧
      ∀ after, acquired [60] 1 = some (false, after) → ¬ Counted [60] 1 false after) ∧
    (acquired [] 2).map Prod.fst = some true ∧
      ∀ after, acquired [] 2 = some (true, after) → ¬ Counted [] 2 true after := by
  refine ⟨⟨by decide +kernel, fun after hreturns hacct ↦ ?_⟩,
    by decide +kernel, fun after hreturns hacct ↦ ?_⟩
  · have hcondition := (accounted_iff_chargeable le_rfl hreturns).1 hacct
    have hroom : ¬ HasRoom ((orderLimiter [60]).windowsOf "orders") (Readings.still 100).recordAt :=
      fun hroom ↦ absurd (recordAll_fst_iff.2 hroom) (by decide +kernel)
    obtain ⟨first, hfirst, hfull⟩ := hcondition.firstFull hroom
    cases hfirst
    exact absurd hfull (by decide +kernel)
  · have hcondition := (accounted_iff_chargeable le_rfl hreturns).1 hacct
    exact absurd (hcondition.granted hasRoom_orderLimiter ⟨0, granted_orderLimiter⟩) (by decide)

theorem single_order_accounted : ∃ after, acquired [] 1 = some (true, after) ∧ Counted [] 1 true after := by
  have hgranted : (acquired [] 1).map Prod.fst = some true := by decide +kernel
  obtain ⟨⟨granted, after⟩, hreturns, rfl⟩ := Option.map_eq_some_iff.1 hgranted
  refine ⟨after, hreturns, (acquire_accounted_iff le_rfl hreturns).1.2 ⟨?_, ?_, ?_⟩⟩
  · exact fun hroom ↦ absurd hasRoom_orderLimiter hroom
  · exact fun _ _ ↦ rfl
  · exact fun _ ⟨_, htimedOut⟩ ↦ absurd htimedOut granted_orderLimiter.not_timedOut

end MultiBucketRateLimiter

end Tradex.Domain

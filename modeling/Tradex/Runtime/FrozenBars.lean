import Tradex.Runtime.BarAggregator

/-!
# Bars with a booked fill

Once a published bar is marked, no frame of it may be sent again while its mark is in the ledger.
-/

namespace Tradex.Runtime

open Tradex.Domain

def Entry.markedTime : Entry → Option ℤ
  | .emitted _ => none
  | .marked time => some time

def markedTimes (history : List Entry) : Finset ℤ := (history.filterMap Entry.markedTime).toFinset

def Entry.publishes (time : ℤ) : Entry → Bool
  | .emitted emission => emission.frame.closed && decide (emission.frame.time = time)
  | .marked _ => false

def published (history : List Entry) (time : ℤ) : Bool := history.any (Entry.publishes time)

def Frozen (size : ℕ) (history : List Entry) : Prop :=
  ∀ before time between emission after,
    history = before ++ .marked time :: (between ++ .emitted emission :: after) →
    published before time = true → (markedTimes between).card < size →
    emission.frame.time ≠ time

variable {history : List Entry} {entry : Entry}

theorem concat_eq_split {before since : List Entry} {divider : Entry}
    (hsplit : history ++ [entry] = before ++ divider :: since) :
    (since = [] ∧ before = history ∧ divider = entry) ∨
      ∃ rest, since = rest ++ [entry] ∧ history = before ++ divider :: rest := by
  rcases List.append_eq_append_iff.1 hsplit with ⟨extra, hpre, hent⟩ | ⟨rest, hhist, hsince⟩
  · rcases List.singleton_eq_append_iff.1 hent with ⟨rfl, hcut⟩ | ⟨-, hnil⟩
    · obtain ⟨rfl, rfl⟩ := List.cons_eq_cons.1 hcut
      exact .inl ⟨rfl, by simpa using hpre, rfl⟩
    · cases hnil
  · cases rest with
    | nil =>
      obtain ⟨rfl, rfl⟩ := List.cons_eq_cons.1 hsince
      exact .inl ⟨rfl, by simpa using hhist.symm, rfl⟩
    | cons cut rest =>
      obtain ⟨rfl, rfl⟩ := List.cons_eq_cons.1 hsince
      exact .inr ⟨rest, rfl, hhist⟩

@[simp] theorem markedTimes_nil : markedTimes [] = ∅ := rfl

variable {history : List Entry} {time : ℤ}

@[simp] theorem markedTimes_concat_emitted {emission : Emission} :
    markedTimes (history ++ [.emitted emission]) = markedTimes history := by
  ext other
  simp [markedTimes, Entry.markedTime]

@[simp] theorem markedTimes_concat_marked :
    markedTimes (history ++ [.marked time]) = insert time (markedTimes history) := by
  simp [markedTimes, Entry.markedTime]

theorem published_append {more : List Entry} :
    published (history ++ more) time = (published history time || published more time) :=
  List.any_append

theorem Frozen.concat {size : ℕ} (hfrozen : Frozen size history)
    (hent : ∀ before time since emission, history = before ++ .marked time :: since →
      published before time = true → (markedTimes since).card < size →
      entry = .emitted emission → emission.frame.time ≠ time) :
    Frozen size (history ++ [entry]) := by
  intro before time between emission after hsplit hpub hfew
  rcases concat_eq_split hsplit with ⟨hnil, -⟩ | ⟨rest, hrest, hhist⟩
  · simp at hnil
  rcases concat_eq_split hrest.symm with ⟨-, hbtw, hlast⟩ | ⟨tail, -, hprior⟩
  · subst hbtw
    exact hent before time between emission hhist hpub hfew hlast.symm
  · rw [hprior] at hhist
    exact hfrozen before time between emission tail hhist hpub hfew

namespace BarAggregator

structure Keeps (agg : BarAggregator) : Prop where
  frozen : Frozen agg.ledger.maxsize agg.history
  kept : ∀ before time since, agg.history = before ++ .marked time :: since →
    (markedTimes since).card < agg.ledger.maxsize →
    agg.ledger.filled.WrittenBefore (agg.key time)
      ((markedTimes since).image agg.key)

def Movable (agg : BarAggregator) (time : ℤ) : Prop :=
  (agg.ledger.hasFill (agg.key time) && published agg.history time) = false

instance (agg : BarAggregator) (time : ℤ) : Decidable (agg.Movable time) :=
  inferInstanceAs (Decidable (_ = _))

variable {agg : BarAggregator}

theorem Keeps.mark (hkeeps : agg.Keeps) (time : ℤ) : (agg.mark time).Keeps where
  frozen := hkeeps.frozen.concat (by intro _ _ _ _ _ _ _ hent; cases hent)
  kept := by
    intro before marked since hsplit hfew
    rcases concat_eq_split hsplit with ⟨rfl, -, hmark⟩ | ⟨rest, rfl, hhist⟩
    · cases hmark
      apply Dict.writtenBefore_setLast_self.trim
      exact agg.ledger.maxsize_pos
    · rw [markedTimes_concat_marked] at hfew ⊢
      have hprior := hkeeps.kept before marked rest hhist
        ((Finset.card_le_card (Finset.subset_insert time _)).trans_lt hfew)
      rw [Finset.image_insert]
      have hcard : (insert (agg.key time) ((markedTimes rest).image agg.key)).card
          < agg.ledger.maxsize := by
        rw [← Finset.image_insert]
        exact Finset.card_image_le.trans_lt hfew
      exact (hprior.setLast ()).trim hcard

variable {emission : Emission} {time : ℤ} {bucket : Bucket}

theorem Keeps.send (hkeeps : agg.Keeps) (hmove : agg.Movable emission.frame.time) :
    (agg.send emission).Keeps where
  frozen := by
    apply hkeeps.frozen.concat
    rintro before time since _ hsplit hpub hfew hent rfl
    cases hent
    have hfill : agg.ledger.hasFill (agg.key emission.frame.time) = true :=
      (hkeeps.kept before _ since hsplit hfew).get_isSome
    rw [Movable, hfill, hsplit, published_append, hpub] at hmove
    cases hmove
  kept := by
    intro before marked since hsplit hfew
    rcases concat_eq_split hsplit with ⟨-, -, hmark⟩ | ⟨rest, rfl, hhist⟩
    · cases hmark
    · rw [markedTimes_concat_emitted] at hfew ⊢
      exact hkeeps.kept before marked rest hhist hfew

theorem Keeps.onFrame (hkeeps : agg.Keeps) (books : Emission → Bool) (hmove : agg.Movable time)
    (htime : emission.frame.time = time) : (agg.onFrame books emission).Keeps := by
  subst htime
  have hsent := hkeeps.send hmove
  unfold BarAggregator.onFrame
  split
  · exact hsent.mark _
  · exact hsent

theorem key_inj {other : ℤ} : agg.key time = agg.key other ↔ time = other := by
  simp [key]

theorem Movable.mark {marked : ℤ} (hmove : agg.Movable time)
    (hother : marked ≠ time) : (agg.mark marked).Movable time := by
  have hpub : published (agg.history ++ [.marked marked]) time =
      published agg.history time := by
    rw [published_append]
    exact Bool.or_false _
  have hfill : (agg.mark marked).ledger.hasFill (agg.key time) = true →
      agg.ledger.hasFill (agg.key time) = true := by
    intro hmark
    obtain ⟨val, hval⟩ := Option.isSome_iff_exists.1 hmark
    have hset := Dict.get_of_get_trim hval
    have hne : agg.key marked ≠ agg.key time := fun heq ↦ hother (key_inj.1 heq)
    rw [Dict.get_setLast, if_neg hne] at hset
    rw [BookedFillLedger.hasFill, hset]
    rfl
  rw [Movable, Bool.and_eq_false_imp] at hmove ⊢
  intro hmark
  exact hpub.trans (hmove (hfill hmark))

theorem Movable.send (hmove : agg.Movable time)
    (hother : emission.frame.time ≠ time) : (agg.send emission).Movable time := by
  have hpub : published (agg.history ++ [.emitted emission]) time =
      published agg.history time := by
    simp [published, Entry.publishes, hother]
  rw [Movable, Bool.and_eq_false_imp] at hmove ⊢
  intro hfill
  exact hpub.trans (hmove hfill)

theorem Movable.onFrame (hmove : agg.Movable time) (books : Emission → Bool)
    (hother : emission.frame.time ≠ time) : (agg.onFrame books emission).Movable time := by
  unfold BarAggregator.onFrame
  split
  · exact (hmove.send hother).mark hother
  · exact hmove.send hother

theorem Keeps.of_same {changed : BarAggregator} (hkeeps : agg.Keeps)
    (hkey : changed.key = agg.key) (hsize : changed.ledger.maxsize = agg.ledger.maxsize)
    (hfill : changed.ledger.filled = agg.ledger.filled)
    (hhist : changed.history = agg.history) : changed.Keeps where
  frozen := by
    rw [hsize, hhist]
    exact hkeeps.frozen
  kept := by
    rw [hsize, hhist, hfill, hkey]
    exact hkeeps.kept

theorem Keeps.countLateDrop (hkeeps : agg.Keeps) (why : DropReason) :
    (agg.countLateDrop why).Keeps := hkeeps.of_same rfl rfl rfl rfl

theorem Keeps.emit_closed (hkeeps : agg.Keeps) (around : Surroundings)
    (hmove : agg.Movable (chartTime bucket.start)) :
    (agg.emit around bucket true).Keeps := by
  have hrec : (agg.recordClosed bucket around.now).Keeps := hkeeps.of_same rfl rfl rfl rfl
  have hsent : ((agg.recordClosed bucket around.now).onFrame around.books
      (.bar (agg.frameOf bucket true))).Keeps :=
    hrec.onFrame around.books hmove rfl
  exact hsent.of_same rfl rfl rfl rfl

theorem Movable.emit_closed (hmove : agg.Movable time) (around : Surroundings)
    (hother : chartTime bucket.start ≠ time) :
    (agg.emit around bucket true).Movable time := by
  have hrec : (agg.recordClosed bucket around.now).Movable time := hmove
  have hframe : (Emission.bar (agg.frameOf bucket true)).frame.time ≠ time := hother
  exact hrec.onFrame around.books hframe

section

variable (hkeeps : agg.Keeps) {tick : Tick} {around : Surroundings}

include hkeeps

theorem Keeps.sendForming (around : Surroundings) (tick : Tick) (startingNew : Bool)
    (hmove : agg.Movable (chartTime bucket.start)) :
    (agg.sendForming around tick bucket startingNew).Keeps := by
  unfold BarAggregator.sendForming
  split
  · have hnoted : ({ agg with lastFormingEmit := some around.now } :
        BarAggregator).Keeps := hkeeps.of_same rfl rfl rfl rfl
    exact hnoted.onFrame around.books hmove rfl
  · exact hkeeps

theorem Keeps.setBucket (bucket : Bucket) (source : QuoteSource)
    (provisional : Bool) : (agg.setBucket bucket source provisional).Keeps :=
  hkeeps.of_same rfl rfl rfl rfl

theorem Keeps.storeRevision (time : ℤ) (revised : Bucket) :
    (agg.storeRevision time revised).Keeps := hkeeps.of_same rfl rfl rfl rfl

theorem Keeps.startBucket (around : Surroundings) (hmove : agg.beforeSeed tick = true ∨
      agg.Movable (chartTime (agg.startOf tick))) :
    (agg.startBucket around tick).Keeps := by
  unfold BarAggregator.startBucket
  split
  · exact hkeeps.countLateDrop _
  · rename_i hseed
    exact (hkeeps.setBucket _ _ _).sendForming around tick true (hmove.resolve_left hseed)

theorem Keeps.reviseClosed (around : Surroundings) (tick : Tick) :
    (agg.reviseClosed around tick).Keeps := by
  simp only [BarAggregator.reviseClosed]
  split
  · exact hkeeps.countLateDrop _
  rename_i hfill
  have hmove : agg.Movable (chartTime (agg.startOf tick)) := by
    rw [Movable, eq_false_of_ne_true hfill, Bool.false_and]
  split
  · have hnoted : ({ agg with lastFormingEmit := none } : BarAggregator).Keeps :=
      hkeeps.of_same rfl rfl rfl rfl
    exact (hnoted.setBucket _ _ _).onFrame around.books hmove rfl
  split
  · exact hkeeps.countLateDrop _
  split
  · exact (hkeeps.storeRevision _ _).onFrame around.books hmove rfl
  · exact hkeeps.countLateDrop _

def Call.Spares (agg : BarAggregator) : Call → Prop
  | .onQuote _ tick =>
    agg.disposed = true ∨
      (agg.bucket = none → agg.beforeSeed tick = true ∨
        agg.Movable (chartTime (agg.startOf tick))) ∧
      ∀ bucket ∈ agg.bucket, agg.startOf tick < bucket.start ∨
        agg.Movable (chartTime bucket.start) ∧
          (agg.beforeSeed tick = true ∨
            agg.Movable (chartTime (agg.startOf tick)))
  | .flush _ =>
    agg.disposed = true ∨
      ∀ bucket ∈ agg.bucket, agg.Movable (chartTime bucket.start)
  | .markFilled _ => True

instance (call : Call) : Decidable (call.Spares agg) :=
  match call with
  | .onQuote _ _ => inferInstanceAs (Decidable (_ ∨ _))
  | .flush _ => inferInstanceAs (Decidable (_ ∨ _))
  | .markFilled _ => inferInstanceAs (Decidable True)

theorem Keeps.onQuote (hsave : Call.Spares agg (.onQuote around tick)) :
    (agg.onQuote around tick).Keeps := by
  cases hlive : agg.disposed with
  | true =>
    rw [BarAggregator.onQuote, if_pos hlive]
    exact hkeeps
  | false =>
    have hspared := hsave.resolve_left (by simp [hlive])
    cases hbkt : agg.bucket with
    | none =>
      rw [onQuote_of_none hlive hbkt]
      exact hkeeps.startBucket around (hspared.1 hbkt)
    | some bucket =>
      have hspared := hspared.2 bucket hbkt
      rcases lt_trichotomy (agg.startOf tick) bucket.start with hlate | hsame | hlater
      · rw [onQuote_of_late hlive hbkt hlate]
        exact hkeeps.reviseClosed around tick
      · rw [onQuote_of_same hlive hbkt hsame]
        exact (hkeeps.setBucket _ _ _).sendForming around tick false
          (hspared.resolve_left hsame.not_lt).1
      · rw [onQuote_of_later hlive hbkt hlater]
        obtain ⟨hopen, hbar⟩ := hspared.resolve_left hlater.not_gt
        have hother : chartTime bucket.start ≠ chartTime (agg.startOf tick) :=
          fun heq ↦ hlater.ne (by simpa [chartTime] using heq)
        have hsourced : ({ agg with source := tick.source } : BarAggregator).Keeps :=
          hkeeps.of_same rfl rfl rfl rfl
        have hclose : (agg.closeBefore around tick bucket).Keeps :=
          hsourced.emit_closed around hopen
        apply hclose.startBucket around
        rw [beforeSeed_closeBefore, startOf_closeBefore]
        refine hbar.imp_right fun hmove ↦ ?_
        have hsrc : ({ agg with source := tick.source } : BarAggregator).Movable
            (chartTime (agg.startOf tick)) := hmove
        exact hsrc.emit_closed around hother

theorem Keeps.flush (hsave : Call.Spares agg (.flush around)) : (agg.flush around).Keeps := by
  cases hlive : agg.disposed with
  | true =>
    rw [flush_of_idle (.inl hlive)]
    exact hkeeps
  | false =>
    have hspared := hsave.resolve_left (by simp [hlive])
    cases hbkt : agg.bucket with
    | none =>
      rw [flush_of_idle (.inr hbkt)]
      exact hkeeps
    | some bucket =>
      rw [flush_of_some hlive hbkt]
      exact hkeeps.emit_closed around (hspared bucket hbkt)

theorem Keeps.markFilled (frame : BarFrame) : (agg.call (.markFilled frame)).Keeps := by
  rcases call_markFilled with hmark | href
  · rw [hmark]
    exact hkeeps.mark frame.time
  · rw [href]
    exact hkeeps

theorem Keeps.call {call : Call} (hsave : call.Spares agg) : (agg.call call).Keeps := by
  cases call with
  | onQuote around tick => exact hkeeps.onQuote hsave
  | flush around => exact hkeeps.flush hsave
  | markFilled frame => exact hkeeps.markFilled frame

def SparesAll : BarAggregator → List Call → Prop
  | _, [] => True
  | agg, first :: rest => first.Spares agg ∧ SparesAll (agg.call first) rest

instance : ∀ (agg : BarAggregator) (calls : List Call),
    Decidable (SparesAll agg calls)
  | _, [] => inferInstanceAs (Decidable True)
  | agg, first :: rest =>
    have : Decidable (SparesAll (agg.call first) rest) := instDecidableSparesAll _ rest
    inferInstanceAs (Decidable (_ ∧ _))

theorem Keeps.run {calls : List Call} (hsave : SparesAll agg calls) : (agg.run calls).Keeps := by
  induction calls generalizing agg with
  | nil => exact hkeeps
  | cons first rest ih => exact ih (hkeeps.call hsave.1) hsave.2

end

/-- A bar that was sent closed and marked is not sent again, if no call reopens a frozen bar. -/
theorem run_frozen (agg : BarAggregator) (hhistory : agg.history = [])
    (calls : List Call) (hsave : SparesAll agg calls) :
    Frozen (agg.run calls).ledger.maxsize (agg.run calls).history := by
  have hstart : agg.Keeps := by
    constructor
    · rw [hhistory]
      exact fun _ _ _ _ _ hsplit ↦ by simp at hsplit
    · intro before time since hsplit
      rw [hhistory] at hsplit
      simp at hsplit
  exact (hstart.run hsave).frozen

def morningPrint (seconds : ℤ) (price volume : ℚ) : Tick where
  stamp := (1780308000 + seconds) * 1000000
  price := price
  volume := some volume

def quietAt (now : ℚ) : Surroundings := ⟨now, now, fun _ ↦ false⟩

def minuteBars : BarAggregator := new "NSE:TEST" .m1

def closedBar (seconds : ℤ) (price volume : ℚ) : BarFrame :=
  let bucket := minuteBars.firstPrint (morningPrint seconds price volume)
  (minuteBars.setBucket bucket (.text "live") false).frameOf bucket true

def reopeningCalls : List Call :=
  [.onQuote (quietAt 0) (morningPrint 0 100 1), .flush (quietAt 1),
    .markFilled (closedBar 0 100 1), .onQuote (quietAt 2) (morningPrint 30 150 2)]

theorem flushed_bar_reopened :
    ¬ Frozen (minuteBars.run reopeningCalls).ledger.maxsize
      (minuteBars.run reopeningCalls).history := by
  intro hfrozen
  have hsplit : (minuteBars.run reopeningCalls).history =
      [.emitted (.bar { closedBar 0 100 1 with closed := false }),
        .emitted (.bar (closedBar 0 100 1))] ++ .marked 1780288200 ::
          ([] ++ .emitted (.bar { closedBar 30 150 2 with closed := false }) :: []) := by
    decide
  exact hfrozen _ _ _ _ _ hsplit (by decide) (by decide) (by decide)

def sparingCalls : List Call :=
  [.onQuote (quietAt 0) (morningPrint 0 100 1), .onQuote (quietAt 60) (morningPrint 60 101 1),
    .markFilled (closedBar 0 100 1), .onQuote (quietAt 62) (morningPrint 30 150 2)]

theorem late_print_refused :
    SparesAll minuteBars sparingCalls ∧ Frozen (minuteBars.run sparingCalls).ledger.maxsize
      (minuteBars.run sparingCalls).history :=
  have hsave : SparesAll minuteBars sparingCalls := by decide
  ⟨hsave, run_frozen minuteBars rfl sparingCalls hsave⟩

end BarAggregator

end Tradex.Runtime

import Tradex.Domain.Types
import Tradex.Runtime.BarAggregator

/-!
# The bars of a session

Every instrument of the tape has an aggregator whose closed bars go back to the bus as candles. A
revision leaves it as a `RevisedBar`, which has no `closed` for the bridge to read.
-/

namespace Tradex.Runtime

open Tradex.Domain

structure BarCandle where
  instrument : Instrument
  timeframe : String
  «open» : ℚ
  high : ℚ
  low : ℚ
  close : ℚ
  volume : ℚ
  timestamp : ℤ
deriving DecidableEq

def candleFromFrame (frame : BarFrame) : BarCandle where
  instrument := ⟨frame.instrument⟩
  timeframe := frame.timeframe
  «open» := frame.open
  high := frame.high
  low := frame.low
  close := frame.close
  volume := frame.volume
  timestamp := frame.time

structure TapeQuote where
  instrument : Instrument
  ltp : Price
  volume : Option Decimal
  timestamp : ℤ
  around : Surroundings

def TapeQuote.tick (quote : TapeQuote) : Tick where
  stamp := quote.timestamp
  price := quote.ltp.value.toRat
  volume := quote.volume.map Decimal.toRat

/-- `shared` is the ledger that all aggregators were given, if there is one. -/
structure SessionBarAggregator where
  aggregators : Dict String BarAggregator
  shared : Option BookedFillLedger
  publishForming : Bool
  bus : List BarCandle

namespace SessionBarAggregator

def new (instrs : List Instrument) (tf : Timeframe := .m1)
    (shared : Option BookedFillLedger := none) (publishForming : Bool := false) :
    SessionBarAggregator where
  aggregators := instrs.foldl (fun tape instr ↦
    if (tape.get instr.instrumentId).isSome then tape
    else tape.set instr.instrumentId (.new instr.instrumentId tf)) .empty
  shared := shared
  publishForming := publishForming
  bus := []

variable (sess : SessionBarAggregator) (quote : TapeQuote)

def publish : Entry → Except String SessionBarAggregator
  | .marked _ => .ok sess
  | .emitted (.revised _) => .error "'RevisedBar' object has no attribute 'closed'"
  | .emitted (.bar frame) =>
    if !frame.closed && !sess.publishForming then .ok sess
    else .ok { sess with bus := sess.bus ++ [candleFromFrame frame] }

def publishAll (sess : SessionBarAggregator) :
    List Entry → Except String Unit × SessionBarAggregator
  | [] => (.ok (), sess)
  | entry :: rest =>
    match sess.publish entry with
    | .ok next => next.publishAll rest
    | .error exc => (.error exc, sess)

/-- The aggregator of the quote before and after the quote. -/
def step : Option (BarAggregator × BarAggregator) :=
  (sess.aggregators.get quote.instrument.instrumentId).map fun held ↦
    let agg := { held with ledger := sess.shared.getD held.ledger }
    (agg, agg.onQuote quote.around quote.tick)

def sent (step : BarAggregator × BarAggregator) : List Entry :=
  step.2.history.drop step.1.history.length

def onQuote : Except String Unit × SessionBarAggregator :=
  match sess.step quote with
  | none => (.ok (), sess)
  | some step =>
    { sess with
      aggregators := sess.aggregators.set quote.instrument.instrumentId step.2
      shared := sess.shared.map fun _ ↦ step.2.ledger }.publishAll (sent step)

def calls (sess : SessionBarAggregator) :
    List TapeQuote → List (SessionBarAggregator × TapeQuote)
  | [] => []
  | quote :: rest => (sess, quote) :: (sess.onQuote quote).2.calls rest

def Accepts : Prop :=
  ∃ step ∈ sess.step quote, step.1.lateTicksApplied < step.2.lateTicksApplied

def Served : Prop :=
  (sess.onQuote quote).1 = .ok () ∧
    ∀ step ∈ sess.step quote, ∀ revision, .emitted (.revised revision) ∈ sent step →
      candleFromFrame revision.frame ∈ (sess.onQuote quote).2.bus

end SessionBarAggregator

namespace BarAggregator

variable {agg after : BarAggregator} {around : Surroundings} {tick : Tick} {bucket : Bucket}
  {books : Emission → Bool}

theorem onFrame_eq {emission : Emission} :
    (agg.onFrame books emission).lateTicksApplied = agg.lateTicksApplied ∧
      ∃ rest, (agg.onFrame books emission).history = agg.history ++ .emitted emission :: rest ∧
        ∀ other, .emitted other ∉ rest := by
  unfold onFrame
  split
  · exact ⟨rfl, [.marked _], List.append_assoc _ _ _, by simp⟩
  · exact ⟨rfl, [], rfl, by simp⟩

structure Plain (agg after : BarAggregator) : Prop where
  applied : after.lateTicksApplied = agg.lateTicksApplied
  history : ∃ entries, after.history = agg.history ++ entries ∧
    ∀ revision, .emitted (.revised revision) ∉ entries

theorem Plain.refl : agg.Plain agg := ⟨rfl, [], by simp, by simp⟩

section

variable (hplain : agg.Plain after)

include hplain

theorem Plain.onFrame {frame : BarFrame} : agg.Plain (after.onFrame books (.bar frame)) := by
  obtain ⟨happ, rows, hhist, hbars⟩ := hplain
  obtain ⟨hsame, rest, hsent, hmarks⟩ := @onFrame_eq after books (.bar frame)
  refine ⟨hsame.trans happ, rows ++ .emitted (.bar frame) :: rest, ?_, ?_⟩
  · rw [hsent, hhist, List.append_assoc]
  · simp [hbars, hmarks]

theorem Plain.sendForming {startingNew : Bool} :
    agg.Plain (after.sendForming around tick bucket startingNew) := by
  unfold BarAggregator.sendForming
  split
  · change agg.Plain (BarAggregator.onFrame _ _ (.bar _))
    apply Plain.onFrame
    exact ⟨hplain.applied, hplain.history⟩
  · exact hplain

theorem Plain.startBucket : agg.Plain (after.startBucket around tick) := by
  simp only [BarAggregator.startBucket]
  split
  · exact ⟨hplain.applied, hplain.history⟩
  · apply Plain.sendForming
    exact ⟨hplain.applied, hplain.history⟩

end

theorem Plain.closeBefore : agg.Plain (agg.closeBefore around tick bucket) := by
  have hsent : ∀ frame, agg.Plain (({ agg with source := tick.source }.recordClosed bucket
      around.now).onFrame around.books (.bar frame)) := by
    intro frame
    apply Plain.onFrame
    exact ⟨rfl, Plain.refl.history⟩
  exact ⟨(hsent _).applied, (hsent _).history⟩

/-- A call revises a closed bar as its only message, or sends no revision. -/
theorem onQuote_cases :
    agg.Plain (agg.onQuote around tick) ∨
      agg.lateTicksApplied < (agg.onQuote around tick).lateTicksApplied ∧
        ∃ revision rest, (agg.onQuote around tick).history =
          agg.history ++ .emitted (.revised revision) :: rest := by
  cases hlive : agg.disposed with
  | true =>
    rw [BarAggregator.onQuote, if_pos hlive]
    exact .inl .refl
  | false =>
    cases hbkt : agg.bucket with
    | none =>
      rw [onQuote_of_none hlive hbkt]
      exact .inl Plain.refl.startBucket
    | some bucket =>
      rcases lt_trichotomy (agg.startOf tick) bucket.start with hlate | hsame | hlater
      · rw [onQuote_of_late hlive hbkt hlate]
        simp only [reviseClosed]
        split
        · exact .inl ⟨rfl, Plain.refl.history⟩
        split
        · left
          change agg.Plain (BarAggregator.onFrame _ _ (.bar _))
          apply Plain.onFrame
          exact ⟨rfl, Plain.refl.history⟩
        split
        · exact .inl ⟨rfl, Plain.refl.history⟩
        split
        · simp only [sendRevision]
          refine .inr ⟨?_, _, onFrame_eq.2.imp fun _ hsent ↦ hsent.1⟩
          rw [onFrame_eq.1]
          exact Nat.lt_succ_self _
        · exact .inl ⟨rfl, Plain.refl.history⟩
      · rw [onQuote_of_same hlive hbkt hsame]
        left
        apply Plain.sendForming
        exact ⟨rfl, Plain.refl.history⟩
      · rw [onQuote_of_later hlive hbkt hlater]
        exact .inl Plain.closeBefore.startBucket

end BarAggregator

namespace SessionBarAggregator

variable {sess : SessionBarAggregator} {quote : TapeQuote}

theorem publishAll_of_bars {rows : List Entry}
    (hbars : ∀ revision, .emitted (.revised revision) ∉ rows) :
    (sess.publishAll rows).1 = .ok () := by
  induction rows generalizing sess with
  | nil => rfl
  | cons entry rest ih => rcases entry with (_ | _) | _ <;> grind [publishAll, publish]

theorem step_cases {step : BarAggregator × BarAggregator} (hstep : sess.step quote = some step) :
    step.1.Plain step.2 ∨ step.1.lateTicksApplied < step.2.lateTicksApplied ∧
      ∃ revision rest, sent step = .emitted (.revised revision) :: rest := by
  obtain ⟨held, -, rfl⟩ := Option.map_eq_some_iff.mp hstep
  refine BarAggregator.onQuote_cases.imp_right fun ⟨happ, revision, rest, hhist⟩ ↦ ?_
  exact ⟨happ, revision, rest, by simp [sent, hhist]⟩

theorem onQuote_of_accepts (hacc : sess.Accepts quote) :
    (sess.onQuote quote).1 = .error "'RevisedBar' object has no attribute 'closed'" ∧
      (sess.onQuote quote).2.bus = sess.bus := by
  obtain ⟨step, hstep, happ⟩ := hacc
  rcases step_cases hstep with hplain | ⟨-, revision, rest, hsent⟩
  · exact absurd hplain.applied happ.ne'
  · simp [onQuote, Option.mem_def.mp hstep, hsent, publishAll, publish]

theorem served_of_not_accepts (hplain : ¬sess.Accepts quote) : sess.Served quote := by
  unfold Served onQuote
  cases hstep : sess.step quote with
  | none => exact ⟨rfl, by simp⟩
  | some step =>
    obtain ⟨-, rows, hhist, hbars⟩ :=
      (step_cases hstep).resolve_right fun hrev ↦ hplain ⟨step, hstep, hrev.1⟩
    have hsent : sent step = rows := by simp [sent, hhist]
    refine ⟨publishAll_of_bars (hsent ▸ hbars), ?_⟩
    intro other hother revision hrev
    obtain rfl := Option.some.inj hother
    exact absurd (hsent ▸ hrev) (hbars revision)

/-- Every call that accepts a late print raises before it publishes, so all are served exactly when
none is accepted. -/
theorem revisions_published_iff (sess : SessionBarAggregator) (quotes : List TapeQuote) :
    ((∀ call ∈ sess.calls quotes, call.1.Served call.2) ↔
      ∀ call ∈ sess.calls quotes, ¬call.1.Accepts call.2) ∧
    ∀ call ∈ sess.calls quotes, call.1.Accepts call.2 →
      (call.1.onQuote call.2).1 = .error "'RevisedBar' object has no attribute 'closed'" ∧
        (call.1.onQuote call.2).2.bus = call.1.bus := by
  refine ⟨⟨fun hserved call hcall hacc ↦ ?_, fun hplain call hcall ↦ ?_⟩, ?_⟩
  · have hrsd := (onQuote_of_accepts hacc).1
    rw [(hserved call hcall).1] at hrsd
    cases hrsd
  · exact served_of_not_accepts (hplain call hcall)
  · exact fun call _ hacc ↦ onQuote_of_accepts hacc

def sbinQuote (price : ℕ) (second : ℤ) : TapeQuote :=
  ⟨⟨"NSE:SBIN"⟩, .ofNat price, some 1, second * 10 ^ 6, 0, 0, fun _ ↦ false⟩

theorem late_print_raises :
    ((new [⟨"NSE:SBIN"⟩]).calls [sbinQuote 100 0, sbinQuote 101 60, sbinQuote 99 30]).map
        (fun call ↦ (call.1.onQuote call.2).1) =
      [.ok (), .ok (), .error "'RevisedBar' object has no attribute 'closed'"] := by
  decide +kernel

end SessionBarAggregator

end Tradex.Runtime

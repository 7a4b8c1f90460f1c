import Mathlib.Order.Interval.Finset.Nat
import Tradex.Domain.Timeframe
import Tradex.Domain.Types
import Tradex.Foundation.Outcome

/-!
# Recovery of the market feed from history

A recovery asks the history provider for the bars of every subscribed instrument since its last
closed bar, counts the slots missing between the bars it got, and succeeds when the count stays
within an allowance and the bars could be seeded.
-/

namespace Tradex.Runtime

open Tradex.Domain List

/-- The stamp of a bar: a wall clock without a zone, or an instant. -/
inductive BarStamp where
  | naive (wall : ℤ)
  | aware (epoch : ℤ)
deriving DecidableEq

structure HistoryBar where
  instrument : String
  timeframe : String
  stamp : Option BarStamp
deriving DecidableEq

namespace HistoryBar

/-- `_bar_epoch`: a stamp without a zone is read as UTC. -/
def epoch (bar : HistoryBar) : Option ℤ :=
  bar.stamp.map fun
    | .naive wall => wall
    | .aware epoch => epoch

def key (bar : HistoryBar) : String × String × Option ℤ :=
  (bar.instrument, bar.timeframe, bar.epoch)

end HistoryBar

structure Recovery where
  instruments : List Instrument
  history : Option (Instrument → ℤ → ℤ → Except String (List HistoryBar))
  onHistory : Option (List HistoryBar → Except String Unit)
  closedBar : Instrument → Option ℤ
  lastEventAt : Option ℤ
  endsAt : ℤ
  lookback : ℤ
  step : ℤ
  maxMissingBars : ℕ

namespace Recovery

def keep (out : List HistoryBar) (bar : HistoryBar) : List HistoryBar :=
  if bar.epoch.isSome ∧ bar.key ∉ out.map HistoryBar.key then out ++ [bar] else out

def dedupe (bars : List HistoryBar) : List HistoryBar := bars.foldl keep []

/-- The distinct epochs of some bars in increasing order. -/
def epochs (bars : List HistoryBar) : List ℤ :=
  (bars.filterMap HistoryBar.epoch).dedup.insertionSort (· ≤ ·)

def gap (step prev next : ℤ) : ℕ := ((next - prev) / step - 1).toNat

def gaps (step : ℤ) : ℤ → List ℤ → ℕ
  | _, [] => 0
  | prev, next :: rest => gap step prev next + gaps step next rest

variable (recov : Recovery) (inst : Instrument)

def startFor : ℤ :=
  (recov.closedBar inst).getD (recov.lastEventAt.getD (recov.endsAt - recov.lookback))

def anchor : Option ℤ :=
  recov.closedBar inst <|> recov.lastEventAt.map fun at_ ↦ at_ / recov.step * recov.step

def missingBetween (bars : List HistoryBar) : ℕ :=
  match recov.anchor inst, epochs bars with
  | some anchor, found => gaps recov.step anchor found
  | none, [] => 0
  | none, first :: rest => gaps recov.step first rest

structure Progress where
  recovered : List HistoryBar
  errors : List String
  missing : ℕ

def fetch (history : Instrument → ℤ → ℤ → Except String (List HistoryBar))
    (progress : Progress) (inst : Instrument) : Progress :=
  match history inst (recov.startFor inst) recov.endsAt with
  | .error msg => { progress with errors := progress.errors ++ [inst.instrumentId ++ ": " ++ msg] }
  | .ok bars =>
    { progress with
      recovered := progress.recovered ++ dedupe bars
      missing := progress.missing + recov.missingBetween inst (dedupe bars) }

/-- The bars that were replayed, in order, and the number of missing ones. -/
def recover : Except String (List HistoryBar × ℕ) :=
  if recov.instruments = [] then .error "no instruments subscribed"
  else
    match recov.history with
    | none => .error "no history provider: a reconnect alone cannot prove tape continuity"
    | some history =>
      let progress := recov.instruments.foldl (recov.fetch history) ⟨[], [], 0⟩
      if progress.errors ≠ [] then .error ("; ".intercalate progress.errors)
      else if progress.recovered = [] ∧ recov.lastEventAt = none then
        .error "history replay returned no bars"
      else if recov.maxMissingBars < progress.missing then
        .error (s!"history replay proved {progress.missing} missing bars, over the " ++
          s!"allowance of {recov.maxMissingBars}")
      else
        let recovered := progress.recovered.insertionSort
          fun first second ↦ first.epoch.getD 0 ≤ second.epoch.getD 0
        match recov.onHistory with
        | some seed =>
          if recovered = [] then .ok (recovered, progress.missing)
          else
            match seed recovered with
            | .error msg => .error ("history seeding failed: " ++ msg)
            | .ok _ => .ok (recovered, progress.missing)
        | none => .ok (recovered, progress.missing)

/-- The bars that the provider returned for an instrument. -/
def answer : List HistoryBar :=
  match recov.history with
  | none => []
  | some history => (history inst (recov.startFor inst) recov.endsAt).toOption.getD []

variable (since : ℤ)

/-- How many slots after `since` have finished by the end of the recovery. -/
def finished : ℕ := gap recov.step since recov.endsAt

variable (found : List ℤ)

/-- The finished slots after `since` of which no bar was found. -/
def absent : ℕ :=
  ((Finset.Ioc 0 (recov.finished since)).filter
    fun slot : ℕ ↦ since + slot * recov.step ∉ found).card

/-- The finished slots behind the last bar that was found. -/
def unseen : ℕ := recov.finished (found.getLastD since)

/-- The bars found are slots after `since`, up to the one under way. -/
def OnGrid : Prop :=
  ∀ epoch ∈ found, ∃ slot : ℕ, epoch = since + slot * recov.step ∧ epoch ≤ recov.endsAt

variable {recov}

variable {bars : List HistoryBar} {handed : List HistoryBar} {bar : HistoryBar} {missing : ℕ}

theorem keys_dedupe {key : String × String × Option ℤ} :
    key ∈ (dedupe bars).map HistoryBar.key ↔ key ∈ bars.map HistoryBar.key ∧ key.2.2.isSome := by
  have hfold : ∀ out, key ∈ (bars.foldl keep out).map HistoryBar.key ↔
      key ∈ out.map HistoryBar.key ∨ key ∈ bars.map HistoryBar.key ∧ key.2.2.isSome := by
    induction bars with
    | nil => simp
    | cons head rest ih =>
      intro out
      have hepoch : head.key.2.2 = head.epoch := rfl
      rw [foldl_cons, keep]
      split <;> simp only [map_cons] <;> grind
  rw [dedupe, hfold, map_nil, or_iff_right not_mem_nil]

theorem mem_of_mem_dedupe (hbar : bar ∈ dedupe bars) : bar ∈ bars := by
  refine foldl_invariant (fun out ↦ ∀ bar ∈ out, bar ∈ bars) (by simp) ?_ bar hbar
  intro out item hitem hkept bar hmem
  rw [keep] at hmem
  split at hmem
  · rcases mem_append.1 hmem with hold | hnew
    · exact hkept bar hold
    · exact mem_singleton.1 hnew ▸ hitem
  · exact hkept bar hmem

theorem mem_epochs_dedupe {epoch : ℤ} :
    epoch ∈ epochs (dedupe bars) ↔ epoch ∈ bars.filterMap HistoryBar.epoch := by
  have hkeys : ∀ list : List HistoryBar, epoch ∈ list.filterMap HistoryBar.epoch ↔
      ∃ instr tf, (instr, tf, some epoch) ∈ list.map HistoryBar.key := by
    intro list
    simp only [mem_filterMap, mem_map, HistoryBar.key, Prod.mk.injEq]
    exact ⟨fun ⟨bar, hbar, hepoch⟩ ↦ ⟨_, _, bar, hbar, rfl, rfl, hepoch⟩,
      fun ⟨_, _, bar, hbar, _, _, hepoch⟩ ↦ ⟨bar, hbar, hepoch⟩⟩
  simp [epochs, hkeys, keys_dedupe]

theorem pairwise_epochs : (epochs bars).Pairwise (· < ·) := by
  have hnd : (epochs bars).Nodup := (perm_insertionSort _ _).nodup_iff.2 (nodup_dedup _)
  exact (pairwise_insertionSort _ _).imp₂ (fun _ _ hle hne ↦ lt_of_le_of_ne hle hne) hnd

theorem gap_slots (hstep : 0 < recov.step) (since : ℤ) (prev next : ℕ) :
    gap recov.step (since + prev * recov.step) (since + next * recov.step) = next - prev - 1 := by
  have hspan : since + next * recov.step - (since + prev * recov.step) =
      (next - prev) * recov.step := by ring
  rw [gap, hspan, Int.mul_ediv_cancel _ hstep.ne']
  omega

theorem finished_slots (hstep : 0 < recov.step) (since : ℤ) (slot : ℕ) :
    recov.finished (since + slot * recov.step) = recov.finished since - slot := by
  have hspan : recov.endsAt - (since + slot * recov.step) =
      recov.endsAt - since - slot * recov.step := by ring
  rw [finished, finished, gap, gap, hspan, Int.sub_mul_ediv_right _ _ hstep.ne']
  omega

/-- The absent slots behind a bar are the gaps between the later bars and what
is behind the last of them. -/
theorem card_absent (hstep : 0 < recov.step) (since : ℤ) (prev : ℕ) (found : List ℤ)
    (hsorted : found.Pairwise (· < ·))
    (hgrid : ∀ epoch ∈ found, ∃ slot : ℕ, epoch = since + slot * recov.step ∧
      prev ≤ slot ∧ slot ≤ recov.finished since + 1) :
    ((Finset.Ioc prev (recov.finished since)).filter
        fun slot : ℕ ↦ since + slot * recov.step ∉ found).card =
      gaps recov.step (since + prev * recov.step) found +
        recov.unseen (since + prev * recov.step) found := by
  induction found generalizing prev with
  | nil => simp [gaps, unseen, finished_slots hstep]
  | cons epoch rest ih =>
    obtain ⟨slot, rfl, hafter, hpre⟩ := hgrid _ mem_cons_self
    obtain ⟨hfst, hrest⟩ := pairwise_cons.1 hsorted
    have hmono : ∀ other : ℕ, since + slot * recov.step < since + other * recov.step ↔
        slot < other := by
      intro other
      rw [add_lt_add_iff_left, mul_lt_mul_iff_left₀ hstep]
      exact Nat.cast_lt
    have hlate := ih slot hrest fun later hlate ↦ by
      obtain ⟨other, rfl, -, hle⟩ := hgrid later (mem_cons_of_mem _ hlate)
      exact ⟨other, rfl, ((hmono other).1 (hfst _ hlate)).le, hle⟩
    have hsplit : (Finset.Ioc prev (recov.finished since)).filter
        (fun other : ℕ ↦ since + other * recov.step ∉ (since + slot * recov.step) :: rest) =
        Finset.Ioo prev slot ∪ (Finset.Ioc slot (recov.finished since)).filter
          fun other : ℕ ↦ since + other * recov.step ∉ rest := by
      ext other
      have hsame : since + other * recov.step = since + slot * recov.step ↔ other = slot := by
        rw [add_right_inj, mul_left_inj' hstep.ne', Nat.cast_inj]
      simp only [Finset.mem_union]
      grind
    have hdisjoint : Disjoint (Finset.Ioo prev slot)
        ((Finset.Ioc slot (recov.finished since)).filter
          fun other : ℕ ↦ since + other * recov.step ∉ rest) := by
      rw [Finset.disjoint_left]
      intro other hlow hhigh
      simp only [Finset.mem_Ioo, Finset.mem_filter, Finset.mem_Ioc] at hlow hhigh
      omega
    rw [hsplit, Finset.card_union_of_disjoint hdisjoint, Nat.card_Ioo, hlate, gaps,
      gap_slots hstep, unseen, unseen, getLastD_cons]
    omega

def counted (recov : Recovery) : ℕ :=
  (recov.instruments.map fun inst ↦
    recov.missingBetween inst (dedupe (recov.answer inst))).sum

def replayed (recov : Recovery) : List HistoryBar :=
  recov.instruments.flatMap fun inst ↦ dedupe (recov.answer inst)

theorem foldl_fetch {history : Instrument → ℤ → ℤ → Except String (List HistoryBar)}
    (hhist : recov.history = some history) (instrs : List Instrument) (start : Progress)
    (hclean : (instrs.foldl (recov.fetch history) start).errors = []) :
    start.errors = [] ∧
      (instrs.foldl (recov.fetch history) start).missing =
        start.missing + (instrs.map fun inst ↦
          recov.missingBetween inst (dedupe (recov.answer inst))).sum ∧
      (instrs.foldl (recov.fetch history) start).recovered =
        start.recovered ++ instrs.flatMap fun inst ↦ dedupe (recov.answer inst) := by
  induction instrs generalizing start with
  | nil => exact ⟨hclean, rfl, (append_nil _).symm⟩
  | cons inst rest ih =>
    obtain ⟨herrs, hmiss, hrecov⟩ := ih _ hclean
    rw [foldl_cons, hmiss, hrecov, map_cons, sum_cons, ← add_assoc, flatMap_cons]
    rw [fetch] at herrs ⊢
    cases hans : history inst (recov.startFor inst) recov.endsAt with
    | error msg => simp [hans] at herrs
    | ok bars => simpa [answer, hhist, hans, Except.toOption] using herrs

/-- A recovery that succeeds has kept its count within the allowance, hands on the
bars of every answer, and succeeds with any allowance that covers the count. -/
theorem recover_spec (hok : recov.recover = .ok (handed, missing)) :
    recov.counted ≤ recov.maxMissingBars ∧
      (∀ bar, bar ∈ handed ↔ bar ∈ recov.replayed) ∧
      ∀ allowance, recov.counted ≤ allowance →
        { recov with maxMissingBars := allowance }.recover = .ok (handed, missing) := by
  rw [recover] at hok
  split at hok
  · cases hok
  next hsome =>
  split at hok
  · cases hok
  next history hhist =>
    dsimp only at hok
    split at hok
    · cases hok
    next hclean =>
      split at hok
      · cases hok
      next hbars =>
      split at hok
      · cases hok
      next hallow =>
        obtain ⟨-, hmiss, hrecov⟩ := foldl_fetch hhist _ _ (not_not.1 hclean)
        rw [zero_add, ← counted] at hmiss
        refine ⟨hmiss ▸ not_lt.1 hallow, fun bar ↦ ?_, fun allowance hcov ↦ ?_⟩
        · have hhanded : handed = (foldl (recov.fetch history) ⟨[], [], 0⟩
              recov.instruments).recovered.insertionSort
              fun first second ↦ first.epoch.getD 0 ≤ second.epoch.getD 0 := by
            split at hok
            · split at hok
              · cases hok
                rfl
              · split at hok
                · cases hok
                · cases hok
                  rfl
            · cases hok
              rfl
          rw [hhanded, mem_insertionSort, hrecov]
          rfl
        · rw [← hok, recover, if_neg hsome]
          split
          next hnone => cases hhist.symm.trans hnone
          next other hother =>
            obtain rfl := Option.some.inj (hhist.symm.trans hother)
            have hfetch : { recov with maxMissingBars := allowance }.fetch history =
                recov.fetch history := rfl
            rw [hfetch, if_neg hclean, if_neg hbars, if_neg (not_lt.2 (hmiss.trans_le hcov))]

/-- The slots of all instruments that are missing from what was fetched. -/
def missingSlots (recov : Recovery) (closed : Instrument → ℤ) : ℕ :=
  (recov.instruments.map fun inst ↦ recov.absent (closed inst)
    ((recov.answer inst).filterMap HistoryBar.epoch)).sum

/-- The finished slots behind the last bar of each answer. -/
def unseenSlots (recov : Recovery) (closed : Instrument → ℤ) : ℕ :=
  (recov.instruments.map fun inst ↦ recov.unseen (closed inst)
    (epochs (dedupe (recov.answer inst)))).sum

variable {inst : Instrument}

theorem absent_eq (hstep : 0 < recov.step) {since : ℤ} (hclose : recov.closedBar inst = some since)
    (hgrid : recov.OnGrid since ((recov.answer inst).filterMap HistoryBar.epoch)) :
    recov.absent since ((recov.answer inst).filterMap HistoryBar.epoch) =
      recov.missingBetween inst (dedupe (recov.answer inst)) +
        recov.unseen since (epochs (dedupe (recov.answer inst))) := by
  have hcard := card_absent hstep since 0 (epochs (dedupe (recov.answer inst)))
    pairwise_epochs fun epoch hepoch ↦ by
      obtain ⟨slot, rfl, hle⟩ := hgrid epoch (mem_epochs_dedupe.1 hepoch)
      refine ⟨slot, rfl, Nat.zero_le _, ?_⟩
      have hslot : (slot : ℤ) ≤ (recov.endsAt - since) / recov.step :=
        (Int.le_ediv_iff_mul_le hstep).2 (by linarith)
      rw [finished, gap]
      omega
  simp only [mem_epochs_dedupe, Nat.cast_zero, zero_mul, add_zero] at hcard
  rw [absent, hcard, missingBetween, anchor, hclose]
  rfl

/-- Where the answers lie on the grid of the timeframe, success proves continuity
for every allowance exactly if no finished slot lies behind the last bar of an
answer. -/
theorem continuity_iff (hstep : 0 < recov.step) {closed : Instrument → ℤ}
    (hshut : ∀ inst ∈ recov.instruments, recov.closedBar inst = some (closed inst))
    (hgrid : ∀ inst ∈ recov.instruments, recov.OnGrid (closed inst)
      ((recov.answer inst).filterMap HistoryBar.epoch))
    {handed : List HistoryBar} {missing : ℕ} (hok : recov.recover = .ok (handed, missing)) :
    (∀ allowance res, { recov with maxMissingBars := allowance }.recover = .ok res →
      recov.missingSlots closed ≤ allowance) ↔ recov.unseenSlots closed = 0 := by
  have hslots : recov.missingSlots closed = recov.counted + recov.unseenSlots closed := by
    rw [missingSlots, counted, unseenSlots, ← sum_map_add, map_congr_left
      fun inst hinst ↦ absent_eq hstep (hshut inst hinst) (hgrid inst hinst)]
  rw [hslots]
  constructor
  · intro hproved
    have hown := hproved recov.counted _ ((recover_spec hok).2.2 _ le_rfl)
    omega
  · intro hseen allowance res hperm
    rw [hseen]
    exact (recover_spec hperm).1

def sample (bars : List ℤ) : Recovery where
  instruments := [⟨"NSE:EQUITY:INFY"⟩]
  history := some fun inst _ _ ↦
    .ok (bars.map fun epoch ↦ ⟨inst.instrumentId, "1m", some (.aware epoch)⟩)
  onHistory := none
  closedBar := fun _ ↦ some 0
  lastEventAt := some 30
  endsAt := 240
  lookback := 3600
  step := 60
  maxMissingBars := 1

theorem continuity_sample : (sample [120, 180]).missingSlots (fun _ ↦ 0) ≤ 1 := by
  have hgrid : ∀ inst ∈ (sample [120, 180]).instruments, (sample [120, 180]).OnGrid 0
      (((sample [120, 180]).answer inst).filterMap HistoryBar.epoch) := by
    intro inst _ epoch hepoch
    rcases mem_pair.1 hepoch with rfl | rfl
    · exact ⟨2, by decide, by decide⟩
    · exact ⟨3, by decide, by decide⟩
  exact (continuity_iff (by decide) (fun _ _ ↦ rfl) hgrid rfl).2 (by decide) 1 _ rfl

/-- An empty answer counts no missing slot, and the recovery succeeds with three
of them against an allowance of one. -/
theorem recovered_without_bars :
    (sample []).recover = .ok ([], 0) ∧ (sample []).missingSlots (fun _ ↦ 0) = 3 := by
  decide

/-- A stored one-minute bar, stamped with the wall clock of the exchange. -/
structure StoredBar where
  symbol : String
  wall : ℤ
deriving DecidableEq

def marketSession (wall : ℤ) : Bool :=
  (wall / dayWall + epochWeekday) % 7 < 5 && marketOpenWall ≤ wall % dayWall &&
    wall % dayWall ≤ 15 * 3600 + 30 * 60

/-- The stored bars of the lake; its writer drops what is outside the session. -/
structure Datalake where
  symbolOf : Instrument → String
  bars : List StoredBar
  inSession : ∀ bar ∈ bars, marketSession bar.wall

namespace Datalake

variable (lake : Datalake)

/-- `ParquetStorage.read`: a bound with a zone loses the zone and keeps its
reading, so an instant is compared as if it were a wall clock. -/
def read (symbol : String) (start endsAt : ℤ) : List StoredBar :=
  (lake.bars.filter fun bar ↦ bar.symbol = symbol ∧ start ≤ bar.wall ∧ bar.wall ≤ endsAt ∧
    marketSession bar.wall).insertionSort fun first second ↦ first.wall ≤ second.wall

def candle (inst : Instrument) (bar : StoredBar) : HistoryBar :=
  ⟨inst.instrumentId, "1m", some (.naive bar.wall)⟩

def fetchBars (inst : Instrument) (start endsAt : ℤ) : Except String (List HistoryBar) :=
  .ok ((lake.read (lake.symbolOf inst) start endsAt).map (candle inst))

/-- The bars handed on are the stored bars whose instants lie in the outage, and
each has the epoch of its instant. -/
def Replayed (recov : Recovery) (since : ℤ) (handed : List HistoryBar) : Prop :=
  (∀ inst ∈ recov.instruments, ∀ bar ∈ lake.bars, bar.symbol = lake.symbolOf inst →
    (candle inst bar ∈ handed ↔
      since ≤ chartTime bar.wall ∧ chartTime bar.wall ≤ recov.endsAt)) ∧
  ∀ bar ∈ handed, ∀ wall, bar.stamp = some (.naive wall) → bar.epoch = some (chartTime wall)

end Datalake

variable {lake : Datalake} {since : ℤ}

theorem dedupe_candles {bars : List StoredBar} :
    bar ∈ dedupe (bars.map (Datalake.candle inst)) ↔ bar ∈ bars.map (Datalake.candle inst) := by
  refine ⟨mem_of_mem_dedupe, fun hbar ↦ ?_⟩
  obtain ⟨stored, -, rfl⟩ := mem_map.1 hbar
  have hkey := keys_dedupe.2 ⟨mem_map_of_mem hbar, rfl⟩
  obtain ⟨other, hother, hsame⟩ := mem_map.1 hkey
  -- Stamps without a zone that give one epoch are equal, so the bar that was kept is this one.
  obtain ⟨found, -, rfl⟩ := mem_map.1 (mem_of_mem_dedupe hother)
  have hwall : found.wall = stored.wall := by
    simpa [HistoryBar.key, HistoryBar.epoch, Datalake.candle] using hsame
  rwa [Datalake.candle, hwall] at hother

theorem mem_handed_iff (hlake : recov.history = some lake.fetchBars)
    (hclose : ∀ inst ∈ recov.instruments, recov.closedBar inst = none)
    (hev : recov.lastEventAt = some since)
    (hok : recov.recover = .ok (handed, missing)) (bar : HistoryBar) :
    bar ∈ handed ↔ ∃ inst ∈ recov.instruments, ∃ stored ∈ lake.bars,
      stored.symbol = lake.symbolOf inst ∧ since ≤ stored.wall ∧ stored.wall ≤ recov.endsAt ∧
        Datalake.candle inst stored = bar := by
  rw [(recover_spec hok).2.1, replayed, mem_flatMap]
  refine exists_congr fun inst ↦ and_congr_right fun hinst ↦ ?_
  have hans : recov.answer inst =
      (lake.read (lake.symbolOf inst) since recov.endsAt).map (Datalake.candle inst) := by
    simp [answer, hlake, startFor, hclose inst hinst, hev, Datalake.fetchBars, Except.toOption]
  rw [hans, dedupe_candles, mem_map]
  simp only [Datalake.read, mem_insertionSort]
  grind [lake.inSession]

/-- Recovery replays exactly the missed bars only when no stored bar falls in the gap on either
clock. -/
theorem replayed_iff (hlake : recov.history = some lake.fetchBars)
    (hshut : ∀ inst ∈ recov.instruments, recov.closedBar inst = none)
    (hevent : recov.lastEventAt = some since) {handed : List HistoryBar} {missing : ℕ}
    (hok : recov.recover = .ok (handed, missing)) :
    lake.Replayed recov since handed ↔
      ∀ inst ∈ recov.instruments, ∀ bar ∈ lake.bars, bar.symbol = lake.symbolOf inst →
        ¬(since ≤ bar.wall ∧ bar.wall ≤ recov.endsAt) ∧
          ¬(since ≤ chartTime bar.wall ∧ chartTime bar.wall ≤ recov.endsAt) := by
  have hhanded := mem_handed_iff hlake hshut hevent hok
  constructor
  · rintro ⟨hexact, hepoch⟩ inst hinst bar hbar hsym
    have hnot : Datalake.candle inst bar ∉ handed := by
      intro hmem
      have hwrong := hepoch _ hmem bar.wall rfl
      simp only [HistoryBar.epoch, Datalake.candle, Option.map_some, Option.some.injEq, chartTime,
        istOffset] at hwrong
      omega
    refine ⟨fun hin ↦ hnot ((hhanded _).2 ⟨inst, hinst, bar, hbar, hsym, hin.1, hin.2, rfl⟩), ?_⟩
    rwa [← hexact inst hinst bar hbar hsym]
  · intro hnone
    have hempty : ∀ bar, bar ∉ handed := by
      intro bar hmem
      obtain ⟨inst, hinst, stored, hstored, hsym, hlow, hhigh, -⟩ := (hhanded bar).1 hmem
      exact (hnone inst hinst stored hstored hsym).1 ⟨hlow, hhigh⟩
    exact ⟨fun inst hinst bar hbar hsym ↦
      iff_of_false (hempty _) (hnone inst hinst bar hbar hsym).2,
      fun bar hbar ↦ absurd hbar (hempty bar)⟩

/-- One bar of 09:15 at the exchange, which is 03:45 UTC. -/
def sampleLake : Datalake where
  symbolOf := Instrument.instrumentId
  bars := [⟨"NSE:EQUITY:INFY", 33300⟩]
  inSession := by decide

def lakeRecovery (since endsAt : ℤ) : Recovery :=
  { sample [] with
    history := some sampleLake.fetchBars
    closedBar := fun _ ↦ none
    lastEventAt := some since
    endsAt }

theorem replayed_empty_window : sampleLake.Replayed (lakeRecovery 40000 40060) 40000 [] :=
  have hok : (lakeRecovery 40000 40060).recover = .ok ([], 0) := by decide
  (replayed_iff rfl (fun _ _ ↦ rfl) rfl hok).2 (by decide)

/-- The outage from 03:44 to 03:47 UTC holds the bar of 09:15, and none is handed
on. -/
theorem outage_bar_not_replayed :
    (lakeRecovery 13440 13620).recover = .ok ([], 0) ∧
      ¬sampleLake.Replayed (lakeRecovery 13440 13620) 13440 [] := by
  refine ⟨by decide, fun hreplayed ↦ ?_⟩
  have hbar := (hreplayed.1 ⟨"NSE:EQUITY:INFY"⟩ (by decide) ⟨"NSE:EQUITY:INFY", 33300⟩ (by decide)
    rfl).2 (by decide)
  cases hbar

end Recovery

end Tradex.Runtime

import Tradex.Execution.StrategyAttribution
import Tradex.Foundation.Outcome

/-!
# Marks and unrealized profit

Marking rounds the profit at the kept average. A split rounds it at the exact quotient
and keeps the rounded one, so the two agree if the average divides into whole paise.
-/

namespace Tradex.Execution.MarkConsistency

open Tradex.Domain StrategyAttribution PositionAccountant

def MarkMatches (pos : Position) : Prop :=
  ∀ mark, pos.markPrice = some mark → pos.unrealizedPnl.amount.toRat =
    (q2 ((mark.value - pos.avgPrice.value) * pos.quantity)).toRat

def MarksMatch (cache : TradingCache) : Prop :=
  ∀ instr pos, cache.getPosition instr = some pos → MarkMatches pos

def SplitsEvenly (cache : TradingCache) : BookOp → Prop
  | .onCorporateAction instr kind (some ratio) _ =>
    kind = .split ∨ kind = .bonus → ∀ held, cache.getPosition instr = some held →
      held.markPrice.isSome → Decimal.IsCents (held.avgPrice.value.toRat / ratio.toRat)
  | _ => True

section

variable {held adjusted : Position} {quote : Quote}

theorem markMatches_applyFill (pos : Option Position) (fill : Fill) :
    MarkMatches (applyFill pos fill) := by
  intro mark hmark
  cases pos <;> cases hmark

theorem markMatches_markedPosition {price : Price} {source : String} :
    MarkMatches (markedPosition held quote price source) := by
  rintro mark ⟨⟩
  rfl

theorem markMatches_remarkUnlocked (hheld : MarkMatches held) :
    MarkMatches (remarkUnlocked held quote) := by
  unfold remarkUnlocked
  split
  · exact hheld
  · split
    · exact hheld
    · exact markMatches_markedPosition

theorem markMatches_applySplit (hheld : MarkMatches held) {ratio : Decimal}
    (heven : held.markPrice.isSome → Decimal.IsCents (held.avgPrice.value.toRat / ratio.toRat))
    (hsplit : applySplit held ratio = .ok adjusted) : MarkMatches adjusted := by
  unfold applySplit at hsplit
  split at hsplit
  · split at hsplit
    · cases hsplit
      exact hheld
    · cases hsplit
      intro mark hmark
      obtain ⟨before, hpre, rfl⟩ := Option.map_eq_some_iff.1 hmark
      -- the kept average is the exact quotient, so both figures round the same number
      have hkept := Decimal.toRat_roundCents_of_isCents (heven (by simp [hpre]))
      simp [hpre, q2, Price.dividedBy, Price.q2, hkept, mul_assoc]
  · cases hsplit

theorem markMatches_corporateAction {kind : CorporateActionKind} {ratio perShare : Option Decimal}
    (hheld : MarkMatches held)
    (heven : ∀ split, ratio = some split → kind = .split ∨ kind = .bonus → held.markPrice.isSome →
      Decimal.IsCents (held.avgPrice.value.toRat / split.toRat))
    (hact : corporateActionPosition held kind ratio perShare = .ok adjusted) :
    MarkMatches adjusted := by
  unfold corporateActionPosition at hact
  split at hact
  · cases hact
  · cases hact
  · exact markMatches_applySplit hheld (heven _ rfl (.inl rfl)) hact
  · exact markMatches_applySplit hheld (heven _ rfl (.inr rfl)) hact
  · cases hact
  · cases hact
    exact hheld
  · cases hact

end

variable {cache : TradingCache}

theorem MarksMatch.updatePosition (hcache : MarksMatch cache) {pos : Position}
    (hpos : MarkMatches pos) : MarksMatch (cache.updatePosition pos) := by
  intro instr held hheld
  rw [TradingCache.getPosition_updatePosition] at hheld
  split at hheld
  · cases hheld
    exact hpos
  · exact hcache instr held hheld

theorem MarksMatch.apply (hcache : MarksMatch cache) {op : BookOp}
    (heven : SplitsEvenly cache op) : MarksMatch (op.apply cache) := by
  cases op with
  | onFill fill => exact hcache.updatePosition (markMatches_applyFill _ fill)
  | fillWithRemark fill quote =>
    apply hcache.updatePosition
    have hfill := markMatches_applyFill (cache.getPosition fill.instrument) fill
    cases quote with
    | none => exact hfill
    | some quote =>
      dsimp only
      split
      · exact markMatches_remarkUnlocked hfill
      · exact hfill
  | onFee fill fee =>
    rw [BookOp.apply, onFee]
    split
    · exact hcache
    next held hheld => exact hcache.updatePosition (hcache _ held hheld)
  | remark quote =>
    rw [BookOp.apply, remark]
    split
    · exact hcache
    next held hheld =>
      split
      · exact hcache
      · exact hcache.updatePosition (markMatches_remarkUnlocked (hcache _ held hheld))
  | onCorporateAction instr kind ratio perShare =>
    rw [BookOp.apply, onCorporateAction]
    cases hheld : cache.getPosition instr with
    | none => exact hcache
    | some held =>
      dsimp only
      cases hact : corporateActionPosition held kind ratio perShare with
      | error err => exact hcache
      | ok adjusted =>
        apply hcache.updatePosition
        refine markMatches_corporateAction (hcache _ held hheld) ?_ hact
        rintro split rfl hkind hmark
        exact heven hkind held hheld hmark
  | onQuote quote =>
    rw [BookOp.apply, MarkToMarketService.onQuote]
    split
    · exact hcache
    · dsimp only
      split
      · exact hcache
      · split
        · exact hcache
        · split
          · exact hcache
          · split
            · exact hcache
            · exact MarksMatch.updatePosition hcache (markMatches_markedPosition)

theorem MarksMatch.run (hcache : MarksMatch cache) {ops : List BookOp}
    (heven : Along BookOp.apply SplitsEvenly cache ops) : MarksMatch (runOps cache ops) := by
  induction ops generalizing cache with
  | nil => exact hcache
  | cons op rest ih => exact ih (hcache.apply heven.1) heven.2

/-- Unrealised profit matches mark and average after any operations whose splits divide the average
evenly. -/
theorem marks_match_of_even_splits (ops : List BookOp)
    (heven : Along BookOp.apply SplitsEvenly .empty ops) : MarksMatch (runOps .empty ops) :=
  MarksMatch.run (fun _ _ hheld ↦ by cases hheld) heven

def purchase : Fill := { sampleOpening with quantity := 1000 }

def quoteAtCost : Quote where
  instrument := purchase.instrument
  ltp := .ofNat 100
  timestamp := 0

/-- One becomes `ratio` after a thousand were bought at a hundred and marked there. -/
def splitAfterMark (ratio : Decimal) : List BookOp :=
  [.onFill purchase, .onQuote quoteAtCost,
    .onCorporateAction purchase.instrument .split (some ratio) none]

theorem marks_match_after_halving : MarksMatch (runOps .empty (splitAfterMark 2)) := by
  refine marks_match_of_even_splits (splitAfterMark 2) ⟨trivial, trivial, ?_, trivial⟩
  intro _ held hheld _
  have haverage : ((runOps .empty [.onFill purchase, .onQuote quoteAtCost]).getPosition
      purchase.instrument).map (fun held ↦ held.avgPrice.value.toRat / (2 : Decimal).toRat) =
        some 50 := by
    decide +kernel
  have hheld : (runOps .empty [.onFill purchase, .onQuote quoteAtCost]).getPosition
      purchase.instrument = some held := hheld
  rw [hheld] at haverage
  exact ⟨5000, (Option.some_inj.1 haverage).trans (by norm_num)⟩

/-- Three for one leaves 3000 at 33.33 with the mark at 33.33 and a loss of ten. -/
theorem unmatched_after_split : ¬ MarksMatch (runOps .empty (splitAfterMark 3)) := by
  intro hmatch
  have hfigures : ((runOps .empty (splitAfterMark 3)).getPosition purchase.instrument).map
      (fun held ↦ (held.markPrice.map fun mark ↦
        (q2 ((mark.value - held.avgPrice.value) * held.quantity)).toRat,
        held.unrealizedPnl.amount.toRat)) = some (some 0, -10) := by
    decide +kernel
  obtain ⟨held, hheld, hpair⟩ := Option.map_eq_some_iff.1 hfigures
  obtain ⟨hmark, hunrealized⟩ := Prod.mk.inj hpair
  obtain ⟨mark, hmarked, hproduct⟩ := Option.map_eq_some_iff.1 hmark
  have hsame := hmatch _ held hheld mark hmarked
  rw [hproduct, hunrealized] at hsame
  norm_num at hsame

end Tradex.Execution.MarkConsistency

import Tradex.Execution.PositionAccountant

/-!
# Strategy attribution of a position

A position is attributed to the strategy of the fill that opened it. A fee deduction
and a re-mark rebuild the position without it, so the attribution is lost at the first
of these that takes effect.
-/

namespace Tradex.Execution.StrategyAttribution

open Tradex.Domain PositionAccountant MarkToMarketService

inductive BookOp where
  | onFill (fill : Fill)
  | fillWithRemark (fill : Fill) (quote : Option Quote)
  | onFee (fill : Fill) (fee : Money)
  | remark (quote : Quote)
  | onCorporateAction (instrument : Instrument) (kind : CorporateActionKind)
      (ratio perShare : Option Decimal)
  | onQuote (quote : Quote)

def BookOp.instrument : BookOp → Instrument
  | .onFill fill => fill.instrument
  | .fillWithRemark fill _ => fill.instrument
  | .onFee fill _ => fill.instrument
  | .remark quote => quote.instrument
  | .onCorporateAction instr _ _ _ => instr
  | .onQuote quote => quote.instrument

variable (cache : TradingCache)

def BookOp.apply : BookOp → TradingCache
  | .onFill fill => (PositionAccountant.onFill cache fill).2
  | .fillWithRemark fill quote => (PositionAccountant.fillWithRemark cache fill quote).2
  | .onFee fill fee => (PositionAccountant.onFee cache fill fee).2
  | .remark quote => (PositionAccountant.remark cache quote).2
  | .onCorporateAction instr kind ratio perShare =>
    match PositionAccountant.onCorporateAction cache instr kind ratio perShare with
    | .ok (_, updated) => updated
    | .error _ => cache
  | .onQuote quote => (MarkToMarketService.onQuote cache quote).2

variable (pos : Position)

def marks (quote : Quote) : Bool :=
  (selectMark pos quote).isSome && !isStaleFor pos quote

def BookOp.dropsStrategy (held : Position) : BookOp → Bool
  | .onFill _ => false
  | .fillWithRemark _ none => false
  | .fillWithRemark fill (some quote) => (selectMark (applyFill (some held) fill) quote).isSome
  | .onFee _ _ => true
  | .remark quote => marks held quote
  | .onCorporateAction _ _ _ _ => false
  | .onQuote quote => !MarkToMarketService.isOutdated cache quote && marks held quote

def runOps (ops : List BookOp) : TradingCache :=
  ops.foldl BookOp.apply cache

def dropsDuring (instr : Instrument) (cache : TradingCache) : List BookOp → Bool
  | [] => false
  | op :: rest =>
    ((cache.getPosition instr).elim false fun held ↦ op.dropsStrategy cache held) ||
      dropsDuring instr (op.apply cache) rest

theorem selectMark_eq_none_of_flat {pos : Position} (hflat : pos.quantity.toRat = 0)
    (quote : Quote) : selectMark pos quote = none := by
  simp [selectMark, Decimal.lt_iff, hflat]

theorem strategyId_remarkUnlocked (quote : Quote) :
    (remarkUnlocked pos quote).strategyId =
      if marks pos quote then none else pos.strategyId := by
  unfold remarkUnlocked marks
  cases selectMark pos quote with
  | none => simp
  | some selected => cases isStaleFor pos quote <;> simp [markedPosition]

theorem instrument_remarkUnlocked (quote : Quote) :
    (remarkUnlocked pos quote).instrument = pos.instrument := by
  unfold remarkUnlocked
  cases selectMark pos quote with
  | none => rfl
  | some selected => cases isStaleFor pos quote <;> rfl

def Attributed (instr : Instrument) (strat : Option String) : Prop :=
  ∃ held, cache.getPosition instr = some held ∧ held.instrument = instr ∧
    held.strategyId = strat

theorem attributed_updatePosition :
    Attributed (cache.updatePosition pos) pos.instrument pos.strategyId :=
  ⟨pos, Dict.get_set_self, rfl, rfl⟩

variable {cache : TradingCache} {instr : Instrument}

theorem attributed_of_held {held : Position} (hheld : cache.getPosition instr = some held)
    (hkey : held.instrument = instr) : Attributed cache instr held.strategyId :=
  ⟨held, hheld, hkey, rfl⟩

section Operations

variable {held : Position} {fill : Fill} {kind : CorporateActionKind}
  {ratio perShare : Option Decimal} (hheld : cache.getPosition fill.instrument = some held)

include hheld in
theorem attributed_onFill : Attributed (onFill cache fill).2 fill.instrument held.strategyId := by
  have hstore := attributed_updatePosition cache (applyFill (some held) fill)
  simpa only [onFill, hheld, instrument_applyFill, strategyId_applyFill,
    Option.elim_some] using hstore

variable {quote : Quote}

include hheld in
theorem attributed_fillWithRemark :
    Attributed (fillWithRemark cache fill (some quote)).2 fill.instrument
      (if (selectMark (applyFill (some held) fill) quote).isSome then none
        else held.strategyId) := by
  have hmarks : marks (applyFill (some held) fill) quote =
      (selectMark (applyFill (some held) fill) quote).isSome := by
    simp [marks, isStaleFor]
  have hstore := attributed_updatePosition cache (remarkUnlocked (applyFill (some held) fill) quote)
  rw [instrument_remarkUnlocked, strategyId_remarkUnlocked, hmarks, strategyId_applyFill] at hstore
  by_cases hflat : (applyFill (some held) fill).quantity.toRat = 0
  · have hnone := selectMark_eq_none_of_flat hflat quote
    simpa [fillWithRemark, hheld, hnone, remarkUnlocked] using hstore
  · simpa [fillWithRemark, hheld, hflat] using hstore

include hheld in
theorem attributed_onFee {fee : Money} (hkey : held.instrument = fill.instrument) :
    Attributed (onFee cache fill fee).2 fill.instrument none := by
  have hstore : Attributed (cache.updatePosition (feeDeducted held fee))
      held.instrument none := attributed_updatePosition cache _
  rw [hkey] at hstore
  simpa only [onFee, hheld] using hstore

theorem attributed_remark (hheld : cache.getPosition quote.instrument = some held)
    (hkey : held.instrument = quote.instrument) :
    Attributed (remark cache quote).2 quote.instrument
      (if marks held quote then none else held.strategyId) := by
  by_cases hflat : held.quantity.toRat = 0
  · have hunm : marks held quote = false := by simp [marks, selectMark_eq_none_of_flat hflat]
    simpa [remark, hheld, hflat, hunm] using attributed_of_held hheld hkey
  · have hstore := attributed_updatePosition cache (remarkUnlocked held quote)
    rw [instrument_remarkUnlocked, strategyId_remarkUnlocked, hkey] at hstore
    simpa only [remark, hheld, if_neg hflat] using hstore

theorem strategyId_corporateActionPosition {adjusted : Position}
    (hok : corporateActionPosition held kind ratio perShare = .ok adjusted) :
    adjusted.strategyId = held.strategyId ∧ adjusted.instrument = held.instrument := by
  unfold corporateActionPosition at hok
  split at hok
  · cases hok
  · cases hok
  · exact (fields_of_applySplit hok).imp_right And.left
  · exact (fields_of_applySplit hok).imp_right And.left
  · cases hok
  · cases hok
    exact ⟨rfl, rfl⟩
  · cases hok

theorem attributed_onCorporateAction {instr : Instrument}
    (hheld : cache.getPosition instr = some held) (hkey : held.instrument = instr) :
    Attributed ((BookOp.onCorporateAction instr kind ratio perShare).apply cache) instr
      held.strategyId := by
  cases hact : corporateActionPosition held kind ratio perShare with
  | error err =>
    simpa [BookOp.apply, onCorporateAction, hheld, hact, Except.map] using
      attributed_of_held hheld hkey
  | ok adjusted =>
    obtain ⟨hstrat, hinstr⟩ := strategyId_corporateActionPosition hact
    have hstore := attributed_updatePosition cache adjusted
    rw [hinstr, hstrat, hkey] at hstore
    simpa [BookOp.apply, onCorporateAction, hheld, hact, Except.map] using hstore

theorem attributed_onQuote (hheld : cache.getPosition quote.instrument = some held)
    (hkey : held.instrument = quote.instrument) :
    Attributed (onQuote cache quote).2 quote.instrument
      (if !isOutdated cache quote && marks held quote then none
        else held.strategyId) := by
  have hkept : ∀ other : TradingCache, other.getPosition quote.instrument = some held →
      Attributed other quote.instrument held.strategyId :=
    fun other hother ↦ attributed_of_held hother hkey
  have hquote : (cache.updateQuote quote).getPosition quote.instrument = some held := hheld
  unfold onQuote
  cases houtdated : isOutdated cache quote with
  | true => simpa using hkept cache hheld
  | false =>
    by_cases hflat : held.quantity.toRat = 0
    · simpa [hheld, marks, selectMark_eq_none_of_flat hflat] using hkept _ hquote
    · cases hselected : selectMark held quote with
      | none => simpa [hheld, hselected, marks] using hkept _ hquote
      | some selected =>
        cases hstale : isStaleFor held quote with
        | true => simpa [hheld, hselected, hstale, marks] using hkept _ hquote
        | false =>
          have hstore := attributed_updatePosition (cache.updateQuote quote)
            (markedPosition held quote selected.1 selected.2)
          simpa [hheld, hflat, hselected, hstale, marks, markedPosition, hkey] using hstore

end Operations

theorem attributed_apply {held : Position} {op : BookOp}
    (hheld : cache.getPosition op.instrument = some held) (hkey : held.instrument = op.instrument) :
    Attributed (op.apply cache) op.instrument
      (if op.dropsStrategy cache held then none else held.strategyId) := by
  cases op with
  | onFill fill => exact attributed_onFill hheld
  | fillWithRemark fill quote =>
    cases quote with
    | none => exact attributed_onFill hheld
    | some quote => exact attributed_fillWithRemark hheld
  | onFee fill fee => exact attributed_onFee hheld hkey
  | remark quote => exact attributed_remark hheld hkey
  | onCorporateAction instr kind ratio perShare => exact attributed_onCorporateAction hheld hkey
  | onQuote quote => exact attributed_onQuote hheld hkey

theorem attributed_runOps {strat : Option String} {ops : List BookOp}
    (hops : ∀ op ∈ ops, op.instrument = instr)
    (hstart : Attributed cache instr strat) :
    Attributed (runOps cache ops) instr (if dropsDuring instr cache ops then none else strat) := by
  induction ops generalizing cache strat with
  | nil => simpa [runOps, dropsDuring] using hstart
  | cons op rest ih =>
    obtain ⟨held, hheld, hkey, rfl⟩ := hstart
    have hop : op.instrument = instr := hops op List.mem_cons_self
    have hafter : Attributed (op.apply cache) instr
        (if op.dropsStrategy cache held then none else held.strategyId) := by
      subst hop
      exact attributed_apply hheld hkey
    have hrest := ih (fun other hother ↦ hops other (List.mem_cons_of_mem _ hother)) hafter
    simp only [runOps, dropsDuring, hheld] at hrest ⊢
    cases hdrop : op.dropsStrategy cache held <;> simpa [hdrop] using hrest

def openedFor (cache : TradingCache) (opening : Fill) : Option String :=
  (cache.getPosition opening.instrument).elim opening.strategyId Position.strategyId

/-- A position keeps the strategy of its opening fill until a fee or a re-mark rebuilds it, which
drops the id. -/
theorem strategyId_survives_iff (cache : TradingCache) (opening : Fill) (ops : List BookOp)
    (hops : ∀ op ∈ ops, op.instrument = opening.instrument) :
    ((runOps (PositionAccountant.onFill cache opening).2 ops).getPosition
        opening.instrument).map Position.strategyId = some opening.strategyId ↔
      if dropsDuring opening.instrument (PositionAccountant.onFill cache opening).2 ops then
        opening.strategyId = none
      else openedFor cache opening = opening.strategyId := by
  have hopened : Attributed (onFill cache opening).2 opening.instrument
      (openedFor cache opening) := by
    have hstored := attributed_updatePosition cache
      (applyFill (cache.getPosition opening.instrument) opening)
    simpa only [onFill, instrument_applyFill, strategyId_applyFill, openedFor] using hstored
  obtain ⟨held, hheld, -, hstrategy⟩ := attributed_runOps hops hopened
  rw [hheld, Option.map_some, hstrategy]
  cases dropsDuring opening.instrument (onFill cache opening).2 ops with
  | false => simp
  | true => simp [eq_comm]

def sampleOpening : Fill where
  orderId := "ord-1"
  instrument := ⟨"NSE:RELIANCE"⟩
  side := .buy
  quantity := 10
  price := .ofNat 100
  strategyId := some "momentum"

theorem strategyId_survives_second_fill :
    ((runOps (PositionAccountant.onFill .empty sampleOpening).2
        [.onFill sampleOpening]).getPosition sampleOpening.instrument).map Position.strategyId =
      some (some "momentum") :=
  (strategyId_survives_iff .empty sampleOpening [.onFill sampleOpening]
    (by simp [BookOp.instrument])).2 (by decide +kernel)

theorem strategyId_lost_after_fee :
    ((runOps (PositionAccountant.onFill .empty sampleOpening).2
        [.onFee sampleOpening { amount := 5 }]).getPosition sampleOpening.instrument).map
      (fun held ↦ (held.quantity, held.strategyId)) = some (10, none) ∧
    sampleOpening.strategyId = some "momentum" := by
  decide +kernel

end Tradex.Execution.StrategyAttribution

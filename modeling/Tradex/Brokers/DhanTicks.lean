import Tradex.Domain.InstrumentRegistry

/-!
# Binary ticks of the Dhan market feed

A frame carries the code of an exchange segment and a security id that is unique within the segment
only. The backend caches instruments by the bare id, so the first frame of an id decides for all
later ones.
-/

namespace Tradex.Brokers.DhanTicks

open Tradex.Domain List

inductive MessageType where
  | ticker
  | quote
  | openInterest
  | prevClose
  | full
  | disconnect
deriving DecidableEq

def msgTypes : UInt8 → Option MessageType
  | 2 => some .ticker
  | 4 => some .quote
  | 5 => some .openInterest
  | 6 => some .prevClose
  | 8 => some .full
  | 50 => some .disconnect
  | _ => none

def MessageType.size : MessageType → ℕ
  | .ticker => 16
  | .quote => 50
  | .openInterest => 12
  | .prevClose => 16
  | .full => 162
  | .disconnect => 10

def MessageType.hasLastPrice : MessageType → Bool
  | .ticker | .quote | .full => true
  | _ => false

structure TickRow where
  messageType : MessageType
  exchangeSegment : ℕ
  securityId : ℕ
  payload : List UInt8
deriving DecidableEq

def littleEndian (bytes : List UInt8) : ℕ :=
  bytes.foldr (fun byte rest ↦ byte.toNat + 256 * rest) 0

def parseTickFrame (raw : List UInt8) : Option TickRow :=
  (raw.head?.bind msgTypes).bind fun messageType ↦
    if raw.length < messageType.size then none
    else some
      { messageType := messageType
        exchangeSegment := (raw.getD 3 0).toNat
        securityId := littleEndian ((raw.drop 4).take 4)
        payload := (raw.take messageType.size).drop 8 }

def segmentExchange : ℕ → Option String
  | 0 => some "IDX"
  | 1 => some "NSE"
  | 2 => some "NFO"
  | 3 => some "CDS"
  | 4 => some "BSE"
  | 5 => some "MCX"
  | 7 => some "BCD"
  | 8 => some "BFO"
  | _ => none

structure MarketBackend where
  instrumentCache : Dict ℕ InstrumentId := .empty
  quotes : List (InstrumentId × TickRow) := []

variable (upper : String → String) (reg : InstrumentRegistry) (row : TickRow)

def registered : Option InstrumentId :=
  (segmentExchange row.exchangeSegment).bind fun exchange ↦
    reg.resolve upper (exchange ++ ":" ++ toString row.securityId)

def cachedInstrument (backend : MarketBackend) : Option InstrumentId × MarketBackend :=
  match backend.instrumentCache.get row.securityId with
  | some instr => (some instr, backend)
  | none =>
    match reg.resolve upper (toString row.securityId) <|> registered upper reg row with
    | none => (none, backend)
    | some instr =>
      (some instr, { backend with
        instrumentCache := backend.instrumentCache.set row.securityId instr })

def dispatchRow (backend : MarketBackend) : MarketBackend :=
  if row.messageType.hasLastPrice then
    match cachedInstrument upper reg row backend with
    | (none, after) => after
    | (some instr, after) => { after with quotes := after.quotes ++ [(instr, row)] }
  else backend

def feedRaw (backend : MarketBackend) (raw : List UInt8) : MarketBackend :=
  match parseTickFrame raw with
  | none => backend
  | some row => dispatchRow upper reg row backend

structure Routed (rows : List TickRow) (backend : MarketBackend) : Prop where
  cached : ∀ securityId instrument, backend.instrumentCache.get securityId = some instrument →
    ∃ row ∈ rows, row.securityId = securityId ∧ registered upper reg row = some instrument
  dispatched : ∀ quote ∈ backend.quotes, registered upper reg quote.2 = some quote.1

variable {upper reg} {rows : List TickRow} {backend : MarketBackend}

theorem routed_dispatchRow (hrte : Routed upper reg rows backend) {row : TickRow}
    (hbare : reg.resolve upper (toString row.securityId) = none)
    (hsegment : ∀ prior ∈ rows, prior.securityId = row.securityId →
      prior.exchangeSegment = row.exchangeSegment) :
    Routed upper reg (rows ++ [row]) (dispatchRow upper reg row backend) := by
  have hkept : ∀ securityId instr,
      backend.instrumentCache.get securityId = some instr → ∃ prior ∈ rows ++ [row],
        prior.securityId = securityId ∧ registered upper reg prior = some instr := by
    intro securityId instr hget
    obtain ⟨prior, hmem, hprior⟩ := hrte.cached securityId instr hget
    exact ⟨prior, mem_append_left _ hmem, hprior⟩
  have hquotes : ∀ instr, registered upper reg row = some instr →
      ∀ quote ∈ backend.quotes ++ [(instr, row)], registered upper reg quote.2 = some quote.1 := by
    intro instr hreg quote hmem
    rcases mem_append.1 hmem with hmem | hmem
    · exact hrte.dispatched quote hmem
    · rw [mem_singleton.1 hmem]
      exact hreg
  unfold dispatchRow cachedInstrument
  split
  next =>
    rw [hbare]
    cases hget : backend.instrumentCache.get row.securityId with
    | some instr =>
      -- The cached instrument was registered for an earlier row of the same segment.
      obtain ⟨prior, hmem, hid, hprior⟩ := hrte.cached _ _ hget
      refine ⟨hkept, hquotes instr ?_⟩
      rw [registered, hsegment prior hmem hid, hid] at hprior
      exact hprior
    | none =>
      cases hreg : registered upper reg row with
      | none => exact ⟨hkept, hrte.dispatched⟩
      | some instr =>
        refine ⟨fun securityId found hfind ↦ ?_, hquotes instr hreg⟩
        rcases eq_or_ne row.securityId securityId with rfl | hne
        · refine ⟨row, by simp, rfl, ?_⟩
          rw [← hfind]
          simpa using hreg
        · exact hkept securityId found ((Dict.get_set_of_ne hne).symm.trans hfind)
  next => exact ⟨hkept, hrte.dispatched⟩

/-- Every quote of a feed reaches the instrument registered for its id and segment, if ids are not
shared. -/
theorem ticks_reach_registered_instrument (upper : String → String) (reg : InstrumentRegistry)
    (frames : List (List UInt8))
    (hbare : ∀ row ∈ frames.filterMap parseTickFrame,
      reg.resolve upper (toString row.securityId) = none)
    (hsegment : (frames.filterMap parseTickFrame).Pairwise fun prior later ↦
      prior.securityId = later.securityId → prior.exchangeSegment = later.exchangeSegment) :
    ∀ quote ∈ (frames.foldl (feedRaw upper reg) {}).quotes,
      registered upper reg quote.2 = some quote.1 := by
  suffices hrte : Routed upper reg (frames.filterMap parseTickFrame)
      (frames.foldl (feedRaw upper reg) {}) from hrte.dispatched
  induction frames using reverseRecOn with
  | nil => exact ⟨by simp, by simp⟩
  | append_singleton frames raw ih =>
    rw [foldl_append, foldl_cons, feedRaw]
    rw [filterMap_append] at hsegment hbare ⊢
    obtain ⟨hearlier, -, hlast⟩ := pairwise_append.1 hsegment
    have hrte := ih (fun row hmem ↦ hbare row (mem_append_left _ hmem)) hearlier
    cases hparsed : parseTickFrame raw with
    | none => simpa [hparsed] using hrte
    | some row =>
      simp only [filterMap_cons, hparsed] at hlast hbare ⊢
      exact routed_dispatchRow hrte (hbare row (by simp)) fun prior hmem ↦
        hlast prior hmem row mem_cons_self

def tickerFrame (segment securityId : UInt8) : List UInt8 :=
  [2, 16, 0, segment, securityId, 0, 0, 0] ++ List.replicate 8 0

def listedOn (exchange : String) (hexchange : Text.isSolid exchange.toList = true) :
    InstrumentId where
  exchange := exchange
  underlying := "INFY"
  exchange_stripped := Text.stripped_of_isSolid hexchange
  underlying_stripped := Text.stripped_of_isSolid (by decide)

def twoListings (first second : String) : InstrumentRegistry :=
  { InstrumentRegistry.empty with
    byKey := (Dict.single first (listedOn "NSE" (by decide))).set second
      (listedOn "BSE" (by decide)) }

theorem separate_ids_reach_their_instruments :
    let registry := twoListings "NSE:5" "BSE:6"
    let frames := [tickerFrame 1 5, tickerFrame 4 6, tickerFrame 1 5]
    ∀ quote ∈ (frames.foldl (feedRaw id registry) {}).quotes,
      registered id registry quote.2 = some quote.1 :=
  ticks_reach_registered_instrument id _ _
    (fun row hmem ↦ Option.isNone_iff_eq_none.1 (by revert row; decide +kernel)) (by decide +kernel)

theorem shared_id_reaches_first_instrument :
    ([tickerFrame 1 5, tickerFrame 4 5].foldl (feedRaw id (twoListings "NSE:5" "BSE:5")) {}).quotes.map
        (fun quote ↦ (quote.1.exchange,
          (registered id (twoListings "NSE:5" "BSE:5") quote.2).map InstrumentId.exchange)) =
      [("NSE", some "NSE"), ("NSE", some "BSE")] := by
  decide +kernel

end Tradex.Brokers.DhanTicks

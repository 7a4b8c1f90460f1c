import Tradex.Domain.Objects
import Tradex.Execution.EventStore

/-!
# The payload of a logged event

An event is pickled and read back by an unpickler that resolves the classes of a fixed list.
-/

namespace Tradex.Execution.EventPayload

open Tradex.Domain Tradex.Pickle List

def allowedPickleClasses : List Global :=
  [⟨"builtins", "ValueError"⟩, ⟨"datetime", "date"⟩, ⟨"datetime", "datetime"⟩,
    ⟨"datetime", "timedelta"⟩, ⟨"datetime", "timezone"⟩, ⟨"decimal", "Decimal"⟩,
    ⟨"tradex_domain.enums", "AssetClass"⟩, ⟨"tradex_domain.enums", "ExchangeId"⟩,
    ⟨"tradex_domain.enums", "OrderSide"⟩, ⟨"tradex_domain.enums", "OrderStatus"⟩,
    ⟨"tradex_domain.enums", "OrderType"⟩, ⟨"tradex_domain.enums", "ProductType"⟩,
    ⟨"tradex_domain.enums", "TimeInForce"⟩,
    ⟨"tradex_domain.events", "BrokerOrderAcknowledged"⟩,
    ⟨"tradex_domain.events", "BrokerOrderRequested"⟩,
    ⟨"tradex_domain.events", "CancelRequested"⟩,
    ⟨"tradex_domain.events", "CashAccountInitialized"⟩,
    ⟨"tradex_domain.events", "CashReconciled"⟩, ⟨"tradex_domain.events", "DomainEvent"⟩,
    ⟨"tradex_domain.events", "ErrorOccurred"⟩, ⟨"tradex_domain.events", "FeedGapDetected"⟩,
    ⟨"tradex_domain.events", "FeedRecovered"⟩, ⟨"tradex_domain.events", "OrderCancelled"⟩,
    ⟨"tradex_domain.events", "OrderFilled"⟩, ⟨"tradex_domain.events", "OrderModified"⟩,
    ⟨"tradex_domain.events", "OrderPlaced"⟩, ⟨"tradex_domain.events", "OrderRejected"⟩,
    ⟨"tradex_domain.events", "PlaceOrderCommand"⟩, ⟨"tradex_domain.events", "PositionUpdated"⟩,
    ⟨"tradex_domain.events", "ReconciliationResult"⟩, ⟨"tradex_domain.events", "RiskDecision"⟩,
    ⟨"tradex_domain.events", "StaleFeed"⟩, ⟨"tradex_domain.events", "UnknownSubmission"⟩,
    ⟨"tradex_domain.execution", "BracketOrderRequest"⟩, ⟨"tradex_domain.execution", "Fill"⟩,
    ⟨"tradex_domain.execution", "Order"⟩, ⟨"tradex_domain.execution", "OrderRequest"⟩,
    ⟨"tradex_domain.execution", "Position"⟩,
    ⟨"tradex_domain.instruments", "Commodity"⟩, ⟨"tradex_domain.instruments", "Currency"⟩,
    ⟨"tradex_domain.instruments", "Equity"⟩, ⟨"tradex_domain.instruments", "Future"⟩,
    ⟨"tradex_domain.instruments", "Index"⟩, ⟨"tradex_domain.instruments", "Instrument"⟩,
    ⟨"tradex_domain.instruments", "InstrumentMeta"⟩, ⟨"tradex_domain.instruments", "Option"⟩,
    ⟨"tradex_domain.market", "Quote"⟩,
    ⟨"tradex_domain.value_objects", "CorrelationId"⟩,
    ⟨"tradex_domain.value_objects", "InstrumentId"⟩,
    ⟨"tradex_domain.value_objects", "OrderId"⟩, ⟨"tradex_domain.value_objects", "Price"⟩,
    ⟨"tradex_domain.value_objects", "Quantity"⟩]

def allowed (name : Global) : Bool := name ∈ allowedPickleClasses

def zoneNode : Zone → Node
  | .fixed offset name =>
    .call ⟨"datetime", "timezone"⟩
      (.call ⟨"datetime", "timedelta"⟩ [.atom (.int (offset / 86400000000)),
          .atom (.int (offset / 1000000 % 86400)), .atom (.int (offset % 1000000))] ::
        (name.map fun text ↦ Node.atom (.str text)).toList)
  | .other cls key _ _ => .object cls (.atom (.str key))

def dateTimeNode (time : DateTime) : Node :=
  .call ⟨"datetime", "datetime"⟩ (.atom (.int time.wall) :: (time.zone.map zoneNode).toList)

def alternate : List String → List Node → List Node
  | key :: keys, val :: vals => .atom (.str key) :: val :: alternate keys vals
  | _, _ => []

mutual

def node : Obj → Node
  | .none => .atom .none
  | .bool val => .atom (.bool val)
  | .int val => .atom (.int val)
  | .float val => .atom (.float val)
  | .str val => .atom (.str val)
  | .decimal val => .call ⟨"decimal", "Decimal"⟩ [.atom (.str val.str)]
  | .uuid val => .object ⟨"uuid", "UUID"⟩ (.dict [.atom (.str "int"), .atom (.int val)])
  | .datetime val => dateTimeNode val
  | .date val =>
    .call ⟨"datetime", "date"⟩
      [.atom (.bytes [val.year / 256, val.year % 256, val.month, val.day])]
  | .enum cls val => .call cls.path [.atom (.str val)]
  | .tuple items => .tuple (nodes items)
  | .list items => .list (nodes items)
  | .dict keys vals => .dict (alternate keys (nodes vals))
  | .record cls vals => .object cls.path (.list (nodes vals))
  | .foreign cls st => .object cls (.tuple (nodes st))

def nodes : List Obj → List Node
  | [] => []
  | item :: rest => node item :: nodes rest

end

structure PayloadForm (Payload : Type) where
  write : List Opcode → Payload
  read : Payload → Option (List Opcode)
  read_write : ∀ pickle, read (write pickle) = some pickle

inductive DecodeError where
  | noDecoder (version : ℤ)
  | refused (name : Global)
  | corrupt
deriving DecidableEq

section Codec

variable {Payload : Type} (form : PayloadForm Payload)

def encode (ev : Obj) : Payload := form.write (dumps (node ev))

def unpickle (pickle : List Opcode) : Except DecodeError Node :=
  match loads allowed pickle with
  | .ok ev => .ok ev
  | .error (.refused name) => .error (.refused name)
  | .error .corrupt => .error .corrupt

def decode (payload : Payload) (version : ℤ) : Except DecodeError Node :=
  if version ∈ EventStore.decoders then
    match form.read payload with
    | none => .error .corrupt
    | some pickle => unpickle pickle
  else .error (.noDecoder version)

end Codec

def appendedClasses : List RecordClass :=
  [.orderPlaced, .orderFilled, .orderRejected, .orderCancelled, .orderModified, .riskDecision,
    .brokerOrderRequested, .brokerOrderAcknowledged, .cancelRequested, .unknownSubmission,
    .reconciliationResult, .cashAccountInitialized, .cashReconciled]

def Appended (ev : Obj) : Prop := ∃ cls ∈ appendedClasses, ev.fits (.record cls) = true

inductive Part where
  | uuid (value : ℕ)
  | moment (value : DateTime)
  | extras (values : List Obj)

mutual

def parts : Obj → List Part
  | .uuid val => [.uuid val]
  | .datetime val => [.moment val]
  | .dict _ vals => [.extras vals]
  | .tuple items => partsAll items
  | .record _ vals => partsAll vals
  | _ => []

def partsAll : List Obj → List Part
  | [] => []
  | item :: rest => parts item ++ partsAll rest

end

def Part.readable : Part → Bool
  | .uuid _ => false
  | .moment time =>
    match time.zone with
    | some (.other cls _ _ _) => allowed cls
    | _ => true
  | .extras vals => (Node.globalsAll (nodes vals)).all allowed

def loggedClasses : List RecordClass :=
  appendedClasses ++
    [.order, .orderRequest, .bracketOrderRequest, .fill, .orderId, .correlationId, .price,
      .quantity, .instrument, .equity, .index, .future, .option, .currency, .commodity,
      .instrumentId, .instrumentMeta]

def listed : Annotation → Bool
  | .enum cls => allowed cls.path
  | .record base => base.subclasses.all (· ∈ loggedClasses)
  | .tupleOf item => listed item
  | .pair first second => listed first && listed second
  | _ => true

theorem loggedClasses_closed {cls : RecordClass} (hcls : cls ∈ loggedClasses) :
    allowed cls.path = true ∧ ∀ field ∈ cls.fields, listed field.type = true := by
  revert hcls
  cases cls <;> decide

def Reads (names : List Global) (opened : List Part) : Prop :=
  (∀ name ∈ names, allowed name = true) ↔ ∀ part ∈ opened, part.readable = true

theorem reads_nil : Reads [] [] := iff_of_true (forall_mem_nil _) (forall_mem_nil _)

variable {names : List Global}

theorem Reads.cons {opened : List Part} {name : Global}
    (hname : allowed name = true) (hrest : Reads names opened) : Reads (name :: names) opened := by
  unfold Reads at *
  rw [forall_mem_cons, hrest, and_iff_right hname]

theorem Reads.append {names more : List Global} {opened rest : List Part}
    (hfst : Reads names opened) (hsnd : Reads more rest) :
    Reads (names ++ more) (opened ++ rest) := by
  unfold Reads at *
  rw [forall_mem_append, forall_mem_append, hfst, hsnd]

theorem reads_single {part : Part}
    (hnames : names.all allowed = part.readable) : Reads names [part] := by
  unfold Reads
  rw [forall_mem_singleton, ← hnames, all_eq_true]

theorem reads_moment {time : DateTime} : Reads (dateTimeNode time).globals [.moment time] := by
  refine Reads.cons (by decide) (reads_single ?_)
  obtain ⟨wall, zone⟩ := time
  cases zone with
  | none => rfl
  | some zone =>
    cases zone with
    | fixed offset name =>
      have hlist : (allowed ⟨"datetime", "timezone"⟩ &&
          (allowed ⟨"datetime", "timedelta"⟩ && true)) = true := by decide
      cases name <;> exact hlist
    | other cls key offset ambiguous =>
      show (allowed cls && true) = allowed cls
      rw [Bool.and_true]

theorem length_nodes {items : List Obj} : (nodes items).length = items.length := by
  induction items with
  | nil => rfl
  | cons item rest ih => rw [nodes, length_cons, length_cons, ih]

theorem globalsAll_alternate {keys : List String} {vals : List Node}
    (hlen : keys.length = vals.length) :
    Node.globalsAll (alternate keys vals) = Node.globalsAll vals := by
  induction vals generalizing keys with
  | nil =>
    rw [eq_nil_of_length_eq_zero hlen]
    rfl
  | cons val vals ih =>
    cases keys with
    | nil => cases hlen
    | cons key keys =>
      rw [alternate, Node.globalsAll, Node.globalsAll, ih (Nat.succ.inj hlen)]
      rfl

theorem reads_leaf {obj : Obj} {type : Annotation} (hfits : type ∈ obj.leafTypes)
    (hlist : listed type = true) : Reads (node obj).globals (parts obj) := by
  cases obj with
  | bool val | int val | str val => exact reads_nil
  | decimal val | date val => exact Reads.cons (by decide) reads_nil
  | uuid val =>
    have href : (allowed ⟨"uuid", "UUID"⟩ && true) = false := by decide
    exact reads_single href
  | datetime val => exact reads_moment
  | enum cls val =>
    rw [Obj.leafTypes] at hfits
    split at hfits
    · rw [mem_singleton.1 hfits] at hlist
      exact Reads.cons hlist reads_nil
    · cases hfits
  | dict keys vals =>
    rw [Obj.leafTypes] at hfits
    split at hfits
    · rename_i hlen
      refine reads_single ?_
      rw [node, Node.globals, globalsAll_alternate (hlen.trans length_nodes.symm)]
      rfl
    · cases hfits
  | _ => cases hfits

mutual

theorem reads_of_fits (obj : Obj) {type : Annotation} (hfits : obj.fits type = true)
    (hlist : listed type = true) : Reads (node obj).globals (parts obj) := by
  cases obj with
  | record cls vals =>
    cases type with
    | record base =>
      rw [Obj.fits, Bool.and_eq_true] at hfits
      have hlog : cls ∈ loggedClasses := by
        rw [listed, all_eq_true] at hlist
        simpa using hlist cls (by simpa [RecordClass.isSubclassOf] using hfits.1)
      obtain ⟨hpath, hflds⟩ := loggedClasses_closed hlog
      exact Reads.cons hpath (reads_of_fitsFields vals hfits.2 hflds)
    | _ => cases hfits
  | tuple items =>
    cases type with
    | tupleOf item => exact reads_of_fitsAll items hfits hlist
    | pair first second =>
      rw [listed] at hlist
      refine reads_of_fitsFields items hfits ?_
      simpa using hlist
    | _ => cases hfits
  | _ => exact reads_leaf (of_decide_eq_true hfits) hlist

theorem reads_of_fitsAll : (items : List Obj) → {type : Annotation} →
    Obj.fitsAll items type = true → listed type = true →
    Reads (Node.globalsAll (nodes items)) (partsAll items)
  | [], _, _, _ => reads_nil
  | item :: rest, type, hfits, hlist => by
    rw [Obj.fitsAll, Bool.and_eq_true] at hfits
    exact (reads_of_fits item hfits.1 hlist).append (reads_of_fitsAll rest hfits.2 hlist)

theorem reads_of_fitsFields : (vals : List Obj) → {fields : List Field} →
    Obj.fitsFields vals fields = true → (∀ field ∈ fields, listed field.type = true) →
    Reads (Node.globalsAll (nodes vals)) (partsAll vals)
  | [], _, _, _ => reads_nil
  | val :: rest, fields, hfits, hlist => by
    cases fields with
    | nil => cases hfits
    | cons field fields =>
      rw [Obj.fitsFields, Bool.and_eq_true] at hfits
      rw [forall_mem_cons] at hlist
      refine Reads.append ?_ (reads_of_fitsFields rest hfits.2 hlist.2)
      cases hnone : val.isNone with
      | true =>
        cases val <;> cases hnone
        exact reads_nil
      | false =>
        rw [hnone, Bool.false_and] at hfits
        exact reads_of_fits val hfits.1 hlist.1

end

/-- A stored event is read back exactly when every part of it is built from allow-listed classes. -/
theorem decode_encode_iff {Payload : Type} (form : PayloadForm Payload) (ev : Obj)
    (happ : Appended ev) :
    (decode form (encode form ev) EventStore.schemaVersion = .ok (node ev) ↔
      ∀ part ∈ parts ev, part.readable = true) ∧
    ((∀ name ∈ (node ev).globals, name ∈ allowedPickleClasses) ↔
      ∀ part ∈ parts ev, part.readable = true) := by
  obtain ⟨cls, hcls, hfits⟩ := happ
  have hlisted : listed (.record cls) = true := by
    revert hcls
    cases cls <;> decide
  have hreads : Reads (node ev).globals (parts ev) := reads_of_fits ev hfits hlisted
  have hloads : decode form (encode form ev) EventStore.schemaVersion = .ok (node ev) ↔
      loads allowed (dumps (node ev)) = .ok (node ev) := by
    rw [decode, encode, form.read_write]
    show unpickle _ = _ ↔ _
    rw [unpickle]
    cases hloaded : loads allowed (dumps (node ev)) with
    | ok found => simp
    | error err => cases err <;> simp
  constructor
  · rw [hloads, loads_dumps, guarded_eq_ok_iff]
    exact hreads
  · unfold Reads at hreads
    rw [← hreads]
    simp [allowed]

def plainForm : PayloadForm (List Opcode) := ⟨id, some, fun _ ↦ rfl⟩

def infosys : Obj :=
  .record .equity
    [.record .instrumentId [.str "NSE", .str "INFY", .none, .none, .none,
        .enum .assetClass "EQUITY"],
      .str "INFY", .enum .exchangeId "NSE", .enum .assetClass "EQUITY", .str "INR", .none, .none,
      .none, .none, .none, .none,
      .record .instrumentMeta [.none, .none, .none, .none, .dict [] []]]

def marketOrder (correlation : Obj) : Obj :=
  .record .orderRequest
    [infosys, .enum .orderSide "BUY", .enum .orderType "MARKET",
      .record .quantity [.decimal 10], .none, .none, .enum .timeInForce "DAY",
      .enum .productType "INTRADAY", .record .correlationId [correlation], .none, .none, .none,
      .int 0, .int (-1), .none, .none, .none]

def intent (correlation : Obj) : Obj :=
  .record .brokerOrderRequested
    [.datetime ⟨1769900000000000, some (.fixed 0 none)⟩, .none, marketOrder correlation]

theorem uuid_intent_refused :
    Appended (intent (.uuid 42)) ∧
      decode plainForm (encode plainForm (intent (.uuid 42))) EventStore.schemaVersion =
        .error (.refused ⟨"uuid", "UUID"⟩) :=
  ⟨⟨.brokerOrderRequested, by decide, by decide⟩, rfl⟩

theorem text_intent_read_back :
    Appended (intent (.str "strat-1")) ∧
      decode plainForm (encode plainForm (intent (.str "strat-1"))) EventStore.schemaVersion =
        .ok (node (intent (.str "strat-1"))) := by
  have happ : Appended (intent (.str "strat-1")) :=
    ⟨.brokerOrderRequested, by decide, by decide⟩
  have hreadable : (parts (intent (.str "strat-1"))).all Part.readable = true := by decide
  exact ⟨happ, (decode_encode_iff plainForm _ happ).1.2 (all_eq_true.1 hreadable)⟩

end Tradex.Execution.EventPayload

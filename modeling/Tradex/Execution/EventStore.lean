import Tradex.Foundation.HashChain
import Tradex.Foundation.Separated

/-!
# The event store

The append-only log and the replay of a stream. Every row carries a digest of its fields and of the
digest before it, which a replay checks.
-/

namespace Tradex.Execution.EventStore

def separator : Char := '\x1f'

def Plain (text : String) : Prop := separator ∉ text.toList

instance (text : String) : Decidable (Plain text) := inferInstanceAs (Decidable (_ ∉ _))

structure Sha256 where
  hexdigest : String → String
  injective : Function.Injective hexdigest
  plain : ∀ text, Plain (hexdigest text)

structure EventFormat (Event : Type) where
  className : Event → String
  correlationId : Event → Option String
  encode : Event → String
  decode : String → Option Event
  className_plain : ∀ event, Plain (className event)
  encode_plain : ∀ event, Plain (encode event)

structure EventRow where
  sequence : ℕ
  streamId : String
  eventType : String
  eventId : String
  correlationId : Option String
  payload : String
  createdAt : String
  schemaVersion : ℤ
  prevHash : Option String
  eventHash : Option String
deriving DecidableEq

def schemaVersion : ℤ := 2

def decoders : List ℤ := [1, schemaVersion]

def scopedVersions : List ℤ := [schemaVersion]

def genesisHash : String := String.ofList (List.replicate 64 '0')

def unscopedAccount : String := "*"

def hashText (row : EventRow) (prevHash : String) : String :=
  String.intercalate (String.singleton separator)
    [toString row.sequence, row.streamId, row.eventType, row.eventId,
      row.correlationId.getD "", row.payload, row.createdAt,
      toString row.schemaVersion, prevHash]

variable (sha : Sha256)

def hashInput (row : EventRow) (prevHash : String) : String :=
  sha.hexdigest (hashText row prevHash)

def rowHashScoped (row : EventRow) (prevHash : String) : String :=
  hashInput sha row prevHash

def rowHashV1 (row : EventRow) (prevHash : String) : String :=
  hashInput sha row prevHash

def rowHash (row : EventRow) (prevHash : String) : String :=
  if row.schemaVersion ∈ scopedVersions then rowHashScoped sha row prevHash
  else rowHashV1 sha row prevHash

def scopedStream (brokerId accountId stream : String) : String :=
  if brokerId = "" ∨ brokerId = unscopedAccount then stream
  else if accountId = "" ∨ accountId = unscopedAccount then stream
  else if stream = "" then stream
  else brokerId ++ ":" ++ accountId ++ ":" ++ stream

def streamSuffix (streamId : String) : String :=
  String.ofList (streamId.toList.reverse.takeWhile (· ≠ ':')).reverse

def matchesStream (stored requested : String) : Bool :=
  if requested = "" ∨ requested = "*" then true
  else if stored = requested then true
  else if ':' ∈ requested.toList then false
  else streamSuffix stored = requested

def orderEventClassnames : List String :=
  ["OrderPlaced", "OrderFilled", "OrderRejected", "OrderCancelled", "OrderModified",
    "PlaceOrderCommand", "RiskDecision", "BrokerOrderRequested", "BrokerOrderAcknowledged",
    "CancelRequested", "UnknownSubmission", "CashAccountInitialized", "CashReconciled"]

structure Store (Event : Type) where
  sha : Sha256
  format : EventFormat Event
  brokerId : String
  accountId : String

structure Appended (Event : Type) where
  event : Event
  streamId : Option String
  eventId : String
  createdAt : String
  eventId_plain : Plain eventId
  createdAt_plain : Plain createdAt

inductive StoreError where
  | unhashed (sequence : ℕ)
  | brokenLink (sequence : ℕ) (eventType prevHash previousHash : String)
  | modified (sequence : ℕ) (eventType : String)
  | noDecoder (version : ℤ)
  | corruptPayload (version : ℤ)
deriving DecidableEq

variable {Event : Type} (store : Store Event)

def inferStream (ev : Event) : String :=
  if store.format.className ev ∈ orderEventClassnames then "orders" else "system"

def insertedRow (appended : Appended Event) (sequence : ℕ) : EventRow where
  sequence := sequence
  streamId := scopedStream store.brokerId store.accountId
    (appended.streamId.getD (inferStream store appended.event))
  eventType := store.format.className appended.event
  eventId := appended.eventId
  correlationId := store.format.correlationId appended.event
  payload := store.format.encode appended.event
  createdAt := appended.createdAt
  schemaVersion := schemaVersion
  prevHash := none
  eventHash := none

variable (rows : List EventRow)

def headHash : String :=
  ((rows.getLast?).bind EventRow.eventHash).getD genesisHash

def nextSequence : ℕ := ((rows.getLast?).elim 0 EventRow.sequence) + 1

def appendedRow (appended : Appended Event) : EventRow :=
  let row := insertedRow store appended (nextSequence rows)
  { row with
    prevHash := some (headHash rows)
    eventHash := some (rowHash store.sha row (headHash rows)) }

def append (appended : Appended Event) : List EventRow :=
  rows ++ [appendedRow store rows appended]

def log (entries : List (Appended Event)) : List EventRow := entries.foldl (append store) []

def verifyRow (previousHash : Option String) (row : EventRow) : Except StoreError String :=
  match row.eventHash, row.prevHash with
  | some eventHash, some prevHash =>
    if (previousHash.getD prevHash) ≠ prevHash then
      .error (.brokenLink row.sequence row.eventType prevHash (previousHash.getD prevHash))
    else if row.schemaVersion ∈ decoders ∧ rowHash store.sha row prevHash ≠ eventHash then
      .error (.modified row.sequence row.eventType)
    else .ok eventHash
  | _, _ => .error (.unhashed row.sequence)

def decode (payload : String) (version : ℤ) : Except StoreError Event :=
  if version ∈ decoders then
    match store.format.decode payload with
    | some ev => .ok ev
    | none => .error (.corruptPayload version)
  else .error (.noDecoder version)

def wanted (stream : String) (afterSequence : Option ℕ) (row : EventRow) : Bool :=
  matchesStream row.streamId stream && afterSequence.all (· < row.sequence)

def replayFrom (stream : String) (afterSequence : Option ℕ) :
    Option String → List EventRow → Except StoreError (List Event)
  | _, [] => pure []
  | previousHash, row :: rest => do
    let eventHash ← verifyRow store previousHash row
    if wanted stream afterSequence row then
      let ev ← decode store row.payload row.schemaVersion
      let events ← replayFrom stream afterSequence (some eventHash) rest
      pure (ev :: events)
    else replayFrom stream afterSequence (some eventHash) rest

def replay (stream : String) (afterSequence : Option ℕ) : Except StoreError (List Event) :=
  replayFrom store stream afterSequence none rows

end Tradex.Execution.EventStore

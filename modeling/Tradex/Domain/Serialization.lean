import Tradex.Domain.Objects
import Tradex.Foundation.Program

/-!
# Serialisation of domain objects

`toDict` turns a domain object into dictionaries, lists and texts, and `fromDict` rebuilds it from
the annotations of its class and calls the constructor.
-/

namespace Tradex.Domain

open Tradex.Text (strip)

inductive Raised where
  | typeError (message : Option String)
  | valueError (message : Option String)
  | attributeError
  | invalidOperation
  | sdkError (message : String)
deriving DecidableEq

def Raised.caught : Raised → Bool
  | .typeError _ => true
  | .valueError _ => true
  | _ => false

def Zone.offset : Zone → ℤ
  | .fixed offset _ => offset
  | .other _ _ offset _ => offset

def Zone.ambiguous : Zone → Bool
  | .fixed _ _ => false
  | .other _ _ _ ambiguous => ambiguous

def utc : Zone := .fixed 0 none

namespace DateTime

variable (time : DateTime)

def withOffset : DateTime :=
  ⟨time.wall, time.zone.map fun zone ↦ .fixed zone.offset none⟩

def pinned : DateTime := ⟨time.wall, some (time.zone.getD utc)⟩

def isoFormat : String :=
  match time.zone, decide (time.wall % 1000000 = 0) with
  | some _, true => "%Y-%m-%dT%H:%M:%S%z"
  | some _, false => "%Y-%m-%dT%H:%M:%S.%f%z"
  | none, true => "%Y-%m-%dT%H:%M:%S"
  | none, false => "%Y-%m-%dT%H:%M:%S.%f"

end DateTime

def isoFormats : List String :=
  ["%Y-%m-%dT%H:%M:%S%z", "%Y-%m-%dT%H:%M:%S.%f%z", "%Y-%m-%dT%H:%M:%S", "%Y-%m-%dT%H:%M:%S.%f"]

def timestampFormats : List String :=
  isoFormats ++
    ["%Y-%m-%d %H:%M:%S", "%Y-%m-%d %H:%M:%S%z", "%Y-%m-%d", "%d-%m-%Y", "%d/%m/%Y"]

structure Python where
  str : Obj → String
  repr : Obj → String
  typeName : Obj → String
  int : Obj → Except Raised ℤ
  bool : Obj → Bool
  decimal : String → Option Decimal
  uuidText : ℕ → String
  uuid : String → Option ℕ
  dateText : Date → String
  date : String → Option Date
  isoformat : DateTime → String
  strptime : String → String → Option DateTime
  fromtimestamp : ℚ → Option DateTime
  upper : String → String
  knownExchanges : List String
  now : DateTime
  str_str : ∀ text, str (.str text) = text
  str_enum : ∀ cls value, str (.enum cls value) = value
  int_int : ∀ number, int (.int number) = .ok number
  int_bool : ∀ value, int (.bool value) = .ok (if value then 1 else 0)
  bool_bool : ∀ value, bool (.bool value) = value
  decimal_str : ∀ number : Decimal, decimal number.str = some number
  uuid_uuidText : ∀ number, uuid (uuidText number) = some number
  date_dateText : ∀ day, date (dateText day) = some day
  /-- The text of a time is not the text of a date. -/
  date_isoformat : ∀ time, date (isoformat time) = none
  strip_isoformat : ∀ time, strip (isoformat time) = isoformat time
  /-- The text of a time is read by the format in which it was written, and by no
  other of the ISO formats. -/
  strptime_isoformat : ∀ time, ∀ format ∈ isoFormats,
    strptime (isoformat time) format =
      if format = time.isoFormat then some time.withOffset else none
  upper_upper : ∀ text, upper (upper text) = upper text
  strip_upper : ∀ text, strip (upper (strip text)) = upper (strip text)

namespace Obj

def text : Obj → Option String
  | .str val => some val
  | .enum _ val => some val
  | _ => Option.none

def number : Obj → Option ℚ
  | .bool val => some (if val then 1 else 0)
  | .int val => some val
  | .float val => some val
  | .decimal val => some val.toRat
  | _ => Option.none

def iterates : Obj → Option (List Obj)
  | .str val => some (val.toList.map fun c ↦ .str (String.singleton c))
  | .enum _ val => some (val.toList.map fun c ↦ .str (String.singleton c))
  | .dict keys _ => some (keys.map .str)
  | _ => Option.none

end Obj

def DateTime.equals (left right : DateTime) : Bool :=
  match left.zone, right.zone with
  | none, none => left.wall = right.wall
  | some zone, some other =>
    if zone = other then left.wall = right.wall
    -- Between zones, a time whose offset depends on the fold equals no other.
    else !zone.ambiguous && !other.ambiguous &&
      left.wall - zone.offset = right.wall - other.offset
  | _, _ => false

def RecordClass.compared : RecordClass → ℕ
  | .instrumentId => 5
  | cls => cls.fields.length

namespace Obj

def equalsLeaf : Obj → Obj → Bool
  | .none, .none => true
  | .uuid left, .uuid right => left = right
  | .datetime left, .datetime right => left.equals right
  | .date left, .date right => left = right
  | left, right =>
    match left.number, right.number with
    | some val, some other => val = other
    | _, _ =>
      match left.text, right.text with
      | some val, some other => val = other
      | _, _ => false

mutual

def equals : Obj → Obj → Bool
  | .tuple items, right =>
    match right with
    | .tuple others => equalsAll items others
    | _ => false
  | .list items, right =>
    match right with
    | .list others => equalsAll items others
    | _ => false
  | .dict keys vals, right =>
    match right with
    | .dict others otherValues => keys = others && equalsAll vals otherValues
    | _ => false
  | .record cls vals, right =>
    match right with
    | .record other otherValues => cls = other && equalsFirst cls.compared vals otherValues
    | _ => false
  | .foreign cls st, right =>
    match right with
    | .foreign other otherState => cls = other && equalsAll st otherState
    | _ => false
  | left, right => left.equalsLeaf right

def equalsAll : List Obj → List Obj → Bool
  | [], [] => true
  | left :: lefts, right :: rights => left.equals right && equalsAll lefts rights
  | _, _ => false

def equalsFirst : ℕ → List Obj → List Obj → Bool
  | 0, _, _ => true
  | count + 1, left :: lefts, right :: rights => left.equals right && equalsFirst count lefts rights
  | _, lefts, rights => lefts.isEmpty && rights.isEmpty

end

end Obj

def getAttribute : List Field → List Obj → String → Option Obj
  | field :: fields, val :: vals, name =>
    if field.name = name then some val else getAttribute fields vals name
  | _, _, _ => none

def setAttribute (name : String) (change : Obj → Except Raised Obj) :
    List Field → List Obj → Except Raised (List Obj)
  | field :: fields, val :: vals =>
    if field.name = name then (change val).map (· :: vals)
    else (setAttribute name change fields vals).map (val :: ·)
  | _, vals => .ok vals

def amount : Option Obj → Except Raised Decimal
  | some (.record cls vals) =>
    match getAttribute cls.fields vals "value" with
    | some (.decimal val) => .ok val
    | some _ => .error (.typeError none)
    | none => .error .attributeError
  | _ => .error .attributeError

def providerSuffixes : List String := ["-EQ", "-BE", "-FUT"]

def dropProviderSuffix (symbol : String) : String :=
  match providerSuffixes.find? fun suffix ↦ suffix.toList.isSuffixOf symbol.toList with
  | some suffix => String.ofList (symbol.toList.take (symbol.toList.length - suffix.toList.length))
  | none => symbol

def validateSide (side : String) (descending : Bool) :
    Option Decimal → List Obj → Except Raised Unit
  | _, [] => .ok ()
  | prev, .tuple [.record .price [.decimal price], .record .quantity _] :: levels =>
    match prev with
    | none => validateSide side descending (some price) levels
    | some last =>
      if descending && last.toRat < price.toRat then
        .error (.valueError (some ("Depth " ++ side ++ " must be price-descending (got " ++
          price.str ++ " after " ++ last.str ++ ")")))
      else if !descending && price.toRat < last.toRat then
        .error (.valueError (some ("Depth " ++ side ++ " must be price-ascending (got " ++
          price.str ++ " after " ++ last.str ++ ")")))
      else validateSide side descending (some price) levels
  | _, _ :: _ =>
    .error (.valueError (some ("Depth " ++ side ++ " levels must be (Price, Quantity) pairs")))

def validateLevels (side : String) (descending : Bool) : Option Obj → Except Raised Unit
  | some (.tuple levels) => validateSide side descending none levels
  | some (.list levels) => validateSide side descending none levels
  | some levels =>
    match levels.iterates with
    | some items => validateSide side descending none items
    | none => .error (.typeError none)
  | none => .error .attributeError

namespace Python

variable (py : Python)

def normalizeSymbol (val : String) (stripProviderSuffixes : Bool) : String :=
  if stripProviderSuffixes then dropProviderSuffix (py.upper (strip val))
  else py.upper (strip val)

def onText (change : String → Except Raised String) (val : Obj) : Except Raised Obj :=
  match val.text with
  | some text => (change text).map .str
  | none => .error .attributeError

def checkedExchange (exchange : Obj) : Except Raised Obj :=
  onText (fun text ↦
    if py.upper (strip text) ∈ py.knownExchanges then .ok (py.upper (strip text))
    else .error (.valueError (some ("Invalid exchange: " ++ py.repr exchange)))) exchange

def checkedRight (valid : List String) (msg : String) (right : Obj) : Except Raised Obj :=
  onText (fun text ↦
    if py.upper (strip text) ∈ valid then .ok (py.upper (strip text))
    else .error (.valueError (some (msg ++ py.repr right)))) right

def toDecimal (val : Obj) : Except Raised Obj :=
  match py.decimal (py.str val) with
  | some number => .ok (.decimal number)
  | none => .error .invalidOperation

def checkedStrike : Obj → Except Raised Obj
  | .none => .ok .none
  | .decimal val => .ok (.decimal val)
  | val => py.toDecimal val

def optionalRight : Obj → Except Raised Obj
  | .none => .ok .none
  | right => py.checkedRight ["CE", "PE", "FUT"] "Invalid right: " right

variable (self : List Obj)

def initInstrumentId : Except Raised (List Obj) :=
  let fields := RecordClass.instrumentId.fields
  (((setAttribute "exchange" py.checkedExchange fields self).bind
    (setAttribute "underlying" (onText fun text ↦ .ok (py.normalizeSymbol text false))
      fields)).bind
    (setAttribute "strike" py.checkedStrike fields)).bind
    (setAttribute "right" py.optionalRight fields)

variable (cls : RecordClass)

def checkedAmount (name : String) (self : List Obj) : Except Raised Decimal :=
  match getAttribute cls.fields self name with
  | some (.decimal val) => .ok val
  | _ => .error (.typeError (some (cls.path.name ++ "." ++ name ++ " must be Decimal")))

def initPrice : Except Raised (List Obj) :=
  (checkedAmount .price "value" self).bind fun val ↦
    if val.toRat < 0 then .error (.valueError (some "Price must be non-negative")) else .ok self

def initInstrument (self : List Obj) : Except Raised (List Obj) :=
  setAttribute "symbol" (onText fun text ↦ .ok (py.normalizeSymbol text true)) cls.fields self

def initOption : Except Raised (List Obj) :=
  let fields := RecordClass.option.fields
  ((py.initInstrument .option self).bind
    (setAttribute "right" (py.checkedRight ["CE", "PE"] "Invalid option right: ") fields)).bind
    fun self ↦
      match getAttribute fields self "right" with
      | some right => setAttribute "option_type" (fun _ ↦ .ok right) fields self
      | none => .error .attributeError

def checkDepth : Except Raised Unit :=
  let fields := RecordClass.depth.fields
  (validateLevels "bids" true (getAttribute fields self "bids")).bind fun _ ↦
    validateLevels "asks" false (getAttribute fields self "asks")

def checkQuantity (qty : Option Obj) : Except Raised Unit :=
  (amount qty).bind fun val ↦
    if val.toRat ≤ 0 then .error (.valueError (some "OrderRequest quantity must be positive"))
    else .ok ()

def checkPrice : Option Obj → Except Raised Unit
  | some .none => .ok ()
  | price => (amount price).bind fun val ↦
    if val.toRat < 0 then .error (.valueError (some "OrderRequest price must be non-negative"))
    else .ok ()

def checkDisclosed (disclosed : Option ℚ) : Except Raised Unit :=
  match disclosed with
  | some val =>
    if val < 0 then
      .error (.valueError (some "OrderRequest disclosed_quantity must be non-negative"))
    else .ok ()
  | none => .error (.typeError none)

def checkRequest : Except Raised Unit :=
  let fields := RecordClass.requestFields
  (checkQuantity (getAttribute fields self "quantity")).bind fun _ ↦
    (checkPrice (getAttribute fields self "price")).bind fun _ ↦
      checkDisclosed ((getAttribute fields self "disclosed_quantity").bind Obj.number)

def checkLegs (side entry stop target : Option Obj) : Except Raised Unit :=
  if [entry, stop, target].any fun leg ↦ leg.elim true Obj.isNone then
    .error (.valueError (some "bracket order requires price, stop_loss_price, and target_price"))
  else
    (amount entry).bind fun entry ↦ (amount stop).bind fun stop ↦ (amount target).bind fun target ↦
      let valid := match side with
        | some (.enum .orderSide "BUY") =>
          decide (stop.toRat < entry.toRat) && decide (entry.toRat < target.toRat)
        | _ => decide (target.toRat < entry.toRat) && decide (entry.toRat < stop.toRat)
      if valid then .ok ()
      else .error (.valueError (some ("bracket protective prices are invalid for the order side (" ++
        ((side.bind Obj.text).getD "") ++ "): stop=" ++ stop.str ++ " entry=" ++ entry.str ++
        " target=" ++ target.str)))

def checkBracket : Except Raised Unit :=
  let fields := RecordClass.requestFields
  (checkRequest self).bind fun _ ↦
    checkLegs (getAttribute fields self "side") (getAttribute fields self "price")
      (getAttribute fields self "stop_loss_price") (getAttribute fields self "target_price")

def postInit : RecordClass → List Obj → Except Raised (List Obj)
  | .instrumentId, self => py.initInstrumentId self
  | .price, self => initPrice self
  | .quantity, self => (checkedAmount .quantity "value" self).map fun _ ↦ self
  | .money, self => (checkedAmount .money "amount" self).map fun _ ↦ self
  | .instrument, self => py.initInstrument .instrument self
  | .equity, self => py.initInstrument .equity self
  | .index, self => py.initInstrument .index self
  | .future, self => py.initInstrument .future self
  | .currency, self => py.initInstrument .currency self
  | .commodity, self => py.initInstrument .commodity self
  | .option, self => py.initOption self
  | .depth, self => (checkDepth self).map fun _ ↦ self
  | .orderRequest, self => (checkRequest self).map fun _ ↦ self
  | .bracketOrderRequest, self => (checkBracket self).map fun _ ↦ self
  | _, self => .ok self

def namedDefaults : RecordClass → List (String × Obj)
  | .instrumentId => [("asset_class", .enum .assetClass "EQUITY")]
  | .money => [("currency", .str "INR")]
  | .instrumentMeta => [("extra", .dict [] [])]
  | .instrument => instrumentDefaults
  | .equity => instrumentDefaults ++ [("asset_class", .enum .assetClass "EQUITY")]
  | .index => instrumentDefaults ++ [("asset_class", .enum .assetClass "INDEX")]
  | .future => instrumentDefaults ++ [("asset_class", .enum .assetClass "FUTURE")]
  | .option =>
    instrumentDefaults ++ [("asset_class", .enum .assetClass "OPTION"), ("right", .str "CE")]
  | .currency => instrumentDefaults ++ [("asset_class", .enum .assetClass "CURRENCY")]
  | .commodity => instrumentDefaults ++ [("asset_class", .enum .assetClass "COMMODITY")]
  | .depth => [("bids", .tuple []), ("asks", .tuple [])]
  | .quote => [("timestamp", .datetime py.now), ("exchange", .str ""), ("provider", .str "")]
  | .orderRequest => requestDefaults
  | .bracketOrderRequest => requestDefaults
  | .order =>
    [("product_type", .enum .productType "INTRADAY"),
      ("filled_quantity", .record .quantity [.decimal 0])]
  | .fill => [("timestamp", .datetime py.now)]
  | .orderPlaced => eventDefaults
  | .orderFilled => eventDefaults
  | .orderRejected => eventDefaults ++ [("reason", .str "")]
  | .orderCancelled => eventDefaults
  | .orderModified => eventDefaults
  | .riskDecision => eventDefaults ++ [("approved", .bool true), ("reason", .str "")]
  | .brokerOrderRequested => eventDefaults
  | .brokerOrderAcknowledged => eventDefaults
  | .cancelRequested => eventDefaults
  | .unknownSubmission => eventDefaults ++ [("detail", .str "")]
  | .reconciliationResult => eventDefaults ++ [("drift_count", .int 0), ("detail", .str "")]
  | .cashAccountInitialized => eventDefaults
  | .cashReconciled => eventDefaults ++ [("reason", .str "")]
  | _ => []
where
  instrumentDefaults : List (String × Obj) :=
    [("currency", .str "INR"),
      ("meta", .record .instrumentMeta [.none, .none, .none, .none, .dict [] []])]
  requestDefaults : List (String × Obj) :=
    [("time_in_force", .enum .timeInForce "DAY"), ("product_type", .enum .productType "INTRADAY"),
      ("disclosed_quantity", .int 0), ("market_protection", .int (-1))]
  eventDefaults : List (String × Obj) := [("timestamp", .datetime py.now)]

def default (field : Field) : Option Obj :=
  match (py.namedDefaults cls).lookup field.name with
  | some val => some val
  | none =>
    if field.optional && !(decide (cls = .order) && field.name = "price") then some .none else none

end Python

def RecordClass.marker (cls : RecordClass) : String := cls.path.module ++ "." ++ cls.path.name

def RecordClass.fieldNames (cls : RecordClass) : List String := cls.fields.map Field.name

def typeKey : String := "__type__"

namespace Python

variable (py : Python)

mutual

def toDict : Obj → Except Raised Obj
  | .decimal val => .ok (.str val.str)
  | .datetime val => .ok (.str (py.isoformat val))
  | .date val => .ok (.str (py.dateText val))
  | .uuid val => .ok (.str (py.uuidText val))
  | .tuple items => (toDictAll items).map .list
  | .list items => (toDictAll items).map .list
  | .dict keys vals => (toDictAll vals).map (.dict keys)
  | .record cls vals =>
    (toDictAll vals).map fun out ↦
      .dict (cls.fieldNames ++ [typeKey]) (out ++ [.str cls.marker])
  | .foreign cls _ => .error (.sdkError ("cannot serialize " ++ cls.name))
  -- The members of the enumerations are texts and stay as they are.
  | val => .ok val

def toDictAll : List Obj → Except Raised (List Obj)
  | [] => .ok []
  | item :: items => (toDict item).bind fun out ↦ (toDictAll items).map (out :: ·)

end

def parseTimestampText (text : String) : Except Raised DateTime :=
  match timestampFormats.findSome? (py.strptime (strip text)) with
  | some time => .ok time.pinned
  | none => .error (.sdkError ("Cannot parse timestamp string " ++ py.repr (.str (strip text))))

variable (val : Obj)

def parseEpoch (number : ℚ) : Except Raised DateTime :=
  let seconds := if 1000000000000 < number then number / 1000 else number
  match py.fromtimestamp seconds with
  | some time => .ok time
  | none =>
    .error (.sdkError ("Cannot parse timestamp " ++
      py.repr (if 1000000000000 < number then .float seconds else val)))

def parseTimestamp : Obj → Except Raised DateTime
  | .bool val => py.parseEpoch (.bool val) (if val then 1 else 0)
  | .int val => py.parseEpoch (.int val) val
  | .float val => py.parseEpoch (.float val) val
  | .str val => py.parseTimestampText val
  | .enum _ val => py.parseTimestampText val
  | val => .error (.sdkError ("Cannot parse timestamp of type " ++ py.typeName val))

def dateFromIsoformat : Except Raised Obj :=
  match val.text with
  | some text =>
    match py.date text with
    | some day => .ok (.date day)
    | none => .error (.valueError none)
  | none => .error (.typeError none)

def uuidOrText : Obj :=
  match py.uuid (py.str val) with
  | some number => .uuid number
  | none => .str (py.str val)

def member (cls : EnumClass) (val : Obj) : Except Raised Obj :=
  match val.text with
  | some text => if text ∈ cls.members then .ok (.enum cls text) else .error (.valueError none)
  | none => .error (.valueError none)

def coerceLeaf : Annotation → Obj → Except Raised Obj
  | .str, val => .ok (.str (py.str val))
  | .int, val => (py.int val).map .int
  | .bool, val => .ok (.bool (py.bool val))
  | .decimal, val => py.toDecimal val
  | .datetime, val => (py.parseTimestamp val).map .datetime
  | .date, val => py.dateFromIsoformat val
  | .uuidOrStr, val => .ok (py.uuidOrText val)
  | .enum cls, val => member cls val
  | .record _, _ => .error .attributeError
  | .objects, val =>
    match val with
    | .dict keys vals => .ok (.dict keys vals)
    | _ => .error .attributeError
  | .tupleOf item, val =>
    match val.iterates with
    | some items => (items.mapM (coerceLeaf item)).map .tuple
    | none => .error (.typeError none)
  | .pair first second, val =>
    match val.iterates with
    | some (left :: right :: _) =>
      (coerceLeaf first left).bind fun left ↦
        (coerceLeaf second right).map fun right ↦ .tuple [left, right]
    | some [left] => (coerceLeaf first left).map fun left ↦ .tuple [left]
    | some [] => .ok (.tuple [])
    | none => .error (.typeError none)

def orRaw (optional : Bool) (val : Obj) (res : Except Raised Obj) : Except Raised Obj :=
  match res with
  | .ok out => .ok out
  | .error err => if optional && err.caught then .ok val else .error err

def targetOf (base : RecordClass) (keys : List String) (vals : List Obj) : RecordClass :=
  match ((keys.zip vals).lookup typeKey).bind Obj.text with
  | some marker => (base.subclasses.find? fun cls ↦ cls.marker = marker).getD base
  | none => base

def collect (rows : List (String × Except Raised Obj)) :
    List Field → Except Raised (List (Option Obj))
  | [] => .ok []
  | field :: fields =>
    match rows.lookup field.name with
    | some res => res.bind fun val ↦ (collect rows fields).map (some val :: ·)
    | none => (collect rows fields).map (none :: ·)

def fill (cls : RecordClass) : List Field → List (Option Obj) → Except Raised (List Obj)
  | field :: fields, argument :: arguments =>
    match argument.or (py.default cls field) with
    | some val => (fill cls fields arguments).map (val :: ·)
    | none => .error (.typeError none)
  | _, _ => .ok []

def instantiate (cls : RecordClass) (rows : List (String × Except Raised Obj)) :
    Except Raised Obj :=
  (((collect rows cls.fields).bind (py.fill cls cls.fields)).bind (py.postInit cls)).map
    (.record cls)

mutual

def coerce : Obj → Annotation → Except Raised Obj
  | .none, _ => .ok .none
  | .list items, type =>
    match type with
    | .tupleOf item => (coerceAll items item).map .tuple
    | .pair first second => (coerceZip items [first, second]).map .tuple
    | _ => py.coerceLeaf type (.list items)
  | .tuple items, type =>
    match type with
    | .tupleOf item => (coerceAll items item).map .tuple
    | .pair first second => (coerceZip items [first, second]).map .tuple
    | _ => py.coerceLeaf type (.tuple items)
  | .dict keys vals, type =>
    match type with
    | .record base =>
      let target := targetOf base keys vals
      py.instantiate target (coerceEntries keys vals target.fields)
    | _ => py.coerceLeaf type (.dict keys vals)
  | val, type => py.coerceLeaf type val

def coerceAll : List Obj → Annotation → Except Raised (List Obj)
  | [], _ => .ok []
  | item :: items, type => (coerce item type).bind fun out ↦ (coerceAll items type).map (out :: ·)

def coerceZip : List Obj → List Annotation → Except Raised (List Obj)
  | item :: items, type :: types =>
    (coerce item type).bind fun out ↦ (coerceZip items types).map (out :: ·)
  | _, _ => .ok []

def coerceEntries : List String → List Obj → List Field → List (String × Except Raised Obj)
  | key :: keys, val :: vals, fields =>
    match fields.find? fun field ↦ field.name = key with
    | some field =>
      (key, orRaw field.optional val (coerce val field.type)) ::
        coerceEntries keys vals fields
    | none => coerceEntries keys vals fields
  | _, _, _ => []

end

def fromDict (cls : RecordClass) (data : Obj) : Except Raised Obj :=
  match data with
  | .none => .error .attributeError
  | _ => py.coerce data (.record cls)

end Python

end Tradex.Domain

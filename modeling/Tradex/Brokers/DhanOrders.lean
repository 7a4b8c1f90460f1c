import Tradex.Brokers.MutationTracker
import Tradex.Brokers.ProviderClient
import Tradex.Execution.EngineState

/-!
# Placing orders with Dhan

The placement of an order, from the live fill source down to the injected fetch.
-/

namespace Tradex.Brokers.Dhan

open Tradex.Domain Tradex.Execution

variable (body : Fields)

def unwrapData : Json := (Fields.get body "data").getD (.object body)

def firstMapping : Json → Fields
  | .object fields => fields
  | .list (.object fields :: _) => fields
  | _ => []

def getEither (row : Fields) (first second : String) : Json :=
  (Fields.get row first).getD (Fields.getOrNull row second)

def rawOrderId : Json :=
  getEither (firstMapping (unwrapData body)) "orderId" "order_id"

def rawResponseOrderId (provider : String) : Json :=
  let row := firstMapping (unwrapData body)
  let raw :=
    if provider = "Dhan eDIS" then
      (Fields.get row "authorizationId").getD (getEither row "edisId" "edis_id")
    else getEither row "orderId" "order_id"
  match raw with
  | .null =>
    match getEither row "orderIds" "order_ids" with
    | .list (first :: _) => first
    | _ => .null
  | raw => raw

def orderIdText (ops : TextOps) (raw : Json) (missing : String) : Except Raised String :=
  match raw with
  | .null => .error { cls := .valueError, message := missing }
  | raw => .ok (ops.str raw)

def responseOrderId (ops : TextOps) (body : Fields) (provider : String) : Except Raised String :=
  orderIdText ops (rawResponseOrderId body provider)
    (provider ++ " extension response missing order id")

structure Session where
  http : ClientState
  tracker : Mutation.UncertainSubmissionTracker

def exchangeOf (before : ℕ) (asked : Except Raised Fields × ClientState) : Mutation.Exchanges where
  prepare _ := if asked.2.pipeline.attempts = before then asked.1.map fun _ ↦ () else .ok ()
  reply _ := asked.1

def submitMutation (http : ProviderHttpClient) (ops : TextOps) (around : ClientSurroundings)
    (method path operation : String) (cid : Option String) (args : RequestArgs)
    (sess : Session) : Except Raised Fields × Session :=
  let asked := http.request ops around method path (some false) args sess.http
  let ended := (Mutation.submitMutation ops operation cid).run
    (Mutation.exec (exchangeOf sess.http.pipeline.attempts asked))
    { Mutation.Shared.initial with tracker := sess.tracker }
  (ended.1,
    { http := if ended.2.prepared = 0 then sess.http else asked.2
      tracker := ended.2.tracker })

structure DhanApiClient where
  http : ProviderHttpClient
  baseUrl : String
  clientId : String
  segment : Instrument → Except Raised String
  securityId : Instrument → Except Raised String

def nativeProductType : ProductType → String
  | .intraday => "INTRADAY"
  | .delivery => "CNC"
  | .margin => "MARGIN"
  | .mtf => "MTF"
  | .coverOrder => "CO"

def nativeOrderType (req : OrderRequest) : String :=
  match req.orderType with
  | .stopLimit => "STOP_LOSS"
  | .stop => if req.price.isSome then "STOP_LOSS" else "STOP_LOSS_MARKET"
  | other => other.value

def jsonPrice (price : Price) : Json := .float price.value.toRat

namespace DhanApiClient

variable (client : DhanApiClient) (ops : TextOps) (around : ClientSurroundings)

def url (path : String) : String := if client.baseUrl = "" then path else client.baseUrl ++ path

variable (req : OrderRequest)

def orderPayload : Except Raised Fields :=
  (client.segment req.instrument).bind fun segment ↦
    (client.securityId req.instrument).map fun securityId ↦
      [("dhanClientId", .text client.clientId),
        ("exchangeSegment", .text segment),
        ("securityId", .text securityId),
        ("transactionType", .text req.side.value),
        ("quantity", .int (req.quantity.toRat.num.tdiv req.quantity.toRat.den)),
        ("orderType", .text (nativeOrderType req)),
        ("productType", .text (nativeProductType req.productType)),
        ("validity", .text req.timeInForce.value),
        ("correlationId", .text ((req.correlationId.map CorrelationId.key).getD ""))] ++
      (req.price.toList.map fun price ↦ ("price", jsonPrice price)) ++
      (req.triggerPrice.toList.map fun price ↦ ("triggerPrice", jsonPrice price)) ++
      (if 0 < req.disclosedQuantity then
        [("disclosedQuantity", .int req.disclosedQuantity)] else [])

variable (sess : Session)

def invalidateAfterWrite : Session :=
  { sess with
    http := { sess.http with
      cache := sess.http.cache.map fun cache ↦ { cache with entries := Dict.empty } } }

def submitOrder : Except Raised String × Session :=
  match client.orderPayload req with
  | .error exc => (.error exc, sess)
  | .ok payload =>
    match submitMutation client.http ops around "POST" (client.url "/orders")
        "Dhan order placement" (req.correlationId.map CorrelationId.key)
        { json := some (.object payload) } sess with
    | (.error exc, sess) => (.error exc, sess)
    | (.ok body, sess) =>
      match orderIdText ops (rawOrderId body) "Dhan order response missing orderId" with
      | .error exc => (.error exc, sess)
      | .ok oid => (.ok oid, invalidateAfterWrite sess)

def protectivePrices : Except Raised (Price × Price) :=
  match req.price, req.targetPrice, req.stopLossPrice with
  | some price, some target, some stop =>
    if protectivePricesValid req.side price stop target then .ok (target, stop)
    else .error
      { cls := .valueError
        message := "Dhan super order protective prices are invalid for the order side" }
  | _, _, _ => .error
      { cls := .valueError
        message := "Dhan super order requires price, target_price, and stop_loss_price" }

def superPayload : Except Raised Fields :=
  (protectivePrices req).bind fun prices ↦
    (client.orderPayload req).map fun payload ↦
      payload ++
        [("targetPrice", jsonPrice prices.1),
          ("stopLossPrice", jsonPrice prices.2),
          ("trailingJump", (req.trailingJump.map jsonPrice).getD (.float 0))]

def submitSuperOrder : Except Raised String × Session :=
  match client.superPayload req with
  | .error exc => (.error exc, sess)
  | .ok payload =>
    match client.http.request ops around "POST" (client.url "/super/orders") (some false)
        { json := some (.object payload) } sess.http with
    | (.error exc, http) => (.error exc, { sess with http := http })
    | (.ok body, http) =>
      (responseOrderId ops body "Dhan", invalidateAfterWrite { sess with http := http })

end DhanApiClient

structure DhanBroker where
  client : DhanApiClient
  allowOrderOperations : Bool
  supportsSuperOrder : Bool
  connected : Bool

structure Placement where
  broker : DhanBroker
  ops : TextOps
  around : ClientSurroundings
  session : Session

namespace DhanBroker

variable (broker : DhanBroker)

def requireMutation : Except Raised Unit :=
  if broker.allowOrderOperations then .ok ()
  else .error { cls := .orderRejectedError, message := "live order gate disabled" }

def requireSuperOrder : Except Raised Unit :=
  if broker.supportsSuperOrder then .ok ()
  else .error
    { cls := .capabilityNotSupportedError
      message := "broker does not support capability: supports_super_order" }

def require : Except Raised Unit :=
  if broker.connected then .ok ()
  else .error { cls := .brokerUnavailableError, message := "DhanBroker not connected" }

def gates (req : OrderRequest) : Except Raised Unit :=
  broker.requireMutation.bind fun _ ↦
    (if req.isBracket then broker.requireSuperOrder else .ok ()).bind fun _ ↦ broker.require

end DhanBroker

def tradingError (exc : Raised) : TradingError :=
  if exc.isInstance .orderSubmissionUnknownError then .orderSubmissionUnknown exc.message
  else if exc.isInstance .orderRejectedError then .orderRejected exc.message
  else if exc.isInstance .valueError then .value exc.message
  else .other exc.message

def isClientError : FetchReply → Bool
  | .pair (.int status) _ => 400 ≤ status && status < 500
  | _ => false

namespace Placement

variable (placement : Placement) (req : OrderRequest)

def place : Except Raised String × Session :=
  match placement.broker.gates req with
  | .error exc => (.error exc, placement.session)
  | .ok _ =>
    if req.isBracket then
      placement.broker.client.submitSuperOrder placement.ops placement.around req
        placement.session
    else
      placement.broker.client.submitOrder placement.ops placement.around req placement.session

def wasSent : Bool :=
  (placement.place req).2.http.pipeline.attempts ≠ placement.session.http.pipeline.attempts

def reply : FetchReply :=
  placement.around.network.fetch placement.session.http.pipeline.attempts

def certainlyNotTaken : Bool := !placement.wasSent req || isClientError placement.reply

def submit : SubmitOutcome :=
  match (placement.place req).1 with
  | .ok oid => .accepted (createOrder req oid .ack 0) none
  | .error exc =>
    .raised (tradingError exc) (some (exc.isInstance .orderSubmissionUnknownError))
      (!placement.certainlyNotTaken req)

end Placement

end Tradex.Brokers.Dhan

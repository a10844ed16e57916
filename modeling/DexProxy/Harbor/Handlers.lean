/-
  DexProxy.Harbor.Handlers — `harbor.py`'s bridge: `_execute_api_call`, `_bad_request`,
  `_api_not_ready`, and the fourteen handlers `_register_endpoints` registers.

  A handler reads the adapter's state, never changes it, and makes at most one upstream call,
  through `_execute_api_call`, which never raises: a `HarborAPIError` becomes
  `(exc.status, exc.to_response())` and any other exception `(500, {"error": {"message":
  str(exc)}})`. A handler returns `(status, body)` or raises, as Python does.

  Handlers of one shape share one definition: `requireParams` (`_create_order`,
  `_update_order`, `_cancel_order`, `_get_order`) and `requireId` (`_get_withdraw`,
  `_get_tx_details`), each member applied to its own message, keys and operation.
  `Endpoint.route` is the method and path each handler is registered under; the summaries,
  tags and OpenAPI targets of the registrations are documentation no handler reads.
-/

import DexProxy.Harbor.Adapter
import Mathlib.Data.List.Sort
import Mathlib.Data.String.Basic
import Mathlib.Tactic.DeriveFintype

namespace DexProxy.HarborConnector

open DexProxy.Python

/-- `(status, body)`. -/
abbrev Response := Nat × Value

def errorBody (message : String) : Value := .dict [("error", .dict [("message", .str message)])]

/-- `Harbor._bad_request(message)`. -/
def badRequest (message : String) : Response := (400, errorBody message)

/-- `Harbor._api_not_ready()`. -/
def apiNotReady : Response := (503, errorBody "Harbor API client not initialised")

/-- The `try` of `_execute_api_call` and its two `except` clauses, on the call's outcome. -/
def relay (successStatus : Nat) : Except Exc Value → Response
  | .ok result => (successStatus, result)
  | .error (.harborAPIError e) => (e.status, e.toResponse)
  | .error e => (500, errorBody e.str)

/-- `_execute_api_call(method, *args, success_status=...)`. -/
def Harbor.executeApiCall (h : Harbor) (u : Upstream) (c : ApiCall) (successStatus : Nat := 200) : Response :=
  match h.api with
  | none => apiNotReady
  | some api => relay successStatus (api.call (h.sessions api.session).closed u c)

/-- A handler: the adapter, the upstream, and the request's `params`. -/
abbrev Handler := Harbor → Upstream → Dict → Except PyExc Response

/-! ## The handlers -/

def Harbor.getMarkets : Handler := fun h u _ => .ok (h.executeApiCall u .getMarkets)

def Harbor.getAccount : Handler := fun h u _ => .ok (h.executeApiCall u .getAccount)

def Harbor.getOrders : Handler := fun h u params => .ok (h.executeApiCall u (.getOrders params))

def Harbor.getInboundAddresses : Handler := fun h u _ => .ok (h.executeApiCall u .getInboundAddresses)

def Harbor.getOutboundFees : Handler := fun h u _ => .ok (h.executeApiCall u .getOutboundFees)

/-- `if not params: return self._bad_request(message)`, then the operation on `params`. -/
def requireParams (message : String) (call : Dict → ApiCall) : Handler := fun h u params =>
  if params.isEmpty then .ok (badRequest message) else .ok (h.executeApiCall u (call params))

def Harbor.createOrder : Handler := requireParams "Order payload is required" .createOrder

def Harbor.updateOrder : Handler := requireParams "Update payload is required" .updateOrder

def Harbor.cancelOrder : Handler := requireParams "Query parameters are required to cancel an order" .cancelOrder

def Harbor.getOrder : Handler := requireParams "Order query parameters are required" .getOrder

/-- `ident = params.get(key) or params.get(altKey)`; without one, `_bad_request(message)`;
    else the operation on `str(ident)`. -/
def requireId (key altKey message : String) (call : String → ApiCall) : Handler := fun h u params =>
  let ident := (params.get key).orElse (params.get altKey)
  if ident.truthy then .ok (h.executeApiCall u (call ident.toStr)) else .ok (badRequest message)

def Harbor.getWithdraw : Handler :=
  requireId "withdrawId" "withdraw_id" "withdrawId query parameter is required" .getWithdraw

def Harbor.getTxDetails : Handler := requireId "txId" "tx_id" "txId query parameter is required" .getTxDetails

def withdrawRequiredKeys : List String := ["destination", "asset", "amount", "gasAsset", "gasAmount"]

/-- `missing = required_keys - params.keys()`, `sorted`. -/
def missingWithdrawFields (params : Dict) : List String :=
  (withdrawRequiredKeys.filter fun k => k ∉ params.keys).insertionSort (· ≤ ·)

def Harbor.withdraw : Handler := fun h u params =>
  let missing := missingWithdrawFields params
  if missing.isEmpty then .ok (h.executeApiCall u (.withdraw params))
  else .ok (badRequest ("Missing required withdraw fields: " ++ join ", " missing))

/-- `int(depth_param) if depth_param is not None else None`. -/
def depthArg : Value → Except PyExc (Option Int)
  | .none => .ok none
  | v => v.toInt.map some

def Harbor.getDepth : Handler := fun h u params =>
  let symbol := params.get "symbol"
  if symbol.truthy then (depthArg (params.get "depth")).map fun depth => h.executeApiCall u (.getDepth symbol depth)
  else .ok (badRequest "Missing \"symbol\" query parameter")

/-- `{k: v for k, v in self._from_addresses.items() if v}`. -/
def setAddresses (d : List (String × Option String)) : List (String × Value) :=
  d.filterMap fun (k, v) => if truthyOpt v then v.map fun a => (k, .str a) else none

/-- `_get_deposit_instructions`: the inbound addresses, or the sub-call's own pair when its
    status is not 200. -/
def Harbor.getDepositInstructions : Handler := fun h u _ =>
  let inbound := h.executeApiCall u .getInboundAddresses
  if inbound.1 ≠ 200 then .ok inbound
  else .ok (200, .dict ([("inbound", inbound.2), ("fromAddresses", .dict (setAddresses h.fromAddresses))] ++
    match h.websocketUrl with
    | some url => if truthy url then [("websocketUrl", .str url)] else []
    | none => []))

/-! ## The endpoint table -/

inductive Endpoint where
  | getMarkets
  | getDepth
  | getAccount
  | createOrder
  | updateOrder
  | cancelOrder
  | getOrder
  | getOrders
  | withdraw
  | getWithdraw
  | getInboundAddresses
  | getOutboundFees
  | getTxDetails
  | getDepositInstructions
  deriving DecidableEq, Repr, Fintype

/-- The handler `_register_endpoints` registers for each endpoint. -/
def Endpoint.handler : Endpoint → Handler
  | .getMarkets => Harbor.getMarkets
  | .getDepth => Harbor.getDepth
  | .getAccount => Harbor.getAccount
  | .createOrder => Harbor.createOrder
  | .updateOrder => Harbor.updateOrder
  | .cancelOrder => Harbor.cancelOrder
  | .getOrder => Harbor.getOrder
  | .getOrders => Harbor.getOrders
  | .withdraw => Harbor.withdraw
  | .getWithdraw => Harbor.getWithdraw
  | .getInboundAddresses => Harbor.getInboundAddresses
  | .getOutboundFees => Harbor.getOutboundFees
  | .getTxDetails => Harbor.getTxDetails
  | .getDepositInstructions => Harbor.getDepositInstructions

/-- The method and path `_register_endpoints` registers each handler under. -/
def Endpoint.route : Endpoint → String × String
  | .getMarkets => ("GET", "/public/harbor/markets")
  | .getDepth => ("GET", "/public/harbor/depth")
  | .getAccount => ("GET", "/private/harbor/account")
  | .createOrder => ("POST", "/private/harbor/order")
  | .updateOrder => ("PUT", "/private/harbor/order")
  | .cancelOrder => ("DELETE", "/private/harbor/order")
  | .getOrder => ("GET", "/private/harbor/order")
  | .getOrders => ("GET", "/private/harbor/orders")
  | .withdraw => ("POST", "/private/harbor/withdraw")
  | .getWithdraw => ("GET", "/private/harbor/withdraw")
  | .getInboundAddresses => ("GET", "/public/harbor/inbound-addresses")
  | .getOutboundFees => ("GET", "/public/harbor/outbound-fees")
  | .getTxDetails => ("GET", "/public/harbor/tx-details")
  | .getDepositInstructions => ("GET", "/public/harbor/deposit-instructions")

/-- No two registrations share a method and a path, so none shadows another. -/
example : Function.Injective Endpoint.route := by decide

end DexProxy.HarborConnector

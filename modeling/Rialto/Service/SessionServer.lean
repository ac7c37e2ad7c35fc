import Rialto.Lib.Runs
import Rialto.Shm.Buffer

/-! # The state of the session server

`SessionServerManager` takes the requests of the server manager, one at a time. A change of state
switches the playback and the CDM service, announces the new state and records it; when a step
fails, the steps before it are undone.

* `View`, `next`: the recorded state and the activity of the services, and what a request does to
  them; `setState_view`: the manager does that.
* `agreed_next_iff`: when a request keeps the two in agreement.
* `state_agrees_iff`: when they agree all along a run. -/

namespace Rialto.Service.SessionServer

open Rialto.Lib.Runs Rialto.Lib.Word Rialto.Shm.Buffer

inductive SessionServerState
  | uninitialized
  | inactive
  | active
  | notRunning
  | error
  deriving DecidableEq, Repr

/-! ## The services -/

/-- `PlaybackService`, as far as switching it needs. -/
structure PlaybackService where
  isActive : Bool
  maxPlaybacks : ℤ
  maxWebAudioPlayers : ℤ
  shmBuffer : Option SharedMemoryBuffer
  deriving DecidableEq, Repr

/-- Conversion of an `int` to `unsigned`. -/
def toUnsigned (x : ℤ) : ℕ := (x % w32).toNat

/-- `createSharedMemoryBuffer` with the limits of the service. -/
def PlaybackService.createBuffer (p : PlaybackService) (sys : Sys) : Option SharedMemoryBuffer :=
  create sys (toUnsigned p.maxPlaybacks) (toUnsigned p.maxWebAudioPlayers)

def PlaybackService.switchToActive (p : PlaybackService) (sys : Sys) : Bool × PlaybackService :=
  match p.createBuffer sys with
  | some buffer => (true, { p with shmBuffer := some buffer, isActive := true })
  | none => (false, { p with isActive := false })

def PlaybackService.switchToInactive (p : PlaybackService) : PlaybackService :=
  { p with isActive := false, shmBuffer := none }

@[simp] theorem PlaybackService.switchToInactive_isActive (p : PlaybackService) :
    p.switchToInactive.isActive = false := rfl

/-- `CdmService`. -/
structure CdmService where
  isActive : Bool
  deriving DecidableEq, Repr

/-- `ICdmService::switchToActive`, with what it returns. That of `CdmService` always succeeds. -/
def CdmService.switchToActive (_ : CdmService) (switched : Bool) : Bool × CdmService :=
  (switched, ⟨switched⟩)

def CdmService.switchToInactive (_ : CdmService) : CdmService := ⟨false⟩

/-! ## The manager -/

/-- `SessionServerManager`; `events` are the states announced. -/
structure Manager where
  playbackService : PlaybackService
  cdmService : CdmService
  isServiceRunning : Bool
  currentState : SessionServerState
  events : List SessionServerState
  deriving DecidableEq, Repr

def init : Manager := ⟨⟨false, 0, 0, none⟩, ⟨false⟩, true, .uninitialized, []⟩

/-- What the steps of one request come back with. -/
structure Outcome where
  initialized : Bool
  sys : Sys
  cdm : Bool
  sendStateChangedEvent : Bool
  deriving DecidableEq, Repr

/-- `sendStateChangedEvent`. -/
def sendStateChangedEvent (s : Manager) (state : SessionServerState) (sent : Bool) :
    Bool × Manager :=
  if sent then (true, { s with events := s.events ++ [state] }) else (false, s)

def switchToActive (s : Manager) (o : Outcome) : Bool × Manager :=
  if s.currentState = .active then (true, s)
  else
    match s.playbackService.switchToActive o.sys with
    | (false, playback) => (false, { s with playbackService := playback })
    | (true, playback) =>
      match s.cdmService.switchToActive o.cdm with
      | (false, cdm) =>
        (false, { s with playbackService := playback.switchToInactive, cdmService := cdm })
      | (true, cdm) =>
        match sendStateChangedEvent { s with playbackService := playback, cdmService := cdm }
            .active o.sendStateChangedEvent with
        | (true, s) => (true, { s with currentState := .active })
        | (false, s) =>
          (false, { s with
            playbackService := s.playbackService.switchToInactive
            cdmService := s.cdmService.switchToInactive })

def switchToInactive (s : Manager) (o : Outcome) : Bool × Manager :=
  if s.currentState = .inactive then (true, s)
  else
    match sendStateChangedEvent { s with
        playbackService := s.playbackService.switchToInactive
        cdmService := s.cdmService.switchToInactive } .inactive o.sendStateChangedEvent with
    | (true, s) => (true, { s with currentState := .inactive })
    | (false, s) =>
      -- a service that does not come back is only logged
      (false, { s with
        playbackService := (s.playbackService.switchToActive o.sys).2
        cdmService := (s.cdmService.switchToActive o.cdm).2 })

def switchToNotRunning (s : Manager) (o : Outcome) : Bool × Manager :=
  if s.currentState = .notRunning then (true, s)
  else
    match sendStateChangedEvent { s with isServiceRunning := false } .notRunning
        o.sendStateChangedEvent with
    | (true, s) => (true, { s with currentState := .notRunning })
    | (false, s) => (false, s)

def setState (s : Manager) (state : SessionServerState) (o : Outcome) : Bool × Manager :=
  match state with
  | .active => switchToActive s o
  | .inactive => switchToInactive s o
  | .notRunning => switchToNotRunning s o
  | _ => (false, (sendStateChangedEvent s .error o.sendStateChangedEvent).2)

/-- `setMaxPlaybacks` and `setMaxWebAudioPlayers`. -/
def setMax (s : Manager) (maxPlaybacks maxWebAudioPlayers : ℤ) : Manager :=
  { s with playbackService := { s.playbackService with
      maxPlaybacks := maxPlaybacks
      maxWebAudioPlayers := maxWebAudioPlayers } }

def setConfiguration (s : Manager) (state : SessionServerState)
    (maxPlaybacks maxWebAudioPlayers : ℤ) (o : Outcome) : Bool × Manager :=
  if o.initialized then setState (setMax s maxPlaybacks maxWebAudioPlayers) state o else (false, s)

/-! ## Requests -/

inductive Request
  | setConfiguration (state : SessionServerState) (maxPlaybacks maxWebAudioPlayers : ℤ)
  | setState (state : SessionServerState)
  deriving DecidableEq, Repr

def handle (s : Manager) : Request × Outcome → Bool × Manager
  | (.setConfiguration state maxPlaybacks maxWebAudioPlayers, o) =>
    setConfiguration s state maxPlaybacks maxWebAudioPlayers o
  | (.setState state, o) => setState s state o

def step (s : Manager) (a : Request × Outcome) : Option Manager := some (handle s a).2

/-! ## What is visible of the manager -/

/-- The recorded state and which services are active. -/
structure View where
  recorded : SessionServerState
  playback : Bool
  cdm : Bool
  deriving DecidableEq, Repr

def view (s : Manager) : View := ⟨s.currentState, s.playbackService.isActive, s.cdmService.isActive⟩

/-- A request for a state, with what becomes of starting the two services and of the
announcement. -/
def next (v : View) (state : SessionServerState) (starts cdm sent : Bool) : Bool × View :=
  match state with
  | .active =>
    if v.recorded = .active then (true, v)
    else if starts = false then (false, { v with playback := false })
    else if cdm = false then (false, { v with playback := false, cdm := false })
    else if sent then (true, ⟨.active, true, true⟩)
    else (false, { v with playback := false, cdm := false })
  | .inactive =>
    if v.recorded = .inactive then (true, v)
    else if sent then (true, ⟨.inactive, false, false⟩)
    else (false, { v with playback := starts, cdm := cdm })
  | .notRunning =>
    if v.recorded = .notRunning then (true, v)
    else if sent then (true, { v with recorded := .notRunning })
    else (false, v)
  | _ => (false, v)

/-- Whether the playback service would start. -/
def Manager.starts (s : Manager) (o : Outcome) : Bool :=
  (s.playbackService.createBuffer o.sys).isSome

theorem switchToActive_view (s : Manager) (o : Outcome) :
    ((switchToActive s o).1, view (switchToActive s o).2) =
      next (view s) .active (s.starts o) o.cdm o.sendStateChangedEvent := by
  by_cases hstate : s.currentState = .active
  · simp [switchToActive, next, view, hstate]
  · cases hcreate : s.playbackService.createBuffer o.sys with
    | none =>
      simp [switchToActive, next, view, Manager.starts, PlaybackService.switchToActive, hstate,
        hcreate]
    | some buffer =>
      cases hcdm : o.cdm <;> cases hsent : o.sendStateChangedEvent <;>
        simp [switchToActive, next, view, Manager.starts, PlaybackService.switchToActive,
          CdmService.switchToActive, CdmService.switchToInactive, sendStateChangedEvent, hstate,
          hcreate, hcdm, hsent]

theorem switchToInactive_view (s : Manager) (o : Outcome) :
    ((switchToInactive s o).1, view (switchToInactive s o).2) =
      next (view s) .inactive (s.starts o) o.cdm o.sendStateChangedEvent := by
  have hbuffer : s.playbackService.switchToInactive.createBuffer o.sys =
      s.playbackService.createBuffer o.sys := rfl
  by_cases hstate : s.currentState = .inactive
  · simp [switchToInactive, next, view, hstate]
  · cases hcreate : s.playbackService.createBuffer o.sys <;>
      cases hsent : o.sendStateChangedEvent <;>
      simp [switchToInactive, next, view, Manager.starts, PlaybackService.switchToActive,
        CdmService.switchToActive, CdmService.switchToInactive, sendStateChangedEvent, hstate,
        hbuffer, hcreate, hsent]

theorem switchToNotRunning_view (s : Manager) (o : Outcome) :
    ((switchToNotRunning s o).1, view (switchToNotRunning s o).2) =
      next (view s) .notRunning (s.starts o) o.cdm o.sendStateChangedEvent := by
  simp only [switchToNotRunning, next, view, sendStateChangedEvent]
  by_cases hstate : s.currentState = .notRunning
  · simp [hstate]
  · cases o.sendStateChangedEvent <;> simp [hstate]

/-- **Refinement**: a request does to the manager what `next` does to what is visible of it. -/
theorem setState_view (s : Manager) (state : SessionServerState) (o : Outcome) :
    ((setState s state o).1, view (setState s state o).2) =
      next (view s) state (s.starts o) o.cdm o.sendStateChangedEvent := by
  cases state with
  | active => exact switchToActive_view s o
  | inactive => exact switchToInactive_view s o
  | notRunning => exact switchToNotRunning_view s o
  | uninitialized =>
    simp only [setState, next, sendStateChangedEvent, view]
    cases o.sendStateChangedEvent <;> rfl
  | error =>
    simp only [setState, next, sendStateChangedEvent, view]
    cases o.sendStateChangedEvent <;> rfl

/-! ## Agreement -/

/-- The recorded state agrees with the services. -/
structure Agreed (v : View) : Prop where
  active : v.recorded = .active → v.playback = true ∧ v.cdm = true
  inactive : v.recorded = .inactive ∨ v.recorded = .uninitialized →
    v.playback = false ∧ v.cdm = false

/-- The condition on a request for a state: one to become inactive that is not announced is made in
the active state with both services starting again, or in the uninitialized state with neither
starting, or in the not running state. -/
def Undone (v : View) (state : SessionServerState) (starts cdm sent : Bool) : Prop :=
  state = .inactive → v.recorded ≠ .inactive → sent = false →
    (v.recorded = .active → starts = true ∧ cdm = true) ∧
    (v.recorded = .uninitialized → starts = false ∧ cdm = false)

/-- One request: the condition is what decides. -/
theorem agreed_next_iff {v : View} (h : Agreed v) (state : SessionServerState)
    (starts cdm sent : Bool) :
    Agreed (next v state starts cdm sent).2 ↔ Undone v state starts cdm sent := by
  obtain ⟨recorded, playback, cdmActive⟩ := v
  obtain ⟨hactive, hinactive⟩ := h
  cases state with
  | active =>
    refine iff_of_true ?_ (nofun)
    simp only [next]
    split_ifs with h1 h2 h3 h4
    · exact ⟨hactive, hinactive⟩
    · exact ⟨fun h => absurd h h1, fun h => ⟨rfl, (hinactive h).2⟩⟩
    · exact ⟨fun h => absurd h h1, fun _ => ⟨rfl, rfl⟩⟩
    · exact ⟨fun _ => ⟨rfl, rfl⟩, nofun⟩
    · exact ⟨fun h => absurd h h1, fun _ => ⟨rfl, rfl⟩⟩
  | inactive =>
    simp only [next, Undone, forall_const]
    split_ifs with h1 h2
    · exact iff_of_true ⟨hactive, hinactive⟩ fun h => absurd h1 h
    · refine iff_of_true ⟨nofun, fun _ => ⟨rfl, rfl⟩⟩ fun _ h => ?_
      rw [h2] at h
      cases h
    · constructor
      · exact fun h _ _ => ⟨h.active, fun hu => h.inactive (Or.inr hu)⟩
      · intro h
        obtain ⟨ha, hu⟩ := h h1 (Bool.eq_false_iff.mpr h2)
        exact ⟨ha, fun h => h.elim (fun h => absurd h h1) hu⟩
  | notRunning =>
    refine iff_of_true ?_ (nofun)
    simp only [next]
    split_ifs
    · exact ⟨hactive, hinactive⟩
    · exact ⟨nofun, nofun⟩
    · exact ⟨hactive, hinactive⟩
  | uninitialized => exact iff_of_true ⟨hactive, hinactive⟩ (nofun)
  | error => exact iff_of_true ⟨hactive, hinactive⟩ (nofun)

/-- In agreement, a request to become active that returns `true` leaves both services active, and it
returns `true` when both services start and the state is announced. -/
theorem agreed_activates {v : View} (h : Agreed v) (starts cdm sent : Bool) :
    ((next v .active starts cdm sent).1 = true →
      (next v .active starts cdm sent).2 = ⟨.active, true, true⟩) ∧
    (starts = true → cdm = true → sent = true → (next v .active starts cdm sent).1 = true) := by
  obtain ⟨recorded, playback, cdmActive⟩ := v
  simp only [next]
  split_ifs with h1 h2 h3 h4
  · obtain ⟨hplayback, hcdm⟩ := h.active h1
    simp only at h1 hplayback hcdm
    subst h1 hplayback hcdm
    exact ⟨fun _ => rfl, fun _ _ _ => rfl⟩
  · exact ⟨nofun, fun h => by rw [h2] at h; cases h⟩
  · exact ⟨nofun, fun _ h => by rw [h3] at h; cases h⟩
  · exact ⟨fun _ => rfl, fun _ _ _ => rfl⟩
  · exact ⟨nofun, fun _ _ h => absurd h h4⟩

/-! ## Runs -/

/-- **Agreement** of the recorded state with the services: active means both are active, inactive
and uninitialized mean that neither is, and asking for the active state activates what is
inactive. -/
structure Agrees (s : Manager) : Prop where
  active : s.currentState = .active →
    s.playbackService.isActive = true ∧ s.cdmService.isActive = true
  inactive : s.currentState = .inactive ∨ s.currentState = .uninitialized →
    s.playbackService.isActive = false ∧ s.cdmService.isActive = false
  activates : ∀ o, (setState s .active o).1 = true →
    (setState s .active o).2.playbackService.isActive = true ∧
      (setState s .active o).2.cdmService.isActive = true
  succeeds : ∀ o, s.starts o = true → o.cdm = true → o.sendStateChangedEvent = true →
    (setState s .active o).1 = true

theorem agrees_iff (s : Manager) : Agrees s ↔ Agreed (view s) := by
  constructor
  · exact fun h => ⟨h.active, h.inactive⟩
  · intro h
    refine ⟨h.active, h.inactive, fun o hret => ?_, fun o => ?_⟩
    · have hview := setState_view s .active o
      have hfirst := congrArg Prod.fst hview
      have hsecond := congrArg Prod.snd hview
      simp only at hfirst hsecond
      rw [hfirst] at hret
      rw [(agreed_activates h _ _ _).1 hret] at hsecond
      exact ⟨congrArg View.playback hsecond, congrArg View.cdm hsecond⟩
    · have hfirst := congrArg Prod.fst (setState_view s .active o)
      simp only at hfirst
      rw [hfirst]
      exact (agreed_activates h _ _ _).2

/-- The condition on a request, in the state in which it asks for the new state. -/
def Meets (s : Manager) : Request × Outcome → Prop
  | (.setState state, o) => Undone (view s) state (s.starts o) o.cdm o.sendStateChangedEvent
  | (.setConfiguration state maxPlaybacks maxWebAudioPlayers, o) =>
    o.initialized = true → Undone (view s) state
      ((setMax s maxPlaybacks maxWebAudioPlayers).starts o) o.cdm o.sendStateChangedEvent

theorem agrees_setState_iff {s : Manager} (h : Agrees s) (state : SessionServerState)
    (o : Outcome) :
    Agrees (setState s state o).2 ↔
      Undone (view s) state (s.starts o) o.cdm o.sendStateChangedEvent := by
  have hsecond := congrArg Prod.snd (setState_view s state o)
  simp only at hsecond
  rw [agrees_iff, hsecond]
  exact agreed_next_iff ((agrees_iff s).mp h) _ _ _ _

theorem agrees_step_iff {s s' : Manager} {a : Request × Outcome} (h : Agrees s)
    (hstep : step s a = some s') : Agrees s' ↔ Meets s a := by
  obtain ⟨request, o⟩ := a
  cases hstep
  cases request with
  | setState state => exact agrees_setState_iff h state o
  | setConfiguration state maxPlaybacks maxWebAudioPlayers =>
    simp only [handle, setConfiguration, Meets]
    split_ifs with hinit
    · have hmax : Agrees (setMax s maxPlaybacks maxWebAudioPlayers) :=
        (agrees_iff _).mpr ((agrees_iff s).mp h)
      rw [agrees_setState_iff hmax]
      exact ⟨fun h _ => h, fun h => h hinit⟩
    · exact iff_of_true h fun h => absurd h hinit

theorem agrees_init : Agrees init :=
  (agrees_iff init).mpr ⟨nofun, fun _ => ⟨rfl, rfl⟩⟩

/-- **The recorded state agrees with the services** after every request of a run exactly when every
request of the run meets the condition. -/
theorem state_agrees_iff {as : List (Request × Outcome)} {s : Manager}
    (h : Run step (fun _ _ => True) init as s) :
    (∀ pre post t, as = pre ++ post → Run step (fun _ _ => True) init pre t → Agrees t) ↔
      ∀ a t, Occurs step (fun _ _ => True) init as a t → Meets t a :=
  h.always_iff (fun _ => True) Agrees Meets trivial (fun _ _ _ _ _ => trivial) agrees_init
    fun _ _ _ _ ht hstep => agrees_step_iff ht hstep

/-! ## Two requests -/

/-- All steps of a request succeed. -/
def succeeding : Outcome := ⟨true, ⟨true, true, true, true⟩, true, true⟩

/-- The new state cannot be announced. -/
def unannounced : Outcome := { succeeding with sendStateChangedEvent := false }

/-- Becoming active, and failing to become inactive again: both services are restarted. -/
theorem state_agrees_restored :
    Agrees (handle (handle init (.setConfiguration .active 1 1, succeeding)).2
      (.setState .inactive, unannounced)).2 := by
  have hrun : Run step (fun _ _ => True) init
      [(.setConfiguration .active 1 1, succeeding), (.setState .inactive, unannounced)]
      (handle (handle init (.setConfiguration .active 1 1, succeeding)).2
        (.setState .inactive, unannounced)).2 :=
    Run.cons trivial rfl (Run.cons trivial rfl (Run.nil _))
  refine (state_agrees_iff hrun).mpr (fun a t h => ?_) _ [] _ (List.append_nil _).symm hrun
  rcases h.cons_cases with ⟨rfl, rfl⟩ | ⟨s, hs, h⟩
  · exact fun _ h => nomatch h
  · cases hs
    rcases h.cons_cases with ⟨rfl, rfl⟩ | ⟨s, hs, h⟩
    · exact fun _ _ _ => ⟨fun _ => by decide, nofun⟩
    · cases h.mem

/-- The services are active in the uninitialized state when the request to become inactive cannot be
announced; and when the playback service does not start again, the recorded state stays active and
the next request to become active changes nothing. -/
theorem inactive_not_announced :
    (∃ as s, Run step (fun _ _ => True) init as s ∧ s.currentState = .uninitialized ∧
      s.playbackService.isActive = true ∧ s.cdmService.isActive = true) ∧
    (∃ as s, Run step (fun _ _ => True) init as s ∧ s.currentState = .active ∧
      s.playbackService.isActive = false ∧
      (setState s .active succeeding).1 = true ∧
      (setState s .active succeeding).2.playbackService.isActive = false) ∧
    ¬ ∀ as s, Run step (fun _ _ => True) init as s → Agrees s := by
  have hfirst : Run step (fun _ _ => True) init [(.setConfiguration .inactive 1 1, unannounced)]
      (handle init (.setConfiguration .inactive 1 1, unannounced)).2 :=
    Run.cons trivial rfl (Run.nil _)
  have hsecond : Run step (fun _ _ => True) init
      [(.setConfiguration .active 1 1, succeeding),
        (.setState .inactive, { unannounced with sys := ⟨false, true, true, true⟩ })]
      (handle (handle init (.setConfiguration .active 1 1, succeeding)).2
        (.setState .inactive, { unannounced with sys := ⟨false, true, true, true⟩ })).2 :=
    Run.cons trivial rfl (Run.cons trivial rfl (Run.nil _))
  refine ⟨⟨_, _, hfirst, by decide, by decide, by decide⟩,
    ⟨_, _, hsecond, by decide, by decide, by decide, by decide⟩, fun h => ?_⟩
  have := ((h _ _ hfirst).inactive (by decide)).1
  revert this
  decide

end Rialto.Service.SessionServer

import Mathlib.Algebra.GroupWithZero.Nat
import Rialto.Lib.Remote
import Rialto.WebAudio.Server

/-! # The calls of a web audio player

As for a media pipeline (`Rialto.Link.MediaPipelineCalls`): a `WebAudioPlayerIpc` exists once the
server has told it the handle of its player, and asks for the end of the player when it is
destructed; `WebAudioPlayerModuleService` has `WebAudioPlayerService` call the player with the
handle. The frames themselves are in the shared memory: `writeBuffer` has their number only. A
`getBufferAvailable` that is given no `webAudioShmInfo` returns false before anything is sent, and
counts as a call without a connection.

* `protocol`, `protocol_lawful`: the messages, and what they make of a call.
* `player_stands_for`: over a run, a `WebAudioPlayerIpc` is its player, which no one else has. -/

namespace Rialto.Link.WebAudioCalls

open Rialto.Lib.OrdMap Rialto.Lib.Runs Rialto.Lib.Remote
open Rialto.WebAudio.Server (WebAudioShmInfo)

variable {D M : Type*}

/-! ## The functions of a player -/

inductive Command (D : Type*)
  | play
  | pause
  | setEos
  | getBufferAvailable
  | getBufferDelay
  | writeBuffer (numberOfFrames : ℕ)
  | getDeviceInfo
  | setVolume (volume : D)
  | getVolume
  deriving DecidableEq

/-- The variables of the caller, for all functions. -/
structure Vars (D : Type*) where
  availableFrames : ℕ
  webAudioShmInfo : WebAudioShmInfo
  delayFrames : ℕ
  preferredFrames : ℕ
  maximumFrames : ℕ
  supportDeferredPlay : Bool
  volume : D

/-- The functions of a player: whether they succeed, and the variables and the player then. -/
abbrev IWebAudioPlayer (D M : Type*) := M → Command D → Vars D → Bool × Vars D × M

/-! ## Messages -/

inductive Request (D : Type*)
  | play (handle : ℤ)
  | pause (handle : ℤ)
  | setEos (handle : ℤ)
  | getBufferAvailable (handle : ℤ)
  | getBufferDelay (handle : ℤ)
  | writeBuffer (handle : ℤ) (numberOfFrames : ℕ)
  | getDeviceInfo (handle : ℤ)
  | setVolume (handle : ℤ) (volume : D)
  | getVolume (handle : ℤ)

/-- The responses, with the fields of all of them; `none` is a field that is not set. Whether
deferred play is supported travels as a number. -/
structure Response (D : Type*) where
  availableFrames : Option ℕ := none
  shmInfo : Option WebAudioShmInfo := none
  delayFrames : Option ℕ := none
  preferredFrames : Option ℕ := none
  maximumFrames : Option ℕ := none
  supportDeferredPlay : Option ℕ := none
  volume : Option D := none

/-! ## The client -/

namespace WebAudioPlayerIpc

/-- The request of a call. -/
def request (handle : ℤ) : Command D → Request D
  | .play => .play handle
  | .pause => .pause handle
  | .setEos => .setEos handle
  | .getBufferAvailable => .getBufferAvailable handle
  | .getBufferDelay => .getBufferDelay handle
  | .writeBuffer numberOfFrames => .writeBuffer handle numberOfFrames
  | .getDeviceInfo => .getDeviceInfo handle
  | .setVolume volume => .setVolume handle volume
  | .getVolume => .getVolume handle

/-- The end of a call, with what the controller says and the response. -/
def finish [Zero D] (failed : Bool) (response : Response D) (c : Command D) (vars : Vars D) :
    Bool × Vars D :=
  if failed then (false, vars)
  else
    match c with
    | .getBufferAvailable =>
      (true, { vars with
        availableFrames := response.availableFrames.getD 0
        webAudioShmInfo := response.shmInfo.getD ⟨0, 0, 0, 0⟩ })
    | .getBufferDelay => (true, { vars with delayFrames := response.delayFrames.getD 0 })
    | .getDeviceInfo =>
      (true, { vars with
        preferredFrames := response.preferredFrames.getD 0
        maximumFrames := response.maximumFrames.getD 0
        supportDeferredPlay := response.supportDeferredPlay.getD 0 != 0 })
    | .getVolume => (true, { vars with volume := response.volume.getD 0 })
    | _ => (true, vars)

end WebAudioPlayerIpc

/-! ## The server -/

namespace WebAudioPlayerModuleService

/-- The variables that the players are called with. -/
def unset [Zero D] : Vars D := ⟨0, ⟨0, 0, 0, 0⟩, 0, 0, 0, false, 0⟩

/-- The response to a call that has returned. -/
def respond (success : Bool) (vars : Vars D) (c : Command D) : Response D :=
  if success then
    match c with
    | .getBufferAvailable =>
      { availableFrames := some vars.availableFrames, shmInfo := some vars.webAudioShmInfo }
    | .getBufferDelay => { delayFrames := some vars.delayFrames }
    | .getDeviceInfo =>
      { preferredFrames := some vars.preferredFrames
        maximumFrames := some vars.maximumFrames
        supportDeferredPlay := some vars.supportDeferredPlay.toNat }
    | .getVolume => { volume := some vars.volume }
    | _ => {}
  else {}

end WebAudioPlayerModuleService

def Request.webAudioPlayerHandle : Request D → ℤ
  | .play h | .pause h | .setEos h | .getBufferAvailable h | .getBufferDelay h | .writeBuffer h _
  | .getDeviceInfo h | .setVolume h _ | .getVolume h => h

/-- What the service calls for a request. -/
def Request.command : Request D → Command D
  | .play _ => .play
  | .pause _ => .pause
  | .setEos _ => .setEos
  | .getBufferAvailable _ => .getBufferAvailable
  | .getBufferDelay _ => .getBufferDelay
  | .writeBuffer _ numberOfFrames => .writeBuffer numberOfFrames
  | .getDeviceInfo _ => .getDeviceInfo
  | .setVolume _ volume => .setVolume volume
  | .getVolume _ => .getVolume

/-- The messages of the module. `WebAudioPlayerService` calls the player with the handle
(`callObject`), `WebAudioPlayerModuleService` answers (`Protocol.serve`). -/
def protocol [Zero D] : Protocol (Command D) (Vars D) (Request D) (Response D) where
  request := WebAudioPlayerIpc.request
  number := Request.webAudioPlayerHandle
  command q := some q.command
  unset := WebAudioPlayerModuleService.unset
  respond := WebAudioPlayerModuleService.respond
  empty := {}
  finish := WebAudioPlayerIpc.finish

/-! ## Players -/

abbrev State (D M : Type*) := Lib.Remote.State (Vars D) M

abbrev Act (D M : Type*) := Lib.Remote.Act (Command D) (Vars D) M

/-- `createWebAudioPlayer` and `destroyWebAudioPlayer` with the `WebAudioPlayerIpc`, which is
constructed and destructed by them, calls of it, `clientDisconnected` and `clearWebAudioPlayers`.
The `WebAudioPlayerIpc` with the number `i` is in the process `client i`. -/
def step [Zero D] (o : IWebAudioPlayer D M) (client : ℕ → ℕ) (s : State D M) (a : Act D M) :
    Option (State D M) :=
  protocol.step o client s a

/-- A success copies the variables that the call is for. -/
def copy : Command D → Vars D → Vars D → Vars D
  | .getBufferAvailable, server, vars =>
    { vars with
      availableFrames := server.availableFrames
      webAudioShmInfo := server.webAudioShmInfo }
  | .getBufferDelay, server, vars => { vars with delayFrames := server.delayFrames }
  | .getDeviceInfo, server, vars =>
    { vars with
      preferredFrames := server.preferredFrames
      maximumFrames := server.maximumFrames
      supportDeferredPlay := server.supportDeferredPlay }
  | .getVolume, server, vars => { vars with volume := server.volume }
  | _, _, vars => vars

/-- What a `WebAudioPlayerIpc` makes of a player: all calls arrive as they are. -/
def interface [Zero D] (o : IWebAudioPlayer D M) : Interface (Command D) (Vars D) M :=
  ⟨o, id, WebAudioPlayerModuleService.unset, copy⟩

theorem toNat_ne_zero (b : Bool) : (b.toNat != 0) = b := by
  cases b <;> rfl

theorem protocol_lawful [Zero D] : (protocol (D := D)).Lawful id copy where
  number_request id c := by cases c <;> rfl
  command_request id c := by cases c <;> rfl
  finish_failed r c vars := rfl
  finish_respond c server vars := by
    cases c with
    | getDeviceInfo =>
      have hsupport := toNat_ne_zero server.supportDeferredPlay
      show (true, { vars with
        preferredFrames := server.preferredFrames
        maximumFrames := server.maximumFrames
        supportDeferredPlay := server.supportDeferredPlay.toNat != 0 }) = _
      rw [hsupport]
      rfl
    | _ => rfl

variable {s t : State D M} {client : ℕ → ℕ} {i : ℕ} {m : M}

/-- **A `WebAudioPlayerIpc` stands for its player**, from any point at which it has one until this
is destroyed. -/
theorem player_stands_for [Zero D] (o : IWebAudioPlayer D M) {before as : List (Act D M)}
    (hbefore : Run (step o client) (fun _ _ => True) init before s) (hm : Has s i m)
    (hrun : Run (step o client) (fun _ a => a.Spares client i) s as t) :
    Has t i ((interface o).calls m (as.flatMap (Act.callsOf i))).2 ∧
    t.returnedBy i = s.returnedBy i ++
      ((interface o).calls m (as.flatMap (Act.callsOf i))).1 :=
  protocol_lawful.stub_stands o hbefore hm hrun

/-- A player that counts the frames it is given. -/
def counting : IWebAudioPlayer ℕ ℕ
  | m, .writeBuffer numberOfFrames, vars => (true, vars, m + numberOfFrames)
  | m, .getBufferDelay, vars => (true, { vars with delayFrames := m }, m)
  | m, _, vars => (false, vars, m)

/-- The first player of a client is lost with its reply; a second one gets frames, the number of
which is asked for at the end, and one write is not answered. -/
def writes : List (Act ℕ ℕ) × List (Act ℕ ℕ) :=
  let vars : Vars ℕ := ⟨0, ⟨0, 0, 0, 0⟩, 0, 0, 0, false, 0⟩
  ([.create 0 (some 0) .unanswered, .create 0 (some 0) .answered, .create 1 (some 4) .answered],
    [.call 0 ⟨.writeBuffer 20, vars, .answered⟩, .destroy 1 .answered,
      .call 0 ⟨.writeBuffer 30, vars, .unanswered⟩, .call 0 ⟨.writeBuffer 50, vars, .lost⟩,
      .call 0 ⟨.getBufferDelay, vars, .answered⟩])

theorem player_stands_for_writes : ∃ s t,
    Run (step counting id) (fun _ _ => True) init writes.1 s ∧
    Run (step counting id) (fun _ a => a.Spares id 0) s writes.2 t ∧ t.objects.keys = [0, 1] ∧
    (t.returnedBy 0).map (fun r => (r.1, r.2.delayFrames)) =
      [(true, 0), (false, 0), (false, 0), (true, 50)] := by
  obtain ⟨s, t, hbefore, hrun, hobjects, hm, hreturned⟩ : ∃ s t,
      Run (step counting id) (fun _ _ => True) init writes.1 s ∧
      Run (step counting id) (fun _ a => a.Spares id 0) s writes.2 t ∧
      t.objects.keys = [0, 1] ∧ Has s 0 0 ∧ s.returnedBy 0 = [] :=
    ⟨_, _, Run.of_runs rfl, Run.of_runsIf rfl, rfl, ⟨1, rfl, rfl⟩, rfl⟩
  have hstands := (player_stands_for counting hbefore hm hrun).2
  rw [hreturned] at hstands
  exact ⟨s, t, hbefore, hrun, hobjects, by rw [hstands]; rfl⟩

end Rialto.Link.WebAudioCalls

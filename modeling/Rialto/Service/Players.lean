import Mathlib.Logic.Function.Basic
import Rialto.Lib.OrdMap
import Rialto.Service.SessionServer
import Rialto.Shm.Mapping

/-! # Sessions and web audio players

`MediaPipelineService` and `WebAudioPlayerService` own the players of the session server. A player
maps a partition of the shared memory buffer in its constructor and unmaps it in its destructor;
when the constructor throws, the destructor is not run.

A player holds on to the buffer it was constructed with. `generation` counts the buffers, a player
has the number of its own, and of the buffers only the last one is kept here.

* `create_cases`, `destroy_cases`: what a creation and a destruction can do. -/

namespace Rialto.Service.Players

open Rialto.Lib.OrdMap Rialto.Lib.Word Rialto.Shm.Buffer Rialto.Shm.Mapping
open Rialto.Service.SessionServer (PlaybackService toUnsigned)

/-! ## State -/

inductive Kind
  | session
  | webAudio
  deriving DecidableEq, Repr

def Kind.playbackType : Kind → MediaPlaybackType
  | .session => .generic
  | .webAudio => .webAudio

/-- The playback service with `m_mediaPipelines` and `m_webAudioPlayers`. -/
structure State extends PlaybackService where
  generation : ℕ
  players : Kind → OMap ℤ ℕ

def init (maxPlaybacks maxWebAudioPlayers : ℤ) : State where
  isActive := false
  maxPlaybacks := maxPlaybacks
  maxWebAudioPlayers := maxWebAudioPlayers
  shmBuffer := none
  generation := 0
  players := fun _ => OMap.empty

/-- `getMaxPlaybacks` and `getMaxWebAudioPlayers`. -/
def State.max (s : State) : Kind → ℤ
  | .session => s.maxPlaybacks
  | .webAudio => s.maxWebAudioPlayers

/-- Why a creation is refused. -/
inductive Refusal
  | inactive
  | maxReached
  | alreadyExists
  | notConstructed
  | noPartition
  deriving DecidableEq, Repr

/-- What a constructor comes back with besides: the client's pointer, the main thread and the player
of GStreamer. -/
structure Env where
  client : Bool
  mainThread : Bool
  gstPlayer : Bool
  deriving DecidableEq, Repr

/-- `WebAudioPcmConfig`, as far as it is checked. -/
structure PcmConfig where
  channels : ℕ
  sampleSize : ℕ
  deriving DecidableEq, Repr

/-! ## Constructors -/

/-- `mapPartition` on the current buffer. An active service has one. -/
def mapPartition (s : State) (k : Kind) (id : ℤ) : Bool × State :=
  match s.shmBuffer with
  | none => (false, s)
  | some b =>
    let (mapped, b') := Shm.Buffer.mapPartition b k.playbackType id
    (mapped, { s with shmBuffer := some b' })

/-- `unmapPartition` on the buffer of a player. -/
def unmapPartition (s : State) (k : Kind) (generation : ℕ) (id : ℤ) : State :=
  if generation = s.generation then
    { s with shmBuffer := s.shmBuffer.map fun b =>
        (Shm.Buffer.unmapPartition b k.playbackType id).2 }
  else s

/-- The factory and the constructor of `MediaPipelineServerInternal`. -/
def createMediaPipelineServerInternal (s : State) (id : ℤ) (env : Env) :
    Except Refusal Unit × State :=
  if !env.client then (.error .notConstructed, s)
  else if !env.mainThread then (.error .notConstructed, s)
  else
    match mapPartition s .session id with
    | (false, s) => (.error .noPartition, s)
    | (true, s) => (.ok (), s)

/-- `initWebAudioPlayerInternal`. The pointer of `getBuffer` is not null in a buffer that was
constructed. -/
def initWebAudioPlayerInternal (s : State) (id : ℤ) (env : Env) : Except Refusal Unit × State :=
  match mapPartition s .webAudio id with
  | (false, s) => (.error .noPartition, s)
  | (true, s) =>
    -- from here on the partition stays mapped when the constructor throws
    match s.shmBuffer.bind fun b => getDataOffset b .webAudio id .audio with
    | none => (.error .notConstructed, s)
    | some _ =>
      if (s.shmBuffer.map fun b => getMaxDataLen b .webAudio id .audio).getD 0 = 0 then
        (.error .notConstructed, s)
      else if !env.gstPlayer then (.error .notConstructed, s)
      else (.ok (), s)

/-- The checks of the constructor of `WebAudioPlayerServerInternal`. -/
def configured (audioMimeType : String) (config : Option PcmConfig) : Bool :=
  audioMimeType = "audio/x-raw" &&
    config.any fun pcm => mul32 pcm.channels (pcm.sampleSize / 8) ≠ 0

/-- The factory and the constructor of `WebAudioPlayerServerInternal`. -/
def createWebAudioPlayerServerInternal (s : State) (id : ℤ) (audioMimeType : String)
    (config : Option PcmConfig) (env : Env) : Except Refusal Unit × State :=
  if !configured audioMimeType config then (.error .notConstructed, s)
  else if !env.mainThread then (.error .notConstructed, s)
  else initWebAudioPlayerInternal s id env

/-! ## Requests -/

/-- A creation: the checks of the service, then the constructor. -/
def create (s : State) (k : Kind) (id : ℤ) (construct : State → Except Refusal Unit × State) :
    Except Refusal Unit × State :=
  if !s.isActive then (.error .inactive, s)
  else if (s.players k).entries.length = toSize (s.max k) then (.error .maxReached, s)
  else if ((s.players k).find? id).isSome then (.error .alreadyExists, s)
  else
    match construct s with
    | (.error r, s) => (.error r, s)
    | (.ok (), s) =>
      (.ok (), { s with
        players := Function.update s.players k ((s.players k).emplace id s.generation) })

def createSession (s : State) (id : ℤ) (env : Env) : Except Refusal Unit × State :=
  create s .session id fun s => createMediaPipelineServerInternal s id env

def createWebAudioPlayer (s : State) (id : ℤ) (audioMimeType : String) (config : Option PcmConfig)
    (env : Env) : Except Refusal Unit × State :=
  create s .webAudio id fun s => createWebAudioPlayerServerInternal s id audioMimeType config env

/-- A destruction: the destructor unmaps the partition. -/
def destroy (s : State) (k : Kind) (id : ℤ) : Bool × State :=
  match (s.players k).find? id with
  | none => (false, s)
  | some generation =>
    let s' := unmapPartition s k generation id
    (true, { s' with players := Function.update s.players k ((s.players k).erase id) })

def destroySession (s : State) (id : ℤ) : Bool × State := destroy s .session id

def destroyWebAudioPlayer (s : State) (id : ℤ) : Bool × State := destroy s .webAudio id

def switchToActive (s : State) (sys : Sys) : Bool × State :=
  let (switched, p) := s.toPlaybackService.switchToActive sys
  (switched, { s with
    toPlaybackService := p
    generation := if switched then s.generation + 1 else s.generation })

/-- `switchToInactive`: the players unmap their partitions in the buffer that is reset then. -/
def switchToInactive (s : State) : State :=
  { s with
    toPlaybackService := s.toPlaybackService.switchToInactive
    players := fun _ => OMap.empty }

/-! ## What the requests do -/

/-- The service gets as far as the constructor. -/
structure Admitted (s : State) (k : Kind) (id : ℤ) : Prop where
  active : s.isActive = true
  room : (s.players k).entries.length ≠ toSize (s.max k)
  absent : (s.players k).find? id = none

/-- A player is added to the state its constructor left. -/
def State.add (s : State) (k : Kind) (id : ℤ) : State :=
  { s with players := Function.update s.players k ((s.players k).emplace id s.generation) }

theorem create_cases (s : State) (k : Kind) (id : ℤ)
    (construct : State → Except Refusal Unit × State) :
    (¬Admitted s k id ∧ ∃ r, r ≠ .noPartition ∧ create s k id construct = (.error r, s)) ∨
    Admitted s k id ∧
      ((∃ r s', construct s = (.error r, s') ∧ create s k id construct = (.error r, s')) ∨
        ∃ s', construct s = (.ok (), s') ∧ create s k id construct = (.ok (), s'.add k id)) := by
  unfold create
  split_ifs with hactive hroom habsent
  · refine Or.inl ⟨fun h => ?_, .inactive, by simp, rfl⟩
    simp [h.active] at hactive
  · exact Or.inl ⟨fun h => h.room hroom, .maxReached, by simp, rfl⟩
  · refine Or.inl ⟨fun h => ?_, .alreadyExists, by simp, rfl⟩
    simp [h.absent] at habsent
  · refine Or.inr ⟨⟨by simpa using hactive, hroom, by simpa using habsent⟩, ?_⟩
    rcases construct s with ⟨r | ⟨⟩, s'⟩
    · exact Or.inl ⟨r, s', rfl, rfl⟩
    · exact Or.inr ⟨s', rfl, rfl⟩

/-- A constructor changes the buffer at most. -/
def OnlyBuffer (s s' : State) : Prop := ∃ b, s' = { s with shmBuffer := b }

theorem OnlyBuffer.refl (s : State) : OnlyBuffer s s := ⟨s.shmBuffer, rfl⟩

theorem onlyBuffer_mapPartition (s : State) (k : Kind) (id : ℤ) :
    OnlyBuffer s (mapPartition s k id).2 := by
  unfold mapPartition
  split
  · exact OnlyBuffer.refl s
  · exact ⟨_, rfl⟩

theorem onlyBuffer_mediaPipeline (s : State) (id : ℤ) (env : Env) :
    OnlyBuffer s (createMediaPipelineServerInternal s id env).2 := by
  have hmap := onlyBuffer_mapPartition s .session id
  unfold createMediaPipelineServerInternal
  split_ifs
  · exact OnlyBuffer.refl s
  · exact OnlyBuffer.refl s
  · generalize mapPartition s .session id = r at hmap
    obtain ⟨_ | _, s'⟩ := r <;> exact hmap

theorem onlyBuffer_initWebAudioPlayer (s : State) (id : ℤ) (env : Env) :
    OnlyBuffer s (initWebAudioPlayerInternal s id env).2 := by
  have hmap := onlyBuffer_mapPartition s .webAudio id
  unfold initWebAudioPlayerInternal
  generalize mapPartition s .webAudio id = r at hmap
  obtain ⟨_ | _, s'⟩ := r
  · exact hmap
  · dsimp only
    split
    · exact hmap
    · split_ifs <;> exact hmap

theorem onlyBuffer_webAudioPlayer (s : State) (id : ℤ) (audioMimeType : String)
    (config : Option PcmConfig) (env : Env) :
    OnlyBuffer s (createWebAudioPlayerServerInternal s id audioMimeType config env).2 := by
  unfold createWebAudioPlayerServerInternal
  split
  · exact OnlyBuffer.refl s
  · split
    · exact OnlyBuffer.refl s
    · exact onlyBuffer_initWebAudioPlayer s id env

/-- The ids of the players. -/
def Live (s : State) (k : Kind) (id : ℤ) : Prop := id ∈ (s.players k).keys

theorem live_add (s : State) (k l : Kind) (id i : ℤ) :
    Live (s.add k id) l i ↔ (l = k ∧ i = id) ∨ Live s l i := by
  unfold Live State.add
  dsimp only
  by_cases heq : l = k
  · subst heq
    rw [Function.update_self, OMap.mem_keys_emplace]
    simp only [true_and]
  · rw [Function.update_of_ne heq]
    simp only [heq, false_and, false_or]

theorem live_iff {s : State} {k : Kind} {id : ℤ} : Live s k id ↔ (s.players k).find? id ≠ none := by
  rw [Live, Ne, OMap.find?_eq_none, not_not]

theorem find?_destroy (s : State) (k l : Kind) (id i : ℤ) :
    ((destroy s k id).2.players l).find? i =
      if l = k ∧ i = id then none else (s.players l).find? i := by
  unfold destroy
  split
  · rename_i hnone
    split_ifs with heq
    · obtain ⟨rfl, rfl⟩ := heq
      exact hnone
    · rfl
  · dsimp only
    by_cases heq : l = k
    · subst heq
      rw [Function.update_self, OMap.find?_erase]
      simp only [true_and]
    · rw [Function.update_of_ne heq, if_neg fun h => heq h.1]

theorem live_destroy (s : State) (k l : Kind) (id i : ℤ) :
    Live (destroy s k id).2 l i ↔ Live s l i ∧ ¬(l = k ∧ i = id) := by
  rw [live_iff, live_iff, find?_destroy]
  split_ifs with heq <;> simp [heq]

/-- A creation adds at most the player asked for, and nothing if it fails. -/
theorem find?_create {s : State} {k : Kind} {id : ℤ}
    {construct : State → Except Refusal Unit × State} (honly : OnlyBuffer s (construct s).2)
    (l : Kind) (i : ℤ) :
    ((create s k id construct).2.players l).find? i = (s.players l).find? i ∨
      (create s k id construct).1 = .ok () ∧ l = k ∧ i = id := by
  rcases create_cases s k id construct with ⟨-, r, -, heq⟩ | ⟨-, ⟨r, s', hc, heq⟩ | ⟨s', hc, heq⟩⟩
  · rw [heq]
    exact Or.inl rfl
  · obtain ⟨b, hb⟩ := honly
    rw [hc] at hb
    rw [heq, show s' = _ from hb]
    exact Or.inl rfl
  · obtain ⟨b, hb⟩ := honly
    rw [hc] at hb
    rw [heq, show s' = _ from hb]
    by_cases hl : l = k
    · by_cases hi : i = id
      · exact Or.inr ⟨rfl, hl, hi⟩
      · subst hl
        refine Or.inl ?_
        simp only [State.add, Function.update_self]
        exact OMap.find?_emplace_of_ne _ hi _
    · refine Or.inl ?_
      simp only [State.add, Function.update_of_ne hl]

theorem find?_createSession (s : State) (id : ℤ) (env : Env) (l : Kind) (i : ℤ) :
    ((createSession s id env).2.players l).find? i = (s.players l).find? i ∨
      (createSession s id env).1 = .ok () ∧ l = .session ∧ i = id :=
  @find?_create s .session id (fun s => createMediaPipelineServerInternal s id env)
    (onlyBuffer_mediaPipeline s id env) l i

theorem find?_createWebAudioPlayer (s : State) (id : ℤ) (audioMimeType : String)
    (config : Option PcmConfig) (env : Env) (l : Kind) (i : ℤ) :
    ((createWebAudioPlayer s id audioMimeType config env).2.players l).find? i =
        (s.players l).find? i ∨
      (createWebAudioPlayer s id audioMimeType config env).1 = .ok () ∧ l = .webAudio ∧ i = id :=
  @find?_create s .webAudio id
    (fun s => createWebAudioPlayerServerInternal s id audioMimeType config env)
    (onlyBuffer_webAudioPlayer s id audioMimeType config env) l i

end Rialto.Service.Players

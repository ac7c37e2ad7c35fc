import Rialto.Keys.Cdm
import Rialto.Service.Players

/-! # Who owns what

The module services for sessions, media keys and web audio players each number what they create and
record the numbers under the client that asked; `SessionManagementServer` tells them of the clients
that come and go. The objects are in the services behind them. A number leaves its record when its
client destroys the object or disconnects, and stays there when another client destroys the object
or the server becomes inactive; it is not given out again.

`created` has what was created, and for whom.

* `Inv`: the records are of what was created, and every live object is recorded.
* `live_owned_once`: every live object is recorded under exactly one client, which is connected, and
  when a client disconnects, exactly the objects that it created are gone. -/

namespace Rialto.Service.Ownership

open Rialto.Lib.OrdMap Rialto.Lib.Runs Rialto.Shm.Buffer
open Rialto.Service.Players (Env PcmConfig)

/-! ## Services -/

inductive Resource
  | session
  | mediaKeys
  | webAudioPlayer
  deriving DecidableEq, Repr

/-- The services that have the objects. -/
structure Services where
  playback : Players.State
  cdm : Keys.Cdm.State

/-- What the services have under a number: a player with the number of its buffer, or a media keys
object with its sessions. -/
inductive Object
  | player (generation : ℕ)
  | mediaKeys (o : Keys.Sessions.State)

def Services.find? (v : Services) : Resource → ℤ → Option Object
  | .session, id => ((v.playback.players .session).find? id).map .player
  | .mediaKeys, id => (v.cdm.mediaKeys.find? id).map .mediaKeys
  | .webAudioPlayer, id => ((v.playback.players .webAudio).find? id).map .player

/-- The object is live. -/
def Live (v : Services) (r : Resource) (id : ℤ) : Prop := v.find? r id ≠ none

/-- What a client asks for. -/
inductive Creation
  | session (env : Env)
  | mediaKeys (keySystem : String) (constructed : Bool)
  | webAudioPlayer (audioMimeType : String) (config : Option PcmConfig) (env : Env)
  deriving DecidableEq, Repr

def Creation.resource : Creation → Resource
  | .session _ => .session
  | .mediaKeys _ _ => .mediaKeys
  | .webAudioPlayer _ _ _ => .webAudioPlayer

/-- A creation succeeded. -/
def succeeded : Except Players.Refusal Unit → Bool
  | .ok _ => true
  | .error _ => false

/-- `createSession`, `createMediaKeys` and `createWebAudioPlayer` of the services. -/
def Services.create (v : Services) (id : ℤ) : Creation → Bool × Services
  | .session env =>
    let (r, playback) := Players.createSession v.playback id env
    (succeeded r, { v with playback := playback })
  | .mediaKeys keySystem constructed =>
    let (r, cdm) := Keys.Cdm.createMediaKeys v.cdm id keySystem constructed
    (r, { v with cdm := cdm })
  | .webAudioPlayer audioMimeType config env =>
    let (r, playback) := Players.createWebAudioPlayer v.playback id audioMimeType config env
    (succeeded r, { v with playback := playback })

/-- `destroySession`, `destroyMediaKeys` and `destroyWebAudioPlayer` of the services. -/
def Services.destroy (v : Services) : Resource → ℤ → Bool × Services
  | .session, id =>
    let (r, playback) := Players.destroySession v.playback id
    (r, { v with playback := playback })
  | .mediaKeys, id =>
    let (r, cdm) := Keys.Cdm.destroyMediaKeys v.cdm id
    (r, { v with cdm := cdm })
  | .webAudioPlayer, id =>
    let (r, playback) := Players.destroyWebAudioPlayer v.playback id
    (r, { v with playback := playback })

/-! ## Module services -/

/-- The numbers of a client, a `std::set`. -/
abbrev Ids := OMap ℤ Unit

structure State where
  services : Services
  connected : List ℕ
  clients : Resource → OMap ℕ Ids
  issued : Resource → ℕ
  created : List (Resource × ℤ × ℕ)

def init (maxPlaybacks maxWebAudioPlayers : ℤ) : State where
  services := ⟨Players.init maxPlaybacks maxWebAudioPlayers, Keys.Cdm.init⟩
  connected := []
  clients := fun _ => OMap.empty
  issued := fun _ => 0
  created := []

/-- The map of a module service after an assignment. -/
def State.setClients (s : State) (r : Resource) (m : OMap ℕ Ids) : State :=
  { s with clients := Function.update s.clients r m }

/-- `clientConnected` of a module service. -/
def clientConnected (s : State) (r : Resource) (client : ℕ) : State :=
  s.setClients r ((s.clients r).emplace client OMap.empty)

/-- The loop of `clientDisconnected` over the copied numbers. -/
def destroyAll (r : Resource) : List ℤ → Services → Services
  | [], v => v
  | id :: ids, v => destroyAll r ids (v.destroy r id).2

/-- `clientDisconnected` of a module service. -/
def clientDisconnected (s : State) (r : Resource) (client : ℕ) : State :=
  match (s.clients r).find? client with
  | none => s
  | some ids =>
    { s.setClients r ((s.clients r).erase client) with
      services := destroyAll r ids.keys s.services }

/-- `createSession`, `createMediaKeys` and `createWebAudioPlayer` of the module services. -/
def create (s : State) (client : ℕ) (c : Creation) : State :=
  let r := c.resource
  let id := toInt (s.issued r)
  let s := { s with issued := Function.update s.issued r (s.issued r + 1) }
  match s.services.create id c with
  | (false, v) => { s with services := v }
  | (true, v) =>
    -- `operator[]` makes an entry if there is none
    let ids := ((s.clients r).find? client).getD OMap.empty
    { s.setClients r ((s.clients r).insert client (ids.emplace id ())) with
      services := v
      created := s.created ++ [(r, id, client)] }

/-- `destroySession`, `destroyMediaKeys` and `destroyWebAudioPlayer` of the module services: the
number is erased from the record of the client that asks. -/
def destroy (s : State) (client : ℕ) (r : Resource) (id : ℤ) : State :=
  match s.services.destroy r id with
  | (false, v) => { s with services := v }
  | (true, v) =>
    match (s.clients r).find? client with
    | none => { s with services := v }
    | some ids => { s.setClients r ((s.clients r).insert client (ids.erase id)) with services := v }

/-! ## Steps -/

/-- What the server is told: `onClientConnected`, `onClientDisconnected`, the requests of the
clients, and the switches of the two services. -/
inductive Act
  | onClientConnected (client : ℕ)
  | onClientDisconnected (client : ℕ)
  | create (client : ℕ) (c : Creation)
  | destroy (client : ℕ) (r : Resource) (id : ℤ)
  | switchPlaybackToActive (sys : Sys)
  | switchPlaybackToInactive
  | switchCdmToActive
  | switchCdmToInactive
  deriving DecidableEq

def onClientConnected (s : State) (client : ℕ) : State :=
  let s := { s with connected := client :: s.connected }
  let s := clientConnected s .session client
  let s := clientConnected s .mediaKeys client
  clientConnected s .webAudioPlayer client

def onClientDisconnected (s : State) (client : ℕ) : State :=
  let s := { s with connected := s.connected.filter (· ≠ client) }
  let s := clientDisconnected s .mediaKeys client
  let s := clientDisconnected s .session client
  clientDisconnected s .webAudioPlayer client

/-- The requests come from connected clients. -/
def step (s : State) : Act → Option State
  | .onClientConnected client =>
    if client ∈ s.connected then none else some (onClientConnected s client)
  | .onClientDisconnected client =>
    if client ∈ s.connected then some (onClientDisconnected s client) else none
  | .create client c => if client ∈ s.connected then some (create s client c) else none
  | .destroy client r id => if client ∈ s.connected then some (destroy s client r id) else none
  | .switchPlaybackToActive sys =>
    some { s with services := { s.services with
      playback := (Players.switchToActive s.services.playback sys).2 } }
  | .switchPlaybackToInactive =>
    some { s with services := { s.services with
      playback := Players.switchToInactive s.services.playback } }
  | .switchCdmToActive =>
    some { s with services := { s.services with cdm := Keys.Cdm.switchToActive s.services.cdm } }
  | .switchCdmToInactive =>
    some { s with services := { s.services with cdm := Keys.Cdm.switchToInactive s.services.cdm } }

/-! ## What the services do -/

theorem find?_destroy (v : Services) (r q : Resource) (id x : ℤ) :
    (v.destroy r id).2.find? q x = if q = r ∧ x = id then none else v.find? q x := by
  have hkeys : ((Keys.Cdm.destroyMediaKeys v.cdm id).2.mediaKeys).find? x =
      if x = id then none else v.cdm.mediaKeys.find? x := by
    unfold Keys.Cdm.destroyMediaKeys
    split
    · rename_i hnone
      split_ifs with heq
      · rw [heq]
        exact hnone
      · rfl
    · exact OMap.find?_erase _ _ _
  have hplayers := fun k l => Players.find?_destroy v.playback k l id x
  cases r <;> cases q <;>
    simp only [Services.destroy, Services.find?, Players.destroySession,
      Players.destroyWebAudioPlayer, hkeys, hplayers, reduceCtorEq, true_and, false_and,
      if_false] <;>
    split_ifs <;> rfl

theorem find?_destroyAll (r : Resource) : ∀ (ids : List ℤ) (v : Services) (q : Resource) (x : ℤ),
    (destroyAll r ids v).find? q x = if q = r ∧ x ∈ ids then none else v.find? q x
  | [], v, q, x => by simp [destroyAll]
  | id :: ids, v, q, x => by
    rw [destroyAll, find?_destroyAll r ids, find?_destroy]
    by_cases hq : q = r <;> by_cases hx : x = id <;> simp [hq, hx]

/-- A creation makes at most the object asked for, and nothing if it fails. -/
theorem find?_create (v : Services) (id : ℤ) (c : Creation) (q : Resource) (x : ℤ) :
    (v.create id c).2.find? q x = v.find? q x ∨
      (v.create id c).1 = true ∧ q = c.resource ∧ x = id := by
  cases c with
  | session env =>
    have hplayers := fun l => Players.find?_createSession v.playback id env l x
    cases q with
    | session =>
      refine (hplayers .session).imp (congrArg (Option.map _)) fun h => ?_
      exact ⟨by simp [Services.create, succeeded, h.1], rfl, h.2.2⟩
    | mediaKeys => exact Or.inl rfl
    | webAudioPlayer =>
      refine (hplayers .webAudio).imp (congrArg (Option.map _)) fun h => ?_
      cases h.2.1
  | mediaKeys keySystem constructed =>
    cases q with
    | session => exact Or.inl rfl
    | mediaKeys =>
      simp only [Services.create, Services.find?, Keys.Cdm.createMediaKeys]
      split_ifs
      · exact Or.inl rfl
      · exact Or.inl rfl
      · by_cases hx : x = id
        · exact Or.inr ⟨rfl, rfl, hx⟩
        · exact Or.inl (congrArg (Option.map _) (OMap.find?_emplace_of_ne _ hx _))
      · exact Or.inl rfl
    | webAudioPlayer => exact Or.inl rfl
  | webAudioPlayer audioMimeType config env =>
    have hplayers :=
      fun l => Players.find?_createWebAudioPlayer v.playback id audioMimeType config env l x
    cases q with
    | session =>
      refine (hplayers .session).imp (congrArg (Option.map _)) fun h => ?_
      cases h.2.1
    | mediaKeys => exact Or.inl rfl
    | webAudioPlayer =>
      refine (hplayers .webAudio).imp (congrArg (Option.map _)) fun h => ?_
      exact ⟨by simp [Services.create, succeeded, h.1], rfl, h.2.2⟩

/-! ## The invariant -/

/-- The number is recorded under the client. -/
def Recorded (s : State) (r : Resource) (client : ℕ) (id : ℤ) : Prop :=
  ∃ ids, (s.clients r).find? client = some ids ∧ id ∈ ids.keys

structure Inv (s : State) : Prop where
  clients : ∀ r c, (s.clients r).find? c ≠ none ↔ c ∈ s.connected
  recorded : ∀ r c id, Recorded s r c id → (r, id, c) ∈ s.created
  issued : ∀ r id c, (r, id, c) ∈ s.created → ∃ n < s.issued r, id = toInt n
  unique : ∀ r id c c', (r, id, c) ∈ s.created → (r, id, c') ∈ s.created → c = c'
  live : ∀ r id, Live s.services r id → ∃ c, Recorded s r c id
  few : ∀ r, s.issued r < 2147483648

theorem inv_init (maxPlaybacks maxWebAudioPlayers : ℤ) :
    Inv (init maxPlaybacks maxWebAudioPlayers) where
  clients := fun _ _ => ⟨fun h => absurd rfl h, fun h => by cases h⟩
  recorded := fun _ _ _ h => by
    obtain ⟨ids, hids, -⟩ := h
    cases hids
  issued := fun _ _ _ h => by cases h
  unique := fun _ _ _ _ h => by cases h
  live := fun r _ h => absurd (by cases r <;> rfl) h
  few := fun _ => Nat.zero_lt_succ _

theorem toInt_of_lt {n : ℕ} (h : n < 2147483648) : toInt n = n := by
  unfold toInt Lib.Word.w32
  split_ifs <;> omega

theorem Inv.recorded_unique {s : State} (h : Inv s) {r : Resource} {id : ℤ} {c c' : ℕ}
    (hc : Recorded s r c id) (hc' : Recorded s r c' id) : c = c' :=
  h.unique r id c c' (h.recorded r c id hc) (h.recorded r c' id hc')

theorem Recorded.connected {s : State} (h : Inv s) {r : Resource} {id : ℤ} {c : ℕ}
    (hc : Recorded s r c id) : c ∈ s.connected := by
  obtain ⟨ids, hids, -⟩ := hc
  exact (h.clients r c).mp (by simp [hids])

/-! ## Connecting and disconnecting -/

@[simp] theorem setClients_self (s : State) (r : Resource) (m : OMap ℕ Ids) :
    (s.setClients r m).clients r = m := Function.update_self ..

@[simp] theorem setClients_of_ne (s : State) {r q : Resource} (h : q ≠ r) (m : OMap ℕ Ids) :
    (s.setClients r m).clients q = s.clients q := Function.update_of_ne h ..

theorem clientDisconnected_find? (s : State) (r q : Resource) (client c : ℕ) :
    ((clientDisconnected s r client).clients q).find? c =
      if q = r ∧ c = client then none else (s.clients q).find? c := by
  unfold clientDisconnected
  split
  · rename_i hnone
    split_ifs with heq
    · obtain ⟨rfl, rfl⟩ := heq
      exact hnone
    · rfl
  · by_cases hq : q = r
    · subst hq
      show ((s.setClients q _).clients q).find? c = _
      rw [setClients_self, OMap.find?_erase]
      simp only [true_and]
    · show ((s.setClients r _).clients q).find? c = _
      rw [setClients_of_ne s hq, if_neg fun h => hq h.1]

theorem recorded_clientDisconnected (s : State) {r q : Resource} (h : q ≠ r) (client c : ℕ)
    (x : ℤ) :
    Recorded (clientDisconnected s r client) q c x ↔ Recorded s q c x := by
  unfold Recorded
  rw [clientDisconnected_find?, if_neg fun heq => h heq.1]

theorem clientDisconnected_others (s : State) {r q : Resource} (h : q ≠ r) (client : ℕ) (x : ℤ) :
    (clientDisconnected s r client).services.find? q x = s.services.find? q x := by
  unfold clientDisconnected
  split
  · rfl
  · dsimp only
    rw [find?_destroyAll, if_neg fun heq => h heq.1]

theorem clientDisconnected_gone (s : State) {r : Resource} {client : ℕ} {x : ℤ}
    (h : Recorded s r client x) : (clientDisconnected s r client).services.find? r x = none := by
  obtain ⟨ids, hids, hx⟩ := h
  unfold clientDisconnected
  rw [hids]
  dsimp only
  rw [find?_destroyAll, if_pos ⟨rfl, hx⟩]

theorem clientDisconnected_stays (s : State) {r : Resource} {client : ℕ} {x : ℤ}
    (h : ¬Recorded s r client x) :
    (clientDisconnected s r client).services.find? r x = s.services.find? r x := by
  unfold clientDisconnected
  split
  · rfl
  · rename_i ids hids
    dsimp only
    rw [find?_destroyAll, if_neg fun heq => h ⟨ids, hids, heq.2⟩]

theorem clientDisconnected_rest (s : State) (r : Resource) (client : ℕ) :
    (clientDisconnected s r client).connected = s.connected ∧
      (clientDisconnected s r client).issued = s.issued ∧
      (clientDisconnected s r client).created = s.created := by
  unfold clientDisconnected
  split <;> exact ⟨rfl, rfl, rfl⟩

/-- What a disconnection of a client leaves. -/
structure Left (s : State) (client : ℕ) (s' : State) : Prop where
  connected : ∀ c, c ∈ s'.connected ↔ c ∈ s.connected ∧ c ≠ client
  issued : s'.issued = s.issued
  created : s'.created = s.created
  clients : ∀ r c, (s'.clients r).find? c = if c = client then none else (s.clients r).find? c
  gone : ∀ r x, Recorded s r client x → s'.services.find? r x = none
  stays : ∀ r x, ¬Recorded s r client x → s'.services.find? r x = s.services.find? r x

/-- **A disconnection takes exactly what is recorded under the client.** -/
theorem left_onClientDisconnected (s : State) (client : ℕ) :
    Left s client (onClientDisconnected s client) := by
  let s₀ := { s with connected := s.connected.filter (· ≠ client) }
  let s₁ := clientDisconnected s₀ .mediaKeys client
  let s₂ := clientDisconnected s₁ .session client
  let s₃ := clientDisconnected s₂ .webAudioPlayer client
  obtain ⟨hconnected₁, hissued₁, hcreated₁⟩ := clientDisconnected_rest s₀ .mediaKeys client
  obtain ⟨hconnected₂, hissued₂, hcreated₂⟩ := clientDisconnected_rest s₁ .session client
  obtain ⟨hconnected₃, hissued₃, hcreated₃⟩ := clientDisconnected_rest s₂ .webAudioPlayer client
  have hrecorded₁ : ∀ {r x}, r ≠ .mediaKeys → (Recorded s₁ r client x ↔ Recorded s r client x) :=
    fun h => recorded_clientDisconnected s₀ h client client _
  have hrecorded₂ : ∀ {x}, Recorded s₂ .webAudioPlayer client x ↔
      Recorded s .webAudioPlayer client x := by
    intro x
    rw [← hrecorded₁ (by decide)]
    exact recorded_clientDisconnected s₁ (by decide) client client _
  show Left s client s₃
  refine ⟨fun c => ?_, ?_, ?_, fun r c => ?_, fun r x hx => ?_, fun r x hx => ?_⟩
  · rw [hconnected₃, hconnected₂, hconnected₁]
    simp [s₀]
  · rw [hissued₃, hissued₂, hissued₁]
  · rw [hcreated₃, hcreated₂, hcreated₁]
  · rw [clientDisconnected_find?, clientDisconnected_find?, clientDisconnected_find?]
    by_cases hc : c = client <;> cases r <;> simp [hc, s₀]
  · cases r with
    | mediaKeys =>
      rw [clientDisconnected_others _ (by decide), clientDisconnected_others _ (by decide)]
      exact clientDisconnected_gone s₀ hx
    | session =>
      rw [clientDisconnected_others _ (by decide)]
      exact clientDisconnected_gone s₁ ((hrecorded₁ (by decide)).mpr hx)
    | webAudioPlayer => exact clientDisconnected_gone s₂ (hrecorded₂.mpr hx)
  · cases r with
    | mediaKeys =>
      rw [clientDisconnected_others _ (by decide), clientDisconnected_others _ (by decide)]
      exact clientDisconnected_stays s₀ hx
    | session =>
      rw [clientDisconnected_others _ (by decide),
        clientDisconnected_stays s₁ fun h => hx ((hrecorded₁ (by decide)).mp h)]
      exact clientDisconnected_others s₀ (by decide) client x
    | webAudioPlayer =>
      rw [clientDisconnected_stays s₂ fun h => hx (hrecorded₂.mp h),
        clientDisconnected_others _ (by decide)]
      exact clientDisconnected_others s₀ (by decide) client x

theorem Inv.disconnect {s s' : State} (h : Inv s) {client : ℕ} (hleft : Left s client s') :
    Inv s' := by
  have hrecorded : ∀ r c x, Recorded s' r c x ↔ c ≠ client ∧ Recorded s r c x := by
    intro r c x
    unfold Recorded
    rw [hleft.clients]
    split_ifs with hc <;> simp [hc]
  refine ⟨fun r c => ?_, fun r c id hr => ?_, fun r id c hc => ?_, ?_, fun r id hl => ?_, ?_⟩
  · rw [hleft.clients, hleft.connected, ← h.clients r c]
    split_ifs with hc <;> simp [hc]
  · rw [hleft.created]
    exact h.recorded r c id ((hrecorded r c id).mp hr).2
  · rw [hleft.issued]
    rw [hleft.created] at hc
    exact h.issued r id c hc
  · rw [hleft.created]
    exact h.unique
  · by_cases hr : Recorded s r client id
    · exact absurd (hleft.gone r id hr) hl
    · unfold Live at hl
      rw [hleft.stays r id hr] at hl
      obtain ⟨c, hc⟩ := h.live r id hl
      refine ⟨c, (hrecorded r c id).mpr ⟨?_, hc⟩⟩
      rintro rfl
      exact hr hc
  · rw [hleft.issued]
    exact h.few

theorem clientConnected_find? (s : State) {r : Resource} {client : ℕ}
    (hnone : (s.clients r).find? client = none) (q : Resource) (c : ℕ) :
    ((clientConnected s r client).clients q).find? c =
      if q = r ∧ c = client then some OMap.empty else (s.clients q).find? c := by
  unfold clientConnected
  by_cases hq : q = r
  · subst hq
    rw [setClients_self]
    by_cases hc : c = client
    · subst hc
      rw [OMap.find?_emplace hnone, if_pos ⟨rfl, rfl⟩]
    · rw [OMap.find?_emplace_of_ne _ hc, if_neg fun h => hc h.2]
  · rw [setClients_of_ne s hq, if_neg fun h => hq h.1]

theorem onClientConnected_find? (s : State) {client : ℕ}
    (hnone : ∀ r, (s.clients r).find? client = none) (r : Resource) (c : ℕ) :
    ((onClientConnected s client).clients r).find? c =
      if c = client then some OMap.empty else (s.clients r).find? c := by
  let s₀ := { s with connected := client :: s.connected }
  have h₁ := clientConnected_find? s₀ (hnone .session)
  let s₁ := clientConnected s₀ .session client
  have h₂ : ∀ q c, ((clientConnected s₁ .mediaKeys client).clients q).find? c =
      if q = .mediaKeys ∧ c = client then some OMap.empty else (s₁.clients q).find? c :=
    clientConnected_find? s₁ (by rw [h₁]; simpa using hnone .mediaKeys)
  let s₂ := clientConnected s₁ .mediaKeys client
  have h₃ : ∀ q c, ((clientConnected s₂ .webAudioPlayer client).clients q).find? c =
      if q = .webAudioPlayer ∧ c = client then some OMap.empty else (s₂.clients q).find? c :=
    clientConnected_find? s₂ (by rw [h₂, h₁]; simpa using hnone .webAudioPlayer)
  refine (h₃ r c).trans ?_
  rw [h₂, h₁]
  by_cases hc : c = client <;> cases r <;> simp [hc, s₀]

theorem Inv.connect {s : State} (h : Inv s) {client : ℕ} (hnew : client ∉ s.connected) :
    Inv (onClientConnected s client) := by
  have hnone : ∀ r, (s.clients r).find? client = none := by
    intro r
    by_contra hsome
    exact hnew ((h.clients r client).mp hsome)
  have hrecorded : ∀ r c x, Recorded (onClientConnected s client) r c x ↔ Recorded s r c x := by
    intro r c x
    unfold Recorded
    rw [onClientConnected_find? s hnone]
    split_ifs with hc
    · rw [hc, hnone]
      simp [OMap.keys]
    · rfl
  refine ⟨fun r c => ?_, fun r c id hr => h.recorded r c id ((hrecorded r c id).mp hr), h.issued,
    h.unique, fun r id hl => ?_, h.few⟩
  · rw [onClientConnected_find? s hnone]
    show _ ↔ c ∈ client :: s.connected
    rw [List.mem_cons, ← h.clients r c]
    split_ifs with hc <;> simp [hc]
  · obtain ⟨c, hc⟩ := h.live r id hl
    exact ⟨c, (hrecorded r c id).mpr hc⟩

/-! ## Requests -/

/-- Objects can go without the records being touched. -/
theorem Inv.services {s : State} (h : Inv s) {v : Services}
    (hv : ∀ r id, Live v r id → Live s.services r id) : Inv { s with services := v } :=
  ⟨h.clients, h.recorded, h.issued, h.unique, fun r id hl => h.live r id (hv r id hl), h.few⟩

theorem Inv.issue {s : State} (h : Inv s) {r : Resource} (hfew : s.issued r + 1 < 2147483648) :
    Inv { s with issued := Function.update s.issued r (s.issued r + 1) } := by
  have hle : ∀ q, s.issued q ≤ Function.update s.issued r (s.issued r + 1) q := by
    intro q
    by_cases hq : q = r
    · subst hq
      rw [Function.update_self]
      exact Nat.le_succ _
    · rw [Function.update_of_ne hq]
  refine ⟨h.clients, h.recorded, fun q id c hc => ?_, h.unique, h.live, fun q => ?_⟩
  · obtain ⟨n, hn, rfl⟩ := h.issued q id c hc
    exact ⟨n, hn.trans_le (hle q), rfl⟩
  · dsimp only
    by_cases hq : q = r
    · subst hq
      rwa [Function.update_self]
    · rw [Function.update_of_ne hq]
      exact h.few q

/-- The number that is issued next was not given out before. -/
theorem Inv.fresh {s : State} (h : Inv s) (r : Resource) (c : ℕ) :
    (r, toInt (s.issued r), c) ∉ s.created := by
  intro hc
  obtain ⟨n, hn, heq⟩ := h.issued r _ c hc
  have hfew := h.few r
  rw [toInt_of_lt hfew, toInt_of_lt (hn.trans hfew)] at heq
  omega

/-- The record of a connected client is replaced. -/
theorem Inv.record {s : State} (h : Inv s) {client : ℕ} (hclient : client ∈ s.connected)
    (r : Resource) (ids : Ids) (v : Services) (created : List (Resource × ℤ × ℕ))
    (hids : ∀ x ∈ ids.keys, (r, x, client) ∈ created) (hsub : ∀ e ∈ s.created, e ∈ created)
    (hissued : ∀ r id c, (r, id, c) ∈ created → ∃ n < s.issued r, id = toInt n)
    (hunique : ∀ r id c c', (r, id, c) ∈ created → (r, id, c') ∈ created → c = c')
    (hlive : ∀ q x, Live v q x → (q = r ∧ x ∈ ids.keys) ∨
      ∃ c, Recorded s q c x ∧ ¬(q = r ∧ c = client)) :
    Inv { s.setClients r ((s.clients r).insert client ids) with
      services := v
      created := created } := by
  have hfind : ∀ q c, ((s.setClients r ((s.clients r).insert client ids)).clients q).find? c =
      if q = r ∧ c = client then some ids else (s.clients q).find? c := by
    intro q c
    by_cases hq : q = r
    · subst hq
      rw [setClients_self, OMap.find?_insert]
      simp only [true_and, eq_comm]
    · rw [setClients_of_ne s hq, if_neg fun h => hq h.1]
  refine ⟨fun q c => ?_, ?_, hissued, hunique, fun q x hl => ?_, h.few⟩
  · refine Iff.trans ?_ (h.clients q c)
    show ((s.setClients r _).clients q).find? c ≠ none ↔ _
    rw [hfind]
    split_ifs with heq
    · simpa [heq.2] using (h.clients q client).mpr hclient
    · rfl
  · rintro q c x ⟨ids', hids', hx⟩
    have hsome := (hfind q c).symm.trans hids'
    split_ifs at hsome with heq
    · cases hsome
      rw [heq.1, heq.2]
      exact hids x hx
    · exact hsub _ (h.recorded q c x ⟨ids', hsome, hx⟩)
  · rcases hlive q x hl with ⟨rfl, hx⟩ | ⟨c, ⟨ids', hids', hx⟩, hne⟩
    · exact ⟨client, ids, (hfind q client).trans (if_pos ⟨rfl, rfl⟩), hx⟩
    · exact ⟨c, ids', (hfind q c).trans ((if_neg hne).trans hids'), hx⟩

theorem Inv.destroy {s : State} (h : Inv s) {client : ℕ} (hclient : client ∈ s.connected)
    (r : Resource) (id : ℤ) : Inv (destroy s client r id) := by
  have hfind := fun q x => find?_destroy s.services r q id x
  have hlive : ∀ q x, Live (s.services.destroy r id).2 q x →
      Live s.services q x ∧ ¬(q = r ∧ x = id) := by
    intro q x hl
    unfold Live at hl
    rw [hfind] at hl
    split_ifs at hl with heq
    · exact absurd rfl hl
    · exact ⟨hl, heq⟩
  unfold Ownership.destroy
  generalize s.services.destroy r id = res at hlive
  obtain ⟨_ | _, v⟩ := res
  · exact h.services fun q x hl => (hlive q x hl).1
  · dsimp only
    split
    · exact h.services fun q x hl => (hlive q x hl).1
    · rename_i ids hids
      refine h.record hclient r (ids.erase id) v s.created (fun x hx => ?_) (fun _ he => he)
        h.issued
        h.unique fun q x hl => ?_
      · exact h.recorded r client x ⟨ids, hids, (OMap.mem_keys_erase.mp hx).1⟩
      · obtain ⟨hl, hne⟩ := hlive q x hl
        obtain ⟨c, hc⟩ := h.live q x hl
        by_cases heq : q = r ∧ c = client
        · -- the object is another one of the client
          obtain ⟨rfl, rfl⟩ := heq
          obtain ⟨ids', hids', hx⟩ := hc
          rw [hids] at hids'
          cases hids'
          exact Or.inl ⟨rfl, OMap.mem_keys_erase.mpr ⟨hx, fun h => hne ⟨rfl, h⟩⟩⟩
        · exact Or.inr ⟨c, hc, heq⟩

theorem Inv.create {s : State} (h : Inv s) {client : ℕ} (hclient : client ∈ s.connected)
    (c : Creation) (hfew : s.issued c.resource + 1 < 2147483648) : Inv (create s client c) := by
  have hfresh := h.fresh c.resource
  have hissue := h.issue hfew
  have hfind := fun q x => find?_create s.services (toInt (s.issued c.resource)) c q x
  unfold Ownership.create
  dsimp only
  generalize s.services.create (toInt (s.issued c.resource)) c = res at hfind
  obtain ⟨_ | _, v⟩ := res
  · refine hissue.services fun q x hl => ?_
    rcases hfind q x with heq | ⟨hfalse, -⟩
    · rwa [Live, ← heq]
    · cases hfalse
  · refine hissue.record hclient c.resource _ v _ (fun x hx => ?_)
      (fun e he => List.mem_append_left _ he) (fun q x d hd => ?_) (fun q x d d' hd hd' => ?_)
      fun q x hl => ?_
    · rcases OMap.mem_keys_emplace.mp hx with rfl | hx
      · exact List.mem_append_right _ List.mem_cons_self
      · cases hids : (s.clients c.resource).find? client with
        | none =>
          rw [hids] at hx
          cases hx
        | some ids =>
          rw [hids] at hx
          exact List.mem_append_left _ (h.recorded c.resource client x ⟨ids, hids, hx⟩)
    · rcases List.mem_append.mp hd with hd | hd
      · exact hissue.issued q x d hd
      · cases List.mem_singleton.mp hd
        refine ⟨s.issued c.resource, ?_, rfl⟩
        show _ < Function.update s.issued c.resource (s.issued c.resource + 1) c.resource
        rw [Function.update_self]
        exact Nat.lt_succ_self _
    · rcases List.mem_append.mp hd with hd | hd
      · rcases List.mem_append.mp hd' with hd' | hd'
        · exact h.unique q x d d' hd hd'
        · cases List.mem_singleton.mp hd'
          exact absurd hd (hfresh d)
      · cases List.mem_singleton.mp hd
        rcases List.mem_append.mp hd' with hd' | hd'
        · exact absurd hd' (hfresh d')
        · cases List.mem_singleton.mp hd'
          rfl
    · rcases hfind q x with heq | ⟨-, rfl, rfl⟩
      · obtain ⟨d, hd⟩ := h.live q x (by rwa [Live, ← heq])
        by_cases hrecord : q = c.resource ∧ d = client
        · -- another object of the client
          obtain ⟨rfl, rfl⟩ := hrecord
          obtain ⟨ids, hids, hx⟩ := hd
          refine Or.inl ⟨rfl, OMap.mem_keys_emplace.mpr (Or.inr ?_)⟩
          rw [hids]
          exact hx
        · exact Or.inr ⟨d, hd, hrecord⟩
      · exact Or.inl ⟨rfl, OMap.mem_keys_emplace.mpr (Or.inl rfl)⟩

/-! ## Runs -/

/-- Fewer than `2 ^ 31` numbers are issued by each module service. -/
def Fewer (s : State) : Act → Prop
  | .create _ c => s.issued c.resource + 1 < 2147483648
  | _ => True

theorem step_inv {s s' : State} {a : Act} (h : Inv s) (hok : Fewer s a)
    (hstep : step s a = some s') : Inv s' := by
  cases a with
  | onClientConnected client =>
    simp only [step] at hstep
    split_ifs at hstep with hnew
    cases hstep
    exact h.connect hnew
  | onClientDisconnected client =>
    simp only [step] at hstep
    split_ifs at hstep
    cases hstep
    exact h.disconnect (left_onClientDisconnected s client)
  | create client c =>
    simp only [step] at hstep
    split_ifs at hstep with hclient
    cases hstep
    exact h.create hclient c hok
  | destroy client r id =>
    simp only [step] at hstep
    split_ifs at hstep with hclient
    cases hstep
    exact h.destroy hclient r id
  | switchPlaybackToActive sys =>
    cases hstep
    exact h.services fun r id hl => by cases r <;> exact hl
  | switchPlaybackToInactive =>
    cases hstep
    refine h.services fun r id hl => ?_
    cases r with
    | mediaKeys => exact hl
    | session | webAudioPlayer => exact absurd rfl hl
  | switchCdmToActive =>
    cases hstep
    exact h.services fun r id hl => by cases r <;> exact hl
  | switchCdmToInactive =>
    cases hstep
    refine h.services fun r id hl => ?_
    cases r with
    | mediaKeys => exact absurd rfl hl
    | session | webAudioPlayer => exact hl

/-- **In every run with fewer than `2 ^ 31` numbers issued, every live session, media keys object
and web audio player is recorded under exactly one client, which is connected; and when a client
disconnects, none of the objects that it created is live, and the objects and the records of all
other clients are as before.** -/
theorem live_owned_once {maxPlaybacks maxWebAudioPlayers : ℤ} {as : List Act} {s : State}
    (hrun : Run step Fewer (init maxPlaybacks maxWebAudioPlayers) as s) :
    (∀ r id, Live s.services r id → ∃! c, c ∈ s.connected ∧ Recorded s r c id) ∧
    ∀ client s', step s (.onClientDisconnected client) = some s' →
      (∀ r id, (r, id, client) ∈ s.created → ¬Live s'.services r id) ∧
      ∀ c, c ≠ client → ∀ r,
        (∀ id, (r, id, c) ∈ s.created → s'.services.find? r id = s.services.find? r id) ∧
        (s'.clients r).find? c = (s.clients r).find? c := by
  have h : Inv s :=
    hrun.invariant Inv (fun _ _ _ hs hok hstep => step_inv hs hok hstep) (inv_init _ _)
  refine ⟨fun r id hl => ?_, fun client s' hstep => ?_⟩
  · obtain ⟨c, hc⟩ := h.live r id hl
    exact ⟨c, ⟨hc.connected h, hc⟩, fun d hd => h.recorded_unique hd.2 hc⟩
  · simp only [step] at hstep
    split_ifs at hstep
    cases hstep
    have hleft := left_onClientDisconnected s client
    refine ⟨fun r id hcreated hl => ?_, fun c hc r => ⟨fun id hcreated => ?_, ?_⟩⟩
    · by_cases hr : Recorded s r client id
      · exact hl (hleft.gone r id hr)
      · unfold Live at hl
        rw [hleft.stays r id hr] at hl
        -- a live object is recorded under the client that created it
        obtain ⟨d, hd⟩ := h.live r id hl
        rw [h.unique r id client d hcreated (h.recorded r d id hd)] at hr
        exact hr hd
    · refine hleft.stays r id fun hr => hc ?_
      exact h.unique r id c client hcreated (h.recorded r client id hr)
    · rw [hleft.clients, if_neg hc]

/-! ## A run on fixed inputs -/

/-- All system calls succeed. -/
def sys : Sys := ⟨true, true, true, true⟩

/-- Two clients with a session, media keys and a web audio player; the second client destroys the
session of the first, which then creates another. -/
def sharing : List Act :=
  [.switchPlaybackToActive sys, .switchCdmToActive, .onClientConnected 7, .onClientConnected 8,
    .create 7 (.session ⟨true, true, true⟩), .create 8 (.mediaKeys "com.widevine.alpha" true),
    .create 8 (.webAudioPlayer "audio/x-raw" (some ⟨2, 16⟩) ⟨true, true, true⟩),
    .destroy 8 .session 0, .create 7 (.session ⟨true, true, true⟩)]

instance (s : State) : (a : Act) → Decidable (Fewer s a)
  | .create _ c => inferInstanceAs (Decidable (s.issued c.resource + 1 < 2147483648))
  | .onClientConnected _ | .onClientDisconnected _ | .destroy _ _ _ | .switchPlaybackToActive _
  | .switchPlaybackToInactive | .switchCdmToActive | .switchCdmToInactive => isTrue trivial

theorem live_owned_once_sharing :
    ∃ s, Run step Fewer (init 1 1) sharing s ∧
      s.created = [(.session, 0, 7), (.mediaKeys, 0, 8), (.webAudioPlayer, 0, 8),
        (.session, 1, 7)] ∧
      (s.services.find? .session 1).isSome = true ∧
      (∀ r id, Live s.services r id → ∃! c, c ∈ s.connected ∧ Recorded s r c id) ∧
      ∀ client s', step s (.onClientDisconnected client) = some s' →
        (∀ r id, (r, id, client) ∈ s.created → ¬Live s'.services r id) ∧
        ∀ c, c ≠ client → ∀ r,
          (∀ id, (r, id, c) ∈ s.created → s'.services.find? r id = s.services.find? r id) ∧
          (s'.clients r).find? c = (s.clients r).find? c := by
  have hview : (runsIf step Fewer (init 1 1) sharing).map
      (fun s => (s.created, (s.services.find? .session 1).isSome)) =
        some ([(.session, 0, 7), (.mediaKeys, 0, 8), (.webAudioPlayer, 0, 8), (.session, 1, 7)],
          true) := by
    decide +kernel
  obtain ⟨s, hs, hview⟩ := Option.map_eq_some_iff.mp hview
  simp only [Prod.mk.injEq] at hview
  exact ⟨s, Run.of_runsIf hs, hview.1, hview.2, live_owned_once (Run.of_runsIf hs)⟩

end Rialto.Service.Ownership

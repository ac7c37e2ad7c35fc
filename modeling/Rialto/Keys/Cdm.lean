import Mathlib.Logic.Function.Basic
import Rialto.Keys.Effects

/-! # The CDM service

`CdmService` holds the `MediaKeysServerInternal` objects by their handles and, in
`m_mediaKeysClients`, the clients of the key sessions. A key session only has a weak pointer to its
client. The session id of a segment is found in whichever object has it; ids are issued in one
sequence for all objects.

A buffer exists here as long as its protection metadata does: its `init` increments the usage
counter of the session named, its `free` decrements it, when the decryptor removes the metadata or
when the buffer is freed. `closes` records every attempt to close a session, with the number of
buffers that name it, and `early` the sessions created when such a buffer existed.

* `Live`: a session is in some object.
* `live_put`: what an operation on one session of one object does to the sessions of all objects.
* `Issued`: a session is in one object only, and sessions and clients have ids that were issued. -/

namespace Rialto.Keys.Cdm

open Rialto.Lib.OrdMap Rialto.Lib.Runs Rialto.Keys.Sessions Rialto.Keys.Effects

/-! ## The service -/

/-- An attempt to close a session, `destroyed` if by the destructor of its object. -/
structure Close where
  keySessionId : ℤ
  destroyed : Bool
  buffers : ℕ
  deriving DecidableEq, Repr

/-- `CdmService`, with the counter of `generateSessionId`, the clients that the sessions point to
and the session ids in the protection metadata of the existing buffers. -/
structure State where
  isActive : Bool
  keySessionId : ℕ
  mediaKeys : OMap ℤ Sessions.State
  mediaKeysClients : OMap ℤ ℕ
  clientOf : ℤ → Option ℕ
  buffers : List ℤ
  early : List ℤ
  closes : List Close

def init : State := ⟨false, 0, OMap.empty, OMap.empty, fun _ => none, [], [], []⟩

/-- The attempt to close that an entry of the log of an object stands for. -/
def closeOf (buffers : List ℤ) : Entry → Option Close
  | .closeAttempted id _ _ => some ⟨id, false, buffers.count id⟩
  | _ => none

/-- The attempts to close that an operation has made on the sessions of an object. -/
def attempts (buffers : List ℤ) (o o' : Sessions.State) : List Close :=
  (o'.log.drop o.log.length).filterMap (closeOf buffers)

/-- An object after an operation on it. -/
def State.put (s : State) (handle : ℤ) (o o' : Sessions.State) : State :=
  { s with
    mediaKeys := s.mediaKeys.insert handle o'
    closes := s.closes ++ attempts s.buffers o o' }

/-- The destructors of the sessions of an object. -/
def destructions (buffers : List ℤ) (o : Sessions.State) : List Close :=
  o.mediaKeySessions.entries.filterMap fun e =>
    if e.2.mediaKeySession.isSessionConstructed then some ⟨e.1, true, buffers.count e.1⟩ else none

def switchToActive (s : State) : State := { s with isActive := true }

def switchToInactive (s : State) : State :=
  { s with
    isActive := false
    mediaKeys := OMap.empty
    closes := s.closes ++ s.mediaKeys.entries.flatMap fun e => destructions s.buffers e.2 }

/-- `createMediaKeys`; `created` is whether the factory makes an object. -/
def createMediaKeys (s : State) (mediaKeysHandle : ℤ) (keySystem : String) (created : Bool) :
    Bool × State :=
  if s.isActive = false then (false, s)
  else if (s.mediaKeys.find? mediaKeysHandle).isSome then (false, s)
  else if created then
    (true, { s with
      mediaKeys := s.mediaKeys.emplace mediaKeysHandle (Sessions.init keySystem s.keySessionId) })
  else (false, s)

def destroyMediaKeys (s : State) (mediaKeysHandle : ℤ) : Bool × State :=
  match s.mediaKeys.find? mediaKeysHandle with
  | none => (false, s)
  | some o =>
    (true, { s with
      mediaKeys := s.mediaKeys.erase mediaKeysHandle
      closes := s.closes ++ destructions s.buffers o })

/-- The lookup of an object by its handle that most functions begin with. -/
def State.onMediaKeys (s : State) (mediaKeysHandle : ℤ)
    (f : Sessions.State → MediaKeyErrorStatus × Sessions.State) : MediaKeyErrorStatus × State :=
  match s.mediaKeys.find? mediaKeysHandle with
  | none => (.fail, s)
  | some o => ((f o).1, s.put mediaKeysHandle o (f o).2)

def generateRequest (s : State) (mediaKeysHandle keySessionId : ℤ)
    (constructSession : MediaKeyErrorStatus) : MediaKeyErrorStatus × State :=
  s.onMediaKeys mediaKeysHandle fun o => generateRequestInternal o keySessionId constructSession

def closeKeySession (s : State) (mediaKeysHandle keySessionId : ℤ) (ocdm : OcdmSession) :
    MediaKeyErrorStatus × State :=
  s.onMediaKeys mediaKeysHandle fun o => closeKeySessionInternal o keySessionId ocdm

/-- `CdmService::removeKeySessionInternal`. -/
def removeKeySession (s : State) (mediaKeysHandle keySessionId : ℤ) (remove : MediaKeyErrorStatus) :
    MediaKeyErrorStatus × State :=
  match s.onMediaKeys mediaKeysHandle fun o => removeKeySessionInternal o keySessionId remove with
  | (status, s) =>
    if status = .ok then
      (status, { s with mediaKeysClients := s.mediaKeysClients.erase keySessionId })
    else (status, s)

/-- `createKeySession`; `created` is whether the factory makes a session, `remove` what OCDM returns
if the session is removed again. -/
def createKeySession (s : State) (mediaKeysHandle : ℤ) (client : ℕ) (created : Bool)
    (remove : MediaKeyErrorStatus) : MediaKeyErrorStatus × State :=
  match s.mediaKeys.find? mediaKeysHandle with
  | none => (.fail, s)
  | some o =>
    match createKeySessionInternal o s.keySessionId created with
    | (status, o') =>
      let s' := { s.put mediaKeysHandle o o' with keySessionId := s.keySessionId + 1 }
      if status = .ok then
        let id : ℤ := s.keySessionId
        let s'' := { s' with
          clientOf := Function.update s.clientOf id (some client)
          early := if id ∈ s.buffers then id :: s.early else s.early }
        if (s.mediaKeysClients.find? id).isSome then
          (.fail, (removeKeySession s'' mediaKeysHandle id remove).2)
        else (.ok, { s'' with mediaKeysClients := s.mediaKeysClients.emplace id client })
      else (status, s')

/-- `hasSession`. -/
def hasSession (o : Sessions.State) (keySessionId : ℤ) : Bool :=
  (o.mediaKeySessions.find? keySessionId).isSome

/-- The search for the object that has a session. -/
def State.mediaKeysOf (s : State) (keySessionId : ℤ) : Option (ℤ × Sessions.State) :=
  s.mediaKeys.entries.find? fun e => hasSession e.2 keySessionId

def incrementSessionIdUsageCounter (s : State) (keySessionId : ℤ) : State :=
  match s.mediaKeysOf keySessionId with
  | none => s
  | some (handle, o) => s.put handle o (incrementSessionIdUsageCounterInternal o keySessionId)

def decrementSessionIdUsageCounter (s : State) (keySessionId : ℤ) (ocdm : OcdmSession) : State :=
  match s.mediaKeysOf keySessionId with
  | none => s
  | some (handle, o) => s.put handle o (decrementSessionIdUsageCounterInternal o keySessionId ocdm)

/-! ## Steps -/

/-- The calls on the service, and what happens to the protection metadata of buffers. -/
inductive Act
  | switchToActive
  | switchToInactive
  | createMediaKeys (mediaKeysHandle : ℤ) (keySystem : String) (created : Bool)
  | destroyMediaKeys (mediaKeysHandle : ℤ)
  | createKeySession (mediaKeysHandle : ℤ) (client : ℕ) (created : Bool)
      (remove : MediaKeyErrorStatus)
  | generateRequest (mediaKeysHandle keySessionId : ℤ) (constructSession : MediaKeyErrorStatus)
  | closeKeySession (mediaKeysHandle keySessionId : ℤ) (ocdm : OcdmSession)
  | removeKeySession (mediaKeysHandle keySessionId : ℤ) (remove : MediaKeyErrorStatus)
  | initMetadata (keySessionId : ℤ)
  | freeMetadata (i : ℕ) (ocdm : OcdmSession)

/-- One step. `freeMetadata i` frees the metadata of the buffer number `i`. -/
def step (s : State) : Act → Option State
  | .switchToActive => some (switchToActive s)
  | .switchToInactive => some (switchToInactive s)
  | .createMediaKeys handle keySystem created => some (createMediaKeys s handle keySystem created).2
  | .destroyMediaKeys handle => some (destroyMediaKeys s handle).2
  | .createKeySession handle client created remove =>
    if s.keySessionId < maxSessionId then
      some (createKeySession s handle client created remove).2
    else none
  | .generateRequest handle id constructSession =>
    some (generateRequest s handle id constructSession).2
  | .closeKeySession handle id ocdm => some (closeKeySession s handle id ocdm).2
  | .removeKeySession handle id remove => some (removeKeySession s handle id remove).2
  | .initMetadata id =>
    some (incrementSessionIdUsageCounter { s with buffers := id :: s.buffers } id)
  | .freeMetadata i ocdm =>
    match s.buffers[i]? with
    | none => none
    | some id =>
      some (decrementSessionIdUsageCounter { s with buffers := s.buffers.eraseIdx i } id ocdm)

/-! ## The sessions of all objects -/

/-- Some object has the session `id`. -/
def Live (s : State) (id : ℤ) (u : MediaKeySessionUsage) : Prop :=
  ∃ handle o, s.mediaKeys.find? handle = some o ∧ o.mediaKeySessions.find? id = some u

/-- A session is in one object only, and the ids of sessions and of clients were issued. -/
structure Issued (s : State) : Prop where
  unique : ∀ {handle handle' : ℤ} {o o' : Sessions.State} {id : ℤ} {u u' : MediaKeySessionUsage},
    s.mediaKeys.find? handle = some o → o.mediaKeySessions.find? id = some u →
    s.mediaKeys.find? handle' = some o' → o'.mediaKeySessions.find? id = some u' → handle = handle'
  sessions : ∀ id u, Live s id u → id < s.keySessionId
  clients : ∀ id c, s.mediaKeysClients.find? id = some c →
    id < s.keySessionId ∧ s.clientOf id = some c

theorem issued_init : Issued init where
  unique := nofun
  sessions := by
    rintro id u ⟨handle, o, hh, -⟩
    exact nomatch hh
  clients := nofun

section Objects

variable {s : State} {handle id : ℤ} {o o' : Sessions.State} {u : MediaKeySessionUsage}

theorem find?_put_keys (handle' : ℤ) :
    (s.put handle o o').mediaKeys.find? handle' =
      if handle' = handle then some o' else s.mediaKeys.find? handle' :=
  OMap.find?_insert _ _ _ _

/-- A session that the operation does not touch. -/
theorem live_put_of_ne (hh : s.mediaKeys.find? handle = some o) {id' : ℤ}
    (hsame : o'.mediaKeySessions.find? id' = o.mediaKeySessions.find? id') :
    Live (s.put handle o o') id' u ↔ Live s id' u := by
  constructor
  · rintro ⟨handle', o₁, hh', hu⟩
    rw [find?_put_keys] at hh'
    split_ifs at hh' with heq
    · cases hh'
      exact ⟨handle, o, hh, hsame ▸ hu⟩
    · exact ⟨handle', o₁, hh', hu⟩
  · rintro ⟨handle', o₁, hh', hu⟩
    by_cases heq : handle' = handle
    · subst heq
      cases hh.symm.trans hh'
      exact ⟨handle', o', by rw [find?_put_keys, if_pos rfl], hsame.trans hu⟩
    · exact ⟨handle', o₁, by rw [find?_put_keys, if_neg heq, hh'], hu⟩

/-- A session that no other object has. -/
theorem live_put_self (hown : ∀ handle' o₁ u₁, s.mediaKeys.find? handle' = some o₁ →
      o₁.mediaKeySessions.find? id = some u₁ → handle' = handle) :
    Live (s.put handle o o') id u ↔ o'.mediaKeySessions.find? id = some u := by
  constructor
  · rintro ⟨handle', o₁, hh', hu⟩
    rw [find?_put_keys] at hh'
    split_ifs at hh' with heq
    · cases hh'
      exact hu
    · exact absurd (hown handle' o₁ u hh' hu) heq
  · intro hu
    exact ⟨handle, o', by rw [find?_put_keys, if_pos rfl], hu⟩

theorem Issued.owner (h : Issued s) (hh : s.mediaKeys.find? handle = some o)
    (hu : o.mediaKeySessions.find? id = some u) (handle' : ℤ) (o₁ : Sessions.State)
    (u₁ : MediaKeySessionUsage) (hh' : s.mediaKeys.find? handle' = some o₁)
    (hu' : o₁.mediaKeySessions.find? id = some u₁) : handle' = handle :=
  h.unique hh' hu' hh hu

theorem live_of_find (hh : s.mediaKeys.find? handle = some o)
    (hu : o.mediaKeySessions.find? id = some u) : Live s id u := ⟨handle, o, hh, hu⟩

/-- An operation that adds no session. -/
theorem issued_put (h : Issued s) (hh : s.mediaKeys.find? handle = some o)
    (hsub : ∀ id u, o'.mediaKeySessions.find? id = some u →
      ∃ u₀, o.mediaKeySessions.find? id = some u₀) : Issued (s.put handle o o') := by
  have hold : ∀ {handle' o₁ id u}, (s.put handle o o').mediaKeys.find? handle' = some o₁ →
      o₁.mediaKeySessions.find? id = some u →
      ∃ o₀ u₀, s.mediaKeys.find? handle' = some o₀ ∧ o₀.mediaKeySessions.find? id = some u₀ := by
    intro handle' o₁ id u hh' hu
    rw [find?_put_keys] at hh'
    split_ifs at hh' with heq
    · cases hh'
      obtain ⟨u₀, hu₀⟩ := hsub id u hu
      exact ⟨o, u₀, heq ▸ hh, hu₀⟩
    · exact ⟨o₁, u, hh', hu⟩
  refine ⟨fun hh₁ hu₁ hh₂ hu₂ => ?_, ?_, h.clients⟩
  · obtain ⟨o₁, u₁, hh₁, hu₁⟩ := hold hh₁ hu₁
    obtain ⟨o₂, u₂, hh₂, hu₂⟩ := hold hh₂ hu₂
    exact h.unique hh₁ hu₁ hh₂ hu₂
  · rintro id u ⟨handle', o₁, hh', hu⟩
    obtain ⟨o₀, u₀, hh₀, hu₀⟩ := hold hh' hu
    exact h.sessions id u₀ (live_of_find hh₀ hu₀)

/-- An operation on one session, which must be there. -/
theorem issued_touch (h : Issued s) (hh : s.mediaKeys.find? handle = some o) (honly : Only id o o')
    (habsent : o.mediaKeySessions.find? id = none → o' = o) : Issued (s.put handle o o') := by
  refine issued_put h hh fun id' u hu => ?_
  by_cases heq : id' = id
  · subst heq
    cases hu₀ : o.mediaKeySessions.find? id' with
    | none =>
      rw [habsent hu₀, hu₀] at hu
      exact nomatch hu
    | some u₀ => exact ⟨u₀, rfl⟩
  · exact ⟨u, by rw [← honly.others id' heq, hu]⟩

theorem mediaKeysOf_some (h : s.mediaKeysOf id = some (handle, o)) :
    s.mediaKeys.find? handle = some o ∧ ∃ u, o.mediaKeySessions.find? id = some u := by
  have hhas : hasSession o id = true := List.find?_some (a := (handle, o)) h
  exact ⟨OMap.find?_eq_some.mpr (List.mem_of_find?_eq_some h), Option.isSome_iff_exists.mp hhas⟩

theorem mediaKeysOf_none (h : s.mediaKeysOf id = none) : ¬ Live s id u := by
  rintro ⟨handle, o, hh, hu⟩
  have hno := List.find?_eq_none.mp h (handle, o) (OMap.find?_eq_some.mp hh)
  simp [hasSession, hu] at hno

/-! ### Creating and destroying -/

/-- The usage of a session that was just created. -/
def fresh (keySystem : String) : MediaKeySessionUsage := ⟨⟨keySystem, false⟩, 0, false⟩

/-- The state when a session was created and its client entered. -/
def State.withSession (s : State) (handle : ℤ) (o o' : Sessions.State) (client : ℕ) : State :=
  { s.put handle o o' with
    keySessionId := s.keySessionId + 1
    clientOf := Function.update s.clientOf s.keySessionId (some client)
    early := if (s.keySessionId : ℤ) ∈ s.buffers then s.keySessionId :: s.early else s.early
    mediaKeysClients := s.mediaKeysClients.emplace s.keySessionId client }

theorem Issued.no_session (h : Issued s) : ¬ Live s s.keySessionId u :=
  fun hlive => absurd (h.sessions _ _ hlive) (lt_irrefl _)

theorem Issued.no_client (h : Issued s) : s.mediaKeysClients.find? s.keySessionId = none := by
  cases hc : s.mediaKeysClients.find? s.keySessionId with
  | none => rfl
  | some c => exact absurd (h.clients _ c hc).1 (lt_irrefl _)

/-- What `createKeySession` does; the id is new, so no client is found for it. -/
theorem createKeySession_cases (h : Issued s) (handle : ℤ) (client : ℕ) (created : Bool)
    (remove : MediaKeyErrorStatus) :
    (createKeySession s handle client created remove).2 = s ∨
    ∃ o o', s.mediaKeys.find? handle = some o ∧
      ((o'.mediaKeySessions = o.mediaKeySessions ∧ o'.log = o.log ∧
        (createKeySession s handle client created remove).2 =
          { s.put handle o o' with keySessionId := s.keySessionId + 1 }) ∨
      (o'.mediaKeySessions =
          o.mediaKeySessions.emplace s.keySessionId (fresh o.keySystem) ∧
        o'.log = o.log ++ [Entry.created s.keySessionId] ∧
        (createKeySession s handle client created remove).2 =
          s.withSession handle o o' client)) := by
  unfold createKeySession
  cases hh : s.mediaKeys.find? handle with
  | none => exact Or.inl rfl
  | some o =>
    refine Or.inr ?_
    cases created with
    | false =>
      exact ⟨o, (createKeySessionInternal o s.keySessionId false).2, rfl, Or.inl ⟨rfl, rfl, rfl⟩⟩
    | true =>
      refine ⟨o, (createKeySessionInternal o s.keySessionId true).2, rfl, Or.inr ⟨rfl, rfl, ?_⟩⟩
      simp only [createKeySessionInternal, if_true, h.no_client, Option.isSome_none,
        Bool.false_eq_true, if_false]
      rfl

section Create

variable (h : Issued s) (hh : s.mediaKeys.find? handle = some o)
  (hnew : o'.mediaKeySessions = o.mediaKeySessions.emplace s.keySessionId (fresh o.keySystem))

include h hh hnew

theorem live_create : Live (s.put handle o o') id u ↔
    (id = s.keySessionId ∧ u = fresh o.keySystem) ∨ (id ≠ s.keySessionId ∧ Live s id u) := by
  by_cases heq : id = s.keySessionId
  · subst heq
    have hnone : o.mediaKeySessions.find? (s.keySessionId : ℤ) = none := by
      cases hu : o.mediaKeySessions.find? (s.keySessionId : ℤ) with
      | none => rfl
      | some u => exact absurd (live_of_find hh hu) h.no_session
    rw [live_put_self fun _ _ _ hh' hu' => absurd (live_of_find hh' hu') h.no_session, hnew,
      OMap.find?_emplace hnone]
    simp [eq_comm]
  · have hsame : o'.mediaKeySessions.find? id = o.mediaKeySessions.find? id := by
      rw [hnew, OMap.find?_emplace_of_ne _ heq]
    rw [live_put_of_ne hh hsame]
    simp [heq]

theorem issued_create (client : ℕ) : Issued (s.withSession handle o o' client) := by
  have hsame : ∀ id : ℤ, id ≠ s.keySessionId →
      o'.mediaKeySessions.find? id = o.mediaKeySessions.find? id := by
    intro id hne
    rw [hnew, OMap.find?_emplace_of_ne _ hne]
  -- an object that has another session had it before
  have hold : ∀ {handle' o₁ id u}, (s.put handle o o').mediaKeys.find? handle' = some o₁ →
      o₁.mediaKeySessions.find? id = some u → id ≠ s.keySessionId →
      ∃ o₀, s.mediaKeys.find? handle' = some o₀ ∧ o₀.mediaKeySessions.find? id = some u := by
    intro handle' o₁ id u hh' hu hne
    rw [find?_put_keys] at hh'
    split_ifs at hh' with heq
    · cases hh'
      exact ⟨o, heq ▸ hh, hsame id hne ▸ hu⟩
    · exact ⟨o₁, hh', hu⟩
  have hown : ∀ {handle' o₁ u}, (s.put handle o o').mediaKeys.find? handle' = some o₁ →
      o₁.mediaKeySessions.find? s.keySessionId = some u → handle' = handle := by
    intro handle' o₁ u hh' hu
    rw [find?_put_keys] at hh'
    split_ifs at hh' with heq
    · exact heq
    · exact absurd (live_of_find hh' hu) h.no_session
  refine ⟨fun {h₁ h₂ o₁ o₂ id u₁ u₂} hh₁ hu₁ hh₂ hu₂ => ?_, fun id u hlive => ?_, fun id c hc => ?_⟩
  · by_cases heq : id = s.keySessionId
    · subst heq
      rw [hown hh₁ hu₁, hown hh₂ hu₂]
    · obtain ⟨o₁', hh₁, hu₁⟩ := hold hh₁ hu₁ heq
      obtain ⟨o₂', hh₂, hu₂⟩ := hold hh₂ hu₂ heq
      exact h.unique hh₁ hu₁ hh₂ hu₂
  · show id < ((s.keySessionId + 1 : ℕ) : ℤ)
    rcases (live_create h hh hnew).mp hlive with ⟨rfl, -⟩ | ⟨-, hlive⟩
    · push_cast
      omega
    · have hlt := h.sessions id u hlive
      push_cast
      omega
  · show id < ((s.keySessionId + 1 : ℕ) : ℤ) ∧
      Function.update s.clientOf s.keySessionId (some client) id = some c
    by_cases heq : id = s.keySessionId
    · subst heq
      have hc : (s.mediaKeysClients.emplace s.keySessionId client).find? s.keySessionId = some c :=
        hc
      rw [OMap.find?_emplace h.no_client] at hc
      cases hc
      refine ⟨?_, Function.update_self _ _ _⟩
      push_cast
      omega
    · have hc : (s.mediaKeysClients.emplace s.keySessionId client).find? id = some c := hc
      rw [OMap.find?_emplace_of_ne _ heq] at hc
      obtain ⟨hlt, hclient⟩ := h.clients id c hc
      refine ⟨?_, by rw [Function.update_of_ne heq, hclient]⟩
      push_cast
      omega

end Create

/-- The objects that have sessions were there before. -/
def Fewer (s s' : State) : Prop :=
  ∀ handle o id u, s'.mediaKeys.find? handle = some o → o.mediaKeySessions.find? id = some u →
    s.mediaKeys.find? handle = some o

theorem Fewer.live {s' : State} (h : Fewer s s') (hlive : Live s' id u) : Live s id u := by
  obtain ⟨handle, o, hh, hu⟩ := hlive
  exact ⟨handle, o, h handle o id u hh hu, hu⟩

theorem issued_mono (h : Issued s) {s' : State} (hfewer : Fewer s s')
    (hid : s.keySessionId ≤ s'.keySessionId) (hclientOf : s'.clientOf = s.clientOf)
    (hclients : ∀ id c, s'.mediaKeysClients.find? id = some c →
      s.mediaKeysClients.find? id = some c) : Issued s' := by
  refine ⟨fun hh hu hh' hu' => ?_, fun id u hlive => ?_, fun id c hc => ?_⟩
  · exact h.unique (hfewer _ _ _ _ hh hu) hu (hfewer _ _ _ _ hh' hu') hu'
  · have hlt := h.sessions id u (hfewer.live hlive)
    omega
  · obtain ⟨hlt, hclient⟩ := h.clients id c (hclients id c hc)
    exact ⟨by omega, by rw [hclientOf, hclient]⟩

/-- What `createMediaKeys` does: nothing, or a new object without sessions. -/
theorem createMediaKeys_cases (s : State) (handle : ℤ) (keySystem : String) (created : Bool) :
    (createMediaKeys s handle keySystem created).2 = s ∨
    s.mediaKeys.find? handle = none ∧ (createMediaKeys s handle keySystem created).2 =
      { s with
        mediaKeys := s.mediaKeys.emplace handle (Sessions.init keySystem s.keySessionId) } := by
  unfold createMediaKeys
  split_ifs with hactive hfound hcreated
  · exact Or.inl rfl
  · exact Or.inl rfl
  · exact Or.inr ⟨by simpa using hfound, rfl⟩
  · exact Or.inl rfl

theorem fewer_emplace (hnone : s.mediaKeys.find? handle = none) (keySystem : String) :
    Fewer s { s with
      mediaKeys := s.mediaKeys.emplace handle (Sessions.init keySystem s.keySessionId) } := by
  intro handle' o id u hh hu
  by_cases heq : handle' = handle
  · subst heq
    rw [OMap.find?_emplace hnone] at hh
    cases hh
    exact nomatch hu
  · rwa [OMap.find?_emplace_of_ne _ heq] at hh

theorem fewer_erase : Fewer s { s with mediaKeys := s.mediaKeys.erase handle, closes := cs } := by
  intro handle' o id u hh _
  rw [OMap.find?_erase] at hh
  split_ifs at hh
  exact hh

theorem fewer_refl : Fewer s s := fun _ _ _ _ hh _ => hh

/-! ### Steps -/

theorem issued_put_self (h : Issued s) (hh : s.mediaKeys.find? handle = some o) :
    Issued (s.put handle o o) :=
  issued_put h hh fun _ u hu => ⟨u, hu⟩

/-- An operation on a session of an object that is found. -/
theorem issued_effect (h : Issued s) (hh : s.mediaKeys.find? handle = some o)
    (hu : o.mediaKeySessions.find? id = some u) (heffect : Effect id o o') :
    Issued (s.put handle o o') :=
  issued_touch h hh heffect.only fun hnone => nomatch hnone.symm.trans hu

theorem issued_create_failed (h : Issued s) (hh : s.mediaKeys.find? handle = some o)
    (hsame : o'.mediaKeySessions = o.mediaKeySessions) :
    Issued { s.put handle o o' with keySessionId := s.keySessionId + 1 } := by
  have hput : Issued (s.put handle o o') := issued_put h hh fun id u hu => ⟨u, by rwa [← hsame]⟩
  exact issued_mono hput fewer_refl (Nat.le_succ _) rfl fun _ _ hc => hc

theorem issued_remove (h : Issued s) (handle id : ℤ) (remove : MediaKeyErrorStatus) :
    Issued (removeKeySession s handle id remove).2 := by
  have hput : Issued (s.onMediaKeys handle fun o => removeKeySessionInternal o id remove).2 := by
    unfold State.onMediaKeys
    split
    next => exact h
    next o hh =>
      rw [removeKeySession_state]
      exact issued_put_self h hh
  unfold removeKeySession
  dsimp only
  split_ifs
  · refine issued_mono hput fewer_refl le_rfl rfl fun id' c hc => ?_
    rw [OMap.find?_erase] at hc
    split_ifs at hc
    exact hc
  · exact hput

theorem issued_buffers (h : Issued s) (bs : List ℤ) : Issued { s with buffers := bs } :=
  ⟨h.unique, h.sessions, h.clients⟩

/-- An operation on a session that is not there. -/
theorem absent_ops {id : ℤ} {o : Sessions.State} (hu : o.mediaKeySessions.find? id = none) :
    (∀ constructSession, (generateRequestInternal o id constructSession).2 = o) ∧
      ∀ ocdm, (closeKeySessionInternal o id ocdm).2 = o := by
  refine ⟨fun constructSession => ?_, fun ocdm => ?_⟩
  · rw [generateRequestInternal, hu]
  · rw [closeKeySessionInternal, hu]

theorem step_issued {s' : State} {a : Act} (h : Issued s) (hstep : step s a = some s') :
    Issued s' := by
  cases a with
  | switchToActive =>
    cases hstep
    exact ⟨h.unique, h.sessions, h.clients⟩
  | switchToInactive =>
    cases hstep
    exact issued_mono h (fun _ _ _ _ hh => nomatch hh) le_rfl rfl fun _ _ hc => hc
  | createMediaKeys handle keySystem created =>
    cases hstep
    rcases createMediaKeys_cases s handle keySystem created with heq | ⟨hnone, heq⟩
    · rw [heq]
      exact h
    · rw [heq]
      exact issued_mono h (fewer_emplace hnone keySystem) le_rfl rfl fun _ _ hc => hc
  | destroyMediaKeys handle =>
    cases hstep
    unfold destroyMediaKeys
    split
    next => exact h
    next o hh => exact issued_mono h fewer_erase le_rfl rfl fun _ _ hc => hc
  | createKeySession handle client created remove =>
    simp only [step] at hstep
    split_ifs at hstep
    cases hstep
    rcases createKeySession_cases h handle client created remove with heq |
      ⟨o, o', hh, ⟨hsame, -, heq⟩ | ⟨hnew, -, heq⟩⟩
    · rw [heq]
      exact h
    · rw [heq]
      exact issued_create_failed h hh hsame
    · rw [heq]
      exact issued_create h hh hnew client
  | generateRequest handle id constructSession =>
    cases hstep
    unfold generateRequest State.onMediaKeys
    split
    next => exact h
    next o hh =>
      exact issued_touch h hh (effect_generateRequest o id constructSession).only fun hnone =>
        (absent_ops hnone).1 constructSession
  | closeKeySession handle id ocdm =>
    cases hstep
    unfold closeKeySession State.onMediaKeys
    split
    next => exact h
    next o hh =>
      exact issued_touch h hh (effect_close o id ocdm).only fun hnone => (absent_ops hnone).2 ocdm
  | removeKeySession handle id remove =>
    cases hstep
    exact issued_remove h handle id remove
  | initMetadata id =>
    cases hstep
    unfold incrementSessionIdUsageCounter
    split
    next => exact issued_buffers h _
    next handle o hsome =>
      obtain ⟨hh, u, hu⟩ := mediaKeysOf_some hsome
      exact issued_effect (issued_buffers h _) hh hu (effect_increment o id)
  | freeMetadata i ocdm =>
    simp only [step] at hstep
    split at hstep
    next => exact nomatch hstep
    next id hi =>
      cases hstep
      unfold decrementSessionIdUsageCounter
      split
      next => exact issued_buffers h _
      next handle o hsome =>
        obtain ⟨hh, u, hu⟩ := mediaKeysOf_some hsome
        exact issued_effect (issued_buffers h _) hh hu (effect_decrement o id ocdm)

end Objects

end Rialto.Keys.Cdm

import Rialto.Lib.OrdMap
import Rialto.Lib.Runs
import Rialto.Lib.Word

/-! # Key sessions of the server

`MediaKeysServerInternal` owns the key sessions of one key system. A buffer that is decrypted later
holds on to its session by a usage counter; closing a session that is in use is put off until the
counter is back to `0`. All functions here run on the main thread, one at a time.

The statuses of OCDM come with the operations. `log` records what is done to the sessions, the
oldest entry first; the usage counter at an attempt to close is recorded with it. -/

namespace Rialto.Keys.Sessions

open Rialto.Lib.OrdMap Rialto.Lib.Runs Rialto.Lib.Word

inductive MediaKeyErrorStatus
  | ok
  | fail
  | badSessionId
  | notSupported
  | invalidState
  deriving DecidableEq, Repr

/-! ## One session -/

def netflixKeySystem : String := "com.netflix.playready"

/-- `MediaKeySession`, as far as closing it needs. -/
structure MediaKeySession where
  keySystem : String
  isSessionConstructed : Bool
  deriving DecidableEq, Repr

/-- What the calls on the OCDM session return while a session is closed. -/
structure OcdmSession where
  cancelChallengeData : MediaKeyErrorStatus
  cleanDecryptContext : MediaKeyErrorStatus
  close : MediaKeyErrorStatus
  destructSession : MediaKeyErrorStatus
  deriving DecidableEq, Repr

/-- `MediaKeySession::closeKeySession`. The two calls of the Netflix key system are made for their
effect only, a failure is logged. -/
def MediaKeySession.closeKeySession (m : MediaKeySession) (ocdm : OcdmSession) :
    MediaKeyErrorStatus × MediaKeySession :=
  if m.keySystem ≠ netflixKeySystem ∧ ocdm.close ≠ .ok then (ocdm.close, m)
  else if ocdm.destructSession ≠ .ok then (ocdm.destructSession, m)
  else (.ok, { m with isSessionConstructed := false })

/-! ## The sessions -/

/-- `MediaKeySessionUsage`. -/
structure MediaKeySessionUsage where
  mediaKeySession : MediaKeySession
  bufCounter : ℕ
  shouldBeDestroyed : Bool
  deriving DecidableEq, Repr

/-- What is done to a session. -/
inductive Entry
  | created (id : ℤ)
  | incremented (id : ℤ)
  | decremented (id : ℤ)
  | closeAttempted (id : ℤ) (bufCounter : ℕ) (status : MediaKeyErrorStatus)
  deriving DecidableEq, Repr

/-- `MediaKeysServerInternal`, with the counter of `generateSessionId`, which all its objects
share. -/
structure State where
  keySystem : String
  keySessionId : ℕ
  mediaKeySessions : OMap ℤ MediaKeySessionUsage
  log : List Entry

def init (keySystem : String) (keySessionId : ℕ) : State :=
  ⟨keySystem, keySessionId, OMap.empty, []⟩

def State.note (s : State) (e : Entry) : State := { s with log := s.log ++ [e] }

/-- An assignment to the usage of a session in the map. -/
def State.put (s : State) (id : ℤ) (u : MediaKeySessionUsage) : State :=
  { s with mediaKeySessions := s.mediaKeySessions.insert id u }

@[simp] theorem State.note_log (s : State) (e : Entry) : (s.note e).log = s.log ++ [e] := rfl

@[simp] theorem State.note_mediaKeySessions (s : State) (e : Entry) :
    (s.note e).mediaKeySessions = s.mediaKeySessions := rfl

@[simp] theorem State.note_keySessionId (s : State) (e : Entry) :
    (s.note e).keySessionId = s.keySessionId := rfl

@[simp] theorem State.put_log (s : State) (id : ℤ) (u : MediaKeySessionUsage) :
    (s.put id u).log = s.log := rfl

@[simp] theorem State.put_keySessionId (s : State) (id : ℤ) (u : MediaKeySessionUsage) :
    (s.put id u).keySessionId = s.keySessionId := rfl

/-- `m_mediaKeySessions.erase`: the destructor of the session closes it once more if it is still
constructed. -/
def eraseSession (s : State) (id : ℤ) (u : MediaKeySessionUsage) (ocdm : OcdmSession) : State :=
  if u.mediaKeySession.isSessionConstructed then
    { s with mediaKeySessions := s.mediaKeySessions.erase id }.note
      (.closeAttempted id u.bufCounter (u.mediaKeySession.closeKeySession ocdm).1)
  else { s with mediaKeySessions := s.mediaKeySessions.erase id }

/-- The part that closing at once and closing at the last decrement have in common. -/
def attemptClose (s : State) (id : ℤ) (u : MediaKeySessionUsage) (ocdm : OcdmSession) :
    MediaKeyErrorStatus × State :=
  match u.mediaKeySession.closeKeySession ocdm with
  | (status, m) =>
    if status ≠ .ok then
      (status, (s.put id { u with mediaKeySession := m }).note
        (.closeAttempted id u.bufCounter status))
    else
      (status, eraseSession (s.note (.closeAttempted id u.bufCounter status)) id
        { u with mediaKeySession := m } ocdm)

/-- `createKeySessionInternal`, for the id that `generateSessionId` returns; `created` is whether
the factory makes a session. -/
def createKeySessionInternal (s : State) (keySessionId : ℕ) (created : Bool) :
    MediaKeyErrorStatus × State :=
  if created then
    (.ok, { s with
      keySessionId := keySessionId + 1
      mediaKeySessions :=
        s.mediaKeySessions.emplace keySessionId ⟨⟨s.keySystem, false⟩, 0, false⟩ }.note
          (.created keySessionId))
  else (.fail, { s with keySessionId := keySessionId + 1 })

/-- `generateRequestInternal`, with what `constructSession` returns. -/
def generateRequestInternal (s : State) (keySessionId : ℤ)
    (constructSession : MediaKeyErrorStatus) : MediaKeyErrorStatus × State :=
  match s.mediaKeySessions.find? keySessionId with
  | none => (.badSessionId, s)
  | some u =>
    if u.mediaKeySession.isSessionConstructed then (.ok, s)
    else if constructSession ≠ .ok then (constructSession, s)
    else
      (.ok, s.put keySessionId
        { u with mediaKeySession := { u.mediaKeySession with isSessionConstructed := true } })

def closeKeySessionInternal (s : State) (keySessionId : ℤ) (ocdm : OcdmSession) :
    MediaKeyErrorStatus × State :=
  match s.mediaKeySessions.find? keySessionId with
  | none => (.badSessionId, s)
  | some u =>
    if u.bufCounter = 0 then attemptClose s keySessionId u ocdm
    else (.ok, s.put keySessionId { u with shouldBeDestroyed := true })

/-- `removeKeySessionInternal`, with what `remove` of the OCDM session returns. -/
def removeKeySessionInternal (s : State) (keySessionId : ℤ) (remove : MediaKeyErrorStatus) :
    MediaKeyErrorStatus × State :=
  match s.mediaKeySessions.find? keySessionId with
  | none => (.badSessionId, s)
  | some _ => (remove, s)

def incrementSessionIdUsageCounterInternal (s : State) (keySessionId : ℤ) : State :=
  match s.mediaKeySessions.find? keySessionId with
  | none => s
  | some u =>
    (s.put keySessionId { u with bufCounter := add32 u.bufCounter 1 }).note
      (.incremented keySessionId)

/-- The counter of a session goes down unless it is `0`. -/
def decrementCounter (s : State) (keySessionId : ℤ) (u : MediaKeySessionUsage) :
    State × MediaKeySessionUsage :=
  if 0 < u.bufCounter then
    ((s.put keySessionId { u with bufCounter := u.bufCounter - 1 }).note
        (.decremented keySessionId),
      { u with bufCounter := u.bufCounter - 1 })
  else (s, u)

def decrementSessionIdUsageCounterInternal (s : State) (keySessionId : ℤ) (ocdm : OcdmSession) :
    State :=
  match s.mediaKeySessions.find? keySessionId with
  | none => s
  | some u =>
    match decrementCounter s keySessionId u with
    | (s, u) =>
      if u.bufCounter = 0 ∧ u.shouldBeDestroyed then (attemptClose s keySessionId u ocdm).2 else s

/-! ## Runs -/

/-- The calls. `createKeySession` comes with the number of ids that other objects have taken from
`generateSessionId` since the last call. -/
inductive Op
  | createKeySession (taken : ℕ) (created : Bool)
  | generateRequest (keySessionId : ℤ) (constructSession : MediaKeyErrorStatus)
  | incrementSessionIdUsageCounter (keySessionId : ℤ)
  | decrementSessionIdUsageCounter (keySessionId : ℤ) (ocdm : OcdmSession)
  | closeKeySession (keySessionId : ℤ) (ocdm : OcdmSession)
  | removeKeySession (keySessionId : ℤ) (remove : MediaKeyErrorStatus)
  deriving DecidableEq, Repr

/-- The ids below which `generateSessionId` counts; its `int32_t` must not overflow. -/
def maxSessionId : ℕ := 2147483648

def step (s : State) : Op → Option State
  | .createKeySession taken created =>
    if s.keySessionId + taken < maxSessionId then
      some (createKeySessionInternal s (s.keySessionId + taken) created).2
    else none
  | .generateRequest id constructSession => some (generateRequestInternal s id constructSession).2
  | .incrementSessionIdUsageCounter id => some (incrementSessionIdUsageCounterInternal s id)
  | .decrementSessionIdUsageCounter id ocdm =>
    some (decrementSessionIdUsageCounterInternal s id ocdm)
  | .closeKeySession id ocdm => some (closeKeySessionInternal s id ocdm).2
  | .removeKeySession id remove => some (removeKeySessionInternal s id remove).2

end Rialto.Keys.Sessions

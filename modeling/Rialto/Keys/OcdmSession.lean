import Rialto.Keys.Sessions

/-! # The sessions of the CDM

A `MediaKeySession` works on an `OcdmSession`, which holds the session that OpenCDM has made for it.
OpenCDM must not be given a session that it has destructed: it is gone. `OcdmSession` keeps its
pointer when the session is destructed; `MediaKeysServerInternal` erases a key session that it has
closed, and the tasks of a key session that is gone are not run. When the media keys are destructed
it is another thread than the main thread that closes the key sessions and then unregisters them.

What OpenCDM answers comes with the calls. `calls` records them, with whether the session was there.

* `Inv`: a key session has no session yet, or one of its own that is there.
* `calls_live`: OpenCDM is given a session that is gone only by a task that runs while the media
  keys are destructed; each is destructed at most once, and while the media keys live every session
  that is there belongs to one key session.
* `close_iff`: when closing a key session succeeds; one that was never used cannot be closed.
* `use_after_close_iff`: by itself, a key session gives OpenCDM a session that is gone exactly if it
  is used after it was closed.
* `refines_sessions`: until they are destructed these are the key sessions of
  `Rialto.Keys.Sessions`. -/

namespace Rialto.Keys.OcdmSession

open Rialto.Lib.OrdMap Rialto.Lib.Runs Rialto.Lib.Word
open Rialto.Keys.Sessions (MediaKeyErrorStatus netflixKeySystem)

/-! ## OpenCDM -/

inductive OpenCDMError
  | none
  | unknown
  | moreDataAvailable
  | invalidAccessor
  | keysystemNotSupported
  | invalidSession
  | invalidDecryptBuffer
  | outOfMemory
  | fail
  | invalidArg
  | serverInternalError
  | serverInvalidMessage
  | serverServiceSpecific
  deriving DecidableEq, Repr

def convertOpenCdmError : OpenCDMError → MediaKeyErrorStatus
  | .none => .ok
  | .invalidSession => .badSessionId
  | .keysystemNotSupported => .notSupported
  | .unknown | .moreDataAvailable | .invalidAccessor | .invalidDecryptBuffer | .outOfMemory | .fail
  | .invalidArg | .serverInternalError | .serverInvalidMessage | .serverServiceSpecific => .fail

/-- The functions of OpenCDM that take a session. -/
inductive Function
  | getChallengeData
  | storeLicenseData
  | load
  | update
  | decrypt
  | remove
  | close
  | cancelChallengeData
  | cleanDecryptContext
  | destruct
  | status
  | id
  | selectKeyId
  | hasKeyId
  | setDrmHeader
  | systemError
  deriving DecidableEq, Repr

/-- A call, with the session it is given (`none` for the null pointer), and whether it is there. -/
structure Call where
  function : Function
  session : Option ℕ
  live : Bool
  deriving DecidableEq, Repr

/-- OpenCDM: the number of sessions that it has made, those it has destructed, and the calls. -/
structure Cdm where
  made : ℕ
  destructed : List ℕ
  calls : List Call

def Cdm.isLive (c : Cdm) (session : ℕ) : Bool :=
  decide (session < c.made) && decide (session ∉ c.destructed)

def Cdm.call (c : Cdm) (function : Function) (session : Option ℕ) : Cdm :=
  { c with calls := c.calls ++ [⟨function, session, session.any c.isLive⟩] }

/-! ## `OcdmSession`, by its `m_session` -/

/-- OpenCDM makes a session exactly if it answers `ERROR_NONE`. -/
def constructSession (c : Cdm) (session : Option ℕ) (answer : OpenCDMError) :
    MediaKeyErrorStatus × Option ℕ × Cdm :=
  match session with
  | some session => (.ok, some session, c)
  | none =>
    if answer = .none then (.ok, some c.made, { c with made := c.made + 1 })
    else (convertOpenCdmError answer, none, c)

/-- The functions of `OcdmSession` that fail without a session and call OpenCDM else. -/
def onSession (function : Function) (c : Cdm) (session : Option ℕ) (answer : OpenCDMError) :
    MediaKeyErrorStatus × Cdm :=
  match session with
  | none => (.fail, c)
  | some session => (convertOpenCdmError answer, c.call function (some session))

def getChallengeData := onSession .getChallengeData
def storeLicenseData := onSession .storeLicenseData
def load := onSession .load
def update := onSession .update
def decrypt := onSession .decrypt
def remove := onSession .remove
def close := onSession .close
def cancelChallengeData := onSession .cancelChallengeData
def cleanDecryptContext := onSession .cleanDecryptContext
def getCdmKeySessionId := onSession .id
def selectKeyId := onSession .selectKeyId
def hasKeyId := onSession .hasKeyId
def setDrmHeader := onSession .setDrmHeader
def getLastDrmError := onSession .systemError

/-- The pointer stays as it is. -/
def destructSession (c : Cdm) (session : Option ℕ) (answer : OpenCDMError) :
    MediaKeyErrorStatus × Cdm :=
  match session with
  | none => (.fail, c)
  | some session =>
    let c := c.call .destruct (some session)
    (convertOpenCdmError answer,
      if answer = .none then { c with destructed := c.destructed ++ [session] } else c)

/-- `getStatus` does not look whether there is a session. -/
def getStatus (c : Cdm) (session : Option ℕ) : Cdm := c.call .status session

/-! ## `MediaKeySession` -/

structure MediaKeySession where
  keySystem : String
  isSessionConstructed : Bool
  selectedKeyId : List UInt8
  session : Option ℕ
  deriving DecidableEq

/-- What OpenCDM answers while a key session is closed. -/
structure Closing where
  cancelChallengeData : OpenCDMError
  cleanDecryptContext : OpenCDMError
  close : OpenCDMError
  destruct : OpenCDMError
  deriving DecidableEq, Repr

/-- `generateRequest`; the challenge of a Netflix session is fetched by a task. -/
def generateRequest (c : Cdm) (m : MediaKeySession) (answer : OpenCDMError) :
    MediaKeyErrorStatus × MediaKeySession × Cdm :=
  if m.isSessionConstructed then (.ok, m, c)
  else
    match constructSession c m.session answer with
    | (status, session, c) =>
      (status, { m with session := session, isSessionConstructed := decide (status = .ok) }, c)

def updateSession (c : Cdm) (m : MediaKeySession) (answer : OpenCDMError) :
    MediaKeyErrorStatus × Cdm :=
  if m.keySystem = netflixKeySystem then storeLicenseData c m.session answer
  else update c m.session answer

/-- `closeKeySession`, from the destruction on. -/
def destructKeySession (c : Cdm) (m : MediaKeySession) (answer : OpenCDMError) :
    MediaKeyErrorStatus × MediaKeySession × Cdm :=
  match destructSession c m.session answer with
  | (status, c) =>
    (status, { m with isSessionConstructed := m.isSessionConstructed && decide (status ≠ .ok) }, c)

def closeKeySession (c : Cdm) (m : MediaKeySession) (answers : Closing) :
    MediaKeyErrorStatus × MediaKeySession × Cdm :=
  if m.keySystem = netflixKeySystem then
    let c := (cancelChallengeData c m.session answers.cancelChallengeData).2
    let c := (cleanDecryptContext c m.session answers.cleanDecryptContext).2
    destructKeySession c m answers.destruct
  else
    match close c m.session answers.close with
    | (status, c) =>
      if status ≠ .ok then (status, m, c) else destructKeySession c m answers.destruct

def selectKey (c : Cdm) (m : MediaKeySession) (keyId : List UInt8) (answer : OpenCDMError) :
    MediaKeyErrorStatus × MediaKeySession × Cdm :=
  if m.selectedKeyId = keyId then (.ok, m, c)
  else
    match selectKeyId c m.session answer with
    | (status, c) => (status, if status = .ok then { m with selectedKeyId := keyId } else m, c)

/-- `~MediaKeySession` -/
def destructor (c : Cdm) (m : MediaKeySession) (answers : Closing) : Cdm :=
  if m.isSessionConstructed then (closeKeySession c m answers).2.2 else c

/-- What a key session is asked for, or comes with one of its callbacks; the status of a key is only
looked up if the client of the session is still there. -/
inductive Request
  | generateRequest (answer : OpenCDMError)
  | getChallenge (size data : OpenCDMError)
  | loadSession (answer : OpenCDMError)
  | updateSession (answer : OpenCDMError)
  | decrypt (answer : OpenCDMError)
  | removeKeySession (answer : OpenCDMError)
  | getCdmKeySessionId
  | containsKey
  | setDrmHeader (answer : OpenCDMError)
  | getLastDrmError
  | selectKeyId (keyId : List UInt8) (answer : OpenCDMError)
  | keyUpdated (client : Bool)
  deriving DecidableEq

def perform (c : Cdm) (m : MediaKeySession) : Request → MediaKeySession × Cdm
  | .generateRequest answer => (generateRequest c m answer).2
  | .getChallenge size data =>
    (m, (getChallengeData (getChallengeData c m.session size).2 m.session data).2)
  | .loadSession answer => (m, (load c m.session answer).2)
  | .updateSession answer => (m, (updateSession c m answer).2)
  | .decrypt answer => (m, (decrypt c m.session answer).2)
  | .removeKeySession answer => (m, (remove c m.session answer).2)
  | .getCdmKeySessionId => (m, (getCdmKeySessionId c m.session .none).2)
  | .containsKey => (m, (hasKeyId c m.session .none).2)
  | .setDrmHeader answer => (m, (setDrmHeader c m.session answer).2)
  | .getLastDrmError => (m, (getLastDrmError c m.session .none).2)
  | .selectKeyId keyId answer => (selectKey c m keyId answer).2
  | .keyUpdated client => (m, if client then getStatus c m.session else c)

/-! ## What the calls are given -/

variable {c : Cdm} {m : MediaKeySession} {x : ℕ}

/-- `c'` comes from `c` by calls with one session, and by its destruction or none. -/
structure Gives (c c' : Cdm) (session : ℕ) (destructed : List ℕ) : Prop where
  calls : ∃ new, c'.calls = c.calls ++ new ∧ ∀ call ∈ new, call.live = c.isLive session
  made : c'.made = c.made
  destructed : c'.destructed = c.destructed ++ destructed

theorem Gives.refl (c : Cdm) (x : ℕ) : Gives c c x [] :=
  ⟨⟨[], (List.append_nil _).symm, nofun⟩, rfl, (List.append_nil _).symm⟩

theorem Cdm.isLive_iff : c.isLive x = true ↔ x < c.made ∧ x ∉ c.destructed := by
  simp [Cdm.isLive]

theorem Cdm.isLive_congr {c' : Cdm} (hmade : c'.made = c.made)
    (hdestructed : c'.destructed = c.destructed) (y : ℕ) : c'.isLive y = c.isLive y := by
  unfold Cdm.isLive
  rw [hmade, hdestructed]

theorem Gives.isLive {c' : Cdm} (h : Gives c c' x []) (y : ℕ) : c'.isLive y = c.isLive y :=
  Cdm.isLive_congr h.made (h.destructed.trans (List.append_nil _)) y

theorem Gives.trans {c' c'' : Cdm} {destructed : List ℕ} (h : Gives c c' x [])
    (h' : Gives c' c'' x destructed) : Gives c c'' x destructed := by
  obtain ⟨new, hnew, hlive⟩ := h.calls
  obtain ⟨new', hnew', hlive'⟩ := h'.calls
  refine ⟨⟨new ++ new', ?_, fun call hcall => ?_⟩, h'.made.trans h.made, ?_⟩
  · rw [hnew', hnew, List.append_assoc]
  · rcases List.mem_append.mp hcall with hcall | hcall
    · exact hlive call hcall
    · rw [hlive' call hcall, h.isLive]
  · rw [h'.destructed, h.destructed, List.append_nil]

theorem gives_call (c : Cdm) (function : Function) (x : ℕ) :
    Gives c (c.call function (some x)) x [] := by
  refine ⟨⟨[_], rfl, fun call hcall => ?_⟩, rfl, (List.append_nil _).symm⟩
  rw [List.mem_singleton.mp hcall]
  rfl

theorem gives_onSession (function : Function) (c : Cdm) (x : ℕ) (answer : OpenCDMError) :
    Gives c (onSession function c (some x) answer).2 x [] := gives_call c function x

theorem converted_ok_iff {answer : OpenCDMError} :
    convertOpenCdmError answer = .ok ↔ answer = .none := by
  cases answer <;> simp [convertOpenCdmError]

/-- Destructing the session of a key session. -/
theorem destructKeySession_spec (h : m.session = some x) (answer : OpenCDMError) :
    (destructKeySession c m answer).1 = convertOpenCdmError answer ∧
    (destructKeySession c m answer).2.1 =
      { m with isSessionConstructed := m.isSessionConstructed && decide (answer ≠ .none) } ∧
    Gives c (destructKeySession c m answer).2.2 x (if answer = .none then [x] else []) := by
  have hok : decide (convertOpenCdmError answer ≠ .ok) = decide (answer ≠ .none) := by
    simp only [ne_eq, converted_ok_iff]
  unfold destructKeySession destructSession
  rw [h]
  refine ⟨rfl, by dsimp only; rw [hok], ?_⟩
  dsimp only
  split_ifs
  · obtain ⟨hcalls, hmade, -⟩ := gives_call c .destruct x
    exact ⟨hcalls, hmade, rfl⟩
  · exact gives_call c .destruct x

/-- **Closing a key session that has a session**: it is destructed exactly if the result is OK. -/
theorem closeKeySession_spec (h : m.session = some x) (answers : Closing) :
    (closeKeySession c m answers).1 = .ok ∧
      (closeKeySession c m answers).2.1 = { m with isSessionConstructed := false } ∧
      Gives c (closeKeySession c m answers).2.2 x [x] ∨
    (closeKeySession c m answers).1 ≠ .ok ∧ (closeKeySession c m answers).2.1 = m ∧
      Gives c (closeKeySession c m answers).2.2 x [] := by
  have hdestruct : ∀ c', Gives c c' x [] →
      (destructKeySession c' m answers.destruct).1 = .ok ∧
        (destructKeySession c' m answers.destruct).2.1 = { m with isSessionConstructed := false } ∧
        Gives c (destructKeySession c' m answers.destruct).2.2 x [x] ∨
      (destructKeySession c' m answers.destruct).1 ≠ .ok ∧
        (destructKeySession c' m answers.destruct).2.1 = m ∧
        Gives c (destructKeySession c' m answers.destruct).2.2 x [] := by
    intro c' hc'
    obtain ⟨hstatus, hm, hgives⟩ := destructKeySession_spec (c := c') h answers.destruct
    rw [hstatus, hm]
    by_cases hnone : answers.destruct = .none
    · refine Or.inl ⟨converted_ok_iff.mpr hnone, by simp [hnone], ?_⟩
      rw [if_pos hnone] at hgives
      exact hc'.trans hgives
    · refine Or.inr ⟨fun hok => hnone (converted_ok_iff.mp hok), by simp [hnone], ?_⟩
      rw [if_neg hnone] at hgives
      exact hc'.trans hgives
  unfold closeKeySession
  split_ifs with hnetflix
  · dsimp only
    refine hdestruct _ ?_
    rw [h]
    exact (gives_onSession .cancelChallengeData c x answers.cancelChallengeData).trans
      (gives_onSession .cleanDecryptContext _ x answers.cleanDecryptContext)
  · have hclosed := gives_onSession .close c x answers.close
    dsimp only
    split_ifs with hclose
    · refine Or.inr ⟨hclose, rfl, ?_⟩
      rw [h]
      exact hclosed
    · refine hdestruct _ ?_
      rw [h]
      exact hclosed

/-- A key session that has no session cannot be closed. -/
theorem closeKeySession_none (h : m.session = none) (answers : Closing) :
    closeKeySession c m answers = (.fail, m, c) := by
  obtain ⟨keySystem, isSessionConstructed, selectedKeyId, session⟩ := m
  cases h
  have hdestruct : ∀ c',
      destructKeySession c' ⟨keySystem, isSessionConstructed, selectedKeyId, none⟩
        answers.destruct =
          (.fail, ⟨keySystem, isSessionConstructed, selectedKeyId, none⟩, c') := fun c' => by
    simp [destructKeySession, destructSession]
  unfold closeKeySession
  split_ifs
  · exact hdestruct c
  · rfl

/-- **When closing a key session succeeds.** -/
theorem close_iff (answers : Closing) :
    (closeKeySession c m answers).1 = .ok ↔ m.session.isSome ∧ answers.destruct = .none ∧
      (m.keySystem ≠ netflixKeySystem → answers.close = .none) := by
  cases hsession : m.session with
  | none =>
    rw [closeKeySession_none hsession]
    exact iff_of_false nofun fun hsome => Bool.noConfusion hsome.1
  | some x =>
    have hdestruct : ∀ c', (destructKeySession c' m answers.destruct).1 = .ok ↔
        answers.destruct = .none := fun c' => by
      rw [(destructKeySession_spec hsession answers.destruct).1, converted_ok_iff]
    have hclose : (close c m.session answers.close).1 = .ok ↔ answers.close = .none := by
      rw [hsession]
      exact converted_ok_iff
    unfold closeKeySession
    split_ifs with hnetflix
    · simp [hdestruct, hnetflix]
    · dsimp only
      split_ifs with hfail
      · have hnot : answers.close ≠ .none := fun hnone => hfail (hclose.mpr hnone)
        exact iff_of_false hfail fun hall => hnot (hall.2.2 hnetflix)
      · have hnone := hclose.mp (not_not.mp hfail)
        simp [hdestruct, hnetflix, hnone]

/-- Whether a request calls OpenCDM, for a key session that has a session. -/
def Request.calls (m : MediaKeySession) : Request → Bool
  | .generateRequest _ => false
  | .selectKeyId keyId _ => decide (m.selectedKeyId ≠ keyId)
  | .keyUpdated client => client
  | _ => true

/-- What a request leaves: the session is the same, and it is constructed. -/
structure Kept (m m' : MediaKeySession) : Prop where
  session : m'.session = m.session
  keySystem : m'.keySystem = m.keySystem
  constructed : m.isSessionConstructed = true → m'.isSessionConstructed = true

theorem perform_spec (h : m.session = some x) (r : Request) :
    Kept m (perform c m r).1 ∧ Gives c (perform c m r).2 x [] := by
  have hkept : Kept m m := ⟨rfl, rfl, id⟩
  cases r with
  | generateRequest answer =>
    unfold perform generateRequest
    split_ifs with hconstructed
    · exact ⟨hkept, Gives.refl c x⟩
    · rw [h]
      exact ⟨⟨h.symm, rfl, fun _ => rfl⟩, Gives.refl c x⟩
  | getChallenge size data =>
    refine ⟨hkept, ?_⟩
    unfold perform
    rw [h]
    exact (gives_onSession .getChallengeData c x size).trans
      (gives_onSession .getChallengeData _ x data)
  | updateSession answer =>
    refine ⟨hkept, ?_⟩
    show Gives c (updateSession c m answer).2 x []
    unfold updateSession
    rw [h]
    split_ifs
    · exact gives_onSession .storeLicenseData c x answer
    · exact gives_onSession .update c x answer
  | selectKeyId keyId answer =>
    show Kept m (selectKey c m keyId answer).2.1 ∧ Gives c (selectKey c m keyId answer).2.2 x []
    unfold selectKey
    split_ifs
    · exact ⟨hkept, Gives.refl c x⟩
    · rw [h]
      refine ⟨?_, gives_onSession .selectKeyId c x answer⟩
      dsimp only
      split_ifs
      · exact ⟨h.symm, rfl, id⟩
      · exact hkept
  | keyUpdated client =>
    refine ⟨hkept, ?_⟩
    unfold perform getStatus
    rw [h]
    cases client with
    | false => exact Gives.refl c x
    | true => exact gives_call c .status x
  | loadSession answer =>
    exact ⟨hkept, by unfold perform; rw [h]; exact gives_onSession .load c x answer⟩
  | decrypt answer =>
    exact ⟨hkept, by unfold perform; rw [h]; exact gives_onSession .decrypt c x answer⟩
  | removeKeySession answer =>
    exact ⟨hkept, by unfold perform; rw [h]; exact gives_onSession .remove c x answer⟩
  | getCdmKeySessionId =>
    exact ⟨hkept, by unfold perform; rw [h]; exact gives_onSession .id c x .none⟩
  | containsKey =>
    exact ⟨hkept, by unfold perform; rw [h]; exact gives_onSession .hasKeyId c x .none⟩
  | setDrmHeader answer =>
    exact ⟨hkept, by unfold perform; rw [h]; exact gives_onSession .setDrmHeader c x answer⟩
  | getLastDrmError =>
    exact ⟨hkept, by unfold perform; rw [h]; exact gives_onSession .systemError c x .none⟩

/-- A request without a session: `generateRequest` may construct one, and a key that is updated has
its status looked up all the same. -/
theorem perform_none (h : m.session = none) (hconstructed : m.isSessionConstructed = false)
    (r : Request) :
    perform c m r = (m, c) ∧ r ≠ .keyUpdated true ∨
    r = .generateRequest .none ∧ perform c m r =
      ({ m with session := some c.made, isSessionConstructed := true },
        { c with made := c.made + 1 }) ∨
    r = .keyUpdated true ∧ perform c m r = (m, c.call .status none) := by
  obtain ⟨keySystem, isSessionConstructed, selectedKeyId, session⟩ := m
  cases h
  cases hconstructed
  cases r with
  | generateRequest answer =>
    by_cases hnone : answer = .none
    · rw [hnone]
      exact Or.inr (Or.inl ⟨rfl, rfl⟩)
    · refine Or.inl ⟨?_, nofun⟩
      have hstatus : convertOpenCdmError answer ≠ .ok := fun hok => hnone (converted_ok_iff.mp hok)
      simp [perform, generateRequest, constructSession, hnone, hstatus]
  | updateSession answer =>
    refine Or.inl ⟨?_, nofun⟩
    show (_, (updateSession c _ answer).2) = _
    unfold updateSession
    split_ifs <;> rfl
  | selectKeyId keyId answer =>
    refine Or.inl ⟨?_, nofun⟩
    show (selectKey c _ keyId answer).2 = _
    unfold selectKey
    split_ifs <;> rfl
  | keyUpdated client =>
    cases client with
    | false => exact Or.inl ⟨rfl, nofun⟩
    | true => exact Or.inr (Or.inr ⟨rfl, rfl⟩)
  | _ => exact Or.inl ⟨rfl, nofun⟩

/-! ## A key session by itself -/

/-- A key session and OpenCDM; `closed` is whether a `closeKeySession` has returned OK. -/
structure Alone where
  cdm : Cdm
  session : MediaKeySession
  closed : Bool

inductive Use
  | request (r : Request)
  | closeKeySession (answers : Closing)

def Alone.init (keySystem : String) : Alone := ⟨⟨0, [], []⟩, ⟨keySystem, false, [], none⟩, false⟩

def Alone.step (s : Alone) : Use → Option Alone
  | .request r =>
    let done := perform s.cdm s.session r
    some { s with cdm := done.2, session := done.1 }
  | .closeKeySession answers =>
    let done := closeKeySession s.cdm s.session answers
    some ⟨done.2.2, done.2.1, s.closed || decide (done.1 = .ok)⟩

/-- OpenCDM was only given sessions that were there. -/
def Cdm.AllLive (c : Cdm) : Prop := ∀ call ∈ c.calls, call.live = true

structure Alone.Inv (s : Alone) : Prop where
  without : s.session.session = none → s.session.isSessionConstructed = false ∧ s.closed = false
  live : ∀ x, s.session.session = some x → s.cdm.isLive x = !s.closed
  made : ∀ x, s.session.session = some x → x < s.cdm.made
  destructed : ∀ x ∈ s.cdm.destructed, x < s.cdm.made

/-- The uses that are in order: no call after a close that succeeded, and no key is updated before
there is a session. -/
def Alone.Meets (s : Alone) : Use → Prop
  | .request r =>
    (r = .keyUpdated true → s.session.session.isSome) ∧
      (s.closed = true → r.calls s.session = false)
  | .closeKeySession _ => s.closed = false

theorem Gives.allLive_iff {c' : Cdm} {destructed : List ℕ} (h : Gives c c' x destructed)
    (hall : c.AllLive) : c'.AllLive ↔ c.isLive x = true ∨ c'.calls.length = c.calls.length := by
  obtain ⟨new, hnew, hlive⟩ := h.calls
  unfold Cdm.AllLive at *
  rw [hnew, List.length_append]
  constructor
  · intro hnewLive
    cases new with
    | nil => exact Or.inr rfl
    | cons call rest =>
      have hmem : call ∈ call :: rest := List.mem_cons_self ..
      exact Or.inl ((hlive call hmem).symm.trans
        (hnewLive call (List.mem_append_right _ hmem)))
  · rintro (hx | hlength) call hcall
    · rcases List.mem_append.mp hcall with hcall | hcall
      · exact hall call hcall
      · rw [hlive call hcall, hx]
    · have hnil : new = [] := List.eq_nil_of_length_eq_zero (by omega)
      rw [hnil, List.append_nil] at hcall
      exact hall call hcall

/-- A request that calls OpenCDM leaves a call behind. -/
theorem perform_length (h : m.session = some x) (r : Request) :
    (perform c m r).2.calls.length = c.calls.length ↔ r.calls m = false := by
  have hcall : ∀ (c : Cdm) (function : Function) (session : Option ℕ),
      (c.call function session).calls.length = c.calls.length + 1 := fun c function session => by
    simp [Cdm.call]
  cases r with
  | generateRequest answer =>
    refine iff_of_true ?_ rfl
    show (generateRequest c m answer).2.2.calls.length = _
    unfold generateRequest
    rw [h]
    split_ifs <;> rfl
  | selectKeyId keyId answer =>
    show (selectKey c m keyId answer).2.2.calls.length = _ ↔
      decide (m.selectedKeyId ≠ keyId) = false
    unfold selectKey
    rw [h]
    split_ifs with hsame
    · simp [hsame]
    · refine iff_of_false ?_ (by simp [hsame])
      show (c.call .selectKeyId (some x)).calls.length ≠ _
      rw [hcall]
      omega
  | updateSession answer =>
    refine iff_of_false ?_ Bool.noConfusion
    show (updateSession c m answer).2.calls.length ≠ _
    unfold updateSession
    rw [h]
    split_ifs
    · show (c.call .storeLicenseData (some x)).calls.length ≠ _
      rw [hcall]
      omega
    · show (c.call .update (some x)).calls.length ≠ _
      rw [hcall]
      omega
  | getChallenge size data =>
    refine iff_of_false ?_ Bool.noConfusion
    unfold perform
    rw [h]
    show ((c.call .getChallengeData (some x)).call .getChallengeData (some x)).calls.length ≠ _
    rw [hcall, hcall]
    omega
  | keyUpdated client =>
    cases client with
    | false => exact iff_of_true rfl rfl
    | true =>
      refine iff_of_false ?_ Bool.noConfusion
      show (c.call .status m.session).calls.length ≠ _
      rw [hcall]
      omega
  | _ =>
    refine iff_of_false ?_ Bool.noConfusion
    unfold perform
    rw [h]
    refine ne_of_gt ?_
    simp [load, decrypt, remove, getCdmKeySessionId, hasKeyId, setDrmHeader, getLastDrmError,
      onSession, hcall]

theorem closeKeySession_length (h : m.session = some x) (answers : Closing) :
    (closeKeySession c m answers).2.2.calls.length ≠ c.calls.length := by
  have hdestruct : ∀ (c : Cdm), c.calls.length <
      (destructKeySession c m answers.destruct).2.2.calls.length := fun c => by
    unfold destructKeySession destructSession
    rw [h]
    dsimp only
    split_ifs <;> simp [Cdm.call]
  unfold closeKeySession
  split_ifs with hnetflix
  · dsimp only
    refine ne_of_gt (Nat.lt_of_le_of_lt ?_ (hdestruct _))
    rw [h]
    show _ ≤
      ((c.call .cancelChallengeData (some x)).call .cleanDecryptContext (some x)).calls.length
    simp [Cdm.call]
  · have hclose : c.calls.length < (close c m.session answers.close).2.calls.length := by
      rw [h]
      show _ < (c.call .close (some x)).calls.length
      simp [Cdm.call]
    dsimp only
    split_ifs
    · exact ne_of_gt hclose
    · exact ne_of_gt (hclose.trans (hdestruct _))

theorem Alone.inv_init (keySystem : String) : (Alone.init keySystem).Inv :=
  ⟨fun _ => ⟨rfl, rfl⟩, nofun, nofun, nofun⟩

variable {s t : Alone}

/-- A key session with a session keeps it. -/
theorem Alone.Inv.gives (h : s.Inv) (hsession : s.session.session = some x)
    (hsame : t.session.session = some x) {destructed : List ℕ}
    (hgives : Gives s.cdm t.cdm x destructed) (hdestructed : ∀ y ∈ destructed, y = x)
    (hlive : t.cdm.isLive x = !t.closed) : t.Inv := by
  refine ⟨fun hnone => ?_, fun y hy => ?_, fun y hy => ?_, fun y hy => ?_⟩
  · rw [hsame] at hnone
    cases hnone
  · rw [hsame] at hy
    cases hy
    exact hlive
  · rw [hsame] at hy
    cases hy
    rw [hgives.made]
    exact h.made x hsession
  · rw [hgives.made]
    rw [hgives.destructed] at hy
    rcases List.mem_append.mp hy with hy | hy
    · exact h.destructed y hy
    · rw [hdestructed y hy]
      exact h.made x hsession

/-- What a use does, for a key session with a session and without. -/
theorem Alone.step_spec (h : s.Inv) (hall : s.cdm.AllLive) {u : Use} (hstep : s.step u = some t) :
    t.Inv ∧ (t.cdm.AllLive ↔ s.Meets u) := by
  rcases hsession : s.session.session with _ | x
  · obtain ⟨hconstructed, hclosed⟩ := h.without hsession
    cases u with
    | closeKeySession answers =>
      simp only [Alone.step, closeKeySession_none hsession, hclosed] at hstep
      cases hstep
      refine ⟨⟨fun _ => ⟨hconstructed, rfl⟩, fun x hx => ?_, h.made, h.destructed⟩,
        iff_of_true hall hclosed⟩
      rw [hsession] at hx
      cases hx
    | request r =>
      simp only [Alone.step] at hstep
      obtain ⟨heq, hne⟩ | ⟨rfl, heq⟩ | ⟨rfl, heq⟩ :=
        perform_none (c := s.cdm) hsession hconstructed r <;> rw [heq] at hstep <;> cases hstep
      · refine ⟨h, iff_of_true hall ⟨fun hr => absurd hr hne, fun htrue => ?_⟩⟩
        rw [hclosed] at htrue
        cases htrue
      · refine ⟨⟨nofun, fun x hx => ?_, fun x hx => ?_, fun x hx => ?_⟩,
          iff_of_true hall ⟨nofun, fun _ => rfl⟩⟩
        · -- OpenCDM makes a new session
          cases hx
          have hfresh : s.cdm.made ∉ s.cdm.destructed := fun hmem =>
            absurd (h.destructed _ hmem) (Nat.lt_irrefl _)
          simp [Cdm.isLive, hfresh, hclosed]
        · cases hx
          exact Nat.lt_succ_self _
        · exact Nat.lt_succ_of_lt (h.destructed x hx)
      · refine ⟨⟨fun _ => ⟨hconstructed, hclosed⟩, fun x hx => ?_, h.made, h.destructed⟩,
          iff_of_false (fun hlive => ?_) fun hmeets => ?_⟩
        · rw [hsession] at hx
          cases hx
        · exact absurd (hlive _ (List.mem_append_right _ (List.mem_singleton_self _)))
            Bool.noConfusion
        · have hsome := hmeets.1 rfl
          rw [hsession] at hsome
          cases hsome
  · have hlive := h.live x hsession
    cases u with
    | request r =>
      obtain ⟨hkept, hgives⟩ := perform_spec (c := s.cdm) hsession r
      cases hstep
      refine ⟨h.gives hsession (hkept.session.trans hsession) hgives nofun
        ((hgives.isLive x).trans hlive), ?_⟩
      rw [hgives.allLive_iff hall, hlive, perform_length hsession]
      unfold Alone.Meets
      rw [hsession]
      cases s.closed <;> simp
    | closeKeySession answers =>
      have hlength := closeKeySession_length (c := s.cdm) hsession answers
      have hspec := closeKeySession_spec (c := s.cdm) hsession answers
      cases hstep
      obtain ⟨hok, hm, hgives⟩ | ⟨hfail, hm, hgives⟩ := hspec
      · refine ⟨h.gives hsession (by dsimp only; rw [hm]; exact hsession) hgives
          (fun y hy => List.mem_singleton.mp hy) ?_, ?_⟩
        · unfold Cdm.isLive
          rw [hgives.destructed]
          simp [hok]
        · rw [hgives.allLive_iff hall, hlive]
          unfold Alone.Meets
          simp [hlength]
      · refine ⟨h.gives hsession (by dsimp only; rw [hm]; exact hsession) hgives nofun ?_, ?_⟩
        · rw [hgives.isLive, hlive]
          simp [hfail]
        · rw [hgives.allLive_iff hall, hlive]
          unfold Alone.Meets
          simp [hlength]

/-- **A key session by itself** gives OpenCDM a session that is gone, or none, exactly if it is used
after it was closed, or if a key is updated before it has a session. -/
theorem use_after_close_iff {keySystem : String} {us : List Use}
    (h : Run Alone.step (fun _ _ => True) (Alone.init keySystem) us s) :
    (∀ pre post t, us = pre ++ post →
      Run Alone.step (fun _ _ => True) (Alone.init keySystem) pre t → t.cdm.AllLive) ↔
    ∀ u t, Occurs Alone.step (fun _ _ => True) (Alone.init keySystem) us u t → t.Meets u :=
  h.always_iff_of_kept Alone.Inv (fun t => t.cdm.AllLive) Alone.Meets (Alone.inv_init keySystem)
    (fun _ hmem => absurd hmem List.not_mem_nil) fun _ _ _ ht hall hstep =>
      have hspec := Alone.step_spec ht hall hstep
      ⟨hspec.2, fun _ => hspec.1⟩

/-- Used again after it was closed: `generateRequest` returns OK, and the session that is updated
then is gone. -/
def reused : List Use :=
  [.request (.generateRequest .none), .closeKeySession ⟨.none, .none, .none, .none⟩,
    .request (.generateRequest .none), .request (.updateSession .none)]

theorem use_after_close_reused : ∃ s,
    Run Alone.step (fun _ _ => True) (Alone.init "com.widevine.alpha") reused s ∧
    ¬∀ pre post t, reused = pre ++ post →
      Run Alone.step (fun _ _ => True) (Alone.init "com.widevine.alpha") pre t → t.cdm.AllLive := by
  have hs : Run Alone.step (fun _ _ => True) (Alone.init "com.widevine.alpha") reused _ :=
    Run.of_runs rfl
  have hbefore : Run Alone.step (fun _ _ => True) (Alone.init "com.widevine.alpha")
      (reused.take 3) _ := Run.of_runs rfl
  refine ⟨_, hs, fun hall => ?_⟩
  have hmeets := (use_after_close_iff hs).mp hall (.request (.updateSession .none)) _
    ⟨reused.take 3, [], rfl, hbefore⟩
  exact absurd (hmeets.2 rfl) Bool.noConfusion

/-! ## The key sessions of the media keys -/

/-- `MediaKeySessionUsage` -/
structure MediaKeySessionUsage where
  mediaKeySession : MediaKeySession
  bufCounter : ℕ
  shouldBeDestroyed : Bool

/-- The tasks of the callbacks of a key session, which are run on the main thread. -/
inductive Task
  | getChallenge (keySessionId : ℤ)
  | keyUpdated (keySessionId : ℤ)
  deriving DecidableEq

def Task.keySessionId : Task → ℤ
  | .getChallenge id => id
  | .keyUpdated id => id

/-- What a task calls of OpenCDM; the status of a key is only looked up if the client of the session
is still there. -/
def Task.functions (client : Bool) : Task → List Function
  | .getChallenge _ => [.getChallengeData, .getChallengeData]
  | .keyUpdated _ => if client then [.status] else []

/-- `MediaKeysServerInternal`, with the counter of `generateSessionId` and the tasks of its key
sessions. `running` is what the task that the main thread is in has still to call, for its key
session. While the media keys are destructed, which another thread does, their key sessions are one
after the other: `leaving` is the one that is in its destructor, behind `closeKeySession`;
`abandoned` are the sessions of those that could not be closed then. -/
structure State where
  keySystem : String
  nextKeySessionId : ℕ
  mediaKeySessions : OMap ℤ MediaKeySessionUsage
  cdm : Cdm
  tasks : List Task
  running : List (ℤ × Function)
  destructing : Bool
  leaving : Option (ℤ × MediaKeySession)
  abandoned : List ℕ

def init (keySystem : String) (nextKeySessionId : ℕ) : State :=
  ⟨keySystem, nextKeySessionId, OMap.empty, ⟨0, [], []⟩, [], [], false, none, []⟩

def State.put (s : State) (id : ℤ) (u : MediaKeySessionUsage) : State :=
  { s with mediaKeySessions := s.mediaKeySessions.insert id u }

/-- A request for the key session with the id, as it is found in the map. -/
def request (s : State) (id : ℤ) (r : Request) : State :=
  match s.mediaKeySessions.find? id with
  | none => s
  | some u =>
    let done := perform s.cdm u.mediaKeySession r
    { s.put id { u with mediaKeySession := done.1 } with cdm := done.2 }

/-- `generateRequestInternal`; where a Netflix session is constructed the challenge is asked for. -/
def generateRequestInternal (s : State) (id : ℤ) (answer : OpenCDMError) : State :=
  match s.mediaKeySessions.find? id with
  | none => s
  | some u =>
    let t := request s id (.generateRequest answer)
    if u.mediaKeySession.keySystem = netflixKeySystem ∧
        u.mediaKeySession.isSessionConstructed = false ∧
        (generateRequest s.cdm u.mediaKeySession answer).1 = .ok then
      { t with tasks := t.tasks ++ [.getChallenge id] }
    else t

/-- The part that closing at once and closing at the last decrement have in common: a key session
that was closed is erased, by which its destructor runs. -/
def attemptClose (s : State) (id : ℤ) (u : MediaKeySessionUsage) (answers again : Closing) :
    State :=
  let done := closeKeySession s.cdm u.mediaKeySession answers
  if done.1 ≠ .ok then
    { s.put id { u with mediaKeySession := done.2.1 } with cdm := done.2.2 }
  else
    { s with
      mediaKeySessions := s.mediaKeySessions.erase id
      cdm := destructor done.2.2 done.2.1 again }

def closeKeySessionInternal (s : State) (id : ℤ) (answers again : Closing) : State :=
  match s.mediaKeySessions.find? id with
  | none => s
  | some u =>
    if u.bufCounter = 0 then attemptClose s id u answers again
    else s.put id { u with shouldBeDestroyed := true }

def incrementSessionIdUsageCounterInternal (s : State) (id : ℤ) : State :=
  match s.mediaKeySessions.find? id with
  | none => s
  | some u => s.put id { u with bufCounter := add32 u.bufCounter 1 }

def decrementSessionIdUsageCounterInternal (s : State) (id : ℤ) (answers again : Closing) : State :=
  match s.mediaKeySessions.find? id with
  | none => s
  | some u =>
    let u := { u with bufCounter := u.bufCounter - 1 }
    let s := s.put id u
    if u.bufCounter = 0 ∧ u.shouldBeDestroyed then attemptClose s id u answers again else s

/-- A step of the destructor: the first key session of the map closes its session. -/
def destructFirst (s : State) (answers : Closing) : Option State :=
  match s.mediaKeySessions.entries with
  | [] => none
  | (id, u) :: _ =>
    let cdm := destructor s.cdm u.mediaKeySession answers
    some { s with
      mediaKeySessions := s.mediaKeySessions.erase id
      cdm := cdm
      leaving := some (id, u.mediaKeySession)
      abandoned := s.abandoned ++ (u.mediaKeySession.session.toList.filter cdm.isLive) }

/-- The key session with the id, as long as it is registered at the main thread. -/
def State.registered (s : State) (id : ℤ) : Option MediaKeySession :=
  match s.mediaKeySessions.find? id with
  | some u => some u.mediaKeySession
  | none =>
    match s.leaving with
    | some (i, m) => if i = id then some m else none
    | none => none

/-- The main thread takes a task, and ignores it if its key session is not registered. -/
def takeTask (s : State) (client : Bool) : Option State :=
  match s.tasks with
  | [] => none
  | task :: tasks => some { s with
      tasks := tasks
      running :=
        if (s.registered task.keySessionId).isSome then
          (task.functions client).map fun function => (task.keySessionId, function)
        else [] }

/-- The call of OpenCDM from a task. -/
def Function.call (function : Function) (c : Cdm) (session : Option ℕ) (answer : OpenCDMError) :
    Cdm :=
  match function with
  | .status => getStatus c session
  | function => (onSession function c session answer).2

/-- The task that the main thread is in calls OpenCDM. If its key session is gone by then, what it
gives OpenCDM is no session. -/
def callCdm (s : State) (answer : OpenCDMError) : Option State :=
  match s.running with
  | [] => none
  | (id, function) :: running => some { s with
      running := running
      cdm :=
        match s.registered id with
        | some m => function.call s.cdm m.session answer
        | none => s.cdm.call function none }

inductive Act
  | createKeySession (taken : ℕ)
  | generateRequest (id : ℤ) (answer : OpenCDMError)
  | request (id : ℤ) (r : Request)
  | closeKeySession (id : ℤ) (answers again : Closing)
  | incrementSessionIdUsageCounter (id : ℤ)
  | decrementSessionIdUsageCounter (id : ℤ) (answers again : Closing)
  | callback (id : ℤ)
  | takeTask (client : Bool)
  | callCdm (answer : OpenCDMError)
  | destructor
  | destructFirst (answers : Closing)
  | unregisterClient

/-- The requests that clients make; the others are tasks. -/
def Request.isClients : Request → Bool
  | .generateRequest _ | .getChallenge _ _ | .keyUpdated _ => false
  | _ => true

/-- The key session is registered and its session is there: OpenCDM can call back. -/
def State.hasSession (s : State) (id : ℤ) : Bool :=
  (s.registered id).any fun m => m.session.any s.cdm.isLive

/-- The main thread can come to a request of the media keys. -/
def State.idle (s : State) : Bool := !s.destructing && s.running.isEmpty

def step (s : State) : Act → Option State
  | .createKeySession taken =>
    if s.idle ∧ s.nextKeySessionId + taken < Sessions.maxSessionId then
      some { s with
        nextKeySessionId := s.nextKeySessionId + taken + 1
        mediaKeySessions := s.mediaKeySessions.emplace (s.nextKeySessionId + taken : ℕ)
          ⟨⟨s.keySystem, false, [], none⟩, 0, false⟩ }
    else none
  | .generateRequest id answer =>
    if s.idle then some (generateRequestInternal s id answer) else none
  | .request id r => if s.idle ∧ r.isClients then some (request s id r) else none
  | .closeKeySession id answers again =>
    if s.idle then some (closeKeySessionInternal s id answers again) else none
  | .incrementSessionIdUsageCounter id =>
    if s.idle then some (incrementSessionIdUsageCounterInternal s id) else none
  | .decrementSessionIdUsageCounter id answers again =>
    if s.idle then some (decrementSessionIdUsageCounterInternal s id answers again) else none
  | .callback id =>
    if s.hasSession id then some { s with tasks := s.tasks ++ [.keyUpdated id] } else none
  | .takeTask client => if s.running.isEmpty then takeTask s client else none
  | .callCdm answer => callCdm s answer
  | .destructor => if s.idle then some { s with destructing := true } else none
  | .destructFirst answers =>
    if s.destructing ∧ s.leaving.isNone then destructFirst s answers else none
  -- the destructor of the key session ends
  | .unregisterClient => if s.leaving.isSome then some { s with leaving := none } else none

/-! ### What every step keeps -/

/-- The key sessions that tasks wait for, or the running one. -/
def State.waiting (s : State) : List ℤ :=
  s.tasks.map Task.keySessionId ++ s.running.map Prod.fst

structure Inv (s : State) : Prop where
  each : ∀ id u, s.mediaKeySessions.find? id = some u →
    u.mediaKeySession.session = none ∧ u.mediaKeySession.isSessionConstructed = false ∨
    ∃ x, u.mediaKeySession.session = some x ∧ u.mediaKeySession.isSessionConstructed = true ∧
      s.cdm.isLive x = true
  distinct : ∀ id id' u u' (x : ℕ), s.mediaKeySessions.find? id = some u →
    s.mediaKeySessions.find? id' = some u' → u.mediaKeySession.session = some x →
    u'.mediaKeySession.session = some x → id = id'
  ids : ∀ id u, s.mediaKeySessions.find? id = some u → id < s.nextKeySessionId
  left : ∀ id m, s.leaving = some (id, m) → id < s.nextKeySessionId
  tasks : ∀ i ∈ s.waiting, i < s.nextKeySessionId ∧
    ∀ m, s.registered i = some m → m.session.isSome
  present : s.destructing = false → s.leaving = none ∧
    ∀ call ∈ s.running, (s.mediaKeySessions.find? call.1).isSome
  nodup : s.cdm.destructed.Nodup
  made : ∀ x ∈ s.cdm.destructed, x < s.cdm.made
  covered : ∀ x, s.cdm.isLive x = true →
    (∃ id u, s.mediaKeySessions.find? id = some u ∧ u.mediaKeySession.session = some x) ∨
      x ∈ s.abandoned
  kept : s.destructing = false → s.abandoned = []

variable {s t : State} {id : ℤ} {u u' : MediaKeySessionUsage} {c' : Cdm}

theorem inv_init (keySystem : String) (nextKeySessionId : ℕ) :
    Inv (init keySystem nextKeySessionId) where
  each := nofun
  distinct := nofun
  ids := nofun
  left := nofun
  tasks := nofun
  present := fun _ => ⟨rfl, nofun⟩
  nodup := List.nodup_nil
  made := nofun
  covered := fun x hx => by
    simp [init, Cdm.isLive] at hx
  kept := fun _ => rfl

theorem registered_eq_some {m : MediaKeySession} : s.registered id = some m ↔
    (∃ u, s.mediaKeySessions.find? id = some u ∧ u.mediaKeySession = m) ∨
      s.mediaKeySessions.find? id = none ∧ s.leaving = some (id, m) := by
  unfold State.registered
  cases hu : s.mediaKeySessions.find? id with
  | some u => simp
  | none =>
    cases hl : s.leaving with
    | none => simp
    | some l =>
      obtain ⟨i, m'⟩ := l
      by_cases hi : i = id
      · simp [hi]
      · simp [hi]

theorem registered_of_find (hu : s.mediaKeySessions.find? id = some u) :
    s.registered id = some u.mediaKeySession :=
  registered_eq_some.mpr (Or.inl ⟨u, hu, rfl⟩)

theorem hasSession_iff : s.hasSession id = true ↔
    ∃ m x, s.registered id = some m ∧ m.session = some x ∧ s.cdm.isLive x = true := by
  unfold State.hasSession
  cases s.registered id with
  | none => simp
  | some m => cases hx : m.session with
    | none => simp [hx]
    | some x => simp [hx]

theorem find?_put (s : State) (id : ℤ) (u : MediaKeySessionUsage) (i : ℤ) :
    (s.put id u).mediaKeySessions.find? i =
      if i = id then some u else s.mediaKeySessions.find? i := OMap.find?_insert ..

theorem registered_put (s : State) (id : ℤ) (u : MediaKeySessionUsage) (i : ℤ) :
    (s.put id u).registered i = if i = id then some u.mediaKeySession else s.registered i := by
  unfold State.registered
  rw [find?_put]
  split_ifs <;> rfl

/-- A key session that is replaced goes on with its session, if it had one. -/
theorem Inv.tasks_put (h : Inv s) (hu : s.mediaKeySessions.find? id = some u)
    (hsome : u.mediaKeySession.session.isSome → u'.mediaKeySession.session.isSome) :
    ∀ i ∈ s.waiting, i < s.nextKeySessionId ∧
      ∀ m, (s.put id u').registered i = some m → m.session.isSome := by
  intro i hi
  obtain ⟨hlt, hregistered⟩ := h.tasks i hi
  refine ⟨hlt, fun m hm => ?_⟩
  rw [registered_put] at hm
  split_ifs at hm with heq
  · cases hm
    exact hsome (hregistered _ (heq ▸ registered_of_find hu))
  · exact hregistered m hm

theorem Inv.present_put (h : Inv s) (hd : s.destructing = false) (id : ℤ)
    (u : MediaKeySessionUsage) : s.leaving = none ∧
      ∀ call ∈ s.running, ((s.put id u).mediaKeySessions.find? call.1).isSome := by
  refine ⟨(h.present hd).1, fun call hcall => ?_⟩
  rw [find?_put]
  split_ifs
  · rfl
  · exact (h.present hd).2 call hcall

/-- A key session is replaced by one with the same session. -/
theorem Inv.replace (h : Inv s) (hu : s.mediaKeySessions.find? id = some u)
    (hsession : u'.mediaKeySession.session = u.mediaKeySession.session)
    (hconstructed : u'.mediaKeySession.isSessionConstructed =
      u.mediaKeySession.isSessionConstructed)
    (hmade : c'.made = s.cdm.made) (hdestructed : c'.destructed = s.cdm.destructed) :
    Inv { s.put id u' with cdm := c' } := by
  have hlive := Cdm.isLive_congr hmade hdestructed
  -- what is found is found before, with the same session
  have hfind : ∀ i v, (s.put id u').mediaKeySessions.find? i = some v →
      ∃ w, s.mediaKeySessions.find? i = some w ∧
        v.mediaKeySession.session = w.mediaKeySession.session ∧
        v.mediaKeySession.isSessionConstructed = w.mediaKeySession.isSessionConstructed := by
    intro i v hv
    rw [find?_put] at hv
    split_ifs at hv with hi
    · cases hv
      exact ⟨u, hi ▸ hu, hsession, hconstructed⟩
    · exact ⟨v, hv, rfl, rfl⟩
  refine ⟨fun i v hv => ?_, fun i j v w x hv hw hvx hwx => ?_, fun i v hv => ?_, h.left,
    h.tasks_put hu fun hsome => hsession ▸ hsome, fun hd => h.present_put hd id u', ?_, ?_,
    fun x hx => ?_, h.kept⟩
  · obtain ⟨w, hw, hsame, hsame'⟩ := hfind i v hv
    rw [hsame, hsame']
    simp only [hlive]
    exact h.each i w hw
  · obtain ⟨v', hv', hsame, -⟩ := hfind i v hv
    obtain ⟨w', hw', hsame', -⟩ := hfind j w hw
    exact h.distinct i j v' w' x hv' hw' (hsame ▸ hvx) (hsame' ▸ hwx)
  · obtain ⟨w, hw, -⟩ := hfind i v hv
    exact h.ids i w hw
  · show c'.destructed.Nodup
    rw [hdestructed]
    exact h.nodup
  · show ∀ x ∈ c'.destructed, x < c'.made
    rw [hdestructed, hmade]
    exact h.made
  · replace hx : c'.isLive x = true := hx
    rw [hlive] at hx
    refine (h.covered x hx).imp_left ?_
    rintro ⟨i, v, hv, hvx⟩
    by_cases hi : i = id
    · rw [hi, hu] at hv
      cases hv
      exact ⟨id, u', (find?_put ..).trans (if_pos rfl), hsession.trans hvx⟩
    · exact ⟨i, v, ((find?_put ..).trans (if_neg hi)).trans hv, hvx⟩

/-- A session is made for a key session that had none. -/
theorem Inv.construct (h : Inv s) (hu : s.mediaKeySessions.find? id = some u)
    (hnone : u.mediaKeySession.session = none)
    (hsession : u'.mediaKeySession.session = some s.cdm.made)
    (hconstructed : u'.mediaKeySession.isSessionConstructed = true) :
    Inv { s.put id u' with cdm := { s.cdm with made := s.cdm.made + 1 } } := by
  have hfresh : s.cdm.made ∉ s.cdm.destructed := fun hmem =>
    absurd (h.made _ hmem) (Nat.lt_irrefl _)
  have hlive : ∀ y, ({ s.cdm with made := s.cdm.made + 1 } : Cdm).isLive y = true ↔
      y = s.cdm.made ∨ s.cdm.isLive y = true := by
    intro y
    rw [Cdm.isLive_iff, Cdm.isLive_iff]
    constructor
    · rintro ⟨hlt, hnot⟩
      rcases Nat.lt_succ_iff_lt_or_eq.mp hlt with hlt | heq
      · exact Or.inr ⟨hlt, hnot⟩
      · exact Or.inl heq
    · rintro (rfl | ⟨hlt, hnot⟩)
      · exact ⟨Nat.lt_succ_self _, hfresh⟩
      · exact ⟨Nat.lt_succ_of_lt hlt, hnot⟩
  -- no other key session has the number
  have hother : ∀ i v, s.mediaKeySessions.find? i = some v →
      v.mediaKeySession.session ≠ some s.cdm.made := by
    intro i v hv hx
    obtain ⟨hnone', -⟩ | ⟨y, hy, -, hylive⟩ := h.each i v hv
    · rw [hnone'] at hx
      cases hx
    · rw [hy] at hx
      cases hx
      exact Nat.lt_irrefl _ (Cdm.isLive_iff.mp hylive).1
  have hfind : ∀ i v, (s.put id u').mediaKeySessions.find? i = some v →
      i = id ∧ v = u' ∨ i ≠ id ∧ s.mediaKeySessions.find? i = some v := by
    intro i v hv
    rw [find?_put] at hv
    split_ifs at hv with hi
    · cases hv
      exact Or.inl ⟨hi, rfl⟩
    · exact Or.inr ⟨hi, hv⟩
  refine ⟨fun i v hv => ?_, fun i j v w x hv hw hvx hwx => ?_, fun i v hv => ?_, h.left,
    h.tasks_put hu fun _ => hsession ▸ rfl, fun hd => h.present_put hd id u', h.nodup,
    fun x hx => Nat.lt_succ_of_lt (h.made x hx), fun x hx => ?_, h.kept⟩
  · obtain ⟨-, rfl⟩ | ⟨-, hv⟩ := hfind i v hv
    · exact Or.inr ⟨_, hsession, hconstructed, (hlive _).mpr (Or.inl rfl)⟩
    · refine (h.each i v hv).imp_right ?_
      rintro ⟨x, hx, hc, hxlive⟩
      exact ⟨x, hx, hc, (hlive x).mpr (Or.inr hxlive)⟩
  · obtain ⟨hi, hvu⟩ | ⟨-, hv'⟩ := hfind i v hv <;> obtain ⟨hj, hwu⟩ | ⟨-, hw'⟩ := hfind j w hw
    · rw [hi, hj]
    · rw [hvu, hsession] at hvx
      cases hvx
      exact absurd hwx (hother j w hw')
    · rw [hwu, hsession] at hwx
      cases hwx
      exact absurd hvx (hother i v hv')
    · exact h.distinct i j v w x hv' hw' hvx hwx
  · obtain ⟨rfl, -⟩ | ⟨-, hv⟩ := hfind i v hv
    · exact h.ids _ u hu
    · exact h.ids i v hv
  · obtain rfl | hx := (hlive x).mp hx
    · exact Or.inl ⟨id, u', (find?_put ..).trans (if_pos rfl), hsession⟩
    · refine (h.covered x hx).imp_left ?_
      rintro ⟨i, v, hv, hvx⟩
      have hi : i ≠ id := fun heq => by
        rw [heq, hu] at hv
        cases hv
        rw [hnone] at hvx
        cases hvx
      exact ⟨i, v, ((find?_put ..).trans (if_neg hi)).trans hv, hvx⟩

/-- A key session is erased; its session is destructed, or it is abandoned. -/
theorem Inv.erase (h : Inv s) (hu : s.mediaKeySessions.find? id = some u)
    {destructed abandoned : List ℕ} (hmade : c'.made = s.cdm.made)
    (hdestructed : c'.destructed = s.cdm.destructed ++ destructed)
    (hown : ∀ x ∈ destructed, u.mediaKeySession.session = some x) (hnodup : destructed.Nodup)
    {leaving : Option (ℤ × MediaKeySession)}
    (hleaving : leaving = none ∨ leaving = some (id, u.mediaKeySession))
    (hkept : s.destructing = false → s.running = [] ∧ leaving = none ∧ abandoned = [])
    (habandoned : ∀ x, u.mediaKeySession.session = some x → x ∈ destructed ∨ x ∈ abandoned) :
    Inv { s with
      mediaKeySessions := s.mediaKeySessions.erase id
      cdm := c'
      leaving := leaving
      abandoned := s.abandoned ++ abandoned } := by
  have hfind : ∀ i v, (s.mediaKeySessions.erase id).find? i = some v →
      i ≠ id ∧ s.mediaKeySessions.find? i = some v := by
    intro i v hv
    rw [OMap.find?_erase] at hv
    split_ifs at hv with hi
    exact ⟨hi, hv⟩
  have hlive : ∀ y, c'.isLive y = true ↔ s.cdm.isLive y = true ∧ y ∉ destructed := by
    intro y
    rw [Cdm.isLive_iff, Cdm.isLive_iff, hmade, hdestructed, List.mem_append, not_or, and_assoc]
  have hleft : ∀ i m, leaving = some (i, m) → i = id ∧ m = u.mediaKeySession := by
    rintro i m rfl
    rcases hleaving with hl | hl
    · cases hl
    · cases hl
      exact ⟨rfl, rfl⟩
  have hlivex : ∀ x ∈ destructed, s.cdm.isLive x = true := by
    intro x hx
    obtain ⟨hnone, -⟩ | ⟨y, hy, -, hylive⟩ := h.each id u hu
    · rw [hown x hx] at hnone
      cases hnone
    · rw [hown x hx] at hy
      cases hy
      exact hylive
  refine ⟨fun i v hv => ?_, fun i j v w x hv hw hvx hwx => ?_, fun i v hv => ?_,
    fun i m hl => ?_, fun i hi => ?_, fun hd => ⟨(hkept hd).2.1, fun call hcall => ?_⟩, ?_,
    fun x hx => ?_, fun x hx => ?_, fun hd => ?_⟩
  · obtain ⟨hi, hv⟩ := hfind i v hv
    refine (h.each i v hv).imp_right ?_
    rintro ⟨x, hx, hc, hxlive⟩
    refine ⟨x, hx, hc, (hlive x).mpr ⟨hxlive, fun hmem => hi ?_⟩⟩
    exact h.distinct i id v u x hv hu hx (hown x hmem)
  · exact h.distinct i j v w x (hfind i v hv).2 (hfind j w hw).2 hvx hwx
  · exact h.ids i v (hfind i v hv).2
  · obtain ⟨rfl, rfl⟩ := hleft i m hl
    exact h.ids i u hu
  · obtain ⟨hlt, hsome⟩ := h.tasks i hi
    refine ⟨hlt, fun m hm => ?_⟩
    obtain ⟨v, hv, rfl⟩ | ⟨-, hl⟩ := registered_eq_some.mp hm
    · exact hsome _ (registered_of_find (hfind i v hv).2)
    · obtain ⟨rfl, rfl⟩ := hleft i m hl
      exact hsome _ (registered_of_find hu)
  · rw [(hkept hd).1] at hcall
    cases hcall
  · show c'.destructed.Nodup
    rw [hdestructed]
    refine List.Nodup.append h.nodup hnodup fun x hx hx' => ?_
    exact (Cdm.isLive_iff.mp (hlivex x hx')).2 hx
  · replace hx : x ∈ c'.destructed := hx
    show x < c'.made
    rw [hmade]
    rw [hdestructed] at hx
    rcases List.mem_append.mp hx with hx | hx
    · exact h.made x hx
    · exact (Cdm.isLive_iff.mp (hlivex x hx)).1
  · obtain ⟨hxlive, hnot⟩ := (hlive x).mp hx
    obtain ⟨i, v, hv, hvx⟩ | hmem := h.covered x hxlive
    · by_cases hi : i = id
      · rw [hi, hu] at hv
        cases hv
        exact Or.inr (List.mem_append_right _ ((habandoned x hvx).resolve_left hnot))
      · refine Or.inl ⟨i, v, ?_, hvx⟩
        show (s.mediaKeySessions.erase id).find? i = some v
        rw [OMap.find?_erase, if_neg hi]
        exact hv
    · exact Or.inr (List.mem_append_left _ hmem)
  · show s.abandoned ++ abandoned = []
    rw [h.kept hd, (hkept hd).2.2]
    rfl

theorem Gives.allLive {destructed : List ℕ} (h : Gives c c' x destructed) (hall : c.AllLive)
    (hlive : c.isLive x = true) : c'.AllLive :=
  (h.allLive_iff hall).mpr (Or.inl hlive)

/-- A request to a key session that has a session. -/
theorem inv_perform (h : Inv s) (hu : s.mediaKeySessions.find? id = some u)
    (hsession : u.mediaKeySession.session = some x) (r : Request) :
    Inv { s.put id { u with mediaKeySession := (perform s.cdm u.mediaKeySession r).1 } with
      cdm := (perform s.cdm u.mediaKeySession r).2 } := by
  obtain ⟨hnone, -⟩ | ⟨y, hy, hconstructed, hlive⟩ := h.each id u hu
  · rw [hsession] at hnone
    cases hnone
  · rw [hsession] at hy
    cases hy
    obtain ⟨hkept, hgives⟩ := perform_spec (c := s.cdm) hsession r
    exact h.replace hu hkept.session ((hkept.constructed hconstructed).trans hconstructed.symm)
      hgives.made (hgives.destructed.trans (List.append_nil _))

/-- A key session that is put back as it is, but for its counter and its mark. -/
theorem Inv.put (h : Inv s) (hu : s.mediaKeySessions.find? id = some u)
    (hsame : u'.mediaKeySession = u.mediaKeySession) : Inv (s.put id u') :=
  h.replace hu (congrArg MediaKeySession.session hsame)
    (congrArg MediaKeySession.isSessionConstructed hsame) rfl rfl

/-- A key session that has no session is not constructed. -/
theorem Inv.unconstructed (h : Inv s) (hu : s.mediaKeySessions.find? id = some u)
    (hsession : u.mediaKeySession.session = none) :
    u.mediaKeySession.isSessionConstructed = false := by
  obtain ⟨-, hconstructed⟩ | ⟨y, hy, -⟩ := h.each id u hu
  · exact hconstructed
  · rw [hsession] at hy
    cases hy

theorem inv_request (h : Inv s) {r : Request} (hr : r ≠ .keyUpdated true) :
    Inv (request s id r) := by
  unfold request
  cases hu : s.mediaKeySessions.find? id with
  | none => exact h
  | some u =>
    dsimp only
    cases hsession : u.mediaKeySession.session with
    | some x => exact inv_perform h hu hsession r
    | none =>
      obtain ⟨heq, -⟩ | ⟨rfl, heq⟩ | ⟨rfl, -⟩ :=
        perform_none (c := s.cdm) hsession (h.unconstructed hu hsession) r
      · rw [heq]
        exact h.put hu rfl
      · rw [heq]
        exact h.construct hu hsession rfl rfl
      · exact absurd rfl hr

theorem find?_request (s : State) (id : ℤ) (r : Request) (i : ℤ) :
    (request s id r).mediaKeySessions.find? i =
      if i = id then (s.mediaKeySessions.find? id).map fun u =>
        { u with mediaKeySession := (perform s.cdm u.mediaKeySession r).1 }
      else s.mediaKeySessions.find? i := by
  unfold request
  cases hu : s.mediaKeySessions.find? id with
  | none =>
    split_ifs with hi
    · rw [hi]
      exact hu
    · rfl
  | some u => exact OMap.find?_insert ..

/-- A task comes into the queue of a key session that has a session. -/
theorem Inv.enqueue (h : Inv s) (task : Task) (hlt : task.keySessionId < s.nextKeySessionId)
    (hsome : ∀ m, s.registered task.keySessionId = some m → m.session.isSome) :
    Inv { s with tasks := s.tasks ++ [task] } := by
  refine ⟨h.each, h.distinct, h.ids, h.left, fun i hi => ?_, h.present, h.nodup, h.made, h.covered,
    h.kept⟩
  replace hi : i ∈ (s.tasks ++ [task]).map Task.keySessionId ++ s.running.map Prod.fst := hi
  rw [List.map_append, List.map_singleton] at hi
  rcases List.mem_append.mp hi with hi | hi
  · rcases List.mem_append.mp hi with hi | hi
    · exact h.tasks i (List.mem_append_left _ hi)
    · rw [List.mem_singleton.mp hi]
      exact ⟨hlt, hsome⟩
  · exact h.tasks i (List.mem_append_right _ hi)

theorem inv_generateRequest (h : Inv s) (answer : OpenCDMError) :
    Inv (generateRequestInternal s id answer) := by
  have hrequest : Inv (request s id (.generateRequest answer)) := inv_request h nofun
  unfold generateRequestInternal
  cases hu : s.mediaKeySessions.find? id with
  | none => exact h
  | some u =>
    dsimp only
    split_ifs with hnew
    · obtain ⟨-, hconstructed, hok⟩ := hnew
      have hid :
          (request s id (.generateRequest answer)).nextKeySessionId = s.nextKeySessionId := by
        unfold request
        rw [hu]
        rfl
      refine hrequest.enqueue (.getChallenge id) ?_ fun m hm => ?_
      · rw [hid]
        exact h.ids id u hu
      · -- the request was answered with OK, so a session was made
        have hv := find?_request s id (.generateRequest answer) id
        rw [if_pos rfl, hu, Option.map_some] at hv
        cases (registered_of_find hv).symm.trans hm
        show (generateRequest s.cdm u.mediaKeySession answer).2.1.session.isSome
        unfold generateRequest constructSession at hok ⊢
        rw [hconstructed] at hok ⊢
        cases hsession : u.mediaKeySession.session with
        | some y => rfl
        | none =>
          rw [hsession] at hok
          by_cases hnone : answer = .none
          · rw [hnone]
            rfl
          · simp only [hnone, if_false, Bool.false_eq_true, converted_ok_iff] at hok
    · exact hrequest

theorem idle_iff : s.idle = true ↔ s.destructing = false ∧ s.running = [] := by
  simp [State.idle]

/-- The destructor finds a key session that was closed. -/
theorem destructor_closed (h : m.isSessionConstructed = false) (answers : Closing) :
    destructor c m answers = c := by
  unfold destructor
  rw [h]
  rfl

theorem destructor_constructed (h : m.isSessionConstructed = true) (answers : Closing) :
    destructor c m answers = (closeKeySession c m answers).2.2 := by
  unfold destructor
  rw [h]
  rfl

/-- Closing a key session, and erasing it if that succeeds. -/
theorem inv_attemptClose (h : Inv s) (hidle : s.idle = true)
    (hu : s.mediaKeySessions.find? id = some u) (answers again : Closing) :
    Inv (attemptClose s id u answers again) := by
  obtain ⟨hd, hrunning⟩ := idle_iff.mp hidle
  have hleaving := (h.present hd).1
  unfold attemptClose
  dsimp only
  obtain ⟨hnone, hconstructed⟩ | ⟨x, hx, hconstructed, hlive⟩ := h.each id u hu
  · rw [closeKeySession_none hnone, if_pos nofun]
    exact h.put hu rfl
  · obtain ⟨hok, hm, hgives⟩ | ⟨hfail, hm, hgives⟩ := closeKeySession_spec (c := s.cdm) hx answers
    · have hclosed : (closeKeySession s.cdm u.mediaKeySession answers).2.1.isSessionConstructed =
          false := by
        rw [hm]
      rw [if_neg (not_not.mpr hok), destructor_closed hclosed]
      have habandoned : ∀ y, u.mediaKeySession.session = some y → y ∈ [x] ∨ y ∈ ([] : List ℕ) :=
        fun y hy => Or.inl (List.mem_singleton.mpr (Option.some.inj (hy.symm.trans hx)))
      have herase := h.erase hu hgives.made hgives.destructed
        (fun y hy => (List.mem_singleton.mp hy) ▸ hx) (List.nodup_singleton x)
        (Or.inl rfl) (fun _ => ⟨hrunning, rfl, rfl⟩) habandoned
      rw [List.append_nil, ← hleaving] at herase
      exact herase
    · rw [if_pos hfail]
      exact h.replace hu (congrArg MediaKeySession.session hm)
        (congrArg MediaKeySession.isSessionConstructed hm) hgives.made
        (hgives.destructed.trans (List.append_nil _))

theorem inv_destructFirst (h : Inv s) (hdestructing : s.destructing = true) {answers : Closing}
    (hstep : destructFirst s answers = some t) : Inv t := by
  unfold destructFirst at hstep
  split at hstep
  · cases hstep
  · next i v rest hentries =>
    cases hstep
    have hu : s.mediaKeySessions.find? i = some v := by
      rw [OMap.find?_eq_some, hentries]
      exact List.mem_cons_self ..
    have hnot : ∀ {p : Prop}, s.destructing = false → p := fun hd => by
      rw [hdestructing] at hd
      cases hd
    obtain ⟨hnone, hconstructed⟩ | ⟨x, hx, hconstructed, hlive⟩ := h.each i v hu
    · rw [destructor_closed hconstructed]
      refine h.erase hu rfl (List.append_nil _).symm nofun List.nodup_nil (Or.inr rfl)
        hnot fun y hy => ?_
      rw [hnone] at hy
      cases hy
    · rw [destructor_constructed hconstructed]
      obtain ⟨-, -, hgives⟩ | ⟨-, -, hgives⟩ := closeKeySession_spec (c := s.cdm) hx answers
      · refine h.erase hu hgives.made hgives.destructed
          (fun y hy => (List.mem_singleton.mp hy) ▸ hx) (List.nodup_singleton x)
          (Or.inr rfl) hnot fun y hy => ?_
        exact Or.inl (List.mem_singleton.mpr (Option.some.inj (hy.symm.trans hx)))
      · refine h.erase hu hgives.made hgives.destructed nofun List.nodup_nil
          (Or.inr rfl) hnot fun y hy => ?_
        rw [hx] at hy
        cases hy
        refine Or.inr (List.mem_filter.mpr ⟨?_, ?_⟩)
        · rw [hx]
          exact List.mem_singleton_self _
        · rw [hgives.isLive]
          exact hlive

theorem inv_closeKeySession (h : Inv s) (hidle : s.idle = true) (answers again : Closing) :
    Inv (closeKeySessionInternal s id answers again) := by
  unfold closeKeySessionInternal
  cases hu : s.mediaKeySessions.find? id with
  | none => exact h
  | some u =>
    dsimp only
    split_ifs
    · exact inv_attemptClose h hidle hu answers again
    · exact h.put hu rfl

theorem inv_incrementSessionIdUsageCounter (h : Inv s) :
    Inv (incrementSessionIdUsageCounterInternal s id) := by
  unfold incrementSessionIdUsageCounterInternal
  cases hu : s.mediaKeySessions.find? id with
  | none => exact h
  | some u => exact h.put hu rfl

theorem inv_decrementSessionIdUsageCounter (h : Inv s) (hidle : s.idle = true)
    (answers again : Closing) :
    Inv (decrementSessionIdUsageCounterInternal s id answers again) := by
  unfold decrementSessionIdUsageCounterInternal
  cases hu : s.mediaKeySessions.find? id with
  | none => exact h
  | some u =>
    dsimp only
    split_ifs
    · have hput : Inv (s.put id { u with bufCounter := u.bufCounter - 1 }) := h.put hu rfl
      exact inv_attemptClose hput hidle ((OMap.find?_insert ..).trans (if_pos rfl)) answers again
    · exact h.put hu rfl

/-- A key session comes with an id that no other has had. -/
theorem inv_createKeySession (h : Inv s) (hidle : s.idle = true) (taken : ℕ) :
    Inv { s with
      nextKeySessionId := s.nextKeySessionId + taken + 1
      mediaKeySessions := s.mediaKeySessions.emplace (s.nextKeySessionId + taken : ℕ)
        ⟨⟨s.keySystem, false, [], none⟩, 0, false⟩ } := by
  have hfresh : s.mediaKeySessions.find? ((s.nextKeySessionId + taken : ℕ) : ℤ) = none := by
    rw [Option.eq_none_iff_forall_ne_some]
    intro u hu
    have hlt := h.ids _ u hu
    omega
  have hfind : ∀ i v, (s.mediaKeySessions.emplace (s.nextKeySessionId + taken : ℕ)
      ⟨⟨s.keySystem, false, [], none⟩, 0, false⟩).find? i = some v →
      i = (s.nextKeySessionId + taken : ℕ) ∧ v = ⟨⟨s.keySystem, false, [], none⟩, 0, false⟩ ∨
        s.mediaKeySessions.find? i = some v := by
    intro i v hv
    rw [OMap.emplace, hfresh, if_neg Bool.noConfusion, OMap.find?_insert] at hv
    split_ifs at hv with hi
    · cases hv
      exact Or.inl ⟨hi, rfl⟩
    · exact Or.inr hv
  obtain ⟨hd, hrunning⟩ := idle_iff.mp hidle
  refine ⟨fun i v hv => ?_, fun i j v w x hv hw hvx hwx => ?_, fun i v hv => ?_,
    fun i m hl => ?_, fun i hi => ?_, fun _ => ⟨(h.present hd).1, fun call hcall => ?_⟩, h.nodup,
    h.made, fun x hx => ?_, h.kept⟩
  · obtain ⟨-, rfl⟩ | hv := hfind i v hv
    · exact Or.inl ⟨rfl, rfl⟩
    · exact h.each i v hv
  · obtain ⟨-, rfl⟩ | hv := hfind i v hv
    · cases hvx
    · obtain ⟨-, rfl⟩ | hw := hfind j w hw
      · cases hwx
      · exact h.distinct i j v w x hv hw hvx hwx
  · show i < ((s.nextKeySessionId + taken + 1 : ℕ) : ℤ)
    obtain ⟨hi, -⟩ | hv := hfind i v hv
    · omega
    · have hlt := h.ids i v hv
      omega
  · cases (h.present hd).1.symm.trans hl
  · obtain ⟨hlt, hsome⟩ := h.tasks i hi
    refine ⟨?_, fun m hm => ?_⟩
    · show i < ((s.nextKeySessionId + taken + 1 : ℕ) : ℤ)
      omega
    · obtain ⟨v, hv, rfl⟩ | ⟨-, hl⟩ := registered_eq_some.mp hm
      · obtain ⟨hi', -⟩ | hv := hfind i v hv
        · omega
        · exact hsome _ (registered_of_find hv)
      · cases (h.present hd).1.symm.trans hl
  · rw [hrunning] at hcall
    cases hcall
  · refine (h.covered x hx).imp_left ?_
    rintro ⟨i, v, hv, hvx⟩
    refine ⟨i, v, ?_, hvx⟩
    show (s.mediaKeySessions.emplace _ _).find? i = some v
    have hi : i ≠ (s.nextKeySessionId + taken : ℕ) := fun heq => by
      rw [heq, hfresh] at hv
      cases hv
    rw [OMap.emplace, hfresh, if_neg Bool.noConfusion, OMap.find?_insert, if_neg hi]
    exact hv

/-- What waits is less, and OpenCDM has the same sessions. -/
theorem Inv.forget (h : Inv s) {tasks : List Task} {running : List (ℤ × Function)}
    {leaving : Option (ℤ × MediaKeySession)}
    (hwaiting : ∀ i ∈ tasks.map Task.keySessionId ++ running.map Prod.fst, i ∈ s.waiting)
    (hleaving : leaving = s.leaving ∨ leaving = none)
    (hpresent : s.destructing = false →
      ∀ call ∈ running, (s.mediaKeySessions.find? call.1).isSome)
    (hmade : c'.made = s.cdm.made) (hdestructed : c'.destructed = s.cdm.destructed) :
    Inv { s with tasks := tasks, running := running, leaving := leaving, cdm := c' } := by
  have hlive := Cdm.isLive_congr hmade hdestructed
  refine ⟨fun i v hv => ?_, h.distinct, h.ids, fun i m hl => ?_, fun i hi => ?_,
    fun hd => ⟨?_, hpresent hd⟩, ?_, ?_, fun x hx => h.covered x ((hlive x).symm.trans hx), h.kept⟩
  · dsimp only
    simp only [hlive]
    exact h.each i v hv
  · rcases hleaving with rfl | rfl
    · exact h.left i m hl
    · cases hl
  · obtain ⟨hlt, hsome⟩ := h.tasks i (hwaiting i hi)
    refine ⟨hlt, fun m hm => hsome m (registered_eq_some.mpr ?_)⟩
    refine (registered_eq_some.mp hm).imp_right fun ⟨hnone, hl⟩ => ⟨hnone, ?_⟩
    rcases hleaving with rfl | rfl
    · exact hl
    · cases hl
  · rcases hleaving with rfl | rfl
    · exact (h.present hd).1
    · rfl
  · show c'.destructed.Nodup
    rw [hdestructed]
    exact h.nodup
  · show ∀ x ∈ c'.destructed, x < c'.made
    rw [hdestructed, hmade]
    exact h.made

theorem inv_takeTask (h : Inv s) {client : Bool} (hstep : takeTask s client = some t) : Inv t := by
  unfold takeTask at hstep
  split at hstep
  · cases hstep
  · next task tasks htasks =>
    cases hstep
    -- what is to be called is for the key session of the task, which is registered
    have hrunning : ∀ call ∈ (if (s.registered task.keySessionId).isSome then
        (task.functions client).map fun function => (task.keySessionId, function) else []),
        call.1 = task.keySessionId ∧ (s.registered task.keySessionId).isSome := by
      intro call hcall
      split_ifs at hcall with hsome
      · obtain ⟨function, -, rfl⟩ := List.mem_map.mp hcall
        exact ⟨rfl, hsome⟩
      · cases hcall
    refine h.forget (fun i hi => List.mem_append_left _ ?_) (Or.inl rfl) (fun hd call hcall => ?_)
      rfl rfl
    · rw [htasks, List.map_cons]
      rcases List.mem_append.mp hi with hi | hi
      · exact List.mem_cons_of_mem _ hi
      · obtain ⟨call, hcall, rfl⟩ := List.mem_map.mp hi
        rw [(hrunning call hcall).1]
        exact List.mem_cons_self ..
    · obtain ⟨hid, hsome⟩ := hrunning call hcall
      obtain ⟨m, hm⟩ := Option.isSome_iff_exists.mp hsome
      obtain ⟨v, hv, -⟩ | ⟨-, hl⟩ := registered_eq_some.mp hm
      · rw [hid, hv]
        rfl
      · cases (h.present hd).1.symm.trans hl

theorem call_same (function : Function) (c : Cdm) (session : Option ℕ) (answer : OpenCDMError) :
    (function.call c session answer).made = c.made ∧
      (function.call c session answer).destructed = c.destructed := by
  cases session with
  | none => cases function <;> exact ⟨rfl, rfl⟩
  | some x => cases function <;> exact ⟨rfl, rfl⟩

theorem inv_callCdm (h : Inv s) {answer : OpenCDMError} (hstep : callCdm s answer = some t) :
    Inv t := by
  unfold callCdm at hstep
  split at hstep
  · cases hstep
  · next id function running hrunning =>
    cases hstep
    have hwaiting : ∀ i ∈ s.tasks.map Task.keySessionId ++ running.map Prod.fst,
        i ∈ s.waiting := fun i hi => by
      unfold State.waiting
      rw [hrunning, List.map_cons]
      exact (List.mem_append.mp hi).elim (List.mem_append_left _) fun hi =>
        List.mem_append_right _ (List.mem_cons_of_mem _ hi)
    have hpresent : s.destructing = false →
        ∀ call ∈ running, (s.mediaKeySessions.find? call.1).isSome := fun hd call hcall =>
      (h.present hd).2 call (by rw [hrunning]; exact List.mem_cons_of_mem _ hcall)
    refine h.forget hwaiting (Or.inl rfl) hpresent ?_ ?_
    · split
      · exact (call_same ..).1
      · rfl
    · split
      · exact (call_same ..).2
      · rfl

/-- **Every step keeps the invariant.** -/
theorem step_inv {a : Act} (h : Inv s) (hstep : step s a = some t) : Inv t := by
  cases a with
  | callback id =>
    obtain ⟨hcan, heq⟩ := Option.ite_none_right_eq_some.mp hstep
    cases heq
    obtain ⟨m, x, hm, hx, -⟩ := hasSession_iff.mp hcan
    refine h.enqueue (.keyUpdated id) ?_ fun m' hm' => ?_
    · obtain ⟨v, hv, -⟩ | ⟨-, hl⟩ := registered_eq_some.mp hm
      · exact h.ids id v hv
      · exact h.left id m hl
    · cases hm.symm.trans hm'
      rw [hx]
      rfl
  | takeTask client => exact inv_takeTask h (Option.ite_none_right_eq_some.mp hstep).2
  | callCdm answer => exact inv_callCdm h hstep
  | destructFirst answers =>
    obtain ⟨⟨hdestructing, -⟩, hstep⟩ := Option.ite_none_right_eq_some.mp hstep
    exact inv_destructFirst h hdestructing hstep
  | unregisterClient =>
    obtain ⟨hleaving, heq⟩ := Option.ite_none_right_eq_some.mp hstep
    cases heq
    exact h.forget (fun _ hi => hi) (Or.inr rfl) (fun hd => (h.present hd).2) rfl rfl
  | destructor =>
    obtain ⟨-, heq⟩ := Option.ite_none_right_eq_some.mp hstep
    cases heq
    exact ⟨h.each, h.distinct, h.ids, h.left, h.tasks, nofun, h.nodup, h.made, h.covered, nofun⟩
  | request id r =>
    obtain ⟨⟨-, hclients⟩, heq⟩ := Option.ite_none_right_eq_some.mp hstep
    cases heq
    refine inv_request h fun hr => ?_
    rw [hr] at hclients
    cases hclients
  | createKeySession taken =>
    obtain ⟨⟨hidle, -⟩, heq⟩ := Option.ite_none_right_eq_some.mp hstep
    cases heq
    exact inv_createKeySession h hidle taken
  | generateRequest id answer =>
    obtain ⟨-, heq⟩ := Option.ite_none_right_eq_some.mp hstep
    cases heq
    exact inv_generateRequest h answer
  | closeKeySession id answers again =>
    obtain ⟨hidle, heq⟩ := Option.ite_none_right_eq_some.mp hstep
    cases heq
    exact inv_closeKeySession h hidle answers again
  | incrementSessionIdUsageCounter id =>
    obtain ⟨-, heq⟩ := Option.ite_none_right_eq_some.mp hstep
    cases heq
    exact inv_incrementSessionIdUsageCounter h
  | decrementSessionIdUsageCounter id answers again =>
    obtain ⟨hidle, heq⟩ := Option.ite_none_right_eq_some.mp hstep
    cases heq
    exact inv_decrementSessionIdUsageCounter h hidle answers again

/-! ### What OpenCDM is given -/

theorem Inv.live (h : Inv s) (hu : s.mediaKeySessions.find? id = some u)
    (hx : u.mediaKeySession.session = some x) : s.cdm.isLive x = true := by
  obtain ⟨hnone, -⟩ | ⟨y, hy, -, hlive⟩ := h.each id u hu
  · rw [hx] at hnone
    cases hnone
  · rw [hx] at hy
    cases hy
    exact hlive

theorem allLive_request (h : Inv s) (hall : s.cdm.AllLive) {r : Request}
    (hr : r ≠ .keyUpdated true) : (request s id r).cdm.AllLive := by
  unfold request
  cases hu : s.mediaKeySessions.find? id with
  | none => exact hall
  | some u =>
    show (perform s.cdm u.mediaKeySession r).2.AllLive
    cases hsession : u.mediaKeySession.session with
    | some x => exact (perform_spec (c := s.cdm) hsession r).2.allLive hall (h.live hu hsession)
    | none =>
      obtain ⟨heq, -⟩ | ⟨rfl, heq⟩ | ⟨rfl, -⟩ :=
        perform_none (c := s.cdm) hsession (h.unconstructed hu hsession) r
      · rw [heq]
        exact hall
      · rw [heq]
        exact hall
      · exact absurd rfl hr

theorem allLive_generateRequest (h : Inv s) (hall : s.cdm.AllLive) (answer : OpenCDMError) :
    (generateRequestInternal s id answer).cdm.AllLive := by
  have hrequest : (request s id (.generateRequest answer)).cdm.AllLive :=
    allLive_request h hall nofun
  unfold generateRequestInternal
  cases s.mediaKeySessions.find? id with
  | none => exact hall
  | some u =>
    dsimp only
    split_ifs
    · exact hrequest
    · exact hrequest

/-- A key session of the map is closed. -/
theorem allLive_close (h : Inv s) (hall : s.cdm.AllLive)
    (hu : s.mediaKeySessions.find? id = some u) (answers : Closing) :
    (closeKeySession s.cdm u.mediaKeySession answers).2.2.AllLive := by
  cases hsession : u.mediaKeySession.session with
  | none =>
    rw [closeKeySession_none hsession]
    exact hall
  | some x =>
    have hlive := h.live hu hsession
    obtain ⟨-, -, hgives⟩ | ⟨-, -, hgives⟩ := closeKeySession_spec (c := s.cdm) hsession answers
    · exact hgives.allLive hall hlive
    · exact hgives.allLive hall hlive

theorem allLive_attemptClose (h : Inv s) (hall : s.cdm.AllLive)
    (hu : s.mediaKeySessions.find? id = some u) (answers again : Closing) :
    (attemptClose s id u answers again).cdm.AllLive := by
  have hclose := allLive_close h hall hu answers
  unfold attemptClose
  dsimp only
  split_ifs with hok
  · exact hclose
  · show (destructor _ _ again).AllLive
    rw [destructor_closed]
    · exact hclose
    · -- it was closed
      obtain ⟨hnone, hconstructed⟩ | ⟨x, hx, -, -⟩ := h.each id u hu
      · rw [closeKeySession_none hnone]
        exact hconstructed
      · obtain ⟨-, hm, -⟩ | ⟨hfail, -, -⟩ := closeKeySession_spec (c := s.cdm) hx answers
        · rw [hm]
        · exact absurd hfail hok

theorem allLive_destructFirst (h : Inv s) (hall : s.cdm.AllLive) {answers : Closing}
    (hstep : destructFirst s answers = some t) : t.cdm.AllLive := by
  unfold destructFirst at hstep
  split at hstep
  · cases hstep
  · next i v rest hentries =>
    cases hstep
    have hu : s.mediaKeySessions.find? i = some v := by
      rw [OMap.find?_eq_some, hentries]
      exact List.mem_cons_self ..
    show (destructor s.cdm v.mediaKeySession answers).AllLive
    unfold destructor
    split_ifs
    · exact allLive_close h hall hu answers
    · exact hall

/-- The task that the main thread is in calls OpenCDM for a session that is there. -/
def Meets (s : State) : Act → Prop
  | .callCdm _ => ∀ call ∈ s.running.head?, s.hasSession call.1 = true
  | _ => True

theorem allLive_call (hall : c.AllLive) (function : Function) (session : Option ℕ) :
    (c.call function session).AllLive ↔ session.any c.isLive = true := by
  constructor
  · exact fun h => h _ (List.mem_append_right _ (List.mem_singleton_self _))
  · intro hlive call hcall
    rcases List.mem_append.mp hcall with hcall | hcall
    · exact hall call hcall
    · rw [List.mem_singleton.mp hcall]
      exact hlive

theorem allLive_callCdm_iff (h : Inv s) (hall : s.cdm.AllLive) {answer : OpenCDMError}
    (hstep : callCdm s answer = some t) : t.cdm.AllLive ↔ Meets s (.callCdm answer) := by
  unfold callCdm at hstep
  split at hstep
  · cases hstep
  · next id function running hrunning =>
    cases hstep
    have hmeets : Meets s (.callCdm answer) ↔ s.hasSession id = true := by
      unfold Meets
      rw [hrunning]
      simp
    rw [hmeets]
    dsimp only
    cases hm : s.registered id with
    | none =>
      refine iff_of_false (fun hlive => ?_) fun hsession => ?_
      · exact Bool.noConfusion ((allLive_call hall function none).mp hlive)
      · obtain ⟨m, x, hm', -⟩ := hasSession_iff.mp hsession
        cases hm.symm.trans hm'
    | some m =>
      have hmem : id ∈ s.waiting := by
        unfold State.waiting
        rw [hrunning]
        exact List.mem_append_right _ (List.mem_cons_self ..)
      obtain ⟨x, hx⟩ := Option.isSome_iff_exists.mp ((h.tasks id hmem).2 m hm)
      have hcall : function.call s.cdm m.session answer = s.cdm.call function (some x) := by
        rw [hx]
        cases function <;> rfl
      have hsession : s.hasSession id = s.cdm.isLive x := by
        unfold State.hasSession
        rw [hm]
        show m.session.any s.cdm.isLive = _
        rw [hx]
        rfl
      rw [hsession]
      show (function.call s.cdm m.session answer).AllLive ↔ _
      rw [hcall]
      exact allLive_call hall function (some x)

/-- A step gives OpenCDM what is there exactly when it meets the condition. -/
theorem allLive_step_iff {a : Act} (h : Inv s) (hall : s.cdm.AllLive)
    (hstep : step s a = some t) : t.cdm.AllLive ↔ Meets s a := by
  cases a with
  | callCdm answer => exact allLive_callCdm_iff h hall hstep
  | createKeySession taken =>
    obtain ⟨-, heq⟩ := Option.ite_none_right_eq_some.mp hstep
    cases heq
    exact iff_of_true hall trivial
  | generateRequest id answer =>
    obtain ⟨-, heq⟩ := Option.ite_none_right_eq_some.mp hstep
    cases heq
    exact iff_of_true (allLive_generateRequest h hall answer) trivial
  | request id r =>
    obtain ⟨⟨-, hclients⟩, heq⟩ := Option.ite_none_right_eq_some.mp hstep
    cases heq
    refine iff_of_true (allLive_request h hall fun hr => ?_) trivial
    rw [hr] at hclients
    cases hclients
  | closeKeySession id answers again =>
    obtain ⟨-, heq⟩ := Option.ite_none_right_eq_some.mp hstep
    cases heq
    refine iff_of_true ?_ trivial
    unfold closeKeySessionInternal
    cases hu : s.mediaKeySessions.find? id with
    | none => exact hall
    | some u =>
      dsimp only
      split_ifs
      · exact allLive_attemptClose h hall hu answers again
      · exact hall
  | incrementSessionIdUsageCounter id =>
    obtain ⟨-, heq⟩ := Option.ite_none_right_eq_some.mp hstep
    cases heq
    refine iff_of_true ?_ trivial
    unfold incrementSessionIdUsageCounterInternal
    split
    · exact hall
    · exact hall
  | decrementSessionIdUsageCounter id answers again =>
    obtain ⟨-, heq⟩ := Option.ite_none_right_eq_some.mp hstep
    cases heq
    refine iff_of_true ?_ trivial
    unfold decrementSessionIdUsageCounterInternal
    cases hu : s.mediaKeySessions.find? id with
    | none => exact hall
    | some u =>
      dsimp only
      have hput : Inv (s.put id { u with bufCounter := u.bufCounter - 1 }) := h.put hu rfl
      split_ifs
      · exact allLive_attemptClose hput hall ((OMap.find?_insert ..).trans (if_pos rfl)) _ _
      · exact hall
  | callback id =>
    obtain ⟨-, heq⟩ := Option.ite_none_right_eq_some.mp hstep
    cases heq
    exact iff_of_true hall trivial
  | takeTask client =>
    obtain ⟨-, htake⟩ := Option.ite_none_right_eq_some.mp hstep
    unfold takeTask at htake
    split at htake
    · cases htake
    · cases htake
      exact iff_of_true hall trivial
  | destructor =>
    obtain ⟨-, heq⟩ := Option.ite_none_right_eq_some.mp hstep
    cases heq
    exact iff_of_true hall trivial
  | destructFirst answers =>
    have hfirst := (Option.ite_none_right_eq_some.mp hstep).2
    exact iff_of_true (allLive_destructFirst h hall hfirst) trivial
  | unregisterClient =>
    obtain ⟨-, heq⟩ := Option.ite_none_right_eq_some.mp hstep
    cases heq
    exact iff_of_true hall trivial

/-- Before the destruction every step meets the condition. -/
theorem Inv.meets (h : Inv s) (hd : s.destructing = false) (a : Act) : Meets s a := by
  cases a with
  | callCdm answer =>
    intro call hcall
    obtain ⟨u, hu⟩ := Option.isSome_iff_exists.mp
      ((h.present hd).2 call (List.mem_of_mem_head? hcall))
    have hmem : call.1 ∈ s.waiting :=
      List.mem_append_right _ (List.mem_map_of_mem (List.mem_of_mem_head? hcall))
    obtain ⟨x, hx⟩ := Option.isSome_iff_exists.mp ((h.tasks _ hmem).2 _ (registered_of_find hu))
    exact hasSession_iff.mpr ⟨_, x, registered_of_find hu, hx, h.live hu hx⟩
  | _ => trivial

/-- The destruction does not come to an end. -/
theorem destructing_step {a : Act} (hstep : step s a = some t) (hd : t.destructing = false) :
    s.destructing = false := by
  cases a with
  | createKeySession taken =>
    exact (idle_iff.mp (Option.ite_none_right_eq_some.mp hstep).1.1).1
  | request id q => exact (idle_iff.mp (Option.ite_none_right_eq_some.mp hstep).1.1).1
  | callback id =>
    obtain ⟨-, heq⟩ := Option.ite_none_right_eq_some.mp hstep
    cases heq
    exact hd
  | takeTask client =>
    have htake := (Option.ite_none_right_eq_some.mp hstep).2
    unfold takeTask at htake
    split at htake
    · cases htake
    · cases htake
      exact hd
  | callCdm answer =>
    replace hstep : callCdm s answer = some t := hstep
    unfold callCdm at hstep
    split at hstep
    · cases hstep
    · cases hstep
      exact hd
  | destructFirst answers =>
    obtain ⟨⟨hd', -⟩, hstep⟩ := Option.ite_none_right_eq_some.mp hstep
    unfold destructFirst at hstep
    split at hstep
    · cases hstep
    · cases hstep
      exact absurd (hd'.symm.trans hd) Bool.noConfusion
  | unregisterClient =>
    obtain ⟨-, heq⟩ := Option.ite_none_right_eq_some.mp hstep
    cases heq
    exact hd
  | _ => exact (idle_iff.mp (Option.ite_none_right_eq_some.mp hstep).1).1

variable {keySystem : String} {nextKeySessionId : ℕ} {as : List Act}

theorem run_inv (h : Run step (fun _ _ => True) (init keySystem nextKeySessionId) as s) : Inv s :=
  h.invariant Inv (fun _ _ _ hs _ hstep => step_inv hs hstep) (inv_init keySystem nextKeySessionId)

/-- Until the media keys are destructed OpenCDM is only given sessions that are there. -/
theorem allLive_before
    (h : Run step (fun _ _ => True) (init keySystem nextKeySessionId) as s)
    (hd : s.destructing = false) : s.cdm.AllLive := by
  refine Run.history (P := fun _ s => s.destructing = false → s.cdm.AllLive)
    (fun _ _ hmem => absurd hmem List.not_mem_nil) ?_ h hd
  intro as t a u ht ih _ hstep hd
  have hd' := destructing_step hstep hd
  exact (allLive_step_iff (run_inv ht) (ih hd') hstep).mpr ((run_inv ht).meets hd' a)

/-- **The sessions of the CDM**: OpenCDM is only given sessions that are there exactly if, while the
media keys are destructed, no task calls it for a key session that has destructed its session or is
gone; before that it always is. Each session is destructed at most once, and until the media keys
are destructed every session that is there is that of exactly one key session. -/
theorem calls_live (h : Run step (fun _ _ => True) (init keySystem nextKeySessionId) as s) :
    ((∀ pre post t, as = pre ++ post →
        Run step (fun _ _ => True) (init keySystem nextKeySessionId) pre t → t.cdm.AllLive) ↔
      ∀ a t, Occurs step (fun _ _ => True) (init keySystem nextKeySessionId) as a t → Meets t a) ∧
    (s.destructing = false → s.cdm.AllLive) ∧ s.cdm.destructed.Nodup ∧
    (∀ id u x, s.mediaKeySessions.find? id = some u → u.mediaKeySession.session = some x →
      s.cdm.isLive x = true) ∧
    (s.destructing = false → ∀ x, s.cdm.isLive x = true → ∃! id,
      ∃ u, s.mediaKeySessions.find? id = some u ∧ u.mediaKeySession.session = some x) := by
  have hinv := run_inv h
  refine ⟨?_, allLive_before h, hinv.nodup, fun id u x hu hx => hinv.live hu hx, fun hd x hx => ?_⟩
  · exact h.always_iff Inv (fun t => t.cdm.AllLive) Meets (inv_init keySystem nextKeySessionId)
      (fun _ _ _ ht hstep => step_inv ht hstep) (fun _ hmem => absurd hmem List.not_mem_nil)
      fun _ _ _ ht hall hstep => allLive_step_iff ht hall hstep
  · obtain ⟨id, u, hu, hux⟩ | hmem := hinv.covered x hx
    · refine ⟨id, ⟨u, hu, hux⟩, ?_⟩
      rintro id' ⟨v, hv, hvx⟩
      exact hinv.distinct id' id v u x hv hu hvx hux
    · rw [hinv.kept hd] at hmem
      cases hmem

/-- Closed while it is used, and erased when the last buffer is done; a key is updated after it. -/
def closedInUse : List Act :=
  [.createKeySession 0, .generateRequest 0 .none, .incrementSessionIdUsageCounter 0, .callback 0,
    .closeKeySession 0 ⟨.none, .none, .none, .none⟩ ⟨.none, .none, .none, .none⟩,
    .request 0 (.decrypt .none),
    .decrementSessionIdUsageCounter 0 ⟨.none, .none, .none, .none⟩ ⟨.none, .none, .none, .none⟩,
    .takeTask true]

/-- The main thread looks up the status of a key when the destructor of the key session has closed
it. -/
def updatedWhileDestructed : List Act :=
  [.createKeySession 0, .generateRequest 0 .none, .callback 0, .destructor,
    .destructFirst ⟨.none, .none, .none, .none⟩, .takeTask true, .callCdm .none]

theorem calls_live_closedInUse :
    (∃ s, Run step (fun _ _ => True) (init "com.widevine.alpha" 0) closedInUse s ∧
      s.cdm.calls.length = 3 ∧ s.cdm.destructed = [0] ∧ s.cdm.AllLive) ∧
    ¬∀ pre post t, updatedWhileDestructed = pre ++ post →
      Run step (fun _ _ => True) (init "com.widevine.alpha" 0) pre t → t.cdm.AllLive := by
  have hs : Run step (fun _ _ => True) (init "com.widevine.alpha" 0) closedInUse _ :=
    Run.of_runs rfl
  have ht : Run step (fun _ _ => True) (init "com.widevine.alpha" 0) updatedWhileDestructed _ :=
    Run.of_runs rfl
  have hbefore : Run step (fun _ _ => True) (init "com.widevine.alpha" 0)
      (updatedWhileDestructed.take 6) _ := Run.of_runs rfl
  refine ⟨⟨_, hs, rfl, rfl, (calls_live hs).2.1 rfl⟩, fun hall => ?_⟩
  have hmeets := (calls_live ht).1.mp hall (.callCdm .none) _
    ⟨updatedWhileDestructed.take 6, [], rfl, hbefore⟩
  exact absurd (hmeets (0, .status) rfl) Bool.noConfusion

/-! ## The key sessions without OpenCDM

`Rialto.Keys.Sessions` has what the calls of an `OcdmSession` return in the place of OpenCDM. -/

/-- What a function of `OcdmSession` returns. -/
def returned (m : MediaKeySession) (answer : OpenCDMError) : MediaKeyErrorStatus :=
  if m.session.isSome then convertOpenCdmError answer else .fail

def MediaKeySession.toSessions (m : MediaKeySession) : Sessions.MediaKeySession :=
  ⟨m.keySystem, m.isSessionConstructed⟩

def Closing.toSessions (m : MediaKeySession) (answers : Closing) : Sessions.OcdmSession :=
  ⟨returned m answers.cancelChallengeData, returned m answers.cleanDecryptContext,
    returned m answers.close, returned m answers.destruct⟩

def MediaKeySessionUsage.toSessions (u : MediaKeySessionUsage) : Sessions.MediaKeySessionUsage :=
  ⟨u.mediaKeySession.toSessions, u.bufCounter, u.shouldBeDestroyed⟩

theorem onSession_fst (function : Function) (c : Cdm) (m : MediaKeySession)
    (answer : OpenCDMError) : (onSession function c m.session answer).1 = returned m answer := by
  unfold onSession returned
  cases m.session <;> rfl

theorem destructKeySession_toSessions (c : Cdm) (m : MediaKeySession) (answer : OpenCDMError) :
    (destructKeySession c m answer).1 = returned m answer ∧
    (destructKeySession c m answer).2.1.toSessions =
      if returned m answer = .ok then { m.toSessions with isSessionConstructed := false }
      else m.toSessions := by
  have hstatus : (destructKeySession c m answer).1 = returned m answer := by
    unfold destructKeySession destructSession returned
    cases m.session <;> rfl
  refine ⟨hstatus, ?_⟩
  show (⟨m.keySystem, m.isSessionConstructed && decide ((destructKeySession c m answer).1 ≠ .ok)⟩ :
    Sessions.MediaKeySession) = _
  rw [hstatus]
  split_ifs with hok
  · simp [MediaKeySession.toSessions, hok]
  · simp [MediaKeySession.toSessions, hok]

theorem closeKeySession_toSessions (c : Cdm) (m : MediaKeySession) (answers : Closing) :
    ((closeKeySession c m answers).1, (closeKeySession c m answers).2.1.toSessions) =
      m.toSessions.closeKeySession (answers.toSessions m) := by
  have hclose : (close c m.session answers.close).1 = returned m answers.close :=
    onSession_fst .close c m answers.close
  have hdestruct : ∀ c', ((destructKeySession c' m answers.destruct).1,
      (destructKeySession c' m answers.destruct).2.1.toSessions) =
        if returned m answers.destruct ≠ .ok then (returned m answers.destruct, m.toSessions)
        else (.ok, { m.toSessions with isSessionConstructed := false }) := by
    intro c'
    obtain ⟨hstatus, hm⟩ := destructKeySession_toSessions c' m answers.destruct
    rw [hstatus, hm]
    by_cases hok : returned m answers.destruct = .ok
    · rw [if_pos hok, if_neg (not_not.mpr hok), hok]
    · rw [if_neg hok, if_pos hok]
  unfold closeKeySession Sessions.MediaKeySession.closeKeySession
  by_cases hnetflix : m.keySystem = netflixKeySystem
  · rw [if_pos hnetflix, if_neg fun h => h.1 hnetflix]
    exact hdestruct _
  · rw [if_neg hnetflix]
    dsimp only
    rw [hclose]
    by_cases hok : returned m answers.close = .ok
    · rw [if_neg (not_not.mpr hok), if_neg fun h => h.2 hok]
      exact hdestruct _
    · rw [if_pos hok, if_pos ⟨hnetflix, hok⟩]
      rfl

/-- The same key sessions, as those without OpenCDM. -/
structure Same (s : State) (t : Sessions.State) : Prop where
  keySystem : t.keySystem = s.keySystem
  nextKeySessionId : t.keySessionId = s.nextKeySessionId
  mediaKeySessions : ∀ id, t.mediaKeySessions.find? id =
    (s.mediaKeySessions.find? id).map MediaKeySessionUsage.toSessions

variable {r : Sessions.State}

theorem Same.put (h : Same s r) (id : ℤ) (u : MediaKeySessionUsage) (c' : Cdm) :
    Same { s.put id u with cdm := c' } (r.put id u.toSessions) := by
  refine ⟨h.keySystem, h.nextKeySessionId, fun i => ?_⟩
  show (r.mediaKeySessions.insert id u.toSessions).find? i =
    ((s.mediaKeySessions.insert id u).find? i).map _
  rw [OMap.find?_insert, OMap.find?_insert]
  split_ifs
  · rfl
  · exact h.mediaKeySessions i

theorem Same.erase (h : Same s r) (id : ℤ) (c' : Cdm) :
    Same { s with mediaKeySessions := s.mediaKeySessions.erase id, cdm := c' }
      { r with mediaKeySessions := r.mediaKeySessions.erase id } := by
  refine ⟨h.keySystem, h.nextKeySessionId, fun i => ?_⟩
  show (r.mediaKeySessions.erase id).find? i = ((s.mediaKeySessions.erase id).find? i).map _
  rw [OMap.find?_erase, OMap.find?_erase]
  split_ifs
  · rfl
  · exact h.mediaKeySessions i

/-- What is put in the log, and what OpenCDM and the tasks are, does not matter. -/
theorem Same.note (h : Same s r) (e : Sessions.Entry) : Same s (r.note e) :=
  ⟨h.keySystem, h.nextKeySessionId, h.mediaKeySessions⟩

theorem Same.attemptClose (h : Same s r) (u : MediaKeySessionUsage) (answers again : Closing) :
    Same (attemptClose s id u answers again)
      (Sessions.attemptClose r id u.toSessions (answers.toSessions u.mediaKeySession)).2 := by
  have hclosed := closeKeySession_toSessions s.cdm u.mediaKeySession answers
  unfold OcdmSession.attemptClose Sessions.attemptClose
  dsimp only [MediaKeySessionUsage.toSessions]
  rw [← hclosed]
  dsimp only
  by_cases hok : (closeKeySession s.cdm u.mediaKeySession answers).1 = .ok
  · rw [if_neg (not_not.mpr hok), if_neg (not_not.mpr hok)]
    have hm : (closeKeySession s.cdm u.mediaKeySession
        answers).2.1.toSessions.isSessionConstructed = false := by
      have hsnd := congrArg Prod.snd hclosed
      have hfst := congrArg Prod.fst hclosed
      dsimp only at hsnd hfst
      rw [hok] at hfst
      rw [hsnd]
      unfold Sessions.MediaKeySession.closeKeySession at hfst ⊢
      split_ifs at hfst ⊢ with hc hd
      · exact absurd hfst.symm hc.2
      · exact absurd hfst.symm hd
      · rfl
    unfold Sessions.eraseSession
    rw [if_neg fun htrue => Bool.noConfusion (hm.symm.trans htrue)]
    exact (h.note _).erase id _
  · rw [if_pos hok, if_pos hok]
    exact (h.put id _ _).note _

theorem perform_toSessions (c : Cdm) (m : MediaKeySession) {q : Request}
    (hq : ∀ answer, q ≠ .generateRequest answer) : (perform c m q).1.toSessions = m.toSessions := by
  cases q with
  | generateRequest answer => exact absurd rfl (hq answer)
  | selectKeyId keyId answer =>
    show (selectKey c m keyId answer).2.1.toSessions = _
    unfold selectKey
    split_ifs
    · rfl
    · dsimp only
      split_ifs <;> rfl
  | _ => rfl

theorem Same.request (h : Same s r) {q : Request} (hq : ∀ answer, q ≠ .generateRequest answer) :
    Same (request s id q) r := by
  unfold OcdmSession.request
  cases hu : s.mediaKeySessions.find? id with
  | none => exact h
  | some u =>
    refine ⟨h.keySystem, h.nextKeySessionId, fun i => ?_⟩
    show _ = ((s.mediaKeySessions.insert id _).find? i).map _
    rw [h.mediaKeySessions i, OMap.find?_insert]
    split_ifs with hi
    · rw [hi, hu]
      show some u.toSessions = some (MediaKeySessionUsage.toSessions _)
      simp only [MediaKeySessionUsage.toSessions, perform_toSessions s.cdm u.mediaKeySession hq]
    · rfl

theorem Same.generateRequest (h : Same s r) (hs : Inv s) (answer : OpenCDMError) :
    Same (generateRequestInternal s id answer)
      (Sessions.generateRequestInternal r id (convertOpenCdmError answer)).2 := by
  have hrequest : Same (OcdmSession.request s id (.generateRequest answer))
      (Sessions.generateRequestInternal r id (convertOpenCdmError answer)).2 := by
    unfold OcdmSession.request Sessions.generateRequestInternal
    rw [h.mediaKeySessions id]
    cases hu : s.mediaKeySessions.find? id with
    | none => exact h
    | some u =>
      show Same { s.put id { u with
        mediaKeySession := (OcdmSession.generateRequest s.cdm u.mediaKeySession answer).2.1 } with
          cdm := _ } (if u.mediaKeySession.isSessionConstructed then _ else _ : _ × _).2
      have hput : ∀ (m : MediaKeySession) (c' : Cdm),
          Same { s.put id { u with mediaKeySession := m } with cdm := c' }
            (r.put id { u.toSessions with mediaKeySession := m.toSessions }) :=
        fun m c' => h.put id { u with mediaKeySession := m } c'
      -- putting back what is there
      have hback : ∀ c', Same { s.put id u with cdm := c' } r := by
        intro c'
        refine ⟨h.keySystem, h.nextKeySessionId, fun i => ?_⟩
        show _ = ((s.mediaKeySessions.insert id u).find? i).map _
        rw [h.mediaKeySessions i, OMap.find?_insert]
        split_ifs with hi
        · rw [hi, hu]
        · rfl
      unfold OcdmSession.generateRequest
      obtain ⟨hnone, hconstructed⟩ | ⟨x, -, hconstructed, -⟩ := hs.each id u hu
      · rw [hconstructed, if_neg Bool.noConfusion, if_neg Bool.noConfusion]
        unfold constructSession
        rw [hnone]
        dsimp only
        by_cases hok : answer = .none
        · rw [if_pos hok, hok]
          exact hput _ _
        · have hfail : convertOpenCdmError answer ≠ .ok := fun h => hok (converted_ok_iff.mp h)
          rw [if_neg hok, if_pos hfail]
          dsimp only
          rw [decide_eq_false hfail, ← hconstructed, ← hnone]
          exact hback _
      · rw [if_pos hconstructed, if_pos hconstructed]
        exact hback _
  unfold generateRequestInternal
  cases hu : s.mediaKeySessions.find? id with
  | none =>
    unfold OcdmSession.request at hrequest
    rw [hu] at hrequest
    exact hrequest
  | some u =>
    dsimp only
    split_ifs
    · exact ⟨hrequest.keySystem, hrequest.nextKeySessionId, hrequest.mediaKeySessions⟩
    · exact hrequest

theorem Same.createKeySession (h : Same s r) (taken : ℕ) :
    Same { s with
      nextKeySessionId := s.nextKeySessionId + taken + 1
      mediaKeySessions := s.mediaKeySessions.emplace (s.nextKeySessionId + taken : ℕ)
        ⟨⟨s.keySystem, false, [], none⟩, 0, false⟩ }
      (Sessions.createKeySessionInternal r (r.keySessionId + taken) true).2 := by
  refine ⟨h.keySystem, congrArg (· + taken + 1) h.nextKeySessionId, fun i => ?_⟩
  show (r.mediaKeySessions.emplace (r.keySessionId + taken : ℕ) _).find? i =
    ((s.mediaKeySessions.emplace (s.nextKeySessionId + taken : ℕ) _).find? i).map _
  rw [h.nextKeySessionId, h.keySystem, OMap.emplace, OMap.emplace, h.mediaKeySessions,
    Option.isSome_map]
  split_ifs
  · exact h.mediaKeySessions i
  · rw [OMap.find?_insert, OMap.find?_insert]
    split_ifs
    · rfl
    · exact h.mediaKeySessions i

theorem Same.closeKeySession (h : Same s r) (answers again : Closing) :
    ∃ ocdm, Same (closeKeySessionInternal s id answers again)
      (Sessions.closeKeySessionInternal r id ocdm).2 := by
  unfold closeKeySessionInternal Sessions.closeKeySessionInternal
  rw [h.mediaKeySessions id]
  cases hu : s.mediaKeySessions.find? id with
  | none => exact ⟨⟨.ok, .ok, .ok, .ok⟩, h⟩
  | some u =>
    refine ⟨answers.toSessions u.mediaKeySession, ?_⟩
    show Same (if u.bufCounter = 0 then _ else _) (if u.bufCounter = 0 then _ else _ : _ × _).2
    split_ifs
    · exact h.attemptClose u answers again
    · exact h.put id { u with shouldBeDestroyed := true } s.cdm

theorem Same.incrementSessionIdUsageCounter (h : Same s r) :
    Same (incrementSessionIdUsageCounterInternal s id)
      (Sessions.incrementSessionIdUsageCounterInternal r id) := by
  unfold incrementSessionIdUsageCounterInternal Sessions.incrementSessionIdUsageCounterInternal
  rw [h.mediaKeySessions id]
  cases hu : s.mediaKeySessions.find? id with
  | none => exact h
  | some u => exact (h.put id { u with bufCounter := add32 u.bufCounter 1 } s.cdm).note _

theorem Same.decrementSessionIdUsageCounter (h : Same s r) (answers again : Closing) :
    ∃ ocdm, Same (decrementSessionIdUsageCounterInternal s id answers again)
      (Sessions.decrementSessionIdUsageCounterInternal r id ocdm) := by
  unfold decrementSessionIdUsageCounterInternal Sessions.decrementSessionIdUsageCounterInternal
  rw [h.mediaKeySessions id]
  cases hu : s.mediaKeySessions.find? id with
  | none => exact ⟨⟨.ok, .ok, .ok, .ok⟩, h⟩
  | some u =>
    refine ⟨answers.toSessions u.mediaKeySession, ?_⟩
    -- the counter goes down to what it is there
    have hdown : ∃ r', Sessions.decrementCounter r id u.toSessions =
          (r', MediaKeySessionUsage.toSessions { u with bufCounter := u.bufCounter - 1 }) ∧
        Same (s.put id { u with bufCounter := u.bufCounter - 1 }) r' := by
      unfold Sessions.decrementCounter
      by_cases hpos : 0 < u.toSessions.bufCounter
      · rw [if_pos hpos]
        exact ⟨_, rfl, (h.put id { u with bufCounter := u.bufCounter - 1 } s.cdm).note _⟩
      · have hzero : u.bufCounter = 0 := Nat.eq_zero_of_not_pos hpos
        rw [if_neg hpos]
        refine ⟨r, by simp [MediaKeySessionUsage.toSessions, hzero], h.keySystem,
          h.nextKeySessionId, fun i => ?_⟩
        show _ = ((s.mediaKeySessions.insert id _).find? i).map _
        rw [h.mediaKeySessions i, OMap.find?_insert]
        split_ifs with hi
        · rw [hi, hu]
          simp [MediaKeySessionUsage.toSessions, hzero]
        · rfl
    obtain ⟨r', heq, hdown⟩ := hdown
    rw [Option.map_some]
    dsimp only
    rw [heq]
    show Same (if u.bufCounter - 1 = 0 ∧ u.shouldBeDestroyed then _ else _)
      (if u.bufCounter - 1 = 0 ∧ u.shouldBeDestroyed then _ else _)
    split_ifs
    · exact hdown.attemptClose { u with bufCounter := u.bufCounter - 1 } answers again
    · exact hdown

/-- **Every step before the destruction is a step of the key sessions without OpenCDM**, or leaves
them as they are. -/
theorem sessions_step {a : Act} (h : Same s r) (hs : Inv s) (hstep : step s a = some t)
    (hd : t.destructing = false) :
    Same t r ∨ ∃ op r', Sessions.step r op = some r' ∧ Same t r' := by
  have hd' := destructing_step hstep hd
  cases a with
  | createKeySession taken =>
    obtain ⟨⟨-, hlt⟩, heq⟩ := Option.ite_none_right_eq_some.mp hstep
    cases heq
    refine Or.inr ⟨.createKeySession taken true, _, ?_, h.createKeySession taken⟩
    exact if_pos (h.nextKeySessionId ▸ hlt)
  | generateRequest id answer =>
    obtain ⟨-, heq⟩ := Option.ite_none_right_eq_some.mp hstep
    cases heq
    exact Or.inr ⟨.generateRequest id _, _, rfl, h.generateRequest hs answer⟩
  | request id q =>
    obtain ⟨⟨-, hclients⟩, heq⟩ := Option.ite_none_right_eq_some.mp hstep
    cases heq
    refine Or.inl (h.request fun answer heq => ?_)
    rw [heq] at hclients
    cases hclients
  | closeKeySession id answers again =>
    obtain ⟨-, heq⟩ := Option.ite_none_right_eq_some.mp hstep
    cases heq
    obtain ⟨ocdm, hclosed⟩ := h.closeKeySession answers again
    exact Or.inr ⟨.closeKeySession id ocdm, _, rfl, hclosed⟩
  | incrementSessionIdUsageCounter id =>
    obtain ⟨-, heq⟩ := Option.ite_none_right_eq_some.mp hstep
    cases heq
    exact Or.inr ⟨.incrementSessionIdUsageCounter id, _, rfl, h.incrementSessionIdUsageCounter⟩
  | decrementSessionIdUsageCounter id answers again =>
    obtain ⟨-, heq⟩ := Option.ite_none_right_eq_some.mp hstep
    cases heq
    obtain ⟨ocdm, hdown⟩ := h.decrementSessionIdUsageCounter answers again
    exact Or.inr ⟨.decrementSessionIdUsageCounter id ocdm, _, rfl, hdown⟩
  | callback id =>
    obtain ⟨-, heq⟩ := Option.ite_none_right_eq_some.mp hstep
    cases heq
    exact Or.inl ⟨h.keySystem, h.nextKeySessionId, h.mediaKeySessions⟩
  | takeTask client =>
    have htake := (Option.ite_none_right_eq_some.mp hstep).2
    unfold takeTask at htake
    split at htake
    · cases htake
    · cases htake
      exact Or.inl ⟨h.keySystem, h.nextKeySessionId, h.mediaKeySessions⟩
  | callCdm answer =>
    replace hstep : callCdm s answer = some t := hstep
    unfold callCdm at hstep
    split at hstep
    · cases hstep
    · cases hstep
      exact Or.inl ⟨h.keySystem, h.nextKeySessionId, h.mediaKeySessions⟩
  | destructor =>
    obtain ⟨-, heq⟩ := Option.ite_none_right_eq_some.mp hstep
    cases heq
    cases hd
  | destructFirst answers =>
    obtain ⟨⟨htrue, -⟩, -⟩ := Option.ite_none_right_eq_some.mp hstep
    exact absurd (hd'.symm.trans htrue) Bool.noConfusion
  | unregisterClient =>
    obtain ⟨-, heq⟩ := Option.ite_none_right_eq_some.mp hstep
    cases heq
    exact Or.inl ⟨h.keySystem, h.nextKeySessionId, h.mediaKeySessions⟩

/-- **The key sessions refine those without OpenCDM**: a run before the destruction is one of them,
with the same key sessions, counters and marks at its end. -/
theorem refines_sessions {keySystem : String} {nextKeySessionId : ℕ} {as : List Act}
    (h : Run step (fun _ _ => True) (init keySystem nextKeySessionId) as s)
    (hd : s.destructing = false) : ∃ ops r,
      Run Sessions.step (fun _ _ => True) (Sessions.init keySystem nextKeySessionId) ops r ∧
      Same s r := by
  refine Run.history (P := fun _ s => s.destructing = false → ∃ ops r,
    Run Sessions.step (fun _ _ => True) (Sessions.init keySystem nextKeySessionId) ops r ∧
      Same s r) (fun _ => ⟨[], _, Run.nil _, rfl, rfl, fun _ => rfl⟩) ?_ h hd
  intro as t a u ht ih _ hstep hd
  have hs : Inv t := run_inv ht
  obtain ⟨ops, r, hr, hsame⟩ := ih (destructing_step hstep hd)
  obtain hsame | ⟨op, r', hop, hsame⟩ := sessions_step hsame hs hstep hd
  · exact ⟨ops, r, hr, hsame⟩
  · exact ⟨ops ++ [op], r', hr.append (Run.cons trivial hop (Run.nil _)), hsame⟩

theorem refines_sessions_closedInUse : ∃ s ops r,
    Run step (fun _ _ => True) (init "com.widevine.alpha" 0) closedInUse s ∧
    Run Sessions.step (fun _ _ => True) (Sessions.init "com.widevine.alpha" 0) ops r ∧
    Same s r := by
  have hs : Run step (fun _ _ => True) (init "com.widevine.alpha" 0) closedInUse _ :=
    Run.of_runs rfl
  obtain ⟨ops, r, hr, hsame⟩ := refines_sessions hs rfl
  exact ⟨_, ops, r, hs, hr, hsame⟩

end Rialto.Keys.OcdmSession

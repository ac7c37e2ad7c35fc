import Rialto.Keys.Sessions

/-! # Media keys over the connection

A `MediaKeysIpc` stands for a `MediaKeysServerInternal` at the server. A call of it becomes a
request with the handle of the object, `MediaKeysModuleService` has `CdmService` call the object,
and what that returns comes back in a response; bytes travel as numbers of 32 bits, enumerations as
those of the protocol. Objects of any kind `M` do here.

Several `MediaKeysIpc` are served at a time, each of which knows its own handle only. A call may not
be sent, may not arrive, or its reply may not.

* `command_request`: what the server understands is what the client asks.
* `finish_parse`: what becomes of what an object returns, for each function.
* `transparent_iff`: when a call returns what the object itself would return.
* `stands_for`: over a run, a `MediaKeysIpc` is its object, called by nobody else. -/

namespace Rialto.Link.MediaKeys

open Rialto.Lib.OrdMap Rialto.Lib.Runs
open Rialto.Keys.Sessions (MediaKeyErrorStatus)

/-! ## The functions of `IMediaKeys` -/

inductive KeySessionType
  | unknown
  | temporary
  | persistentLicence
  | persistentReleaseMessage
  deriving DecidableEq

inductive InitDataType
  | unknown
  | cenc
  | keyIds
  | webm
  | drmHeader
  deriving DecidableEq

/-- A call, without the variables that it may write; `selectKeyId` is not there over the
connection. -/
inductive Command
  | containsKey (keySessionId : ℤ) (keyId : List UInt8)
  | createKeySession (sessionType : KeySessionType) (isLDL : Bool)
  | generateRequest (keySessionId : ℤ) (initDataType : InitDataType) (initData : List UInt8)
  | loadSession (keySessionId : ℤ)
  | updateSession (keySessionId : ℤ) (responseData : List UInt8)
  | setDrmHeader (keySessionId : ℤ) (requestData : List UInt8)
  | closeKeySession (keySessionId : ℤ)
  | removeKeySession (keySessionId : ℤ)
  | deleteDrmStore
  | deleteKeyStore
  | getDrmStoreHash
  | getKeyStoreHash
  | getLdlSessionsLimit
  | getLastDrmError (keySessionId : ℤ)
  | getDrmTime
  | getCdmKeySessionId (keySessionId : ℤ)
  deriving DecidableEq

/-- What a call returns. -/
def Command.Ret : Command → Type
  | .containsKey _ _ => Bool
  | _ => MediaKeyErrorStatus

/-- The variable of the caller that it may write. -/
def Command.Out : Command → Type
  | .createKeySession _ _ => ℤ
  | .getDrmStoreHash => List UInt8
  | .getKeyStoreHash => List UInt8
  | .getLdlSessionsLimit => UInt32
  | .getLastDrmError _ => UInt32
  | .getDrmTime => UInt64
  | .getCdmKeySessionId _ => String
  | _ => Unit

/-- The id of a session that was created is written. -/
def Command.HasId : (c : Command) → c.Ret → Option c.Out → Prop
  | .createKeySession _ _, status, written =>
    (status : MediaKeyErrorStatus) = .ok → (written : Option ℤ) ≠ none
  | _, _, _ => True

/-- An implementation of `IMediaKeys`: what it returns, what it writes if it does, and what it is
then. -/
structure IMediaKeys (M : Type) where
  run : M → (c : Command) → c.Ret × Option c.Out × M
  hasId : ∀ m (c : Command), c.HasId (run m c).1 (run m c).2.1

/-! ## Messages -/

inductive ProtoMediaKeyErrorStatus
  | ok
  | fail
  | badSessionId
  | notSupported
  | invalidState
  deriving DecidableEq

inductive ProtoKeySessionType
  | unknown
  | temporary
  | persistentLicence
  | persistentReleaseMessage
  deriving DecidableEq

inductive ProtoInitDataType
  | unknown
  | cenc
  | keyIds
  | webm
  | drmHeader
  deriving DecidableEq

inductive Request
  | containsKey (mediaKeysHandle keySessionId : ℤ) (keyId : List UInt32)
  | createKeySession (mediaKeysHandle : ℤ) (sessionType : ProtoKeySessionType) (isLdl : Bool)
  | generateRequest (mediaKeysHandle keySessionId : ℤ) (initDataType : ProtoInitDataType)
      (initData : List UInt32)
  | loadSession (mediaKeysHandle keySessionId : ℤ)
  | updateSession (mediaKeysHandle keySessionId : ℤ) (responseData : List UInt32)
  | setDrmHeader (mediaKeysHandle keySessionId : ℤ) (requestData : List UInt32)
  | closeKeySession (mediaKeysHandle keySessionId : ℤ)
  | removeKeySession (mediaKeysHandle keySessionId : ℤ)
  | deleteDrmStore (mediaKeysHandle : ℤ)
  | deleteKeyStore (mediaKeysHandle : ℤ)
  | getDrmStoreHash (mediaKeysHandle : ℤ)
  | getKeyStoreHash (mediaKeysHandle : ℤ)
  | getLdlSessionsLimit (mediaKeysHandle : ℤ)
  | getLastDrmError (mediaKeysHandle keySessionId : ℤ)
  | getDrmTime (mediaKeysHandle : ℤ)
  | getCdmKeySessionId (mediaKeysHandle keySessionId : ℤ)
  deriving DecidableEq

/-- The responses, with the fields of all of them; `none` is a field that is not set. -/
structure Response where
  errorStatus : Option ProtoMediaKeyErrorStatus := none
  containsKey : Option Bool := none
  keySessionId : Option ℤ := none
  drmStoreHash : List UInt32 := []
  keyStoreHash : List UInt32 := []
  ldlLimit : Option UInt32 := none
  errorCode : Option UInt32 := none
  drmTime : Option UInt64 := none
  cdmKeySessionId : Option String := none
  deriving DecidableEq

/-- Whether the required fields of the response to a call are set. -/
def Response.isInitialized (r : Response) : Command → Bool
  | .containsKey _ _ => r.containsKey.isSome
  | .createKeySession _ _ => r.errorStatus.isSome && r.keySessionId.isSome
  | .getLdlSessionsLimit => r.errorStatus.isSome && r.ldlLimit.isSome
  | .getLastDrmError _ => r.errorStatus.isSome && r.errorCode.isSome
  | .getDrmTime => r.errorStatus.isSome && r.drmTime.isSome
  | .getCdmKeySessionId _ => r.errorStatus.isSome && r.cdmKeySessionId.isSome
  | _ => r.errorStatus.isSome

/-! ## The client -/

namespace Client

def convertMediaKeyErrorStatus : ProtoMediaKeyErrorStatus → MediaKeyErrorStatus
  | .ok => .ok
  | .badSessionId => .badSessionId
  | .notSupported => .notSupported
  | .invalidState => .invalidState
  | .fail => .fail

def protoSessionType : KeySessionType → ProtoKeySessionType
  | .temporary => .temporary
  | .persistentLicence => .persistentLicence
  | .persistentReleaseMessage => .persistentReleaseMessage
  | .unknown => .unknown

def protoInitDataType : InitDataType → ProtoInitDataType
  | .cenc => .cenc
  | .keyIds => .keyIds
  | .webm => .webm
  | .drmHeader => .drmHeader
  | .unknown => .unknown

/-- The request of a call, for the handle of the `MediaKeysIpc`. -/
def request (mediaKeysHandle : ℤ) : Command → Request
  | .containsKey id keyId => .containsKey mediaKeysHandle id (keyId.map UInt8.toUInt32)
  | .createKeySession sessionType isLDL =>
    .createKeySession mediaKeysHandle (protoSessionType sessionType) isLDL
  | .generateRequest id initDataType initData =>
    .generateRequest mediaKeysHandle id (protoInitDataType initDataType)
      (initData.map UInt8.toUInt32)
  | .loadSession id => .loadSession mediaKeysHandle id
  | .updateSession id responseData =>
    .updateSession mediaKeysHandle id (responseData.map UInt8.toUInt32)
  | .setDrmHeader id requestData =>
    .setDrmHeader mediaKeysHandle id (requestData.map UInt8.toUInt32)
  | .closeKeySession id => .closeKeySession mediaKeysHandle id
  | .removeKeySession id => .removeKeySession mediaKeysHandle id
  | .deleteDrmStore => .deleteDrmStore mediaKeysHandle
  | .deleteKeyStore => .deleteKeyStore mediaKeysHandle
  | .getDrmStoreHash => .getDrmStoreHash mediaKeysHandle
  | .getKeyStoreHash => .getKeyStoreHash mediaKeysHandle
  | .getLdlSessionsLimit => .getLdlSessionsLimit mediaKeysHandle
  | .getLastDrmError id => .getLastDrmError mediaKeysHandle id
  | .getDrmTime => .getDrmTime mediaKeysHandle
  | .getCdmKeySessionId id => .getCdmKeySessionId mediaKeysHandle id

/-- The response as it is before the call. -/
def default : Command → Response
  | .containsKey _ _ => { containsKey := some false }
  | _ => { errorStatus := some .fail }

/-- A field that is not set reads as the first value of its enumeration. -/
def errorStatus (r : Response) : ProtoMediaKeyErrorStatus := r.errorStatus.getD .ok

def getMediaKeyErrorStatusFromResponse (failed : Bool) (status : ProtoMediaKeyErrorStatus) :
    MediaKeyErrorStatus :=
  if failed then .fail else convertMediaKeyErrorStatus status

/-- The end of a call, with the controller and the response, and the variable of the caller. Most
outputs are copied by the status in the response, that of `getCdmKeySessionId` always. -/
def finish (failed : Bool) (r : Response) : (c : Command) → c.Out → c.Ret × c.Out
  | .containsKey _ _, out => (if failed then false else r.containsKey.getD false, out)
  | .createKeySession _ _, out =>
    let status := getMediaKeyErrorStatusFromResponse failed (errorStatus r)
    (status, if status = .ok then r.keySessionId.getD 0 else out)
  | .generateRequest _ _ _, out =>
    (getMediaKeyErrorStatusFromResponse failed (errorStatus r), out)
  | .loadSession _, out => (getMediaKeyErrorStatusFromResponse failed (errorStatus r), out)
  | .updateSession _ _, out => (getMediaKeyErrorStatusFromResponse failed (errorStatus r), out)
  | .setDrmHeader _ _, out => (getMediaKeyErrorStatusFromResponse failed (errorStatus r), out)
  | .closeKeySession _, out => (getMediaKeyErrorStatusFromResponse failed (errorStatus r), out)
  | .removeKeySession _, out => (getMediaKeyErrorStatusFromResponse failed (errorStatus r), out)
  | .deleteDrmStore, out => (getMediaKeyErrorStatusFromResponse failed (errorStatus r), out)
  | .deleteKeyStore, out => (getMediaKeyErrorStatusFromResponse failed (errorStatus r), out)
  | .getDrmStoreHash, out =>
    (getMediaKeyErrorStatusFromResponse failed (errorStatus r),
      if errorStatus r = .ok then r.drmStoreHash.map UInt32.toUInt8 else out)
  | .getKeyStoreHash, out =>
    (getMediaKeyErrorStatusFromResponse failed (errorStatus r),
      if errorStatus r = .ok then r.keyStoreHash.map UInt32.toUInt8 else out)
  | .getLdlSessionsLimit, out =>
    (getMediaKeyErrorStatusFromResponse failed (errorStatus r),
      if errorStatus r = .ok then r.ldlLimit.getD 0 else out)
  | .getLastDrmError _, out =>
    (getMediaKeyErrorStatusFromResponse failed (errorStatus r),
      if errorStatus r = .ok then r.errorCode.getD 0 else out)
  | .getDrmTime, out =>
    (getMediaKeyErrorStatusFromResponse failed (errorStatus r),
      if errorStatus r = .ok then r.drmTime.getD 0 else out)
  | .getCdmKeySessionId _, _ =>
    (getMediaKeyErrorStatusFromResponse failed (errorStatus r), r.cdmKeySessionId.getD "")

/-- A call without a channel. -/
def disconnected : (c : Command) → c.Out → c.Ret × c.Out
  | .containsKey _ _, out => (false, out)
  | .createKeySession _ _, out => (.fail, out)
  | .generateRequest _ _ _, out => (.fail, out)
  | .loadSession _, out => (.fail, out)
  | .updateSession _ _, out => (.fail, out)
  | .setDrmHeader _ _, out => (.fail, out)
  | .closeKeySession _, out => (.fail, out)
  | .removeKeySession _, out => (.fail, out)
  | .deleteDrmStore, out => (.fail, out)
  | .deleteKeyStore, out => (.fail, out)
  | .getDrmStoreHash, out => (.fail, out)
  | .getKeyStoreHash, out => (.fail, out)
  | .getLdlSessionsLimit, out => (.fail, out)
  | .getLastDrmError _, out => (.fail, out)
  | .getDrmTime, out => (.fail, out)
  | .getCdmKeySessionId _, out => (.fail, out)

/-- The reply arrives: a response with a required field missing cannot be parsed, and the call has
failed. -/
def parse (c : Command) (r : Response) (out : c.Out) : c.Ret × c.Out :=
  finish (!r.isInitialized c) r c out

/-- No reply arrives. -/
def fail (c : Command) (out : c.Out) : c.Ret × c.Out := finish true (default c) c out

end Client

/-! ## The server -/

namespace Server

def convertMediaKeyErrorStatus : MediaKeyErrorStatus → ProtoMediaKeyErrorStatus
  | .ok => .ok
  | .badSessionId => .badSessionId
  | .notSupported => .notSupported
  | .invalidState => .invalidState
  | .fail => .fail

def convertKeySessionType : ProtoKeySessionType → KeySessionType
  | .temporary => .temporary
  | .persistentLicence => .persistentLicence
  | .persistentReleaseMessage => .persistentReleaseMessage
  | .unknown => .unknown

def covertInitDataType : ProtoInitDataType → InitDataType
  | .cenc => .cenc
  | .keyIds => .keyIds
  | .webm => .webm
  | .drmHeader => .drmHeader
  | .unknown => .unknown

end Server

def Request.mediaKeysHandle : Request → ℤ
  | .containsKey h _ _ | .createKeySession h _ _ | .generateRequest h _ _ _ | .loadSession h _
  | .updateSession h _ _ | .setDrmHeader h _ _ | .closeKeySession h _ | .removeKeySession h _
  | .deleteDrmStore h | .deleteKeyStore h | .getDrmStoreHash h | .getKeyStoreHash h
  | .getLdlSessionsLimit h | .getLastDrmError h _ | .getDrmTime h | .getCdmKeySessionId h _ => h

/-- What the service calls for a request. -/
def Request.command : Request → Command
  | .containsKey _ id keyId => .containsKey id (keyId.map UInt32.toUInt8)
  | .createKeySession _ sessionType isLdl =>
    .createKeySession (Server.convertKeySessionType sessionType) isLdl
  | .generateRequest _ id initDataType initData =>
    .generateRequest id (Server.covertInitDataType initDataType) (initData.map UInt32.toUInt8)
  | .loadSession _ id => .loadSession id
  | .updateSession _ id responseData => .updateSession id (responseData.map UInt32.toUInt8)
  | .setDrmHeader _ id requestData => .setDrmHeader id (requestData.map UInt32.toUInt8)
  | .closeKeySession _ id => .closeKeySession id
  | .removeKeySession _ id => .removeKeySession id
  | .deleteDrmStore _ => .deleteDrmStore
  | .deleteKeyStore _ => .deleteKeyStore
  | .getDrmStoreHash _ => .getDrmStoreHash
  | .getKeyStoreHash _ => .getKeyStoreHash
  | .getLdlSessionsLimit _ => .getLdlSessionsLimit
  | .getLastDrmError _ id => .getLastDrmError id
  | .getDrmTime _ => .getDrmTime
  | .getCdmKeySessionId _ id => .getCdmKeySessionId id

/-- The first value for the status OK, and the second for any other. -/
def whenOk {α : Type} (status : MediaKeyErrorStatus) (a b : α) : α := if status = .ok then a else b

/-- The response to a call that has returned; a variable of the service that was not written has its
first value. The id is only set for a session that was created. -/
def Server.respond : (c : Command) → c.Ret → Option c.Out → Response
  | .containsKey _ _, result, _ => { containsKey := some result }
  | .createKeySession _ _, status, out =>
    { errorStatus := some (convertMediaKeyErrorStatus status),
      keySessionId := whenOk status out none }
  | .generateRequest _ _ _, status, _ =>
    { errorStatus := some (convertMediaKeyErrorStatus status) }
  | .loadSession _, status, _ => { errorStatus := some (convertMediaKeyErrorStatus status) }
  | .updateSession _ _, status, _ => { errorStatus := some (convertMediaKeyErrorStatus status) }
  | .setDrmHeader _ _, status, _ => { errorStatus := some (convertMediaKeyErrorStatus status) }
  | .closeKeySession _, status, _ => { errorStatus := some (convertMediaKeyErrorStatus status) }
  | .removeKeySession _, status, _ => { errorStatus := some (convertMediaKeyErrorStatus status) }
  | .deleteDrmStore, status, _ => { errorStatus := some (convertMediaKeyErrorStatus status) }
  | .deleteKeyStore, status, _ => { errorStatus := some (convertMediaKeyErrorStatus status) }
  | .getDrmStoreHash, status, out =>
    { errorStatus := some (convertMediaKeyErrorStatus status),
      drmStoreHash := (Option.getD (α := List UInt8) out []).map UInt8.toUInt32 }
  | .getKeyStoreHash, status, out =>
    { errorStatus := some (convertMediaKeyErrorStatus status),
      keyStoreHash := (Option.getD (α := List UInt8) out []).map UInt8.toUInt32 }
  | .getLdlSessionsLimit, status, out =>
    { errorStatus := some (convertMediaKeyErrorStatus status),
      ldlLimit := some (Option.getD (α := UInt32) out 0) }
  | .getLastDrmError _, status, out =>
    { errorStatus := some (convertMediaKeyErrorStatus status),
      errorCode := some (Option.getD (α := UInt32) out 0) }
  | .getDrmTime, status, out =>
    { errorStatus := some (convertMediaKeyErrorStatus status),
      drmTime := some (Option.getD (α := UInt64) out 0) }
  | .getCdmKeySessionId _, status, out =>
    { errorStatus := some (convertMediaKeyErrorStatus status),
      cdmKeySessionId := some (Option.getD (α := String) out "") }

/-! ## A call on its way -/

theorem toUInt8_toUInt32_map (l : List UInt8) :
    (l.map UInt8.toUInt32).map UInt32.toUInt8 = l := by
  rw [List.map_map]
  exact (List.map_congr_left fun b _ => UInt8.toUInt8_toUInt32 b).trans (List.map_id l)

theorem convertKeySessionType_proto (sessionType : KeySessionType) :
    Server.convertKeySessionType (Client.protoSessionType sessionType) = sessionType := by
  cases sessionType <;> rfl

theorem covertInitDataType_proto (initDataType : InitDataType) :
    Server.covertInitDataType (Client.protoInitDataType initDataType) = initDataType := by
  cases initDataType <;> rfl

theorem convertMediaKeyErrorStatus_proto (status : MediaKeyErrorStatus) :
    Client.convertMediaKeyErrorStatus (Server.convertMediaKeyErrorStatus status) = status := by
  cases status <;> rfl

/-- **The request of a call is understood as the call.** -/
theorem command_request (h : ℤ) (c : Command) :
    (Client.request h c).mediaKeysHandle = h ∧ (Client.request h c).command = c := by
  cases c with
  | createKeySession sessionType isLDL =>
    refine ⟨rfl, ?_⟩
    show Command.createKeySession _ _ = _
    rw [convertKeySessionType_proto]
  | generateRequest id initDataType initData =>
    refine ⟨rfl, ?_⟩
    show Command.generateRequest _ _ _ = _
    rw [covertInitDataType_proto, toUInt8_toUInt32_map]
  | containsKey id keyId => exact ⟨rfl, congrArg _ (toUInt8_toUInt32_map keyId)⟩
  | updateSession id data => exact ⟨rfl, congrArg _ (toUInt8_toUInt32_map data)⟩
  | setDrmHeader id data => exact ⟨rfl, congrArg _ (toUInt8_toUInt32_map data)⟩
  | _ => exact ⟨rfl, rfl⟩

/-- What the caller gets for what the object returned: a session that could not be created is always
reported as `FAIL`, and outputs come for the status OK only, but for that of
`getCdmKeySessionId`. -/
def shown : (c : Command) → c.Ret → Option c.Out → c.Out → c.Ret × c.Out
  | .createKeySession _ _, status, written, out =>
    (whenOk status .ok .fail, whenOk status (Option.getD (α := ℤ) written 0) out)
  | .getDrmStoreHash, status, written, out =>
    (status, whenOk status (Option.getD (α := List UInt8) written []) out)
  | .getKeyStoreHash, status, written, out =>
    (status, whenOk status (Option.getD (α := List UInt8) written []) out)
  | .getLdlSessionsLimit, status, written, out =>
    (status, whenOk status (Option.getD (α := UInt32) written 0) out)
  | .getLastDrmError _, status, written, out =>
    (status, whenOk status (Option.getD (α := UInt32) written 0) out)
  | .getDrmTime, status, written, out =>
    (status, whenOk status (Option.getD (α := UInt64) written 0) out)
  | .getCdmKeySessionId _, status, written, _ => (status, Option.getD (α := String) written "")
  | .containsKey _ _, result, _, out => (result, out)
  | .generateRequest _ _ _, status, _, out => (status, out)
  | .loadSession _, status, _, out => (status, out)
  | .updateSession _ _, status, _, out => (status, out)
  | .setDrmHeader _ _, status, _, out => (status, out)
  | .closeKeySession _, status, _, out => (status, out)
  | .removeKeySession _, status, _, out => (status, out)
  | .deleteDrmStore, status, _, out => (status, out)
  | .deleteKeyStore, status, _, out => (status, out)

theorem status_back (status : MediaKeyErrorStatus) {α : Type} (out : α) :
    (Client.getMediaKeyErrorStatusFromResponse false (Server.convertMediaKeyErrorStatus status),
      out) = (status, out) :=
  congrArg (·, out) (convertMediaKeyErrorStatus_proto status)

/-- An output that is copied for the status OK. -/
theorem output_back (status : MediaKeyErrorStatus) {α : Type} {a a' : α} (h : a = a') (out : α) :
    (Client.getMediaKeyErrorStatusFromResponse false (Server.convertMediaKeyErrorStatus status),
      if Server.convertMediaKeyErrorStatus status = .ok then a else out) =
    (status, whenOk status a' out) := by
  rw [h]
  cases status <;> rfl

theorem created_back (status : MediaKeyErrorStatus) {sessionType : KeySessionType} {isLDL : Bool}
    {written : Option ℤ} (hid : status = .ok → written ≠ none) (out : ℤ) :
    Client.parse (.createKeySession sessionType isLDL)
      (Server.respond (.createKeySession sessionType isLDL) status written) out =
        (whenOk status .ok .fail, whenOk status (written.getD 0) out) := by
  by_cases hok : status = .ok
  · obtain ⟨id, rfl⟩ := Option.ne_none_iff_exists'.mp (hid hok)
    rw [hok]
    rfl
  · -- the id is not set, so the response cannot be parsed
    cases status with
    | ok => exact absurd rfl hok
    | _ => rfl

/-- **What becomes of what an object returns.** -/
theorem finish_parse {c : Command} {ret : c.Ret} {written : Option c.Out}
    (hid : c.HasId ret written) (out : c.Out) :
    Client.parse c (Server.respond c ret written) out = shown c ret written out := by
  cases c with
  | createKeySession sessionType isLDL => exact created_back ret hid out
  | containsKey id keyId => rfl
  | getDrmStoreHash => exact output_back ret (toUInt8_toUInt32_map _) out
  | getKeyStoreHash => exact output_back ret (toUInt8_toUInt32_map _) out
  | getLdlSessionsLimit => exact output_back ret rfl out
  | getLastDrmError id => exact output_back ret rfl out
  | getDrmTime => exact output_back ret rfl out
  | getCdmKeySessionId id => exact status_back ret _
  | _ => exact status_back ret out

/-- An output that comes as the object leaves it: for the status OK, if it was written or is what it
would be without that; else, if the object leaves it alone. -/
def Copied {α : Type} (status : MediaKeyErrorStatus) (written : Option α) (first out : α) : Prop :=
  (status = .ok → written = none → out = first) ∧ (status ≠ .ok → written.getD out = out)

/-- Whether a call returns what the object returns, with the variable of the caller. -/
def Transparent : (c : Command) → c.Ret → Option c.Out → c.Out → Prop
  | .createKeySession _ _, status, written, out =>
    (status : MediaKeyErrorStatus) ≠ .ok →
      (status : MediaKeyErrorStatus) = .fail ∧ Option.getD (α := ℤ) written out = out
  | .getDrmStoreHash, status, written, out => Copied (α := List UInt8) status written [] out
  | .getKeyStoreHash, status, written, out => Copied (α := List UInt8) status written [] out
  | .getLdlSessionsLimit, status, written, out => Copied (α := UInt32) status written 0 out
  | .getLastDrmError _, status, written, out => Copied (α := UInt32) status written 0 out
  | .getDrmTime, status, written, out => Copied (α := UInt64) status written 0 out
  | .getCdmKeySessionId _, _, written, out => (written : Option String) = none → out = ""
  | _, _, _, _ => True

theorem copied_iff {α : Type} (status : MediaKeyErrorStatus) (written : Option α) (first out : α) :
    (status, whenOk status (written.getD first) out) = (status, written.getD out) ↔
      Copied status written first out := by
  unfold whenOk Copied
  rw [Prod.mk.injEq, and_iff_right rfl]
  by_cases hok : status = .ok
  · rw [if_pos hok]
    cases written with
    | none => simp [hok, eq_comm]
    | some a => simp [hok]
  · rw [if_neg hok]
    simp [hok, eq_comm]

theorem created_iff (status : MediaKeyErrorStatus) {written : Option ℤ} (out : ℤ)
    (hid : status = .ok → written ≠ none) :
    (whenOk status MediaKeyErrorStatus.ok .fail, whenOk status (written.getD 0) out) =
      (status, written.getD out) ↔ (status ≠ .ok → status = .fail ∧ written.getD out = out) := by
  unfold whenOk
  rw [Prod.mk.injEq]
  by_cases hok : status = .ok
  · obtain ⟨id, rfl⟩ := Option.ne_none_iff_exists'.mp (hid hok)
    simp [hok]
  · rw [if_neg hok, if_neg hok]
    simp only [ne_eq, hok, not_false_eq_true, true_imp_iff]
    exact and_congr eq_comm eq_comm

theorem cleared_iff (status : MediaKeyErrorStatus) (written : Option String) (out : String) :
    (status, written.getD "") = (status, written.getD out) ↔ (written = none → out = "") := by
  cases written with
  | none => simp [eq_comm]
  | some text => simp

/-- **When a call that is answered returns what the object itself would return.** -/
theorem transparent_iff {c : Command} {ret : c.Ret} {written : Option c.Out}
    (hid : c.HasId ret written) (out : c.Out) :
    Client.parse c (Server.respond c ret written) out = (ret, written.getD out) ↔
      Transparent c ret written out := by
  rw [finish_parse hid]
  cases c with
  | createKeySession sessionType isLDL => exact created_iff ret out hid
  | getDrmStoreHash => exact copied_iff (α := List UInt8) ret written [] out
  | getKeyStoreHash => exact copied_iff (α := List UInt8) ret written [] out
  | getLdlSessionsLimit => exact copied_iff (α := UInt32) ret written 0 out
  | getLastDrmError id => exact copied_iff (α := UInt32) ret written 0 out
  | getDrmTime => exact copied_iff (α := UInt64) ret written 0 out
  | getCdmKeySessionId id => exact cleared_iff ret written out
  | _ => exact iff_of_true (Prod.ext rfl (Subsingleton.elim (α := Unit) _ _)) trivial

/-- A session that is not supported is reported as a failure. -/
theorem transparent_iff_notSupported :
    Client.parse (.createKeySession .temporary false)
      (Server.respond (.createKeySession .temporary false) MediaKeyErrorStatus.notSupported none)
      (7 : ℤ) ≠ (MediaKeyErrorStatus.notSupported, (7 : ℤ)) := by
  have hid : Command.HasId (.createKeySession .temporary false) MediaKeyErrorStatus.notSupported
      none := nofun
  refine (transparent_iff hid (7 : ℤ)).not.mpr fun htransparent => ?_
  exact MediaKeyErrorStatus.noConfusion (htransparent nofun).1

/-! ## The service -/

/-- `CdmService`, with the clients of the key sessions by the handles that these know. -/
structure CdmService (M : Type) where
  isActive : Bool
  mediaKeys : OMap ℤ M
  mediaKeysClients : OMap ℤ ℤ

def Command.failed : (c : Command) → c.Ret
  | .containsKey _ _ => false
  | .createKeySession _ _ => .fail
  | .generateRequest _ _ _ => .fail
  | .loadSession _ => .fail
  | .updateSession _ _ => .fail
  | .setDrmHeader _ _ => .fail
  | .closeKeySession _ => .fail
  | .removeKeySession _ => .fail
  | .deleteDrmStore => .fail
  | .deleteKeyStore => .fail
  | .getDrmStoreHash => .fail
  | .getKeyStoreHash => .fail
  | .getLdlSessionsLimit => .fail
  | .getLastDrmError _ => .fail
  | .getDrmTime => .fail
  | .getCdmKeySessionId _ => .fail

section Service

variable {M : Type} (o : IMediaKeys M)

def removeKeySessionInternal (s : CdmService M) (h keySessionId : ℤ) :
    MediaKeyErrorStatus × CdmService M :=
  match s.mediaKeys.find? h with
  | none => (.fail, s)
  | some m =>
    let done := o.run m (.removeKeySession keySessionId)
    (done.1,
      { s with
        mediaKeys := s.mediaKeys.insert h done.2.2
        mediaKeysClients :=
          whenOk done.1 (s.mediaKeysClients.erase keySessionId) s.mediaKeysClients })

/-- What `createKeySession` does with the session that the object has made: it is removed if a
client is registered for its id. -/
def registerClient (s : CdmService M) (h : ℤ) (status : MediaKeyErrorStatus) (written : Option ℤ) :
    MediaKeyErrorStatus × Option ℤ × CdmService M :=
  if status = .ok then
    let keySessionId := written.getD 0
    if (s.mediaKeysClients.find? keySessionId).isSome then
      (.fail, written, (removeKeySessionInternal o s h keySessionId).2)
    else
      (status, written,
        { s with mediaKeysClients := s.mediaKeysClients.emplace keySessionId h })
  else (status, written, s)

/-- The functions of `CdmService` that take a handle. -/
def CdmService.call (s : CdmService M) (h : ℤ) (c : Command) :
    c.Ret × Option c.Out × CdmService M :=
  match s.mediaKeys.find? h with
  | none => (c.failed, none, s)
  | some m =>
    match c with
    | .createKeySession sessionType isLDL =>
      let done := o.run m (.createKeySession sessionType isLDL)
      registerClient o { s with mediaKeys := s.mediaKeys.insert h done.2.2 } h done.1 done.2.1
    | .removeKeySession keySessionId =>
      let done := removeKeySessionInternal o s h keySessionId
      (done.1, none, done.2)
    | c =>
      let done := o.run m c
      (done.1, done.2.1, { s with mediaKeys := s.mediaKeys.insert h done.2.2 })

def CdmService.createMediaKeys (s : CdmService M) (h : ℤ) (created : Option M) :
    Bool × CdmService M :=
  if s.isActive then
    if (s.mediaKeys.find? h).isSome then (false, s)
    else
      match created with
      | none => (false, s)
      | some m => (true, { s with mediaKeys := s.mediaKeys.insert h m })
  else (false, s)

def CdmService.destroyMediaKeys (s : CdmService M) (h : ℤ) : CdmService M :=
  { s with mediaKeys := s.mediaKeys.erase h }

def CdmService.switchToActive (s : CdmService M) : CdmService M := { s with isActive := true }

def CdmService.switchToInactive (s : CdmService M) : CdmService M :=
  { s with isActive := false, mediaKeys := OMap.empty }

/-- `MediaKeysModuleService`, for one request. -/
def serve (s : CdmService M) (q : Request) : Response × CdmService M :=
  let done := s.call o q.mediaKeysHandle q.command
  (Server.respond q.command done.1 done.2.1, done.2.2)

/-! ## Clients and service -/

/-- How far a call gets: there is no channel, the request does not arrive, the reply does not
arrive, or it does. -/
inductive Way
  | disconnected
  | lost
  | unanswered
  | answered
  deriving DecidableEq

/-- What a `MediaKeysIpc` has returned. -/
structure Seen where
  mediaKeysHandle : ℤ
  command : Command
  ret : command.Ret
  out : command.Out

/-- The service, with the counter of `generateHandle`, and what the clients have seen. -/
structure State (M : Type) where
  service : CdmService M
  mediaKeysHandle : ℕ
  seen : List Seen

inductive Act (M : Type)
  | createMediaKeys (created : Option M)
  | destroyMediaKeys (mediaKeysHandle : ℤ)
  | switchToActive
  | switchToInactive
  | call (mediaKeysHandle : ℤ) (command : Command) (out : command.Out) (way : Way)

/-- A call of the `MediaKeysIpc` with a handle. -/
def callOf (s : CdmService M) (h : ℤ) (c : Command) (out : c.Out) :
    Way → (c.Ret × c.Out) × CdmService M
  | .disconnected => (Client.disconnected c out, s)
  | .lost => (Client.fail c out, s)
  | .unanswered => (Client.fail c out, (serve o s (Client.request h c)).2)
  | .answered =>
    let done := serve o s (Client.request h c)
    (Client.parse c done.1 out, done.2)

def step (s : State M) : Act M → Option (State M)
  | .createMediaKeys created =>
    some { s with
      service := (s.service.createMediaKeys s.mediaKeysHandle created).2
      mediaKeysHandle := s.mediaKeysHandle + 1 }
  | .destroyMediaKeys h => some { s with service := s.service.destroyMediaKeys h }
  | .switchToActive => some { s with service := s.service.switchToActive }
  | .switchToInactive => some { s with service := s.service.switchToInactive }
  | .call h c out way =>
    let done := callOf o s.service h c out way
    some { s with
      service := done.2
      seen := s.seen ++ [⟨h, c, done.1.1, done.1.2⟩] }

/-- The ids of the key sessions of all objects are issued in one sequence, so none is that of a
session whose client is registered. -/
def Fresh (s : State M) : Act M → Prop
  | .call h (.createKeySession sessionType isLDL) _ _ =>
    ∀ m, s.service.mediaKeys.find? h = some m →
      ∀ id, (o.run m (.createKeySession sessionType isLDL)).2.1 = some id →
        s.service.mediaKeysClients.find? id = none
  | _ => True

/-! ## The object by itself -/

/-- A call to be made. -/
structure Call where
  command : Command
  out : command.Out
  way : Way

/-- What the `MediaKeysIpc` for an object returns, and the object then. -/
def standIn (h : ℤ) (m : M) (call : Call) : Seen × M :=
  let done := o.run m call.command
  match call.way with
  | .disconnected =>
    let result := Client.disconnected call.command call.out
    (⟨h, call.command, result.1, result.2⟩, m)
  | .lost =>
    let result := Client.fail call.command call.out
    (⟨h, call.command, result.1, result.2⟩, m)
  | .unanswered =>
    let result := Client.fail call.command call.out
    (⟨h, call.command, result.1, result.2⟩, done.2.2)
  | .answered =>
    let result := shown call.command done.1 done.2.1 call.out
    (⟨h, call.command, result.1, result.2⟩, done.2.2)

def standsIn (h : ℤ) : M → List Call → List Seen × M
  | m, [] => ([], m)
  | m, call :: calls =>
    let first := standIn o h m call
    let rest := standsIn h first.2 calls
    (first.1 :: rest.1, rest.2)

/-- The calls of the `MediaKeysIpc` with a handle. -/
def callsOf (h : ℤ) : List (Act M) → List Call
  | [] => []
  | .call h' c out way :: as => if h' = h then ⟨c, out, way⟩ :: callsOf h as else callsOf h as
  | _ :: as => callsOf h as

/-- The object with the handle is not destroyed. -/
def Act.spares (h : ℤ) : Act M → Prop
  | .destroyMediaKeys h' => h' ≠ h
  | .switchToInactive => False
  | _ => True

variable {o} {s t : CdmService M} {h : ℤ} {m : M}

/-! ## What a request does to the objects -/

theorem serve_eq (s : CdmService M) (h : ℤ) (c : Command) :
    serve o s (Client.request h c) =
      (Server.respond c (s.call o h c).1 (s.call o h c).2.1, (s.call o h c).2.2) := by
  unfold serve
  rw [(command_request h c).1, (command_request h c).2]

theorem removeKeySessionInternal_mediaKeys (hm : s.mediaKeys.find? h = some m) (id : ℤ) :
    (removeKeySessionInternal o s h id).1 = (o.run m (.removeKeySession id)).1 ∧
    (removeKeySessionInternal o s h id).2.mediaKeys =
      s.mediaKeys.insert h (o.run m (.removeKeySession id)).2.2 := by
  unfold removeKeySessionInternal
  rw [hm]
  exact ⟨rfl, rfl⟩

/-- The client of a session with a new id is registered. -/
theorem registerClient_of_fresh (s : CdmService M) (h : ℤ) {status : MediaKeyErrorStatus}
    {written : Option ℤ} (hid : status = .ok → written ≠ none)
    (hfresh : ∀ id, written = some id → s.mediaKeysClients.find? id = none) :
    (registerClient o s h status written).1 = status ∧
    (registerClient o s h status written).2.1 = written ∧
    (registerClient o s h status written).2.2.mediaKeys = s.mediaKeys := by
  unfold registerClient
  by_cases hok : status = .ok
  · obtain ⟨id, hwritten⟩ := Option.ne_none_iff_exists'.mp (hid hok)
    have hnone := hfresh id hwritten
    rw [if_pos hok, hwritten]
    dsimp only [Option.getD_some]
    rw [hnone, if_neg Bool.noConfusion]
    exact ⟨rfl, rfl, rfl⟩
  · rw [if_neg hok]
    exact ⟨rfl, rfl, rfl⟩

/-- **A request for an object is a call of the object.** -/
theorem serve_request {c : Command} (hm : s.mediaKeys.find? h = some m)
    (hfresh : ∀ sessionType isLDL, c = .createKeySession sessionType isLDL →
      ∀ id, (o.run m (.createKeySession sessionType isLDL)).2.1 = some id →
        s.mediaKeysClients.find? id = none) :
    (serve o s (Client.request h c)).1 = Server.respond c (o.run m c).1 (o.run m c).2.1 ∧
    (serve o s (Client.request h c)).2.mediaKeys = s.mediaKeys.insert h (o.run m c).2.2 := by
  rw [serve_eq]
  unfold CdmService.call
  rw [hm]
  cases c with
  | createKeySession sessionType isLDL =>
    obtain ⟨hstatus, hwritten, hmediaKeys⟩ := registerClient_of_fresh (o := o)
      ⟨s.isActive, s.mediaKeys.insert h (o.run m (.createKeySession sessionType isLDL)).2.2,
        s.mediaKeysClients⟩ h (o.hasId m (.createKeySession sessionType isLDL))
      (hfresh sessionType isLDL rfl)
    refine ⟨?_, hmediaKeys⟩
    dsimp only
    rw [hstatus, hwritten]
  | removeKeySession id =>
    obtain ⟨hstatus, hmediaKeys⟩ := removeKeySessionInternal_mediaKeys (o := o) hm id
    refine ⟨?_, hmediaKeys⟩
    dsimp only
    rw [hstatus]
    rfl
  | _ => exact ⟨rfl, rfl⟩

/-- A request for one object leaves the others as they are. -/
theorem serve_other {h' : ℤ} (hne : h' ≠ h) (c : Command) :
    (serve o s (Client.request h' c)).2.mediaKeys.find? h = s.mediaKeys.find? h := by
  have hinsert : ∀ (r : OMap ℤ M) (m' : M), (r.insert h' m').find? h = r.find? h := fun r m' => by
    rw [OMap.find?_insert, if_neg hne.symm]
  have hremove : ∀ (r : CdmService M) (id : ℤ),
      (removeKeySessionInternal o r h' id).2.mediaKeys.find? h = r.mediaKeys.find? h := by
    intro r id
    unfold removeKeySessionInternal
    cases hm' : r.mediaKeys.find? h' with
    | none => rfl
    | some m' => exact hinsert _ _
  rw [serve_eq]
  unfold CdmService.call
  cases hm' : s.mediaKeys.find? h' with
  | none => rfl
  | some m' =>
    cases c with
    | createKeySession sessionType isLDL =>
      show (registerClient o _ h' _ _).2.2.mediaKeys.find? h = _
      unfold registerClient
      split_ifs
      · dsimp only
        split_ifs
        · exact (hremove _ _).trans (hinsert _ _)
        · exact hinsert _ _
      · exact hinsert _ _
    | removeKeySession id => exact hremove s id
    | _ => exact hinsert _ _

theorem createMediaKeys_other (hm : s.mediaKeys.find? h = some m) (h' : ℤ) (created : Option M) :
    (s.createMediaKeys h' created).2.mediaKeys.find? h = some m := by
  unfold CdmService.createMediaKeys
  split_ifs with _ hfound
  · exact hm
  · cases created with
    | none => exact hm
    | some m' =>
      have hne : h ≠ h' := fun heq => hfound (by rw [← heq, hm]; rfl)
      exact (OMap.find?_insert ..).trans ((if_neg hne).trans hm)
  · exact hm

/-! ## Runs -/

/-- A call of the `MediaKeysIpc` that stands for the object. -/
theorem callOf_standIn {c : Command} (hm : s.mediaKeys.find? h = some m)
    (hfresh : ∀ sessionType isLDL, c = .createKeySession sessionType isLDL →
      ∀ id, (o.run m (.createKeySession sessionType isLDL)).2.1 = some id →
        s.mediaKeysClients.find? id = none) (out : c.Out) (way : Way) :
    (⟨h, c, (callOf o s h c out way).1.1, (callOf o s h c out way).1.2⟩ : Seen) =
      (standIn o h m ⟨c, out, way⟩).1 ∧
    (callOf o s h c out way).2.mediaKeys.find? h = some (standIn o h m ⟨c, out, way⟩).2 := by
  obtain ⟨hresponse, hmediaKeys⟩ := serve_request hm hfresh
  have hthen : (serve o s (Client.request h c)).2.mediaKeys.find? h = some (o.run m c).2.2 := by
    rw [hmediaKeys, OMap.find?_insert, if_pos rfl]
  cases way with
  | disconnected => exact ⟨rfl, hm⟩
  | lost => exact ⟨rfl, hm⟩
  | unanswered => exact ⟨rfl, hthen⟩
  | answered =>
    refine ⟨?_, hthen⟩
    show (⟨h, c, (Client.parse c (serve o s (Client.request h c)).1 out).1,
      (Client.parse c (serve o s (Client.request h c)).1 out).2⟩ : Seen) = _
    rw [hresponse, finish_parse (o.hasId m c)]
    rfl

theorem callOf_other {h' : ℤ} (hne : h' ≠ h) (c : Command) (out : c.Out) (way : Way) :
    (callOf o s h' c out way).2.mediaKeys.find? h = s.mediaKeys.find? h := by
  cases way with
  | disconnected => rfl
  | lost => rfl
  | unanswered => exact serve_other hne c
  | answered => exact serve_other hne c

/-- What the `MediaKeysIpc` with a handle has returned. -/
def seenBy (h : ℤ) (seen : List Seen) : List Seen :=
  seen.filter fun e => decide (e.mediaKeysHandle = h)

theorem standIn_mediaKeysHandle (h : ℤ) (m : M) (call : Call) :
    (standIn o h m call).1.mediaKeysHandle = h := by
  obtain ⟨c, out, way⟩ := call
  cases way <;> rfl

/-- **A `MediaKeysIpc` stands for its object**: whatever other clients do in between and whichever
calls are lost, it returns what the object by itself gives, and the object is what the calls that
arrived have made of it. -/
theorem stands_for {s t : State M} {as : List (Act M)} (hrun : Run (step o) (Fresh o) s as t)
    (hm : s.service.mediaKeys.find? h = some m) (hspares : ∀ a ∈ as, a.spares h) :
    t.service.mediaKeys.find? h = some (standsIn o h m (callsOf h as)).2 ∧
    seenBy h t.seen = seenBy h s.seen ++ (standsIn o h m (callsOf h as)).1 := by
  induction hrun generalizing m with
  | nil s => exact ⟨hm, (List.append_nil _).symm⟩
  | @cons s s' t a as hfresh hstep rest ih =>
    have hrest : ∀ a ∈ as, a.spares h := fun a ha => hspares a (List.mem_cons_of_mem _ ha)
    have hfirst := hspares a (List.mem_cons_self ..)
    cases a with
    | call h' c out way =>
      cases hstep
      by_cases heq : h' = h
      · subst heq
        have hfresh' : ∀ sessionType isLDL, c = .createKeySession sessionType isLDL →
            ∀ id, (o.run m (.createKeySession sessionType isLDL)).2.1 = some id →
              s.service.mediaKeysClients.find? id = none := by
          intro sessionType isLDL hc
          subst hc
          exact hfresh m hm
        obtain ⟨hseen, hthen⟩ := callOf_standIn hm hfresh' out way
        obtain ⟨ihm, ihseen⟩ := ih hthen hrest
        rw [callsOf, if_pos rfl]
        refine ⟨ihm, ?_⟩
        rw [ihseen]
        show seenBy h' (s.seen ++ [_]) ++ _ = _
        rw [hseen]
        unfold seenBy
        rw [List.filter_append, List.filter_cons_of_pos (by simp [standIn_mediaKeysHandle]),
          List.append_assoc]
        rfl
      · obtain ⟨ihm, ihseen⟩ := ih ((callOf_other heq c out way).trans hm) hrest
        rw [callsOf, if_neg heq]
        refine ⟨ihm, ?_⟩
        rw [ihseen]
        show seenBy h (s.seen ++ [_]) ++ _ = _
        unfold seenBy
        rw [List.filter_append, List.filter_cons_of_neg (by simpa using heq), List.filter_nil,
          List.append_nil]
    | createMediaKeys created =>
      cases hstep
      exact ih (createMediaKeys_other hm _ created) hrest
    | destroyMediaKeys h' =>
      cases hstep
      refine ih ?_ hrest
      exact (OMap.find?_erase ..).trans ((if_neg (Ne.symm hfirst)).trans hm)
    | switchToActive =>
      cases hstep
      exact ih hm hrest
    | switchToInactive => exact absurd hfirst id

end Service

/-- An object that only makes key sessions. -/
def makingSessions : IMediaKeys ℕ where
  run
    | n, .createKeySession _ _ => (.ok, some (n : ℤ), n + 1)
    | n, c => (c.failed, none, n)
  hasId := fun n c => by
    cases c with
    | createKeySession sessionType isLDL => exact fun _ => Option.some_ne_none _
    | _ => trivial

/-- Two objects, whose clients make sessions; one reply is lost. -/
def twoClients : List (Act ℕ) :=
  [.call 0 (.createKeySession .temporary false) (-1 : ℤ) .answered,
    .call 1 (.createKeySession .temporary true) (-1 : ℤ) .answered,
    .call 0 (.createKeySession .temporary false) (-1 : ℤ) .unanswered,
    .call 0 (.createKeySession .temporary false) (-1 : ℤ) .answered]

theorem stands_for_twoClients : ∃ t,
    Run (step makingSessions) (Fresh makingSessions)
      ⟨⟨true, (OMap.empty.insert 0 0).insert 1 10, OMap.empty⟩, 2, []⟩ twoClients t ∧
    seenBy 0 t.seen = [⟨0, .createKeySession .temporary false, MediaKeyErrorStatus.ok, (0 : ℤ)⟩,
      ⟨0, .createKeySession .temporary false, MediaKeyErrorStatus.fail, (-1 : ℤ)⟩,
      ⟨0, .createKeySession .temporary false, MediaKeyErrorStatus.ok, (2 : ℤ)⟩] := by
  have hfresh : ∀ (s : State ℕ) (h : ℤ) (n : ℕ) (way : Way) (isLDL : Bool) (out : ℤ),
      s.service.mediaKeys.find? h = some n → s.service.mediaKeysClients.find? n = none →
      Fresh makingSessions s (.call h (.createKeySession .temporary isLDL) out way) := by
    intro s h n way isLDL out hm hnone m hm' id hid
    rw [hm] at hm'
    cases hm'
    cases hid
    exact hnone
  have hrun : Run (step makingSessions) (Fresh makingSessions)
      ⟨⟨true, (OMap.empty.insert 0 0).insert 1 10, OMap.empty⟩, 2, []⟩ twoClients _ :=
    Run.cons (hfresh _ 0 0 _ _ _ rfl rfl) rfl (Run.cons (hfresh _ 1 10 _ _ _ rfl rfl) rfl
      (Run.cons (hfresh _ 0 1 _ _ _ rfl rfl) rfl (Run.cons (hfresh _ 0 2 _ _ _ rfl rfl) rfl
        (Run.nil _))))
  have hstands := stands_for (h := 0) (m := 0) hrun rfl fun a ha => by
    simp only [twoClients, List.mem_cons, List.not_mem_nil, or_false] at ha
    rcases ha with rfl | rfl | rfl | rfl <;> trivial
  exact ⟨_, hrun, hstands.2⟩

end Rialto.Link.MediaKeys

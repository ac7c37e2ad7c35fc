import Rialto.Lib.Runs

/-! # What OCDM supplies and what is delivered

A key session hands the challenges and the key statuses of OCDM to the client, through tasks of the
main thread. A challenge that is fetched goes through a parameter of 16 bits; the hashes are written
into a vector that has room but no elements. The tasks of a session that is closed are ignored.

* `World`: a session with the queue of the main thread, what OCDM supplied and what was delivered.
* `expected`: the messages that the items of OCDM are to become.
* `Faithful`: items are waiting or delivered as supplied, and replies have the hashes.
* `faithful_iff`: a run is faithful exactly when no challenge that is fetched has `2 ^ 16` bytes or
  more, no hash has a byte and nothing waits for a session when it is closed. -/

namespace Rialto.Keys.CdmData

open Rialto.Lib.Runs

inductive KeyStatus
  | usable
  | expired
  | outputRestricted
  | pending
  | internalError
  | released
  deriving DecidableEq

abbrev Bytes := List UInt8

/-! ## The session -/

inductive Task
  | getChallenge
  | processChallenge (url : String) (challenge : Bytes)
  | keyUpdated (keyId : Bytes)
  | allKeysUpdated

/-- A call of the media keys client. -/
inductive Message
  | onLicenseRequest (licenseRequestMessage : Bytes) (url : String)
  | onLicenseRenewal (licenseRenewalMessage : Bytes)
  | onKeyStatusesChanged (keyStatuses : List (Bytes × KeyStatus))
  deriving DecidableEq

structure MediaKeySession where
  isNetflixKeySystem : Bool
  isSessionConstructed : Bool
  licenseRequested : Bool
  updatedKeyStatuses : List (Bytes × KeyStatus)

/-- What OCDM supplies: in a callback, or when a challenge is fetched. -/
inductive Item
  | challenge (bytes : Bytes)
  | keyUpdated (keyId : Bytes)
  | allKeysUpdated

/-- An item whose task has run, a key with the status that OCDM gave for it then. -/
inductive Done
  | challenge (bytes : Bytes)
  | keyUpdated (keyId : Bytes) (status : KeyStatus)
  | allKeysUpdated

/-- The session until it is destroyed, the queue of the main thread and whether the client exists.
Recorded are the calls of the client, the items supplied and done, and the hashes supplied and
replied. -/
structure World where
  session : Option MediaKeySession
  mainThread : List Task
  client : Bool
  delivered : List Message
  supplied : List Item
  done : List Done
  hashes : List Bytes
  replies : List Bytes

def init (isNetflixKeySystem : Bool) : World :=
  ⟨some ⟨isNetflixKeySystem, false, false, []⟩, [], true, [], [], [], [], []⟩

def enqueueTask (w : World) (task : Task) : World := { w with mainThread := w.mainThread ++ [task] }

/-- `MediaKeySession::getChallenge` -/
def getChallenge (w : World) : World := enqueueTask w .getChallenge

/-- `constructed` is the answer of OCDM to `constructSession`. -/
def generateRequest (w : World) (constructed : Bool) : World :=
  match w.session with
  | none => w
  | some session =>
    let session := { session with licenseRequested := true }
    if !session.isSessionConstructed then
      if !constructed then { w with session := some { session with licenseRequested := false } }
      else
        let session := { session with isSessionConstructed := true }
        let w := { w with session := some session }
        if session.isNetflixKeySystem then getChallenge w else w
    else { w with session := some session }

/-- The session is erased. Its destructor unregisters it from the main thread. -/
def eraseSession (w : World) : World := { w with session := none }

/-- `destructed` says whether `MediaKeySession::closeKeySession` gets as far as that; it has the
status OK exactly then. -/
def closeKeySession (w : World) (destructed : Bool) : World :=
  if destructed then eraseSession w else w

def onProcessChallenge (w : World) (url : String) (challenge : Bytes) (challengeLength : UInt16) :
    World :=
  enqueueTask w (.processChallenge url (challenge.take challengeLength.toNat))

def onKeyUpdated (w : World) (keyId : Bytes) (keyIdLength : UInt8) : World :=
  enqueueTask w (.keyUpdated (keyId.take keyIdLength.toNat))

def onAllKeysUpdated (w : World) : World := enqueueTask w .allKeysUpdated

/-- What OCDM answers to the two calls of `getChallengeData`: the size to the first, and to the
second the challenge, which is no longer than that, or an error. -/
structure ChallengeData where
  challengeSize : UInt32
  ok : Bool
  challenge : Bytes
  length_le : challenge.length ≤ challengeSize.toNat

/-- The vector after the second call. -/
def ChallengeData.buffer (d : ChallengeData) : Bytes :=
  d.challenge ++ List.replicate (d.challengeSize.toNat - d.challenge.length) 0

/-- A task of the session runs; `status` is the answer of OCDM to `getStatus`. -/
def Task.run (w : World) (session : MediaKeySession) (data : ChallengeData) (status : KeyStatus) :
    Task → World
  | .getChallenge =>
    if data.ok then
      onProcessChallenge { w with supplied := w.supplied ++ [.challenge data.challenge] } ""
        data.buffer (UInt16.ofNat data.challenge.length)
    else w
  | .processChallenge url challenge =>
    if w.client then
      let message : Message :=
        if session.licenseRequested then .onLicenseRequest challenge url
        else .onLicenseRenewal challenge
      { w with
        session := some { session with licenseRequested := false }
        delivered := w.delivered ++ [message]
        done := w.done ++ [.challenge challenge] }
    else w
  | .keyUpdated keyId =>
    if w.client then
      { w with
        session := some { session with
          updatedKeyStatuses := session.updatedKeyStatuses ++ [(keyId, status)] }
        done := w.done ++ [.keyUpdated keyId status] }
    else w
  | .allKeysUpdated =>
    if w.client then
      { w with
        session := some { session with updatedKeyStatuses := [] }
        delivered := w.delivered ++ [.onKeyStatusesChanged session.updatedKeyStatuses]
        done := w.done ++ [.allKeysUpdated] }
    else w

/-- The main thread takes the first task of its queue. -/
def runTask (w : World) (data : ChallengeData) (status : KeyStatus) : Option World :=
  match w.mainThread with
  | [] => none
  | task :: rest =>
    match w.session with
    | some session => some (task.run { w with mainThread := rest } session data status)
    -- the session is not registered any more: the task is ignored
    | none => some { w with mainThread := rest }

/-! ## The hashes -/

/-- A `std::vector`: its elements, and the room it has. -/
structure Vec where
  elements : Bytes
  capacity : ℕ

def Vec.reserve (v : Vec) (n : ℕ) : Vec := { v with capacity := max v.capacity n }

/-- Bytes written from the first element on. What is beyond the last element is in the room. -/
def Vec.write (v : Vec) (bytes : Bytes) : Vec :=
  { v with elements := bytes.take v.elements.length ++ v.elements.drop bytes.length }

/-- What OCDM does when it is asked for a hash: it fails, or writes the hash. -/
structure HashData where
  ok : Bool
  hash : Bytes

def kHashSize : ℕ := 256

def getStoreHash (storeHash : Vec) (data : HashData) : Bool × Vec :=
  let storeHash := storeHash.reserve kHashSize
  (data.ok, if data.ok then storeHash.write data.hash else storeHash)

def getDrmStoreHash (drmStoreHash : Vec) (data : HashData) : Bool × Vec :=
  getStoreHash drmStoreHash data

def getKeyStoreHash (keyStoreHash : Vec) (data : HashData) : Bool × Vec :=
  getStoreHash keyStoreHash data

inductive Store
  | drm
  | key

/-- The hash in the reply of the handlers of `MediaKeysModuleService`. -/
def replyHash (store : Store) (data : HashData) : Bytes :=
  match store with
  | .drm => (getDrmStoreHash ⟨[], 0⟩ data).2.elements
  | .key => (getKeyStoreHash ⟨[], 0⟩ data).2.elements

def HashData.supplied (data : HashData) : Bytes := if data.ok then data.hash else []

/-! ## Runs -/

/-- The callbacks have 16 bits for the length of a challenge and 8 for that of a key id. -/
inductive Act
  | generateRequest (constructed : Bool)
  | closeKeySession (destructed : Bool)
  | destroyMediaKeys
  | processChallenge (url : String) (challenge : Bytes) (h : challenge.length < 65536)
  | keyUpdated (keyId : Bytes) (h : keyId.length < 256)
  | allKeysUpdated
  | runTask (data : ChallengeData) (status : KeyStatus)
  | releaseClient
  | getHash (store : Store) (data : HashData)

/-- A session that is destroyed gets no callback. -/
def callback (w : World) (item : Item) (put : World → World) : Option World :=
  w.session.map fun _ => put { w with supplied := w.supplied ++ [item] }

def step (w : World) : Act → Option World
  | .generateRequest constructed => some (generateRequest w constructed)
  | .closeKeySession destructed => some (closeKeySession w destructed)
  | .destroyMediaKeys => some (eraseSession w)
  | .processChallenge url challenge _ =>
    callback w (.challenge challenge) fun w =>
      onProcessChallenge w url challenge (UInt16.ofNat challenge.length)
  | .keyUpdated keyId _ =>
    callback w (.keyUpdated keyId) fun w => onKeyUpdated w keyId (UInt8.ofNat keyId.length)
  | .allKeysUpdated => callback w .allKeysUpdated onAllKeysUpdated
  | .runTask data status => runTask w data status
  | .releaseClient => some { w with client := false }
  | .getHash store data => some { w with
      hashes := w.hashes ++ [data.supplied]
      replies := w.replies ++ [replyHash store data] }

/-! ## Faithfulness -/

/-- The bytes of a message, whether it is a request or a renewal. -/
inductive Content
  | challenge (bytes : Bytes)
  | keyStatuses (statuses : List (Bytes × KeyStatus))
  deriving DecidableEq

def Message.content : Message → Content
  | .onLicenseRequest c _ => .challenge c
  | .onLicenseRenewal c => .challenge c
  | .onKeyStatusesChanged statuses => .keyStatuses statuses

/-- What the items are to become, with the keys of the update that is under way: a message for each
challenge and one with all keys at the end of an update. -/
def expected : List (Bytes × KeyStatus) → List Done → List Content × List (Bytes × KeyStatus)
  | keys, [] => ([], keys)
  | keys, .challenge c :: rest =>
    (.challenge c :: (expected keys rest).1, (expected keys rest).2)
  | keys, .keyUpdated keyId status :: rest => expected (keys ++ [(keyId, status)]) rest
  | keys, .allKeysUpdated :: rest =>
    (.keyStatuses keys :: (expected [] rest).1, (expected [] rest).2)

def Done.item : Done → Item
  | .challenge c => .challenge c
  | .keyUpdated keyId _ => .keyUpdated keyId
  | .allKeysUpdated => .allKeysUpdated

/-- What a task still has to deliver. -/
def Task.item? : Task → Option Item
  | .getChallenge => none
  | .processChallenge _ c => some (.challenge c)
  | .keyUpdated keyId => some (.keyUpdated keyId)
  | .allKeysUpdated => some .allKeysUpdated

def Done.status? : Done → Option (Bytes × KeyStatus)
  | .challenge _ => none
  | .keyUpdated keyId status => some (keyId, status)
  | .allKeysUpdated => none

def Content.statuses : Content → List (Bytes × KeyStatus)
  | .challenge _ => []
  | .keyStatuses statuses => statuses

/-- What is still to be delivered; of a session that is destroyed nothing is. -/
def World.waiting (w : World) : List Item :=
  match w.session with
  | some _ => w.mainThread.filterMap Task.item?
  | none => []

/-- While the client exists, what OCDM supplied is done or waits, in order and byte for byte; the
client has got what is done, every key status in one message unless its update is under way; the
replies have the hashes. -/
structure Faithful (w : World) : Prop where
  complete : w.client = true → w.supplied = w.done.map Done.item ++ w.waiting
  delivered : w.client = true → w.delivered.map Message.content = (expected [] w.done).1
  once : w.client = true → ∃ underWay,
    (w.delivered.map Message.content).flatMap Content.statuses ++ underWay =
      w.done.filterMap Done.status? ∧
    ∀ session ∈ w.session, session.updatedKeyStatuses = underWay
  hashes : w.replies = w.hashes

/-- A challenge that is fetched has less than `2 ^ 16` bytes, a hash none, and nothing waits for a
session that is erased. -/
def Meets (w : World) : Act → Prop
  | .runTask data _ => w.client = true → w.session.isSome = true →
    w.mainThread.head? = some .getChallenge → data.ok = true → data.challenge.length < 65536
  | .closeKeySession destructed => w.client = true → destructed = true → w.waiting = []
  | .destroyMediaKeys => w.client = true → w.waiting = []
  | .getHash _ data => data.supplied = []
  | _ => True

/-! ## The invariant -/

theorem expected_append : ∀ (ds es : List Done) (keys : List (Bytes × KeyStatus)),
    expected keys (ds ++ es) =
      ((expected keys ds).1 ++ (expected (expected keys ds).2 es).1,
        (expected (expected keys ds).2 es).2)
  | [], _, _ => rfl
  | .challenge c :: ds, es, keys => by
    rw [List.cons_append, expected, expected, expected_append ds es keys]
    rfl
  | .keyUpdated keyId status :: ds, es, keys => by
    rw [List.cons_append, expected, expected, expected_append ds es _]
  | .allKeysUpdated :: ds, es, keys => by
    rw [List.cons_append, expected, expected, expected_append ds es []]
    rfl

/-- No key status is left out or expected twice. -/
theorem statuses_expected : ∀ (ds : List Done) (keys : List (Bytes × KeyStatus)),
    (expected keys ds).1.flatMap Content.statuses ++ (expected keys ds).2 =
      keys ++ ds.filterMap Done.status?
  | [], keys => (List.append_nil keys).symm
  | .challenge c :: ds, keys => statuses_expected ds keys
  | .keyUpdated keyId status :: ds, keys => by
    rw [expected, statuses_expected ds, List.append_assoc]
    rfl
  | .allKeysUpdated :: ds, keys => by
    have ih := statuses_expected ds []
    rw [expected, List.flatMap_cons, List.append_assoc, ih]
    rfl

/-- What is recorded of the done items is what the client and the session have. -/
structure Inv (w : World) : Prop where
  delivered : w.client = true → w.delivered.map Message.content = (expected [] w.done).1
  keys : w.client = true → ∀ session ∈ w.session,
    session.updatedKeyStatuses = (expected [] w.done).2

section worlds

variable {w w' : World} {session : MediaKeySession} {item : Item}

/-- Only the order and the bytes and the hashes can go wrong. -/
theorem faithful_iff_complete (hinv : Inv w) : Faithful w ↔
    (w.client = true → w.supplied = w.done.map Done.item ++ w.waiting) ∧
    w.replies = w.hashes := by
  constructor
  · exact fun h => ⟨h.complete, h.hashes⟩
  · rintro ⟨hcomplete, hhashes⟩
    refine ⟨hcomplete, hinv.delivered, fun hc => ⟨_, ?_, hinv.keys hc⟩, hhashes⟩
    rw [hinv.delivered hc]
    exact statuses_expected w.done []

theorem waiting_some (h : w.session = some session) :
    w.waiting = w.mainThread.filterMap Task.item? := by
  unfold World.waiting
  rw [h]

theorem waiting_none (h : w.session = none) : w.waiting = [] := by
  unfold World.waiting
  rw [h]

theorem replyHash_eq (store : Store) (data : HashData) : replyHash store data = [] := by
  have h : ∀ v : Bool, (if v then (Vec.reserve ⟨[], 0⟩ kHashSize).write data.hash
      else Vec.reserve ⟨[], 0⟩ kHashSize).elements = [] := by
    intro v
    cases v with
    | false => rfl
    | true => exact List.drop_nil
  cases store with
  | drm => exact h data.ok
  | key => exact h data.ok

theorem take_ofNat_16 {challenge : Bytes} (rest : Bytes) (h : challenge.length < 65536) :
    (challenge ++ rest).take (UInt16.ofNat challenge.length).toNat = challenge := by
  rw [UInt16.toNat_ofNat_of_lt' h]
  exact List.take_left

theorem inv_init (b : Bool) : Inv (init b) := by
  refine ⟨fun _ => rfl, fun _ session hs => ?_⟩
  cases hs
  rfl

/-! ### Tasks -/

/-- What a task does. -/
theorem runTask_cases {data : ChallengeData} {status : KeyStatus}
    (h : runTask w data status = some w') : ∃ task rest, w.mainThread = task :: rest ∧
    ((w.session = none ∧ w' = { w with mainThread := rest }) ∨
    ∃ session, w.session = some session ∧
      ((task = .getChallenge ∧ data.ok = true ∧ w' = onProcessChallenge { w with
        mainThread := rest, supplied := w.supplied ++ [.challenge data.challenge] } ""
          data.buffer (UInt16.ofNat data.challenge.length)) ∨
      (task = .getChallenge ∧ data.ok = false ∧ w' = { w with mainThread := rest }) ∨
      (task ≠ .getChallenge ∧ w.client = false ∧ w' = { w with mainThread := rest }) ∨
      (∃ url c message, task = .processChallenge url c ∧ w.client = true ∧
        message.content = .challenge c ∧ w' = { w with
          mainThread := rest
          session := some { session with licenseRequested := false }
          delivered := w.delivered ++ [message]
          done := w.done ++ [.challenge c] }) ∨
      (∃ keyId, task = .keyUpdated keyId ∧ w.client = true ∧ w' = { w with
        mainThread := rest
        session := some { session with
          updatedKeyStatuses := session.updatedKeyStatuses ++ [(keyId, status)] }
        done := w.done ++ [.keyUpdated keyId status] }) ∨
      (task = .allKeysUpdated ∧ w.client = true ∧ w' = { w with
        mainThread := rest
        session := some { session with updatedKeyStatuses := [] }
        delivered := w.delivered ++ [.onKeyStatusesChanged session.updatedKeyStatuses]
        done := w.done ++ [.allKeysUpdated] }))) := by
  unfold runTask at h
  split at h
  · cases h
  · rename_i task rest hq
    refine ⟨task, rest, hq, ?_⟩
    split at h
    · rename_i session hs
      refine Or.inr ⟨session, hs, ?_⟩
      cases h
      cases task with
      | getChallenge =>
        by_cases hok : data.ok = true
        · exact Or.inl ⟨rfl, hok, if_pos hok⟩
        · exact Or.inr (Or.inl ⟨rfl, Bool.eq_false_iff.mpr hok, if_neg hok⟩)
      | processChallenge url c =>
        by_cases hc : w.client = true
        · refine Or.inr (Or.inr (Or.inr (Or.inl ⟨url, c, _, rfl, hc, ?_, if_pos hc⟩)))
          split_ifs
          · rfl
          · rfl
        · exact Or.inr (Or.inr (Or.inl ⟨nofun, Bool.eq_false_iff.mpr hc, if_neg hc⟩))
      | keyUpdated keyId =>
        by_cases hc : w.client = true
        · exact Or.inr (Or.inr (Or.inr (Or.inr (Or.inl ⟨keyId, rfl, hc, if_pos hc⟩))))
        · exact Or.inr (Or.inr (Or.inl ⟨nofun, Bool.eq_false_iff.mpr hc, if_neg hc⟩))
      | allKeysUpdated =>
        by_cases hc : w.client = true
        · exact Or.inr (Or.inr (Or.inr (Or.inr (Or.inr ⟨rfl, hc, if_pos hc⟩))))
        · exact Or.inr (Or.inr (Or.inl ⟨nofun, Bool.eq_false_iff.mpr hc, if_neg hc⟩))
    · rename_i hs
      cases h
      exact Or.inl ⟨hs, rfl⟩

theorem inv_runTask (hinv : Inv w) {data : ChallengeData} {status : KeyStatus}
    (h : runTask w data status = some w') : Inv w' := by
  obtain ⟨task, rest, -, ⟨-, rfl⟩ | ⟨session, hs, ⟨-, -, rfl⟩ | ⟨-, -, rfl⟩ | ⟨-, -, rfl⟩ |
    ⟨url, c, message, -, hc, hcontent, rfl⟩ | ⟨keyId, -, hc, rfl⟩ | ⟨-, hc, rfl⟩⟩⟩ :=
      runTask_cases h
  · exact ⟨hinv.delivered, hinv.keys⟩
  · exact ⟨hinv.delivered, hinv.keys⟩
  · exact ⟨hinv.delivered, hinv.keys⟩
  · exact ⟨hinv.delivered, hinv.keys⟩
  · refine ⟨fun _ => ?_, fun _ session' hs' => ?_⟩
    · dsimp only
      rw [List.map_append, hinv.delivered hc, expected_append, List.map_singleton, hcontent]
      rfl
    · cases hs'
      dsimp only
      rw [hinv.keys hc session hs, expected_append]
      rfl
  · refine ⟨fun _ => ?_, fun _ session' hs' => ?_⟩
    · dsimp only
      rw [hinv.delivered hc, expected_append]
      exact (List.append_nil _).symm
    · cases hs'
      dsimp only
      rw [hinv.keys hc session hs, expected_append]
      rfl
  · refine ⟨fun _ => ?_, fun _ session' hs' => ?_⟩
    · dsimp only
      rw [List.map_append, hinv.delivered hc, expected_append, List.map_singleton,
        Message.content, hinv.keys hc session hs]
      rfl
    · cases hs'
      dsimp only
      rw [expected_append]
      rfl

/-- A fetched challenge is waiting as it was supplied exactly when its length fits 16 bits. -/
theorem take_buffer_iff (data : ChallengeData) :
    data.buffer.take (UInt16.ofNat data.challenge.length).toNat = data.challenge ↔
      data.challenge.length < 65536 := by
  constructor
  · intro h
    have hlen := congrArg List.length h
    rw [List.length_take] at hlen
    have hlt := (UInt16.ofNat data.challenge.length).toNat_lt
    omega
  · exact fun h => take_ofNat_16 _ h

theorem faithful_runTask_iff (hinv : Inv w) (hw : Faithful w) {data : ChallengeData}
    {status : KeyStatus} (h : runTask w data status = some w') :
    Faithful w' ↔ Meets w (.runTask data status) := by
  obtain ⟨hcomplete, hhashes⟩ := (faithful_iff_complete hinv).mp hw
  rw [faithful_iff_complete (inv_runTask hinv h)]
  obtain ⟨task, rest, hq, ⟨hs, rfl⟩ | ⟨session, hs, hcases⟩⟩ := runTask_cases h
  · refine iff_of_true ⟨fun hc => ?_, hhashes⟩ fun _ hsome => ?_
    · rw [waiting_none hs] at hcomplete
      rw [waiting_none (by exact hs)]
      exact hcomplete hc
    · rw [hs] at hsome
      exact absurd hsome (by decide)
  · have hfirst : w.mainThread.head? = some task := by rw [hq]; rfl
    have hwait : w.waiting = task.item?.toList ++ rest.filterMap Task.item? := by
      rw [waiting_some hs, hq, List.filterMap_cons]
      cases task.item? with
      | none => rfl
      | some _ => rfl
    have hother : task ≠ .getChallenge ∨ data.ok = false → Meets w (.runTask data status) := by
      rintro (hne | hno) _ _ hget hok
      · exact absurd (Option.some.inj (hfirst.symm.trans hget)) hne
      · exact absurd (hno.symm.trans hok) (by decide)
    obtain ⟨rfl, hok, rfl⟩ | ⟨rfl, hok, rfl⟩ | ⟨hne, hc, rfl⟩ |
      ⟨url, c, message, rfl, hc, -, rfl⟩ | ⟨keyId, rfl, hc, rfl⟩ | ⟨rfl, hc, rfl⟩ := hcases
    · rw [waiting_some (by exact hs)]
      have hnew : w.client = true → w.done.map Done.item ++ (rest ++ [Task.processChallenge ""
          (data.buffer.take (UInt16.ofNat data.challenge.length).toNat)]).filterMap Task.item? =
          w.supplied ++ [Item.challenge
            (data.buffer.take (UInt16.ofNat data.challenge.length).toNat)] := by
        intro hc
        rw [List.filterMap_append, hcomplete hc, hwait, List.append_assoc]
        rfl
      constructor
      · rintro ⟨hall, -⟩ hc - - -
        have heq := List.append_cancel_left ((hall hc).trans (hnew hc))
        exact (take_buffer_iff data).mp (Item.challenge.inj (List.cons.inj heq).1).symm
      · intro hshort
        refine ⟨fun hc => ?_, hhashes⟩
        refine Eq.trans ?_ (hnew hc).symm
        rw [(take_buffer_iff data).mpr (hshort hc (by rw [hs]; rfl) hfirst hok)]
        rfl
    · refine iff_of_true ⟨fun hc => ?_, hhashes⟩ (hother (Or.inr hok))
      rw [waiting_some (by exact hs)]
      exact (hcomplete hc).trans (by rw [hwait]; rfl)
    · refine iff_of_true ⟨fun hc' => ?_, hhashes⟩ (hother (Or.inl hne))
      exact absurd (hc.symm.trans hc') (by decide)
    all_goals
      refine iff_of_true ⟨fun _ => ?_, hhashes⟩ (hother (Or.inl nofun))
      rw [waiting_some rfl]
      dsimp only
      rw [hcomplete hc, hwait, List.map_append, List.append_assoc]
      rfl

/-! ### The other steps -/

theorem generateRequest_frame (w : World) (constructed : Bool) :
    ∃ session tasks, generateRequest w constructed = { w with
        session := session, mainThread := w.mainThread ++ tasks } ∧
      session.map MediaKeySession.updatedKeyStatuses =
        w.session.map MediaKeySession.updatedKeyStatuses ∧
      tasks.filterMap Task.item? = [] := by
  unfold generateRequest
  split
  · exact ⟨w.session, [], by rw [List.append_nil], rfl, rfl⟩
  · rename_i session hs
    dsimp only
    split_ifs
    · exact ⟨_, [], by rw [List.append_nil], by rw [hs]; rfl, rfl⟩
    · exact ⟨_, [.getChallenge], rfl, by rw [hs]; rfl, rfl⟩
    · exact ⟨_, [], by rw [List.append_nil], by rw [hs]; rfl, rfl⟩
    · exact ⟨_, [], by rw [List.append_nil], by rw [hs]; rfl, rfl⟩

theorem inv_generateRequest (hinv : Inv w) (constructed : Bool) :
    Inv (generateRequest w constructed) := by
  obtain ⟨session, tasks, heq, hkeys, -⟩ := generateRequest_frame w constructed
  rw [heq]
  refine ⟨hinv.delivered, fun hc session' hs' => ?_⟩
  obtain ⟨old, hold, hsame⟩ : ∃ old, w.session = some old ∧
      old.updatedKeyStatuses = session'.updatedKeyStatuses := by
    rw [show session = some session' from hs', Option.map_some] at hkeys
    exact Option.map_eq_some_iff.mp hkeys.symm
  rw [← hsame]
  exact hinv.keys hc old hold

/-- A request puts nothing into the queue that has something to deliver. -/
theorem waiting_generateRequest (w : World) (constructed : Bool) :
    (generateRequest w constructed).waiting = w.waiting := by
  obtain ⟨session, tasks, heq, hkeys, htasks⟩ := generateRequest_frame w constructed
  rw [heq]
  cases hs : w.session with
  | none =>
    rw [hs, Option.map_none, Option.map_eq_none_iff] at hkeys
    rw [waiting_none hs, waiting_none hkeys]
  | some old =>
    rw [hs, Option.map_some] at hkeys
    obtain ⟨new, rfl, -⟩ := Option.map_eq_some_iff.mp hkeys
    rw [waiting_some hs, waiting_some rfl, List.filterMap_append, htasks, List.append_nil]

theorem inv_eraseSession (hinv : Inv w) : Inv (eraseSession w) :=
  ⟨hinv.delivered, fun _ _ hs => nomatch hs⟩

theorem faithful_eraseSession_iff (hinv : Inv w) (hw : Faithful w) :
    Faithful (eraseSession w) ↔ (w.client = true → w.waiting = []) := by
  rw [faithful_iff_complete (inv_eraseSession hinv)]
  constructor
  · intro h hc
    have heq := (h.1 hc).symm.trans (hw.complete hc)
    exact (List.append_cancel_left heq).symm
  · refine fun h => ⟨fun hc => ?_, hw.hashes⟩
    rw [waiting_none rfl]
    exact (hw.complete hc).trans (by rw [h hc]; rfl)

/-- A callback puts what it supplies into the queue. -/
theorem callback_cases {put : World → World} (h : callback w item put = some w') :
    ∃ session, w.session = some session ∧
      w' = put { w with supplied := w.supplied ++ [item] } := by
  obtain ⟨session, hs, rfl⟩ := Option.map_eq_some_iff.mp h
  exact ⟨session, hs, rfl⟩

theorem inv_callback (hinv : Inv w) (task : Task)
    (h : callback w item (fun w => enqueueTask w task) = some w') : Inv w' := by
  obtain ⟨session, -, rfl⟩ := callback_cases h
  exact ⟨hinv.delivered, hinv.keys⟩

theorem faithful_callback (hinv : Inv w) (hw : Faithful w) {task : Task}
    (h : callback w item (fun w => enqueueTask w task) = some w') (htask : task.item? = some item) :
    Faithful w' := by
  refine (faithful_iff_complete (inv_callback hinv task h)).mpr ?_
  obtain ⟨session, hs, rfl⟩ := callback_cases h
  refine ⟨fun hc => ?_, hw.hashes⟩
  rw [waiting_some (by exact hs)]
  show w.supplied ++ [item] = _ ++ (w.mainThread ++ [task]).filterMap Task.item?
  rw [List.filterMap_append, List.filterMap_cons, htask, hw.complete hc, waiting_some hs,
    List.append_assoc]
  rfl

/-- A step keeps faithfulness exactly when it meets the condition. -/
theorem faithful_step_iff (hinv : Inv w) (hw : Faithful w) {a : Act} (h : step w a = some w') :
    Faithful w' ↔ Meets w a := by
  cases a with
  | generateRequest constructed =>
    cases h
    refine iff_of_true ((faithful_iff_complete (inv_generateRequest hinv constructed)).mpr ?_)
      trivial
    rw [waiting_generateRequest]
    obtain ⟨session, tasks, heq, -⟩ := generateRequest_frame w constructed
    rw [heq]
    exact ⟨hw.complete, hw.hashes⟩
  | closeKeySession destructed =>
    cases h
    cases destructed with
    | false => exact iff_of_true hw fun _ hfalse => nomatch hfalse
    | true =>
      refine (faithful_eraseSession_iff hinv hw).trans ?_
      exact ⟨fun h hc _ => h hc, fun h hc => h hc rfl⟩
  | destroyMediaKeys =>
    cases h
    exact faithful_eraseSession_iff hinv hw
  | processChallenge url challenge hlen =>
    refine iff_of_true (faithful_callback hinv hw h ?_) trivial
    have htake := take_ofNat_16 [] hlen
    rw [List.append_nil] at htake
    rw [Task.item?, htake]
  | keyUpdated keyId hlen =>
    refine iff_of_true (faithful_callback hinv hw h ?_) trivial
    rw [Task.item?, UInt8.toNat_ofNat_of_lt' hlen, List.take_length]
  | allKeysUpdated => exact iff_of_true (faithful_callback hinv hw h rfl) trivial
  | runTask data status => exact faithful_runTask_iff hinv hw h
  | releaseClient =>
    cases h
    exact iff_of_true ⟨nofun, nofun, nofun, hw.hashes⟩ trivial
  | getHash store data =>
    cases h
    constructor
    · intro hnew
      have heq := hnew.hashes
      dsimp only at heq
      rw [replyHash_eq, hw.hashes] at heq
      exact (List.cons.inj (List.append_cancel_left heq)).1.symm
    · intro hshort
      refine ⟨hw.complete, hw.delivered, hw.once, ?_⟩
      dsimp only
      rw [replyHash_eq, hw.hashes, show data.supplied = [] from hshort]

theorem inv_step (hinv : Inv w) {a : Act} (h : step w a = some w') : Inv w' := by
  cases a with
  | generateRequest constructed =>
    cases h
    exact inv_generateRequest hinv constructed
  | closeKeySession destructed =>
    cases h
    cases destructed with
    | false => exact hinv
    | true => exact inv_eraseSession hinv
  | destroyMediaKeys =>
    cases h
    exact inv_eraseSession hinv
  | processChallenge url challenge hlen =>
    exact inv_callback hinv (.processChallenge url _) h
  | keyUpdated keyId hlen => exact inv_callback hinv (.keyUpdated _) h
  | allKeysUpdated => exact inv_callback hinv .allKeysUpdated h
  | runTask data status => exact inv_runTask hinv h
  | releaseClient =>
    cases h
    exact ⟨nofun, nofun⟩
  | getHash store data =>
    cases h
    exact ⟨hinv.delivered, hinv.keys⟩

end worlds

/-- **CDM data**: in every run, what OCDM supplied is delivered byte for byte, complete and in
order, and the replies have the hashes, exactly when every challenge that is fetched has less than
`2 ^ 16` bytes, no hash has a byte and nothing waits for a session that is erased. -/
theorem faithful_iff {b : Bool} {as : List Act} {u : World}
    (hrun : Run step (fun _ _ => True) (init b) as u) :
    (∀ pre post w, as = pre ++ post → Run step (fun _ _ => True) (init b) pre w → Faithful w) ↔
      ∀ a w, Occurs step (fun _ _ => True) (init b) as a w → Meets w a := by
  refine hrun.always_iff Inv Faithful Meets (inv_init b) ?_ ?_ ?_
  · exact fun w a w' hinv h => inv_step hinv h
  · exact (faithful_iff_complete (inv_init b)).mpr ⟨fun _ => rfl, rfl⟩
  · exact fun w a w' hinv hw h => faithful_step_iff hinv hw h

def threeBytes : ChallengeData := ⟨4, true, [1, 2, 3], by decide⟩

/-- A challenge that is fetched, and an update of one key. -/
theorem faithful_netflix : ∃ u, Run step (fun _ _ => True) (init true)
    [.generateRequest true, .keyUpdated [7, 8] (by decide), .allKeysUpdated,
      .runTask threeBytes .usable, .runTask threeBytes .usable, .runTask threeBytes .usable,
      .runTask threeBytes .usable] u ∧
    u.delivered = [.onKeyStatusesChanged [([7, 8], .usable)], .onLicenseRequest [1, 2, 3] ""] ∧
    Faithful u := by
  refine Run.exists_of_runs World.delivered _ (by decide +kernel) fun u hrun h => ⟨h, ?_⟩
  refine (faithful_iff hrun).mpr (fun a w hocc => ?_) _ [] u (List.append_nil _).symm hrun
  have hmem := hocc.mem
  cases a with
  | runTask data status =>
    intro _ _ _ _
    simp only [List.mem_cons, Act.runTask.injEq, reduceCtorEq, List.not_mem_nil, or_false,
      false_or, or_self] at hmem
    rw [hmem.1]
    decide
  | getHash store data => simp at hmem
  | closeKeySession destructed => simp at hmem
  | destroyMediaKeys => simp at hmem
  | _ => trivial

def longChallenge : ChallengeData :=
  ⟨65536, true, List.replicate 65536 0, by rw [List.length_replicate]; decide⟩

/-- A challenge of 65536 bytes is handed on with none, no reply has the hash, and a challenge that
waits is lost with its session. -/
theorem challenge_of_65536_and_hash :
    (∃ u, Run step (fun _ _ => True) (init true)
      [.generateRequest true, .runTask longChallenge .usable] u ∧ ¬Faithful u) ∧
    (∃ u, Run step (fun _ _ => True) (init true) [.getHash .drm ⟨true, [1]⟩] u ∧ ¬Faithful u) ∧
    ∃ u, Run step (fun _ _ => True) (init false)
      [.processChallenge "" [1] (by decide), .closeKeySession true] u ∧ ¬Faithful u := by
  have hnew : ∀ b, Faithful (init b) := fun b =>
    (faithful_iff_complete (inv_init b)).mpr ⟨fun _ => rfl, rfl⟩
  refine ⟨?_, ?_, ?_⟩
  · have hfirst : step (init true) (.generateRequest true) =
        some (generateRequest (init true) true) := rfl
    have hinv := inv_step (inv_init true) hfirst
    have hfaithful := (faithful_step_iff (inv_init true) (hnew true) hfirst).mpr trivial
    refine ⟨_, Run.cons trivial hfirst (Run.cons trivial rfl (Run.nil _)), fun h => ?_⟩
    have hshort := (faithful_step_iff hinv hfaithful (a := .runTask longChallenge .usable) rfl).mp h
      rfl rfl rfl rfl
    rw [show longChallenge.challenge.length = 65536 from List.length_replicate] at hshort
    exact Nat.lt_irrefl _ hshort
  · refine ⟨_, Run.cons trivial rfl (Run.nil _), fun h => ?_⟩
    exact nomatch h.hashes
  · refine ⟨_, Run.cons trivial rfl (Run.cons trivial rfl (Run.nil _)), fun h => ?_⟩
    exact nomatch h.complete rfl

end Rialto.Keys.CdmData

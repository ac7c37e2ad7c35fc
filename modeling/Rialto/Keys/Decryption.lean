import Mathlib.Logic.Function.Basic
import Rialto.Keys.Sessions
import Rialto.Lib.Endian
import Rialto.Media.Segment

/-! # Keys of encrypted buffers

`GstGenericPlayer::createBuffer` puts the key id of an encrypted segment into the protection
metadata of its buffer, and the decryptor hands it to OCDM when it decrypts the buffer. For the
Netflix key system the metadata has no key id: the key is selected on the session when the buffer is
created, and OCDM uses the selected key when the buffer is decrypted. A session remembers which key
it has selected, to skip a repeated selection; a selection that fails is ignored. OCDM gets the
length of a key id as a `uint8_t`.

* `Meets`: another key is selected on a Netflix session only when none of its buffers is left to be
  decrypted, its key id has less than 256 bytes, and OCDM accepts it.
* `decrypted_with_own_key`: then every buffer is decrypted with the key of its own segment.
* `decrypted_with_other_key`: two buffers with different keys, a selection that fails, and a key id
  that is too long. -/

namespace Rialto.Keys.Decryption

open Rialto.Lib.Runs Rialto.Lib.Endian Rialto.Keys.Sessions Rialto.Media.Segment

/-! ## Sessions and buffers -/

/-- `MediaKeySession`, as far as decrypting needs; `ocdmKeyId` is the key that was selected last on
the OCDM session. -/
structure MediaKeySession where
  keySystem : String
  selectedKeyId : List UInt8
  ocdmKeyId : Option (List UInt8)
  deriving DecidableEq

def MediaKeySession.isNetflixKeySystem (m : MediaKeySession) : Bool :=
  m.keySystem == netflixKeySystem

/-- The bytes of a key id that OCDM is given: `keyLength` is a `uint8_t`. -/
def ocdmBytes (keyId : List UInt8) : List UInt8 := keyId.take (keyId.length % 256)

theorem ocdmBytes_of_lt {keyId : List UInt8} (h : keyId.length < 256) :
    ocdmBytes keyId = keyId := by
  rw [ocdmBytes, Nat.mod_eq_of_lt h, List.take_length]

/-- `MediaKeySession::selectKeyId`, with what OCDM returns. -/
def MediaKeySession.selectKeyId (m : MediaKeySession) (keyId : List UInt8)
    (ocdm : MediaKeyErrorStatus) : MediaKeyErrorStatus × MediaKeySession :=
  if m.selectedKeyId = keyId then (.ok, m)
  else if ocdm = .ok then (.ok, { m with
    selectedKeyId := keyId
    ocdmKeyId := some (ocdmBytes keyId) })
  else (ocdm, m)

/-- The key that OCDM decrypts a buffer with, given the key id of the metadata. -/
def MediaKeySession.identified (m : MediaKeySession) (key : List UInt8) : Option (List UInt8) :=
  if m.isNetflixKeySystem then m.ocdmKeyId else some key

/-- `GstRialtoProtectionData`. -/
structure ProtectionData where
  keySessionId : Int32
  subsampleCount : UInt32
  initWithLast15 : UInt32
  key : List UInt8
  iv : List UInt8
  subsamples : List UInt8
  deriving DecidableEq

/-- A buffer, with the segment it was created for. -/
structure GstBuffer where
  segment : MediaSegment
  data : List UInt8
  timeStamp : Int64
  duration : Int64
  protection : Option ProtectionData
  deriving DecidableEq

/-- The sessions of all `MediaKeysServerInternal` objects. -/
abbrev KeySessions := Int32 → Option MediaKeySession

def isNetflixKeySystem (keys : KeySessions) (keySessionId : Int32) : Bool :=
  match keys keySessionId with
  | none => false
  | some m => m.isNetflixKeySystem

def selectKeyId (keys : KeySessions) (keySessionId : Int32) (keyId : List UInt8)
    (ocdm : MediaKeyErrorStatus) : MediaKeyErrorStatus × KeySessions :=
  match keys keySessionId with
  | none => (.fail, keys)
  | some m =>
    ((m.selectKeyId keyId ocdm).1,
      Function.update keys keySessionId (some (m.selectKeyId keyId ocdm).2))

/-- The bytes of the subsamples, each number with the most significant byte first. -/
def subsamplesRaw (subSamples : List SubSamplePair) : List UInt8 :=
  subSamples.flatMap fun p =>
    (leBytes 2 p.numClearBytes).reverse ++ (leBytes 4 p.numEncryptedBytes).reverse

/-- `createBuffer`; `ocdm` is what a selection returns, `added` whether the metadata can be
added. -/
def createBuffer (keys : KeySessions) (mediaSegment : MediaSegment) (ocdm : MediaKeyErrorStatus)
    (added : Bool) : KeySessions × GstBuffer :=
  let gstBuffer : GstBuffer :=
    ⟨mediaSegment, mediaSegment.data, mediaSegment.timeStamp, mediaSegment.duration, none⟩
  if mediaSegment.encrypted then
    let netflix := isNetflixKeySystem keys mediaSegment.mediaKeySessionId
    let data : ProtectionData :=
      ⟨mediaSegment.mediaKeySessionId, mediaSegment.subSamples.length.toUInt32,
        mediaSegment.initWithLast15, if netflix then [] else mediaSegment.keyId,
        mediaSegment.initVector, subsamplesRaw mediaSegment.subSamples⟩
    (if netflix then
      (selectKeyId keys mediaSegment.mediaKeySessionId mediaSegment.keyId ocdm).2 else keys,
      if added then { gstBuffer with protection := some data } else gstBuffer)
  else (keys, gstBuffer)

/-! ## Steps -/

/-- A buffer that was passed to OCDM with the key identified. -/
structure Passed where
  buffer : GstBuffer
  identified : Option (List UInt8)

/-- The sessions, for each source the buffers created and not yet decrypted, and what was passed to
OCDM. -/
structure State where
  keys : KeySessions
  queues : ℕ → List GstBuffer
  passed : List Passed

/-- Sessions of any key systems, no key selected. -/
def init (keySystems : Int32 → Option String) : State :=
  ⟨fun id => (keySystems id).map (⟨·, [], none⟩), fun _ => [], []⟩

/-- `GstRialtoDecryptorPrivate::decrypt`, down to OCDM. -/
def decrypt (keys : KeySessions) (buffer : GstBuffer) (hasDecryptionService : Bool) :
    Option Passed :=
  match buffer.protection with
  | none => none
  | some protectionData =>
    if hasDecryptionService then
      (keys protectionData.keySessionId).map fun m =>
        ⟨buffer, m.identified protectionData.key⟩
    else none

inductive Act
  | createBuffer (source : ℕ) (mediaSegment : MediaSegment) (ocdm : MediaKeyErrorStatus)
      (added : Bool)
  | decrypt (source : ℕ) (hasDecryptionService : Bool)

def step (s : State) : Act → Option State
  | .createBuffer source mediaSegment ocdm added =>
    some { s with
      keys := (createBuffer s.keys mediaSegment ocdm added).1
      queues := Function.update s.queues source
        (s.queues source ++ [(createBuffer s.keys mediaSegment ocdm added).2]) }
  | .decrypt source hasDecryptionService =>
    match s.queues source with
    | [] => none
    | buffer :: rest =>
      some { s with
        queues := Function.update s.queues source rest
        passed := s.passed ++ (decrypt s.keys buffer hasDecryptionService).toList }

/-! ## The condition -/

/-- A buffer that is to be decrypted by the session. -/
def Names (b : GstBuffer) (id : Int32) : Prop := ∃ p, b.protection = some p ∧ p.keySessionId = id

/-- **The condition on a step**: for an encrypted segment of a Netflix session, its key is selected
already, or it is another key of less than 256 bytes that OCDM accepts and no buffer of the session
is left. -/
def Meets (s : State) : Act → Prop
  | .createBuffer _ mediaSegment ocdm _ => mediaSegment.encrypted = true →
      ∀ m, s.keys mediaSegment.mediaKeySessionId = some m → m.isNetflixKeySystem = true →
        m.ocdmKeyId = some mediaSegment.keyId ∨
        m.selectedKeyId ≠ mediaSegment.keyId ∧ mediaSegment.keyId.length < 256 ∧ ocdm = .ok ∧
          ∀ source, ∀ b ∈ s.queues source, ¬ Names b mediaSegment.mediaKeySessionId
  | .decrypt _ _ => True

/-! ## The invariant -/

structure Inv (s : State) : Prop where
  short : ∀ id m keyId, s.keys id = some m → m.ocdmKeyId = some keyId → keyId.length < 256
  waiting : ∀ source, ∀ b ∈ s.queues source, ∀ p m, b.protection = some p →
    s.keys p.keySessionId = some m → m.identified p.key = some b.segment.keyId
  passed : ∀ c ∈ s.passed, c.identified = some c.buffer.segment.keyId

theorem inv_init (keySystems : Int32 → Option String) : Inv (init keySystems) where
  short := by
    intro id m keyId hm hkey
    obtain ⟨keySystem, -, rfl⟩ := Option.map_eq_some_iff.mp hm
    cases hkey
  waiting := fun _ _ hb => by cases hb
  passed := fun _ hc => by cases hc

/-- What the selection of a key under the condition does: the key is selected on the session, and
OCDM had it already unless no buffer of the session is left. -/
theorem select_spec {s : State} (h : Inv s) {id : Int32} {m : MediaKeySession} {keyId : List UInt8}
    {ocdm : MediaKeyErrorStatus} (hm : s.keys id = some m)
    (hok : m.ocdmKeyId = some keyId ∨ m.selectedKeyId ≠ keyId ∧ keyId.length < 256 ∧ ocdm = .ok ∧
      ∀ source, ∀ b ∈ s.queues source, ¬ Names b id) :
    (m.selectKeyId keyId ocdm).2.keySystem = m.keySystem ∧
      (m.selectKeyId keyId ocdm).2.ocdmKeyId = some keyId ∧ keyId.length < 256 ∧
      (m.ocdmKeyId = some keyId ∨ ∀ source, ∀ b ∈ s.queues source, ¬ Names b id) := by
  unfold MediaKeySession.selectKeyId
  rcases hok with hkey | ⟨hne, hshort, rfl, hnone⟩
  · have hshort := h.short id m keyId hm hkey
    refine ⟨?_, ?_, hshort, Or.inl hkey⟩
    · split_ifs <;> rfl
    · split_ifs
      · exact hkey
      · exact congrArg some (ocdmBytes_of_lt hshort)
      · exact hkey
  · rw [if_neg hne, if_pos rfl]
    exact ⟨rfl, congrArg some (ocdmBytes_of_lt hshort), hshort, Or.inr hnone⟩

/-- What creating a buffer does to the sessions and to the buffers that wait, with the new one. -/
structure Created (s : State) (keys : KeySessions) (b : GstBuffer) : Prop where
  short : ∀ id m keyId, keys id = some m → m.ocdmKeyId = some keyId → keyId.length < 256
  waiting : ∀ source, ∀ b ∈ s.queues source, ∀ p m, b.protection = some p →
    keys p.keySessionId = some m → m.identified p.key = some b.segment.keyId
  new : ∀ p m, b.protection = some p → keys p.keySessionId = some m →
    m.identified p.key = some b.segment.keyId

section Create

variable {s : State} {seg : MediaSegment} {ocdm : MediaKeyErrorStatus} {added : Bool}

/-- The key id is in the metadata, or there is no metadata. -/
theorem created_plain (h : Inv s)
    (hnetflix : seg.encrypted = true → isNetflixKeySystem s.keys seg.mediaKeySessionId = false) :
    Created s (createBuffer s.keys seg ocdm added).1 (createBuffer s.keys seg ocdm added).2 := by
  unfold createBuffer
  dsimp only
  split_ifs with hencrypted hsome hadded hadded
  · exact nomatch hsome.symm.trans (hnetflix hencrypted)
  · exact nomatch hsome.symm.trans (hnetflix hencrypted)
  · refine ⟨h.short, h.waiting, fun p m hp hm => ?_⟩
    cases hp
    have hplain : m.isNetflixKeySystem = false := by
      have hm : s.keys seg.mediaKeySessionId = some m := hm
      have hno := hnetflix hencrypted
      rwa [isNetflixKeySystem, hm] at hno
    rw [MediaKeySession.identified, hplain]
    rfl
  · exact ⟨h.short, h.waiting, fun p m hp => nomatch hp⟩
  · exact ⟨h.short, h.waiting, fun p m hp => nomatch hp⟩

/-- The key is selected on the session. -/
theorem created_netflix (h : Inv s) {m : MediaKeySession} (hencrypted : seg.encrypted = true)
    (hm : s.keys seg.mediaKeySessionId = some m) (hnetflix : m.isNetflixKeySystem = true)
    (hok : m.ocdmKeyId = some seg.keyId ∨ m.selectedKeyId ≠ seg.keyId ∧
      seg.keyId.length < 256 ∧ ocdm = .ok ∧
        ∀ source, ∀ b ∈ s.queues source, ¬ Names b seg.mediaKeySessionId) :
    Created s (createBuffer s.keys seg ocdm added).1 (createBuffer s.keys seg ocdm added).2 := by
  obtain ⟨hsystem, hkey, hshort, hsame⟩ := select_spec h hm hok
  have hfound : isNetflixKeySystem s.keys seg.mediaKeySessionId = true := by
    rw [isNetflixKeySystem, hm]
    exact hnetflix
  have hkeys : (createBuffer s.keys seg ocdm added).1 = Function.update s.keys
      seg.mediaKeySessionId (some (m.selectKeyId seg.keyId ocdm).2) := by
    unfold createBuffer
    simp only [hencrypted, hfound, if_true, selectKeyId, hm]
  -- the session, whose new key is that of the segment, or another one
  have hupdate : ∀ {id m'}, (createBuffer s.keys seg ocdm added).1 id = some m' →
      id = seg.mediaKeySessionId ∧ m' = (m.selectKeyId seg.keyId ocdm).2 ∨
      id ≠ seg.mediaKeySessionId ∧ s.keys id = some m' := by
    intro id m' hm'
    rw [hkeys] at hm'
    by_cases heq : id = seg.mediaKeySessionId
    · subst heq
      rw [Function.update_self] at hm'
      exact Or.inl ⟨rfl, (Option.some.inj hm').symm⟩
    · rw [Function.update_of_ne heq] at hm'
      exact Or.inr ⟨heq, hm'⟩
  have hnetflix' : (m.selectKeyId seg.keyId ocdm).2.isNetflixKeySystem = true := by
    rw [MediaKeySession.isNetflixKeySystem, hsystem]
    exact hnetflix
  refine ⟨fun id m' keyId hm' hkeyId => ?_, fun source b hb p m' hp hm' => ?_,
    fun p m' hp hm' => ?_⟩
  · rcases hupdate hm' with ⟨-, rfl⟩ | ⟨-, hold⟩
    · exact Option.some.inj (hkey.symm.trans hkeyId) ▸ hshort
    · exact h.short id m' keyId hold hkeyId
  · rcases hupdate hm' with ⟨hid, rfl⟩ | ⟨-, hold⟩
    · rcases hsame with hsame | hnone
      · have hwaiting := h.waiting source b hb p m hp (by rw [hid, hm])
        rw [MediaKeySession.identified, if_pos hnetflix, hsame] at hwaiting
        rw [MediaKeySession.identified, if_pos hnetflix', hkey]
        exact hwaiting
      · exact absurd ⟨p, hp, hid⟩ (hnone source b hb)
    · exact h.waiting source b hb p m' hp hold
  · have hnew : (createBuffer s.keys seg ocdm added).2.segment.keyId = seg.keyId ∧
        p.keySessionId = seg.mediaKeySessionId := by
      revert hp
      unfold createBuffer
      dsimp only
      split_ifs
      · intro hp
        cases hp
        exact ⟨rfl, rfl⟩
      all_goals exact fun hp => nomatch hp
    rcases hupdate hm' with ⟨-, rfl⟩ | ⟨hne, -⟩
    · rw [MediaKeySession.identified, if_pos hnetflix', hkey, hnew.1]
    · exact absurd hnew.2 hne

theorem created (h : Inv s) {source : ℕ} (hok : Meets s (.createBuffer source seg ocdm added)) :
    Created s (createBuffer s.keys seg ocdm added).1 (createBuffer s.keys seg ocdm added).2 := by
  by_cases hencrypted : seg.encrypted = true
  · cases hm : s.keys seg.mediaKeySessionId with
    | none =>
      refine created_plain h fun _ => ?_
      rw [isNetflixKeySystem, hm]
    | some m =>
      by_cases hnetflix : m.isNetflixKeySystem = true
      · exact created_netflix h hencrypted hm hnetflix (hok hencrypted m hm hnetflix)
      · refine created_plain h fun _ => ?_
        rw [isNetflixKeySystem, hm]
        exact Bool.not_eq_true _ ▸ hnetflix
  · exact created_plain h fun hyes => absurd hyes hencrypted

end Create

theorem step_inv {s s' : State} {a : Act} (h : Inv s) (hok : Meets s a)
    (hstep : step s a = some s') : Inv s' := by
  cases a with
  | createBuffer source seg ocdm added =>
    cases hstep
    have hcreated := created h hok
    refine ⟨hcreated.short, fun source' b hb p m hp hm => ?_, h.passed⟩
    by_cases heq : source' = source
    · subst heq
      have hb : b ∈ Function.update s.queues source'
        (s.queues source' ++ [(createBuffer s.keys seg ocdm added).2]) source' := hb
      rw [Function.update_self] at hb
      rcases List.mem_append.mp hb with hb | hb
      · exact hcreated.waiting source' b hb p m hp hm
      · cases List.mem_singleton.mp hb
        exact hcreated.new p m hp hm
    · have hb : b ∈ Function.update s.queues source
        (s.queues source ++ [(createBuffer s.keys seg ocdm added).2]) source' := hb
      rw [Function.update_of_ne heq] at hb
      exact hcreated.waiting source' b hb p m hp hm
  | decrypt source hasDecryptionService =>
    cases hqueue : s.queues source with
    | nil => simp [step, hqueue] at hstep
    | cons buffer rest =>
      simp only [step, hqueue] at hstep
      cases hstep
      have hbuffer : buffer ∈ s.queues source := by rw [hqueue]; exact List.mem_cons_self
      refine ⟨h.short, fun source' b hb => ?_, fun c hc => ?_⟩
      · refine h.waiting source' b ?_
        have hb : b ∈ Function.update s.queues source rest source' := hb
        by_cases heq : source' = source
        · subst heq
          rw [Function.update_self] at hb
          rw [hqueue]
          exact List.mem_cons_of_mem _ hb
        · rwa [Function.update_of_ne heq] at hb
      · rcases List.mem_append.mp hc with hc | hc
        · exact h.passed c hc
        · rw [Option.mem_toList] at hc
          unfold decrypt at hc
          split at hc
          next => exact nomatch hc
          next p hp =>
            split_ifs at hc
            obtain ⟨m, hm, rfl⟩ := Option.map_eq_some_iff.mp hc
            exact h.waiting source buffer hbuffer p m hp hm

/-- **In every run in which another key is selected on a Netflix session only when none of its
buffers is left to be decrypted, and the selection is accepted, every buffer that is passed to OCDM
is decrypted with the key of its own segment.** -/
theorem decrypted_with_own_key {keySystems : Int32 → Option String} {as : List Act} {s : State}
    (h : Run step Meets (init keySystems) as s) :
    ∀ c ∈ s.passed, c.identified = some c.buffer.segment.keyId :=
  (h.invariant Inv (fun _ _ _ hs hok hstep => step_inv hs hok hstep) (inv_init keySystems)).passed

/-! ## Runs on fixed inputs -/

/-- A segment with a key. -/
def encrypted (keyId : List UInt8) : MediaSegment :=
  { MediaSegment.mk' 1 .video .plain 0 0 with encrypted := true, mediaKeySessionId := 0, keyId }

/-- The session `0` is one of Netflix. -/
def netflix (id : Int32) : Option String := if id = 0 then some netflixKeySystem else none

/-- The key changes when the first buffer has been decrypted. -/
def taking : List Act :=
  [.createBuffer 0 (encrypted [1]) .ok true, .decrypt 0 true,
    .createBuffer 0 (encrypted [2]) .ok true, .decrypt 0 true]

/-- The second key is selected before the first buffer is decrypted. -/
def overlapping : List Act :=
  [.createBuffer 0 (encrypted [1]) .ok true, .createBuffer 0 (encrypted [2]) .ok true,
    .decrypt 0 true]

/-- The key of one buffer is selected, with what OCDM returns, and the buffer decrypted. -/
def single (keyId : List UInt8) (ocdm : MediaKeyErrorStatus) : List Act :=
  [.createBuffer 0 (encrypted keyId) ocdm true, .decrypt 0 true]

/-- A key id whose length is `0` as a `uint8_t`. -/
def tooLong : List UInt8 := List.replicate 256 1

/-- The keys of the buffers passed to OCDM, with the keys identified. -/
def keysOf (s : State) : List (List UInt8 × Option (List UInt8)) :=
  s.passed.map fun c => (c.buffer.segment.keyId, c.identified)

/-- Another key may be selected when nothing waits. -/
theorem meets_of_empty {s : State} {source : ℕ} {seg : MediaSegment} {added : Bool}
    (hnew : ∀ m, s.keys seg.mediaKeySessionId = some m → m.selectedKeyId ≠ seg.keyId)
    (hshort : seg.keyId.length < 256) (hempty : ∀ source, s.queues source = []) :
    Meets s (.createBuffer source seg .ok added) := by
  intro _ m hm _
  refine Or.inr ⟨hnew m hm, hshort, rfl, fun source b hb => ?_⟩
  rw [hempty source] at hb
  cases hb

theorem decrypted_with_own_key_taking :
    ∃ s, Run step Meets (init netflix) taking s ∧
      keysOf s = [([1], some [1]), ([2], some [2])] ∧
      ∀ c ∈ s.passed, c.identified = some c.buffer.segment.keyId := by
  have hrun : ∃ s, Run step Meets (init netflix) taking s ∧
      keysOf s = [([1], some [1]), ([2], some [2])] := by
    refine ⟨_, Run.cons (meets_of_empty ?_ (by decide) ?_) rfl (Run.cons trivial rfl
      (Run.cons (meets_of_empty ?_ (by decide) ?_) rfl (Run.cons trivial rfl (Run.nil _)))),
      by decide +kernel⟩
    · rintro m ⟨⟩
      decide
    · exact fun _ => rfl
    · rintro m ⟨⟩
      decide
    · intro source
      by_cases heq : source = 0
      · subst heq
        rfl
      · exact (Function.update_of_ne heq _ _).trans (Function.update_of_ne heq _ _)
  obtain ⟨s, hrun, hkeys⟩ := hrun
  exact ⟨s, hrun, hkeys, decrypted_with_own_key hrun⟩

/-- The first buffer is decrypted with the key of the second one; a buffer whose key could not be
selected is decrypted without it; and of a key id that is too long OCDM gets no byte. -/
theorem decrypted_with_other_key :
    (∃ as s, Run step (fun _ _ => True) (init netflix) as s ∧ keysOf s = [([1], some [2])]) ∧
      (∃ as s, Run step (fun _ _ => True) (init netflix) as s ∧ keysOf s = [([1], none)]) ∧
      ∃ as s, Run step (fun _ _ => True) (init netflix) as s ∧ keysOf s = [(tooLong, some [])] := by
  have hruns : ∀ as view, (runs step (init netflix) as).map keysOf = some view →
      ∃ as s, Run step (fun _ _ => True) (init netflix) as s ∧ keysOf s = view := by
    intro as view hview
    obtain ⟨s, hs, hview⟩ := Option.map_eq_some_iff.mp hview
    exact ⟨as, s, Run.of_runs hs, hview⟩
  refine ⟨hruns overlapping _ ?_, hruns (single [1] .fail) _ ?_, hruns (single tooLong .ok) _ ?_⟩
  · decide +kernel
  · decide +kernel
  · decide +kernel

end Rialto.Keys.Decryption

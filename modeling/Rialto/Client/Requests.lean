import Rialto.Client.MediaPipeline

/-! # The places of a request

A request of the server is at one place: its need-data event is being handled, it is in the map, its
answer is on its way to the server, or it is gone. The frame writer of a request has counted the
segments that were added.

* `Places`: the places of the requests and the numbers of their segments.
* `take_event`, `take_request`, …: a request leaves its place.
* `put_gone`, `put_request`, …: and comes to the next one.
* `places_clear`, `places_written`: the sections that touch more than one place. -/

namespace Rialto.Client.Requests

open Rialto.Lib.OrdMap Rialto.Lib.Runs Rialto.Media.Segment Rialto.Media.Frames
open Rialto.Media.FrameWriter Rialto.Client.MediaPipeline
open Rialto.Pipeline.Session (MediaSourceStatus)

/-! ## Places -/

/-- The need-data event is being handled. -/
def isEvent (id : ℕ) : Call → Bool
  | .known i _ => i == id
  | .inserting i _ => i == id
  | _ => false

/-- The answer is on its way to the server. -/
def isSending (id : ℕ) : Call → Bool
  | .sending _ _ i => i == id
  | _ => false

/-- The request is gone. -/
def isGone (id : ℕ) : Entry → Bool
  | .ignored i => i == id
  | .discarded i => i == id
  | .dropped i => i == id
  | .forwarded i _ _ => i == id
  | _ => false

/-- A segment was added to the request. -/
def isAdded (id : ℕ) : Entry → Bool
  | .segment i .ok => i == id
  | _ => false

theorem isEvent_sending (id : ℕ) (status : MediaSourceStatus) (n i : ℕ) :
    isEvent id (.sending status n i) = false := rfl

def inMap (s : State) (id : ℕ) : ℕ := if (s.needDataRequestMap.find? id).isSome then 1 else 0

/-- The number of `addSegment` calls for the request that returned `OK`. -/
def segments (s : State) (id : ℕ) : ℕ := s.log.countP (isAdded id)

/-- The request has got the description of a region, and its writer has counted `n` frames. -/
structure Counts (request : NeedDataRequest) (n : ℕ) : Prop where
  region : ∃ r, request.shmInfo = needMediaData r
  frames : match request.frameWriter with
    | some writer => Counted writer n
    | none => n = 0

/-- **The invariant**: an id was sent as often as there are places for it, and at most once; nothing
was added to a request before it is in the map, and what was added is what its writer has counted
and what is sent to the server. The request in `hand`, if any, is between two places. -/
structure Places (hand : Option ℕ) (s : State) : Prop where
  placed : ∀ id, s.calls.countP (isEvent id) + inMap s id + s.calls.countP (isSending id) +
    s.log.countP (isGone id) + (if hand = some id then 1 else 0) = s.notified.count id
  once : ∀ id, s.notified.count id ≤ 1
  untouched : ∀ id, 0 < s.calls.countP (isEvent id) ∨ s.notified.count id = 0 → segments s id = 0
  counted : ∀ id request, s.needDataRequestMap.find? id = some request →
    Counts request (segments s id)
  sent : ∀ status n id, .sending status n id ∈ s.calls → n = segments s id
  forwarded : ∀ id status n, .forwarded id status n ∈ s.log → n = segments s id

theorem places_init (shm : Rialto.Lib.Memory.Mem UInt8) : Places none (init shm) :=
  ⟨fun _ => rfl, fun _ => Nat.zero_le 1, fun _ _ => rfl, nofun, nofun, nofun⟩

theorem numFrames_eq {request : NeedDataRequest} {n : ℕ} (h : Counts request n) :
    request.numFrames = n := by
  have hframes := h.frames
  unfold NeedDataRequest.numFrames
  cases hwriter : request.frameWriter with
  | none =>
    rw [hwriter] at hframes
    exact hframes.symm
  | some writer =>
    rw [hwriter] at hframes
    exact getNumFrames_eq hframes

theorem segments_note (s : State) (id : ℕ) {e : Entry} (he : isAdded id e = false) :
    segments (s.note e) id = segments s id := by
  simp [segments, State.note, List.countP_append, he]

section Moves

variable {s : State} {hand : Option ℕ} {id : ℕ} {rest : List Call}

/-- The order of the calls under way does not matter. -/
theorem places_perm (h : Places hand s) {calls : List Call} (hperm : s.calls.Perm calls) :
    Places hand { s with calls := calls } := by
  refine ⟨fun i => ?_, h.once, fun i => ?_, h.counted, fun status n i hmem => ?_, h.forwarded⟩
  · rw [← h.placed i, hperm.countP_eq, hperm.countP_eq]
    rfl
  · rw [← hperm.countP_eq]
    exact h.untouched i
  · exact h.sent status n i (hperm.mem_iff.mpr hmem)

/-! ## Calls -/

/-- A call that has nothing to do with the place of a request. -/
def Bystander (call : Call) : Prop := ∀ id, isEvent id call = false ∧ isSending id call = false

theorem places_cons {call : Call} (hcall : Bystander call) :
    Places hand { s with calls := call :: rest } ↔ Places hand { s with calls := rest } := by
  have hevent : ∀ i, (call :: rest).countP (isEvent i) = rest.countP (isEvent i) := fun i => by
    rw [List.countP_cons, (hcall i).1, if_neg Bool.false_ne_true, Nat.add_zero]
  have hsending : ∀ i, (call :: rest).countP (isSending i) = rest.countP (isSending i) :=
    fun i => by rw [List.countP_cons, (hcall i).2, if_neg Bool.false_ne_true, Nat.add_zero]
  constructor
  · intro h
    refine ⟨fun i => ?_, h.once, fun i => ?_, h.counted,
      fun status n i hmem => h.sent status n i (List.mem_cons_of_mem _ hmem), h.forwarded⟩
    · rw [← h.placed i, hevent, hsending]
      rfl
    · rw [← hevent]
      exact h.untouched i
  · intro h
    refine ⟨fun i => ?_, h.once, fun i => ?_, h.counted, fun status n i hmem => ?_, h.forwarded⟩
    · rw [← h.placed i, hevent, hsending]
      rfl
    · rw [hevent]
      exact h.untouched i
    · rcases List.mem_cons.mp hmem with hmem | hmem
      · rw [← hmem] at hcall
        have := (hcall i).2
        simp [isSending] at this
      · exact h.sent status n i hmem

theorem places_start (h : Places hand s) {call : Call} (hcall : Bystander call) :
    Places hand (s.start call) := by
  have hcons : Places hand { s with calls := call :: s.calls } := (places_cons hcall).mpr h
  exact places_perm hcons (List.perm_append_singleton _ _).symm

/-! ## Taking a request from its place -/

/-- The event is taken up. -/
theorem take_event {call : Call} (h : Places none { s with calls := call :: rest })
    (hevent : ∀ i, isEvent i call = (id == i)) (hsending : ∀ i, isSending i call = false) :
    Places (some id) { s with calls := rest } ∧ segments s id = 0 := by
  have hcount : ∀ i, (call :: rest).countP (isEvent i) =
      rest.countP (isEvent i) + if some id = some i then 1 else 0 := fun i => by
    rw [List.countP_cons, hevent]
    by_cases hi : i = id
    · simp [hi]
    · simp [Ne.symm hi]
  have hcount' : ∀ i, (call :: rest).countP (isSending i) = rest.countP (isSending i) :=
    fun i => by rw [List.countP_cons, hsending, if_neg Bool.false_ne_true, Nat.add_zero]
  refine ⟨⟨fun i => ?_, h.once, fun i hi => ?_, h.counted,
    fun status n i hmem => h.sent status n i (List.mem_cons_of_mem _ hmem), h.forwarded⟩,
    h.untouched id (Or.inl ?_)⟩
  · have hplaced : (call :: rest).countP (isEvent i) + inMap s i +
        (call :: rest).countP (isSending i) + s.log.countP (isGone i) + 0 =
        s.notified.count i := h.placed i
    rw [hcount, hcount'] at hplaced
    show rest.countP (isEvent i) + inMap s i + rest.countP (isSending i) +
      s.log.countP (isGone i) + _ = s.notified.count i
    omega
  · refine h.untouched i (hi.imp_left fun hi => ?_)
    show 0 < (call :: rest).countP (isEvent i)
    rw [hcount]
    exact Nat.lt_of_lt_of_le hi (Nat.le_add_right _ _)
  · show 0 < (call :: rest).countP (isEvent id)
    rw [hcount, if_pos rfl]
    exact Nat.succ_pos _

/-- The answer reaches the server. -/
theorem take_sending {status : MediaSourceStatus} {n : ℕ}
    (h : Places none { s with calls := .sending status n id :: rest }) :
    Places (some id) { s with calls := rest } ∧ n = segments s id := by
  have hcount : ∀ i, (.sending status n id :: rest).countP (isSending i) =
      rest.countP (isSending i) + if some id = some i then 1 else 0 := fun i => by
    rw [List.countP_cons]
    simp [isSending]
  have hcount' : ∀ i, (.sending status n id :: rest).countP (isEvent i) =
      rest.countP (isEvent i) := fun i => List.countP_cons_of_neg Bool.false_ne_true
  refine ⟨⟨fun i => ?_, h.once, fun i hi => ?_, h.counted,
    fun status n i hmem => h.sent status n i (List.mem_cons_of_mem _ hmem), h.forwarded⟩,
    h.sent status n id List.mem_cons_self⟩
  · have hplaced : (.sending status n id :: rest).countP (isEvent i) + inMap s i +
        (.sending status n id :: rest).countP (isSending i) + s.log.countP (isGone i) + 0 =
        s.notified.count i := h.placed i
    rw [hcount, hcount'] at hplaced
    show rest.countP (isEvent i) + inMap s i + rest.countP (isSending i) +
      s.log.countP (isGone i) + _ = s.notified.count i
    omega
  · refine h.untouched i (hi.imp_left fun hi => ?_)
    show 0 < (.sending status n id :: rest).countP (isEvent i)
    rw [hcount']
    exact hi

theorem inMap_erase (s : State) (id i : ℕ) (h : (s.needDataRequestMap.find? id).isSome) :
    inMap { s with needDataRequestMap := s.needDataRequestMap.erase id } i +
      (if some id = some i then 1 else 0) = inMap s i := by
  unfold inMap
  show (if ((s.needDataRequestMap.erase id).find? i).isSome then 1 else 0) + _ = _
  rw [OMap.find?_erase]
  by_cases hi : i = id
  · subst hi
    simp [h]
  · simp [hi, Ne.symm hi]

/-- The request is taken from the map. -/
theorem take_request (h : Places none s) {request : NeedDataRequest}
    (hfind : s.needDataRequestMap.find? id = some request) :
    Places (some id) { s with needDataRequestMap := s.needDataRequestMap.erase id } ∧
      Counts request (segments s id) := by
  have hsub : ∀ {i r}, (s.needDataRequestMap.erase id).find? i = some r →
      s.needDataRequestMap.find? i = some r := fun {i r} hr => by
    rw [OMap.find?_erase] at hr
    split_ifs at hr
    exact hr
  refine ⟨⟨fun i => ?_, h.once, h.untouched, fun i r hr => h.counted i r (hsub hr), h.sent,
    h.forwarded⟩, h.counted id request hfind⟩
  · have hplaced := h.placed i
    have hmap := inMap_erase s id i (by rw [hfind]; rfl)
    rw [if_neg nofun] at hplaced
    show s.calls.countP (isEvent i) +
      inMap { s with needDataRequestMap := s.needDataRequestMap.erase id } i +
      s.calls.countP (isSending i) + s.log.countP (isGone i) + _ = s.notified.count i
    omega

/-- The server sends a request. -/
theorem take_notified (h : Places none s) (hnew : id ∉ s.notified) :
    Places (some id) { s with notified := s.notified ++ [id] } ∧ segments s id = 0 := by
  have hzero : s.notified.count id = 0 := List.count_eq_zero.mpr hnew
  have hcount : ∀ i, (s.notified ++ [id]).count i =
      s.notified.count i + if some id = some i then 1 else 0 := fun i => by
    rw [List.count_append, List.count_singleton]
    simp
  refine ⟨⟨fun i => ?_, fun i => ?_, fun i hi => h.untouched i (hi.imp_right fun hi => ?_),
    h.counted, h.sent, h.forwarded⟩, h.untouched id (Or.inr hzero)⟩
  · have hplaced := h.placed i
    rw [if_neg nofun] at hplaced
    rw [hcount, ← hplaced]
    rfl
  · rw [hcount]
    by_cases hi : id = i
    · subst hi
      rw [hzero, if_pos rfl]
    · rw [if_neg fun he => hi (Option.some.inj he)]
      exact h.once i
  · have hi : (s.notified ++ [id]).count i = 0 := hi
    rw [hcount] at hi
    exact Nat.eq_zero_of_add_eq_zero_right hi

/-! ## Putting a request into its place -/

/-- The request is gone. -/
theorem put_gone (h : Places (some id) s) {e : Entry} (hgone : ∀ i, isGone i e = (id == i))
    (hadded : ∀ i, isAdded i e = false)
    (hforwarded : ∀ i status n, e = .forwarded i status n → n = segments s i) :
    Places none (s.note e) := by
  have hcount : ∀ i, (s.log ++ [e]).countP (isGone i) =
      s.log.countP (isGone i) + if some id = some i then 1 else 0 := fun i => by
    rw [List.countP_append, List.countP_singleton, hgone]
    by_cases hi : i = id
    · simp [hi]
    · simp [Ne.symm hi]
  have hsegments : ∀ i, segments (s.note e) i = segments s i := fun i =>
    segments_note s i (hadded i)
  refine ⟨fun i => ?_, h.once, fun i hi => ?_, fun i r hr => ?_, fun status n i hmem => ?_,
    fun i status n hmem => ?_⟩
  · have hplaced := h.placed i
    show s.calls.countP (isEvent i) + inMap s i + s.calls.countP (isSending i) +
      (s.log ++ [e]).countP (isGone i) + 0 = s.notified.count i
    rw [hcount]
    omega
  · rw [hsegments]
    exact h.untouched i hi
  · rw [hsegments]
    exact h.counted i r hr
  · rw [hsegments]
    exact h.sent status n i hmem
  · rw [hsegments]
    rcases List.mem_append.mp hmem with hmem | hmem
    · exact h.forwarded i status n hmem
    · exact hforwarded i status n (List.mem_singleton.mp hmem).symm

/-- The event is handled further. -/
theorem put_event (h : Places (some id) s) (hnone : segments s id = 0) {call : Call}
    (hevent : ∀ i, isEvent i call = (id == i)) (hsending : ∀ i, isSending i call = false) :
    Places none (s.start call) := by
  have hcount : ∀ i, (s.calls ++ [call]).countP (isEvent i) =
      s.calls.countP (isEvent i) + if some id = some i then 1 else 0 := fun i => by
    rw [List.countP_append, List.countP_singleton, hevent]
    by_cases hi : i = id
    · simp [hi]
    · simp [Ne.symm hi]
  have hcount' : ∀ i, (s.calls ++ [call]).countP (isSending i) = s.calls.countP (isSending i) :=
    fun i => by simp [List.countP_append, hsending]
  refine ⟨fun i => ?_, h.once, fun i hi => ?_, h.counted, fun status n i hmem => ?_, h.forwarded⟩
  · have hplaced := h.placed i
    show (s.calls ++ [call]).countP (isEvent i) + inMap s i +
      (s.calls ++ [call]).countP (isSending i) + s.log.countP (isGone i) + 0 = s.notified.count i
    rw [hcount, hcount']
    omega
  · by_cases heq : i = id
    · exact heq ▸ hnone
    · refine h.untouched i (hi.imp_left fun hi => ?_)
      have hi : 0 < (s.calls ++ [call]).countP (isEvent i) := hi
      rw [hcount, if_neg fun he => heq (Option.some.inj he).symm] at hi
      exact hi
  · rcases List.mem_append.mp hmem with hmem | hmem
    · exact h.sent status n i hmem
    · have := hsending i
      rw [← List.mem_singleton.mp hmem] at this
      simp [isSending] at this

/-- The answer is on its way. -/
theorem put_sending (h : Places (some id) s) {status : MediaSourceStatus} {n : ℕ}
    (hn : n = segments s id) : Places none (s.start (.sending status n id)) := by
  have hcount : ∀ i, (s.calls ++ [Call.sending status n id]).countP (isSending i) =
      s.calls.countP (isSending i) + if some id = some i then 1 else 0 := fun i => by
    rw [List.countP_append, List.countP_singleton]
    simp [isSending]
  have hcount' : ∀ i, (s.calls ++ [Call.sending status n id]).countP (isEvent i) =
      s.calls.countP (isEvent i) := fun i => by
    rw [List.countP_append, List.countP_singleton, isEvent_sending]
    rfl
  refine ⟨fun i => ?_, h.once, fun i hi => ?_, h.counted, fun status n i hmem => ?_, h.forwarded⟩
  · have hplaced := h.placed i
    show (s.calls ++ [Call.sending status n id]).countP (isEvent i) + inMap s i +
      (s.calls ++ [Call.sending status n id]).countP (isSending i) + s.log.countP (isGone i) + 0 =
      s.notified.count i
    rw [hcount, hcount']
    omega
  · refine h.untouched i (hi.imp_left fun hi => ?_)
    rw [← hcount']
    exact hi
  · rcases List.mem_append.mp hmem with hmem | hmem
    · exact h.sent status n i hmem
    · cases List.mem_singleton.mp hmem
      exact hn

theorem hand_new (h : Places (some id) s) : s.needDataRequestMap.find? id = none := by
  have hplaced := h.placed id
  have honce := h.once id
  cases hfind : s.needDataRequestMap.find? id with
  | none => rfl
  | some request =>
    have hmap : inMap s id = 1 := by
      unfold inMap
      rw [hfind]
      rfl
    rw [if_pos rfl] at hplaced
    omega

/-- The request is put into the map. -/
theorem put_request (h : Places (some id) s) (hnone : segments s id = 0)
    {request : NeedDataRequest} (hrequest : Counts request 0) :
    Places none { s with needDataRequestMap := s.needDataRequestMap.insert id request } := by
  have hmap : ∀ i, inMap { s with needDataRequestMap := s.needDataRequestMap.insert id request } i =
      inMap s i + if some id = some i then 1 else 0 := fun i => by
    unfold inMap
    show (if ((s.needDataRequestMap.insert id request).find? i).isSome then 1 else 0) = _
    rw [OMap.find?_insert]
    by_cases hi : i = id
    · simp [hi, hand_new h]
    · simp [hi, Ne.symm hi]
  refine ⟨fun i => ?_, h.once, h.untouched, fun i r hr => ?_, h.sent, h.forwarded⟩
  · have hplaced := h.placed i
    show s.calls.countP (isEvent i) +
      inMap { s with needDataRequestMap := s.needDataRequestMap.insert id request } i +
      s.calls.countP (isSending i) + s.log.countP (isGone i) + 0 = s.notified.count i
    rw [hmap]
    omega
  · have hr : (s.needDataRequestMap.insert id request).find? i = some r := hr
    rw [OMap.find?_insert] at hr
    show Counts r (segments s i)
    split_ifs at hr with hi
    · cases hr
      rw [hi, hnone]
      exact hrequest
    · exact h.counted i r hr

/-! ## Sections -/

/-- The writer that `addSegment` uses has counted the segments so far. -/
theorem counted_frameWriter {env : Env} {request : NeedDataRequest} {data : MediaSegment}
    {created : Bool} {writer : AnyWriter} {n : ℕ} (h : Counts request n)
    (hwriter : frameWriter env s request data created = some writer) : Counted writer n := by
  have hframes := h.frames
  unfold frameWriter at hwriter
  cases hrequest : request.frameWriter with
  | some w =>
    rw [hrequest] at hframes hwriter
    cases hwriter
    exact counted_onMemory hframes _
  | none =>
    rw [hrequest] at hframes hwriter
    dsimp only at hwriter
    split_ifs at hwriter
    cases hwriter
    obtain ⟨r, hr⟩ := h.region
    rw [hframes, hr]
    exact counted_createFrameWriter _ _ r

theorem count_dropped (m : OMap ℕ NeedDataRequest) (i : ℕ) :
    (m.keys.map Entry.dropped).countP (isGone i) = if (m.find? i).isSome then 1 else 0 := by
  have hmem : i ∈ m.keys ↔ (m.find? i).isSome := by
    rw [Option.isSome_iff_ne_none, ne_eq, OMap.find?_eq_none, not_not]
  rw [List.countP_map]
  show m.keys.count i = _
  rw [m.keys_nodup.count]
  simp only [hmem]

theorem places_clear (h : Places none s) : Places none (clear s) := by
  have hadded : ∀ i, (s.needDataRequestMap.keys.map Entry.dropped).countP (isAdded i) = 0 :=
    fun i => by simp [List.countP_map, Function.comp_def, isAdded]
  have hsegments : ∀ i, segments (clear s) i = segments s i := fun i => by
    show (s.log ++ s.needDataRequestMap.keys.map Entry.dropped).countP (isAdded i) = _
    rw [List.countP_append, hadded]
    rfl
  refine ⟨fun i => ?_, h.once, fun i hi => ?_, nofun, fun status n i hmem => ?_,
    fun i status n hmem => ?_⟩
  · have hplaced := h.placed i
    show s.calls.countP (isEvent i) + 0 + s.calls.countP (isSending i) +
      (s.log ++ s.needDataRequestMap.keys.map Entry.dropped).countP (isGone i) + 0 =
      s.notified.count i
    rw [if_neg nofun] at hplaced
    rw [List.countP_append, count_dropped, ← hplaced]
    unfold inMap
    omega
  · rw [hsegments]
    exact h.untouched i hi
  · rw [hsegments]
    exact h.sent status n i hmem
  · rw [hsegments]
    refine h.forwarded i status n ?_
    rcases List.mem_append.mp hmem with hmem | hmem
    · exact hmem
    · simp at hmem

theorem segments_segment (s : State) (id i : ℕ) (status : AddSegmentStatus) :
    segments (s.note (.segment id status)) i =
      if status = .ok ∧ id = i then segments s i + 1 else segments s i := by
  unfold segments State.note
  rw [List.countP_append, List.countP_singleton]
  cases status <;> simp [isAdded]
  split_ifs <;> rfl

/-- `addSegment` writes to the memory and to requests in the map. -/
theorem addSegment_keys (env : Env) (s : State) (id : ℕ) (a : Segment) :
    ∃ shm m, (addSegment env s id a).1 = { s with shm := shm, needDataRequestMap := m } ∧
      ∀ i, (m.find? i).isSome ↔ (s.needDataRequestMap.find? i).isSome := by
  unfold addSegment
  cases a.mediaSegment with
  | none => exact ⟨s.shm, s.needDataRequestMap, rfl, fun _ => Iff.rfl⟩
  | some mediaSegment =>
    cases hfind : s.needDataRequestMap.find? id with
    | none => exact ⟨s.shm, s.needDataRequestMap, rfl, fun _ => Iff.rfl⟩
    | some request =>
      dsimp only
      split_ifs
      · exact ⟨s.shm, s.needDataRequestMap, rfl, fun _ => Iff.rfl⟩
      · cases frameWriter env s request (withKeyId mediaSegment a.keyId) a.created with
        | none => exact ⟨s.shm, s.needDataRequestMap, rfl, fun _ => Iff.rfl⟩
        | some writer =>
          refine ⟨_, _, rfl, fun i => ?_⟩
          rw [OMap.find?_insert]
          split_ifs with hi
          · rw [hi, hfind]
            exact Iff.rfl
          · exact Iff.rfl

/-- `addSegment` fails and changes nothing, or it leaves a request in the map that has counted the
segment. -/
theorem addSegment_cases (env : Env) (s : State) (id : ℕ) (a : Segment)
    (hcounted : ∀ request, s.needDataRequestMap.find? id = some request →
      Counts request (segments s id)) :
    addSegment env s id a = (s, .error) ∨
    ∃ shm request status, (s.needDataRequestMap.find? id).isSome ∧
      Counts request (if status = .ok then segments s id + 1 else segments s id) ∧
      addSegment env s id a = ({ s with
        shm := shm
        needDataRequestMap := s.needDataRequestMap.insert id request }, status) := by
  unfold addSegment
  cases a.mediaSegment with
  | none => exact Or.inl rfl
  | some mediaSegment =>
    cases hfind : s.needDataRequestMap.find? id with
    | none => exact Or.inl rfl
    | some request =>
      have hrequest := hcounted request hfind
      dsimp only
      split_ifs
      · exact Or.inl rfl
      · cases hwriter : frameWriter env s request (withKeyId mediaSegment a.keyId) a.created with
        | none => exact Or.inl rfl
        | some writer =>
          refine Or.inr ⟨_, ⟨request.shmInfo, some _⟩, _, rfl, ⟨hrequest.region, ?_⟩, rfl⟩
          exact writeFrame_counted env.pb (counted_frameWriter hrequest hwriter) _

/-- A request in the map is at no other place. -/
theorem in_map (h : Places none s) (hfind : (s.needDataRequestMap.find? id).isSome) :
    s.calls.countP (isEvent id) = 0 ∧ s.calls.countP (isSending id) = 0 ∧
      s.log.countP (isGone id) = 0 ∧ s.notified.count id = 1 := by
  have hplaced := h.placed id
  have honce := h.once id
  have hmap : inMap s id = 1 := if_pos hfind
  omega

/-- An entry that is about no place: a segment that was not added, or the call of the client. -/
theorem places_note (h : Places none s) {e : Entry} (hgone : ∀ i, isGone i e = false)
    (hadded : ∀ i, isAdded i e = false) (hforwarded : ∀ i status n, e ≠ .forwarded i status n) :
    Places none (s.note e) := by
  have hsegments : ∀ i, segments (s.note e) i = segments s i := fun i =>
    segments_note s i (hadded i)
  refine ⟨fun i => ?_, h.once, fun i hi => ?_, fun i r hr => ?_, fun status n i hmem => ?_,
    fun i status n hmem => ?_⟩
  · have hplaced := h.placed i
    show s.calls.countP (isEvent i) + inMap s i + s.calls.countP (isSending i) +
      (s.log ++ [e]).countP (isGone i) + _ = s.notified.count i
    rw [List.countP_append, List.countP_singleton, hgone, ← hplaced]
    rfl
  · rw [hsegments]
    exact h.untouched i hi
  · rw [hsegments]
    exact h.counted i r hr
  · rw [hsegments]
    exact h.sent status n i hmem
  · rw [hsegments]
    rcases List.mem_append.mp hmem with hmem | hmem
    · exact h.forwarded i status n hmem
    · exact absurd (List.mem_singleton.mp hmem).symm (hforwarded i status n)

/-- A segment that was written. -/
theorem places_written (h : Places none s) (hfind : (s.needDataRequestMap.find? id).isSome)
    {request : NeedDataRequest} {status : AddSegmentStatus}
    (hrequest : Counts request (if status = .ok then segments s id + 1 else segments s id))
    (shm : Rialto.Lib.Memory.Mem UInt8) :
    Places none (State.note { s with
      shm := shm
      needDataRequestMap := s.needDataRequestMap.insert id request } (.segment id status)) := by
  obtain ⟨hevent, hsending, hgone, hnotified⟩ := in_map h hfind
  have hmap : ∀ i, inMap { s with
      needDataRequestMap := s.needDataRequestMap.insert id request } i = inMap s i := fun i => by
    unfold inMap
    show (if ((s.needDataRequestMap.insert id request).find? i).isSome then 1 else 0) = _
    rw [OMap.find?_insert]
    by_cases hi : i = id
    · simp [hi, hfind]
    · simp [hi]
  -- nothing else counts the segments of this request
  have hother : ∀ {i}, i ≠ id → segments (State.note { s with
      shm := shm
      needDataRequestMap := s.needDataRequestMap.insert id request } (.segment id status)) i =
      segments s i := fun {i} hi => by
    rw [segments_segment, if_neg fun he => hi he.2.symm]
    rfl
  refine ⟨fun i => ?_, h.once, fun i hi => ?_, fun i r hr => ?_, fun status' n i hmem => ?_,
    fun i status' n hmem => ?_⟩
  · have hplaced := h.placed i
    show s.calls.countP (isEvent i) +
      inMap { s with needDataRequestMap := s.needDataRequestMap.insert id request } i +
      s.calls.countP (isSending i) +
      (s.log ++ [Entry.segment id status]).countP (isGone i) + _ = s.notified.count i
    rw [hmap, List.countP_append, ← hplaced]
    rfl
  · rw [hother fun heq => ?_]
    · exact h.untouched i hi
    · rcases hi with hi | hi
      · rw [heq] at hi
        exact Nat.lt_irrefl 0 (Nat.lt_of_lt_of_eq hi hevent)
      · rw [heq] at hi
        exact absurd (hnotified.symm.trans hi) Nat.one_ne_zero
  · have hr : (s.needDataRequestMap.insert id request).find? i = some r := hr
    rw [OMap.find?_insert] at hr
    split_ifs at hr with heq
    · cases hr
      rw [heq, segments_segment]
      simp only [and_true]
      exact hrequest
    · rw [hother heq]
      exact h.counted i r hr
  · rw [hother fun heq => ?_]
    · exact h.sent status' n i hmem
    · have := List.countP_eq_zero.mp hsending _ hmem
      simp [isSending, heq] at this
  · have hmem : .forwarded i status' n ∈ s.log := by simpa [State.note] using hmem
    rw [hother fun heq => ?_]
    · exact h.forwarded i status' n hmem
    · have := List.countP_eq_zero.mp hgone _ hmem
      simp [isGone, heq] at this

end Moves

end Rialto.Client.Requests

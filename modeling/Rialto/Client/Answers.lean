import Rialto.Client.Requests
import Rialto.Lib.Runs
import Rialto.Media.FramesV2

/-! # Requests of the server are answered at most once

* `resume_places`, `step_places`: every step keeps the places of the requests, as long as the server
  does not reuse an id.
* `ended_step`, `step_over`: the sections of `setPosition`, `notifyBufferTerm` and `haveData` end
  the requests they find in the map, for good.
* `answered_at_most_once`: what that says of the answers and of the writes to the shared memory.

A request is in the map a moment before the client is called with its id (`added_early`). -/

namespace Rialto.Client.Answers

open Rialto.Lib.OrdMap Rialto.Lib.Runs Rialto.Media.Segment Rialto.Media.Frames
open Rialto.Media.FramesV2 Rialto.Client.MediaPipeline Rialto.Client.Requests
open Rialto.Pipeline.Session (MediaSourceStatus)

section Steps

variable {env : Env} {s s' : State}

/-! ## Parts of calls -/

theorem places_takeRequest (h : Places none s) (status : MediaSourceStatus) (id : ℕ) :
    Places none { (takeRequest s status id).1 with
      calls := (takeRequest s status id).1.calls ++ (takeRequest s status id).2 } := by
  unfold takeRequest
  cases hfind : s.needDataRequestMap.find? id with
  | none =>
    simp only [List.append_nil]
    exact h
  | some request =>
    obtain ⟨htaken, hcounts⟩ := take_request h hfind
    exact put_sending htaken (numFrames_eq hcounts)

theorem places_discard (h : Places none s) (id : ℕ) :
    Places none (discardNeedDataRequest s id) := by
  unfold discardNeedDataRequest
  cases hfind : s.needDataRequestMap.find? id with
  | none => exact h
  | some request =>
    obtain ⟨htaken, -⟩ := take_request h hfind
    exact put_gone htaken (fun _ => rfl) (fun _ => rfl) nofun

/-- The next part of a call keeps the places. -/
theorem resume_places {call : Call} {rest : List Call}
    (h : Places none { s with calls := call :: rest }) :
    Places none { (resume { s with calls := rest } call).1 with
      calls := (resume { s with calls := rest } call).1.calls ++
        (resume { s with calls := rest } call).2 } := by
  cases call with
  | known id region =>
    obtain ⟨htaken, hnone⟩ := @take_event s id rest _ h (fun _ => rfl)
      fun _ => rfl
    unfold resume
    dsimp only
    split_ifs
    · exact put_event htaken hnone (fun _ => rfl) fun _ => rfl
    · simp only [List.append_nil]
      exact put_gone htaken (fun _ => rfl) (fun _ => rfl) nofun
  | inserting id region =>
    obtain ⟨htaken, hnone⟩ := @take_event s id rest _ h (fun _ => rfl)
      fun _ => rfl
    have hcounts : Counts ⟨needMediaData region, none⟩ 0 := ⟨⟨region, rfl⟩, rfl⟩
    exact places_start (put_request htaken hnone hcounts) fun _ => ⟨rfl, rfl⟩
  | delivering id =>
    have h := (places_cons fun _ => ⟨rfl, rfl⟩).mp h
    unfold resume
    simp only [List.append_nil]
    split_ifs
    · exact places_note h (fun _ => rfl) (fun _ => rfl) nofun
    · exact h
  | answering status id =>
    exact places_takeRequest ((places_cons fun _ => ⟨rfl, rfl⟩).mp h) status id
  | discarding id =>
    unfold resume
    simp only [List.append_nil]
    exact places_discard ((places_cons fun _ => ⟨rfl, rfl⟩).mp h) id
  | sending status numFrames id =>
    obtain ⟨htaken, hn⟩ := take_sending h
    unfold resume
    simp only [List.append_nil]
    refine put_gone htaken (fun _ => rfl) (fun _ => rfl) ?_
    intro i status' n he
    cases he
    exact hn
  | clearing =>
    exact places_start (places_clear ((places_cons fun _ => ⟨rfl, rfl⟩).mp h))
      fun _ => ⟨rfl, rfl⟩
  | positioning =>
    unfold resume
    simp only [List.append_nil]
    exact (places_cons fun _ => ⟨rfl, rfl⟩).mp h
  | adding sourceId type =>
    have h := (places_cons fun _ => ⟨rfl, rfl⟩).mp h
    unfold resume
    simp only [List.append_nil]
    exact ⟨h.placed, h.once, h.untouched, h.counted, h.sent, h.forwarded⟩
  | removing sourceId =>
    unfold resume
    simp only [List.append_nil]
    exact (places_cons fun _ => ⟨rfl, rfl⟩).mp h

/-- The call at a place goes on; the order of the others does not matter. -/
theorem proceed_cases {i : ℕ} (h : proceed s i = some s') :
    ∃ call rest, s.calls[i]? = some call ∧ s.calls.Perm (call :: rest) ∧
      s' = { (resume { s with calls := rest } call).1 with
        calls := (resume { s with calls := rest } call).1.calls ++
          (resume { s with calls := rest } call).2 } := by
  unfold proceed at h
  cases hcall : s.calls[i]? with
  | none =>
    rw [hcall] at h
    exact nomatch h
  | some call =>
    rw [hcall] at h
    cases h
    obtain ⟨hi, rfl⟩ := List.getElem?_eq_some_iff.mp hcall
    exact ⟨_, s.calls.eraseIdx i, rfl, (List.getElem_cons_eraseIdx_perm hi).symm, rfl⟩

theorem proceed_places {i : ℕ} (h : Places none s) (hproceed : proceed s i = some s') :
    Places none s' := by
  obtain ⟨call, rest, -, hperm, rfl⟩ := proceed_cases hproceed
  exact resume_places (places_perm h hperm)

/-! ## Steps -/

/-- The server does not reuse an id. -/
def Fresh (s : State) : Act → Prop
  | .notifyNeedMediaData _ requestId _ => requestId ∉ s.notified
  | _ => True

theorem step_places {a : Act} (h : Places none s) (hfresh : Fresh s a)
    (hstep : step env s a = some s') : Places none s' := by
  cases a with
  | notifyNeedMediaData sourceId requestId region =>
    cases hstep
    obtain ⟨htaken, hnone⟩ := take_notified h hfresh
    unfold notifyNeedMediaData
    dsimp only
    split_ifs
    · exact put_gone htaken (fun _ => rfl) (fun _ => rfl) nofun
    · exact put_event htaken hnone (fun _ => rfl) fun _ => rfl
  | haveData status id =>
    cases hstep
    unfold haveData
    split_ifs
    · exact places_start h fun _ => ⟨rfl, rfl⟩
    · exact places_start h fun _ => ⟨rfl, rfl⟩
  | setPosition =>
    cases hstep
    unfold setPosition
    split_ifs
    · exact places_start h fun _ => ⟨rfl, rfl⟩
    · exact h
  | stop =>
    cases hstep
    exact ⟨h.placed, h.once, h.untouched, h.counted, h.sent, h.forwarded⟩
  | notifyBufferTerm =>
    cases hstep
    exact places_clear h
  | notifyPlaybackState state =>
    cases hstep
    exact ⟨h.placed, h.once, h.untouched, h.counted, h.sent, h.forwarded⟩
  | notifyNetworkState state =>
    cases hstep
    exact ⟨h.placed, h.once, h.untouched, h.counted, h.sent, h.forwarded⟩
  | attachSource sourceId type =>
    cases hstep
    exact places_start h fun _ => ⟨rfl, rfl⟩
  | removeSource sourceId =>
    cases hstep
    refine places_start ?_ fun _ => ⟨rfl, rfl⟩
    exact ⟨h.placed, h.once, h.untouched, h.counted, h.sent, h.forwarded⟩
  | addSegment id a =>
    rcases addSegment_cases env s id a (h.counted id) with ha |
      ⟨shm, request, status, hfind, hrequest, ha⟩
    · simp only [step, ha, Option.some.injEq] at hstep
      subst hstep
      exact places_note h (fun _ => rfl) (fun _ => rfl) nofun
    · simp only [step, ha, Option.some.injEq] at hstep
      subst hstep
      exact places_written h hfind hrequest shm
  | releaseClient =>
    cases hstep
    exact ⟨h.placed, h.once, h.untouched, h.counted, h.sent, h.forwarded⟩
  | proceed i => exact proceed_places h hstep

theorem run_places {shm : Rialto.Lib.Memory.Mem UInt8} {as : List Act}
    (h : Run (step env) Fresh (init shm) as s) : Places none s :=
  h.invariant (Places none) (fun _ _ _ hs hok hstep => step_places hs hok hstep) (places_init shm)

end Steps

/-! ## Requests that have ended -/

/-- The request is in the map. -/
def Held (id : ℕ) (s : State) : Prop := (s.needDataRequestMap.find? id).isSome

/-- The step drops the requests in the map: `notifyBufferTerm`, or the section of `setPosition`. -/
def Clears (s : State) (a : Act) : Prop :=
  a = .notifyBufferTerm ∨ ∃ i, a = .proceed i ∧ s.calls[i]? = some .clearing

/-- The step is the section of a `haveData` for the request. -/
def Takes (id : ℕ) (s : State) (a : Act) : Prop :=
  ∃ i, a = .proceed i ∧ ((∃ status, s.calls[i]? = some (.answering status id)) ∨
    s.calls[i]? = some (.discarding id))

/-- The request was sent, its event is handled, and it is not in the map. -/
structure Over (id : ℕ) (s : State) : Prop where
  notified : id ∈ s.notified
  event : ∀ call ∈ s.calls, isEvent id call = false
  out : s.needDataRequestMap.find? id = none

/-- No answer was sent to the server, or is on its way. -/
structure Unsent (id : ℕ) (s : State) : Prop where
  calls : ∀ call ∈ s.calls, isSending id call = false
  log : ∀ status n, .forwarded id status n ∉ s.log

section Ends

variable {env : Env} {s s' : State} {id : ℕ}

/-- A step that brings nothing of the request back. -/
theorem Over.keep (h : Over id s) (hnotified : s.notified ⊆ s'.notified)
    (hcalls : ∀ call ∈ s'.calls, call ∈ s.calls ∨ isEvent id call = false ∧
      isSending id call = false)
    (hout : s'.needDataRequestMap.find? id = none)
    (hlog : Unsent id s → ∀ status n, .forwarded id status n ∉ s'.log) :
    Over id s' ∧ (Unsent id s → Unsent id s') := by
  refine ⟨⟨hnotified h.notified, fun call hcall => ?_, hout⟩,
    fun hu => ⟨fun call hcall => ?_, hlog hu⟩⟩
  · exact (hcalls call hcall).elim (h.event call) And.left
  · exact (hcalls call hcall).elim (hu.calls call) And.right

/-- An entry that is no answer to the request. -/
theorem Unsent.note (h : Unsent id s) {e : Entry} (he : ∀ status n, e ≠ .forwarded id status n) :
    ∀ status n, .forwarded id status n ∉ (s.note e).log := by
  intro status n hmem
  rcases List.mem_append.mp hmem with hmem | hmem
  · exact h.log status n hmem
  · exact he status n (List.mem_singleton.mp hmem).symm

/-- Clearing the map is no answer. -/
theorem Unsent.clear (h : Unsent id s) :
    ∀ status n, .forwarded id status n ∉ (MediaPipeline.clear s).log := by
  intro status n hmem
  rcases List.mem_append.mp hmem with hmem | hmem
  · exact h.log status n hmem
  · simp at hmem

theorem Over.start (h : Over id s) {call : Call} (hcall : Bystander call) :
    Over id (s.start call) ∧ (Unsent id s → Unsent id (s.start call)) := by
  refine h.keep (List.Subset.refl _) (fun c hc => ?_) h.out fun hu => hu.log
  refine (List.mem_append.mp hc).imp_right fun hc => ?_
  rw [List.mem_singleton.mp hc]
  exact hcall id

theorem find?_erase_none {m : OMap ℕ NeedDataRequest} (h : m.find? id = none) (i : ℕ) :
    (m.erase i).find? id = none := by
  rw [OMap.find?_erase, h, ite_self]

/-- The next part of a call leaves an ended request ended. -/
theorem resume_over {call : Call} {rest : List Call}
    (h : Over id { s with calls := call :: rest }) :
    Over id { (resume { s with calls := rest } call).1 with
        calls := (resume { s with calls := rest } call).1.calls ++
          (resume { s with calls := rest } call).2 } ∧
      (Unsent id { s with calls := call :: rest } →
        Unsent id { (resume { s with calls := rest } call).1 with
          calls := (resume { s with calls := rest } call).1.calls ++
            (resume { s with calls := rest } call).2 }) := by
  have hnotified : s.notified ⊆ s.notified := List.Subset.refl _
  have hevent := h.event call List.mem_cons_self
  have hout : s.needDataRequestMap.find? id = none := h.out
  have hrest : ∀ c ∈ rest ++ [], c ∈ call :: rest ∨ isEvent id c = false ∧ isSending id c = false :=
    fun c hc => Or.inl (List.mem_cons_of_mem _ (List.append_nil rest ▸ hc))
  have hmore : ∀ {new : Call}, (isEvent id new = false ∧ isSending id new = false) →
      ∀ c ∈ rest ++ [new], c ∈ call :: rest ∨ isEvent id c = false ∧ isSending id c = false := by
    intro new hnew c hc
    rcases List.mem_append.mp hc with hc | hc
    · exact Or.inl (List.mem_cons_of_mem _ hc)
    · rw [List.mem_singleton.mp hc]
      exact Or.inr hnew
  cases call with
  | known i region =>
    unfold resume
    dsimp only
    split_ifs
    · exact h.keep hnotified (hmore ⟨hevent, rfl⟩) hout fun hu => hu.log
    · exact h.keep hnotified hrest hout fun hu => hu.note (by simp)
  | inserting i region =>
    have hi : i ≠ id := by simpa [isEvent] using hevent
    refine h.keep hnotified (hmore ⟨rfl, rfl⟩) ?_ fun hu => hu.log
    show (s.needDataRequestMap.insert i _).find? id = none
    rw [OMap.find?_insert, if_neg (Ne.symm hi)]
    exact hout
  | delivering i =>
    unfold resume
    dsimp only
    split_ifs
    · exact h.keep hnotified hrest hout fun hu => hu.note (by simp)
    · exact h.keep hnotified hrest hout fun hu => hu.log
  | answering status i =>
    unfold resume takeRequest
    dsimp only
    cases hfind : s.needDataRequestMap.find? i with
    | none =>
      dsimp only
      exact h.keep hnotified hrest hout fun hu => hu.log
    | some request =>
      dsimp only
      have hi : i ≠ id := by
        rintro rfl
        rw [hout] at hfind
        cases hfind
      have hnew : isEvent id (.sending status request.numFrames i) = false ∧
          isSending id (.sending status request.numFrames i) = false :=
        ⟨rfl, by simpa [isSending] using hi⟩
      exact h.keep hnotified (hmore hnew) (find?_erase_none hout i) fun hu => hu.log
  | discarding i =>
    unfold resume discardNeedDataRequest
    dsimp only
    cases hfind : s.needDataRequestMap.find? i with
    | none =>
      dsimp only
      exact h.keep hnotified hrest hout fun hu => hu.log
    | some request =>
      dsimp only
      exact h.keep hnotified hrest (find?_erase_none hout i) fun hu => hu.note (by simp)
  | sending status n i =>
    refine h.keep hnotified hrest hout fun hu => hu.note ?_
    rintro status' n' heq
    cases heq
    have := hu.calls _ List.mem_cons_self
    simp [isSending] at this
  | clearing =>
    exact h.keep hnotified (hmore ⟨rfl, rfl⟩) rfl fun hu => hu.clear
  | positioning => exact h.keep hnotified hrest hout fun hu => hu.log
  | adding sourceId type => exact h.keep hnotified hrest hout fun hu => hu.log
  | removing sourceId => exact h.keep hnotified hrest hout fun hu => hu.log

/-- **A request that has ended does not come back**, as long as the server does not reuse its id,
and if it was not answered it never is. -/
theorem step_over {a : Act} (h : Over id s) (hfresh : Fresh s a) (hstep : step env s a = some s') :
    Over id s' ∧ (Unsent id s → Unsent id s') := by
  have hnotified : s.notified ⊆ s.notified := List.Subset.refl _
  have hcalls : ∀ c ∈ s.calls, c ∈ s.calls ∨ isEvent id c = false ∧ isSending id c = false :=
    fun _ => Or.inl
  cases a with
  | notifyNeedMediaData sourceId requestId region =>
    have hne : requestId ≠ id := fun heq => hfresh (heq ▸ h.notified)
    cases hstep
    unfold notifyNeedMediaData
    dsimp only
    split_ifs
    · exact h.keep (List.subset_append_left _ _) hcalls h.out fun hu => hu.note (by simp)
    · refine h.keep (List.subset_append_left _ _) (fun c hc => ?_) h.out fun hu => hu.log
      refine (List.mem_append.mp hc).imp_right fun hc => ?_
      rw [List.mem_singleton.mp hc]
      exact ⟨by simpa [isEvent] using hne, rfl⟩
  | haveData status i =>
    cases hstep
    unfold haveData
    split_ifs
    · exact h.start fun _ => ⟨rfl, rfl⟩
    · exact h.start fun _ => ⟨rfl, rfl⟩
  | setPosition =>
    cases hstep
    unfold setPosition
    split_ifs
    · exact h.start fun _ => ⟨rfl, rfl⟩
    · exact ⟨h, fun hu => hu⟩
  | stop =>
    cases hstep
    exact h.keep hnotified hcalls h.out fun hu => hu.log
  | notifyBufferTerm =>
    cases hstep
    exact h.keep hnotified hcalls rfl fun hu => hu.clear
  | notifyPlaybackState state =>
    cases hstep
    exact h.keep hnotified hcalls h.out fun hu => hu.log
  | notifyNetworkState state =>
    cases hstep
    exact h.keep hnotified hcalls h.out fun hu => hu.log
  | attachSource sourceId type =>
    cases hstep
    exact h.start fun _ => ⟨rfl, rfl⟩
  | removeSource sourceId =>
    cases hstep
    refine h.keep hnotified (fun c hc => ?_) h.out fun hu => hu.log
    refine (List.mem_append.mp hc).imp_right fun hc => ?_
    rw [List.mem_singleton.mp hc]
    exact ⟨rfl, rfl⟩
  | addSegment i a =>
    obtain ⟨shm, m, hadd, hkeys⟩ := addSegment_keys env s i a
    simp only [step, Option.some.injEq] at hstep
    subst hstep
    rw [hadd]
    refine h.keep hnotified hcalls ?_ fun hu => hu.note (by simp)
    have hnone := (hkeys id).not.mpr (by rw [h.out]; simp)
    exact Option.not_isSome_iff_eq_none.mp hnone
  | releaseClient =>
    cases hstep
    exact h.keep hnotified hcalls h.out fun hu => hu.log
  | proceed i =>
    obtain ⟨call, rest, -, hperm, rfl⟩ := proceed_cases hstep
    have hover : Over id { s with calls := call :: rest } :=
      ⟨h.notified, fun c hc => h.event c (hperm.mem_iff.mpr hc), h.out⟩
    refine ⟨(resume_over hover).1, fun hu => (resume_over hover).2 ?_⟩
    exact ⟨fun c hc => hu.calls c (hperm.mem_iff.mpr hc), hu.log⟩

/-- **The sections that end a request** in the map; where they clear the map, without an answer. -/
theorem ended_step {a : Act} (h : Places none s) (hstep : step env s a = some s')
    (hheld : Held id s) (hends : Clears s a ∨ Takes id s a) :
    Over id s' ∧ (Clears s a → Unsent id s') := by
  obtain ⟨hevent, hsending, hgone, hcount⟩ := in_map h hheld
  have hnotified : id ∈ s.notified := List.one_le_count_iff.mp (Nat.le_of_eq hcount.symm)
  have hno : ∀ call ∈ s.calls, isEvent id call = false := fun call hcall =>
    Bool.eq_false_iff.mpr (List.countP_eq_zero.mp hevent call hcall)
  have hunsent : Unsent id s := by
    refine ⟨fun call hcall => ?_, fun status n hmem => ?_⟩
    · exact Bool.eq_false_iff.mpr (List.countP_eq_zero.mp hsending call hcall)
    · exact List.countP_eq_zero.mp hgone _ hmem (beq_self_eq_true id)
  rcases hends with (rfl | ⟨i, rfl, hcall⟩) | ⟨i, rfl, hcall⟩
  · cases hstep
    exact ⟨⟨hnotified, hno, rfl⟩, fun _ => ⟨hunsent.calls, hunsent.clear⟩⟩
  · obtain ⟨call, rest, hat, hperm, rfl⟩ := proceed_cases hstep
    obtain rfl : call = .clearing := Option.some.inj (hat.symm.trans hcall)
    have hrest : ∀ c ∈ rest ++ [Call.positioning], c ∈ s.calls ∨ c = .positioning := fun c hc =>
      (List.mem_append.mp hc).imp (fun hc => hperm.mem_iff.mpr (List.mem_cons_of_mem _ hc))
        List.mem_singleton.mp
    refine ⟨⟨hnotified, fun c hc => ?_, rfl⟩, fun _ => ⟨fun c hc => ?_, hunsent.clear⟩⟩
    · rcases hrest c hc with hc | rfl
      · exact hno c hc
      · rfl
    · rcases hrest c hc with hc | rfl
      · exact hunsent.calls c hc
      · rfl
  · obtain ⟨call, rest, hat, hperm, rfl⟩ := proceed_cases hstep
    have hrest : ∀ c ∈ rest, isEvent id c = false := fun c hc =>
      hno c (hperm.mem_iff.mpr (List.mem_cons_of_mem _ hc))
    have hnever : ¬ Clears s (.proceed i) := by
      rintro (heq | ⟨j, heq, hclear⟩)
      · cases heq
      · cases heq
        rcases hcall with ⟨status, hcall⟩ | hcall <;> rw [hcall] at hclear <;> cases hclear
    refine ⟨?_, fun hclears => absurd hclears hnever⟩
    obtain ⟨request, hfind⟩ := Option.isSome_iff_exists.mp hheld
    have hout : (s.needDataRequestMap.erase id).find? id = none := by
      rw [OMap.find?_erase, if_pos rfl]
    rcases hcall with ⟨status, hcall⟩ | hcall
    · obtain rfl : call = .answering status id := Option.some.inj (hat.symm.trans hcall)
      unfold resume takeRequest
      dsimp only
      simp only [hfind]
      refine ⟨hnotified, fun c hc => ?_, hout⟩
      rcases List.mem_append.mp hc with hc | hc
      · exact hrest c hc
      · rw [List.mem_singleton.mp hc]
        rfl
    · obtain rfl : call = .discarding id := Option.some.inj (hat.symm.trans hcall)
      unfold resume discardNeedDataRequest
      dsimp only
      simp only [hfind]
      exact ⟨hnotified, fun c hc => hrest c (List.append_nil rest ▸ hc), hout⟩

/-- A request that ended in a run is over at its end. -/
theorem run_over {shm : Rialto.Lib.Memory.Mem UInt8} {as : List Act} {t : State} {a : Act}
    (hrun : Run (step env) Fresh (init shm) as s)
    (hat : Occurs (step env) Fresh (init shm) as a t) (hheld : Held id t)
    (hends : Clears t a ∨ Takes id t a) : Over id s ∧ (Clears t a → Unsent id s) := by
  obtain ⟨t', bs, -, hstep, hrest⟩ := hat.rest hrun
  obtain ⟨pre, -, -, hpre⟩ := hat
  obtain ⟨hover, hunsent⟩ := ended_step (run_places hpre) hstep hheld hends
  have hkept := hrest.invariant (fun u => Over id u ∧ (Unsent id t' → Unsent id u))
    (fun u b u' hu hfresh hb => ?_) ⟨hover, fun h => h⟩
  · exact ⟨hkept.1, fun hclears => hkept.2 (hunsent hclears)⟩
  · obtain ⟨hover', hunsent'⟩ := step_over hu.1 hfresh hb
    exact ⟨hover', fun h => hunsent' (hu.2 h)⟩

end Ends

/-! ## Requests that the client is given -/

/-- The client was called with the id, or is called next by the thread that has put the request into
the map, or has let go of its `IMediaPipelineClient`. -/
def Given (id : ℕ) (s : State) : Prop :=
  .delivered id ∈ s.log ∨ .delivering id ∈ s.calls ∨ s.client = false

section Given

variable {env : Env} {s s' : State}

theorem given_of (h : ∀ id, Held id s → Given id s) (hheld : ∀ id, Held id s' → Held id s)
    (hlog : s.log ⊆ s'.log) (hcalls : ∀ id, .delivering id ∈ s.calls → .delivering id ∈ s'.calls)
    (hclient : s.client = false → s'.client = false) (id : ℕ) (hid : Held id s') : Given id s' :=
  (h id (hheld id hid)).imp (fun h => hlog h) (Or.imp (hcalls id) hclient)

/-- The next part of a call puts nothing into the map without calling the client next. -/
theorem resume_given {call : Call} {rest : List Call}
    (h : ∀ id, Held id { s with calls := call :: rest } →
      Given id { s with calls := call :: rest }) :
    ∀ id, Held id { (resume { s with calls := rest } call).1 with
        calls := (resume { s with calls := rest } call).1.calls ++
          (resume { s with calls := rest } call).2 } →
      Given id { (resume { s with calls := rest } call).1 with
        calls := (resume { s with calls := rest } call).1.calls ++
          (resume { s with calls := rest } call).2 } := by
  -- the calls of the client that are under way, when this is none
  have hrest : (∀ i, call ≠ .delivering i) → ∀ more i, .delivering i ∈ call :: rest →
      .delivering i ∈ rest ++ more := fun hne more i hmem =>
    List.mem_append_left _ ((List.mem_cons.mp hmem).resolve_left (hne i ∘ Eq.symm))
  have hlog : s.log ⊆ s.log := List.Subset.refl _
  have herase : ∀ i j, ((s.needDataRequestMap.erase j).find? i).isSome →
      (s.needDataRequestMap.find? i).isSome := fun i j hi => by
    rw [OMap.find?_erase] at hi
    split_ifs at hi
    · exact nomatch hi
    · exact hi
  cases call with
  | known i region =>
    unfold resume
    dsimp only
    split_ifs
    · exact given_of h (fun _ h => h) hlog (hrest nofun _) fun h => h
    · exact given_of h (fun _ h => h) (List.subset_append_left _ _) (hrest nofun _) fun h => h
  | inserting i region =>
    intro id hid
    by_cases hi : id = i
    · exact Or.inr (Or.inl (List.mem_append_right _ (hi ▸ List.mem_singleton_self _)))
    · have hold : Held id { s with calls := .inserting i region :: rest } := by
        have hid : ((s.needDataRequestMap.insert i _).find? id).isSome := hid
        rw [OMap.find?_insert, if_neg hi] at hid
        exact hid
      exact (h id hold).imp (fun h => h) (Or.imp (hrest nofun _ id) fun h => h)
  | delivering i =>
    unfold resume
    dsimp only
    split_ifs with hclient
    · intro id hid
      rcases h id hid with hlogged | hcall | hgone
      · exact Or.inl (List.mem_append_left _ hlogged)
      · rcases List.mem_cons.mp hcall with heq | hcall
        · cases heq
          exact Or.inl (List.mem_append_right _ (List.mem_singleton_self _))
        · exact Or.inr (Or.inl (List.mem_append_left _ hcall))
      · exact Or.inr (Or.inr hgone)
    · exact fun _ _ => Or.inr (Or.inr (Bool.eq_false_iff.mpr hclient))
  | answering status i =>
    unfold resume takeRequest
    dsimp only
    cases hfind : s.needDataRequestMap.find? i with
    | none => exact given_of h (fun _ h => h) hlog (hrest nofun _) fun h => h
    | some request => exact given_of h (fun j => herase j i) hlog (hrest nofun _) fun h => h
  | discarding i =>
    unfold resume discardNeedDataRequest
    dsimp only
    cases hfind : s.needDataRequestMap.find? i with
    | none => exact given_of h (fun _ h => h) hlog (hrest nofun _) fun h => h
    | some request =>
      exact given_of h (fun j => herase j i) (List.subset_append_left _ _) (hrest nofun _)
        fun h => h
  | sending status n i =>
    exact given_of h (fun _ h => h) (List.subset_append_left _ _) (hrest nofun _) fun h => h
  | clearing => exact fun _ hid => nomatch hid
  | positioning => exact given_of h (fun _ h => h) hlog (hrest nofun _) fun h => h
  | adding sourceId type => exact given_of h (fun _ h => h) hlog (hrest nofun _) fun h => h
  | removing sourceId => exact given_of h (fun _ h => h) hlog (hrest nofun _) fun h => h

theorem step_given {a : Act} (h : ∀ id, Held id s → Given id s) (hstep : step env s a = some s') :
    ∀ id, Held id s' → Given id s' := by
  have hlog : s.log ⊆ s.log := List.Subset.refl _
  have hmore : ∀ call i, .delivering i ∈ s.calls → .delivering i ∈ s.calls ++ [call] :=
    fun call i hi => List.mem_append_left _ hi
  cases a with
  | notifyNeedMediaData sourceId requestId region =>
    cases hstep
    unfold notifyNeedMediaData
    dsimp only
    split_ifs
    · exact given_of h (fun _ h => h) (List.subset_append_left _ _) (fun _ h => h) fun h => h
    · exact given_of h (fun _ h => h) hlog (hmore _) fun h => h
  | haveData status i =>
    cases hstep
    unfold haveData
    split_ifs
    · exact given_of h (fun _ h => h) hlog (hmore _) fun h => h
    · exact given_of h (fun _ h => h) hlog (hmore _) fun h => h
  | setPosition =>
    cases hstep
    unfold setPosition
    split_ifs
    · exact given_of h (fun _ h => h) hlog (hmore _) fun h => h
    · exact h
  | stop =>
    cases hstep
    exact given_of h (fun _ h => h) hlog (fun _ h => h) fun h => h
  | notifyBufferTerm =>
    cases hstep
    exact fun _ hid => nomatch hid
  | notifyPlaybackState state =>
    cases hstep
    exact given_of h (fun _ h => h) hlog (fun _ h => h) fun h => h
  | notifyNetworkState state =>
    cases hstep
    exact given_of h (fun _ h => h) hlog (fun _ h => h) fun h => h
  | attachSource sourceId type =>
    cases hstep
    exact given_of h (fun _ h => h) hlog (hmore _) fun h => h
  | removeSource sourceId =>
    cases hstep
    exact given_of h (fun _ h => h) hlog (hmore _) fun h => h
  | addSegment i a =>
    obtain ⟨shm, m, hadd, hkeys⟩ := addSegment_keys env s i a
    simp only [step, Option.some.injEq] at hstep
    subst hstep
    rw [hadd]
    exact given_of h (fun id => (hkeys id).mp) (List.subset_append_left _ _) (fun _ h => h)
      fun h => h
  | releaseClient =>
    cases hstep
    exact given_of h (fun _ h => h) hlog (fun _ h => h) fun _ => rfl
  | proceed i =>
    obtain ⟨call, rest, -, hperm, rfl⟩ := proceed_cases hstep
    refine resume_given fun id hid => ?_
    exact (h id hid).imp_right (Or.imp_left hperm.mem_iff.mp)

end Given

/-! ## Answers -/

/-- The answer was sent to the server. -/
def isForwarded (id : ℕ) : Entry → Bool
  | .forwarded i _ _ => i == id
  | _ => false

/-- The request is in the map, no section of the run has answered or dropped it, and nothing was
sent for it. -/
structure Outstanding (env : Env) (shm : Rialto.Lib.Memory.Mem UInt8) (as : List Act) (s : State)
    (id : ℕ) : Prop where
  held : Held id s
  kept : ∀ t a, Occurs (step env) Fresh (init shm) as a t → Held id t →
    ¬ (Clears t a ∨ Takes id t a)
  unsent : ∀ status n, .forwarded id status n ∉ s.log

theorem gone_le_one {s : State} (h : Places none s) (id : ℕ) : s.log.countP (isGone id) ≤ 1 := by
  have hplaced := h.placed id
  have honce := h.once id
  omega

theorem outstanding_of_held {env : Env} {shm : Rialto.Lib.Memory.Mem UInt8} {as : List Act}
    {s : State} (hrun : Run (step env) Fresh (init shm) as s) {id : ℕ} (hheld : Held id s) :
    Outstanding env shm as s id := by
  obtain ⟨-, -, hgone, -⟩ := in_map (run_places hrun) hheld
  refine ⟨hheld, fun t a hat ht hends => ?_, fun status n hmem => ?_⟩
  · have hout := (run_over hrun hat ht hends).1.out
    rw [Held, hout] at hheld
    exact nomatch hheld
  · exact List.countP_eq_zero.mp hgone _ hmem (beq_self_eq_true id)

/-- **In every run in which the server does not reuse an id**, a request is answered at most once,
and never when it was in the map as `notifyBufferTerm` or `setPosition` cleared it; the answer has
the number of the segments that were added; and `addSegment` does nothing but for a request that is
outstanding and that the client was given, or is about to be. -/
theorem answered_at_most_once {env : Env} {shm : Rialto.Lib.Memory.Mem UInt8} {as : List Act}
    {s : State} (h : Run (step env) Fresh (init shm) as s) :
    (∀ id, s.log.countP (isForwarded id) ≤ 1) ∧
    (∀ id t a, Occurs (step env) Fresh (init shm) as a t → Clears t a → Held id t →
      ∀ status n, .forwarded id status n ∉ s.log) ∧
    (∀ id status n, .forwarded id status n ∈ s.log → n = s.log.countP (isAdded id)) ∧
    ∀ id a, addSegment env s id a = (s, .error) ∨ Given id s ∧ Outstanding env shm as s id := by
  have hplaces := run_places h
  refine ⟨fun id => ?_, fun id t a hat hclears hheld => ?_, hplaces.forwarded, fun id a => ?_⟩
  · refine Nat.le_trans (List.countP_mono_left fun e _ he => ?_) (gone_le_one hplaces id)
    cases e with
    | forwarded i _ _ => exact he
    | _ => exact nomatch he
  · exact ((run_over h hat hheld (Or.inl hclears)).2 hclears).log
  · have hgiven := h.invariant (fun s => ∀ id, Held id s → Given id s)
      (fun _ _ _ hs _ hstep => step_given hs hstep) (fun _ hid => nomatch hid)
    rcases addSegment_cases env s id a (hplaces.counted id) with ha | ⟨_, _, _, hfind, -, -⟩
    · exact Or.inl ha
    · exact Or.inr ⟨hgiven id hfind, outstanding_of_held h hfind⟩

instance (s : State) (a : Act) : Decidable (Fresh s a) := by
  unfold Fresh
  split <;> infer_instance

/-- A source is attached and the server sends a request, which is put into the map. -/
def requested : List Act :=
  [.attachSource 1 .audio, .proceed 0, .notifyNetworkState .buffering,
    .notifyNeedMediaData 1 7 ⟨0, 2570, by decide, by decide⟩, .proceed 0, .proceed 0]

/-- Two of three segments fit, and the answer overtakes a change of the position. -/
def overtaking : List Act :=
  requested ++ [.proceed 0, .addSegment 7 ⟨some clearSegment, true, [], true⟩,
    .addSegment 7 ⟨some encryptedSegment, true, [], true⟩,
    .addSegment 7 ⟨some clearSegment, true, [], true⟩,
    .haveData .ok 7, .setPosition, .proceed 0, .proceed 0, .proceed 0]

theorem answered_overtaking :
    ∃ s, Run (step ⟨twoMessages, 2⟩) Fresh (init fun _ => 0) overtaking s ∧
      .forwarded 7 .ok 2 ∈ s.log ∧ s.log.countP (isAdded 7) = 2 := by
  have hlog : (runsIf (step ⟨twoMessages, 2⟩) Fresh (init fun _ => 0) overtaking).map State.log =
      some [.delivered 7, .segment 7 .ok, .segment 7 .ok, .segment 7 .noSpace,
        .forwarded 7 .ok 2] := by
    decide +kernel
  obtain ⟨s, hs, hlog⟩ := Option.map_eq_some_iff.mp hlog
  have hrun := Run.of_runsIf hs
  have hmem : .forwarded 7 .ok 2 ∈ s.log := by
    rw [hlog]
    decide
  obtain ⟨-, -, hforwarded, -⟩ := answered_at_most_once hrun
  exact ⟨s, hrun, hmem, (hforwarded 7 .ok 2 hmem).symm⟩

/-- A segment is written for a request that the client has not been given yet. -/
theorem added_early :
    ∃ s, Run (step ⟨twoMessages, 2⟩) Fresh (init fun _ => 0) requested s ∧
      .delivered 7 ∉ s.log ∧ s.client = true ∧
      (addSegment ⟨twoMessages, 2⟩ s 7 ⟨some clearSegment, true, [], true⟩).2 = .ok ∧
      (addSegment ⟨twoMessages, 2⟩ s 7 ⟨some clearSegment, true, [], true⟩).1.shm 0 ≠
        s.shm 0 := by
  have hstate : (runsIf (step ⟨twoMessages, 2⟩) Fresh (init fun _ => 0) requested).map
      (fun s => (s.log, s.client,
        (addSegment ⟨twoMessages, 2⟩ s 7 ⟨some clearSegment, true, [], true⟩).2,
        (addSegment ⟨twoMessages, 2⟩ s 7 ⟨some clearSegment, true, [], true⟩).1.shm 0, s.shm 0)) =
      some ([], true, .ok, 2, 0) := by
    decide +kernel
  obtain ⟨s, hs, hstate⟩ := Option.map_eq_some_iff.mp hstate
  obtain ⟨hlog, hclient, hstatus, hbefore, hafter⟩ : s.log = [] ∧ s.client = true ∧ _ ∧ _ ∧ _ := by
    simpa only [Prod.mk.injEq] using hstate
  refine ⟨s, Run.of_runsIf hs, ?_, hclient, hstatus, ?_⟩
  · rw [hlog]
    exact List.not_mem_nil
  · rw [hbefore, hafter]
    decide

end Rialto.Client.Answers

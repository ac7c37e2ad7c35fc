import Rialto.Link.Tracking

/-! # Requests in the steps of the client

* `Meets`: the condition on a step. No request that the server holds is lost in BUFFERING or
  PLAYING, and none that was lost is left over when such a state is entered or a withdrawal fails,
  unless there is a withdrawal under way.
* `inv_part`: the rule for the parts of a call.
* `inv_call`, `inv_take`, `inv_handle`, `inv_proceed`: the steps of the client. -/

namespace Rialto.Link.ClientSteps

open Rialto.Lib.OrdMap Rialto.Media.Frames
open Rialto.Client.MediaPipeline (Call)
open Rialto.Client.Requests (isEvent isSending)
open Rialto.Pipeline.Session (Source)
open Rialto.Link.Connection Rialto.Link.Tracking

/-! ## The condition -/

/-- If the server holds the request, its end is under way. -/
def Safe (s : State) (id : ℕ) : Prop :=
  ∀ request, s.server.activeRequests.find? id = some request → Withdrawing s request.type

/-- The condition on a part of a call: in a state that takes data, a request is discarded, or its
answer lost, only while its end is under way, and a withdrawal fails only if another one ends the
requests that are lost. -/
def CallMeets (s : State) (i : ℕ) (succeeds : Bool) : Call → Prop
  | .discarding id =>
    (s.client.needDataRequestMap.find? id).isSome → takesData s = true → Safe s id
  | .sending _ _ id => succeeds = false → takesData s = true → Safe s id
  | .positioning => succeeds = false → takesData s = true → ∀ id, Lost s id → Safe (without s i) id
  | .removing _ => succeeds = false → takesData s = true → ∀ id, Lost s id → Safe (without s i) id
  | _ => True

/-- The condition on an event: in a state that takes data, the event of an unknown source is ignored
only while the end of the request is under way; and a state that takes data is entered only if the
end of the requests that are lost is under way. -/
def EventMeets (s : State) : Event → Prop
  | .needMediaData sourceId id _ =>
    Client.MediaPipeline.getSource s.client sourceId = .unknown → takesData s = true → Safe s id
  | .playbackState state =>
    takesData s = false → (s.client.currentState.updatePlayback state).takesData = true →
      ∀ id, Lost s id → Safe s id
  | .networkState state =>
    takesData s = false → (s.client.currentState.updateNetwork state).takesData = true →
      ∀ id, Lost s id → Safe s id

/-- **The condition on a step.** -/
def Meets (s : State) : Act → Prop
  | .proceed i succeeds => ∀ call, s.client.calls[i]? = some call → CallMeets s i succeeds call
  | .handle => ∀ e rest, s.events = e :: rest → EventMeets s e
  | _ => True

/-! ## Calls -/

section Client

variable {s s' : State}

/-- A step that moves nothing. -/
theorem inv_grows (h : Accounted s) (hg : Grows s s')
    (hreq : s'.server.activeRequests = s.server.activeRequests)
    (hlost : ∀ id, Lost s id → Lost s' id)
    (hstate : takesData s = false → takesData s' = false) : Accounted s' := by
  refine AccountedWith.grows h hg hlost (fun id request hfind => Or.inl ?_)
    (fun _ _ _ hT => hT.elim) (fun _ _ _ _ hW => hW.elim)
    fun _ _ _ _ hidle => Or.inr (hstate hidle)
  rw [hreq] at hfind
  exact ⟨request, hfind, rfl⟩

/-- Nothing leaves its place in the client. -/
theorem grows_client {client : Client.MediaPipeline.State} (hcalls : s.client.calls ⊆ client.calls)
    (hheld : ∀ id, (s.client.needDataRequestMap.find? id).isSome →
      (client.needDataRequestMap.find? id).isSome) : Grows s { s with client := client } :=
  ⟨List.Subset.refl _, List.Subset.refl _, List.Subset.refl _, hcalls, hheld, List.Subset.refl _,
    List.Subset.refl _, fun h => ⟨h, rfl⟩⟩

theorem lost_client {client : Client.MediaPipeline.State} (hlog : s.client.log ⊆ client.log)
    {id : ℕ} (h : Lost s id) : Lost { s with client := client } id :=
  h.imp (fun h => hlog h) (Or.imp (fun h => hlog h) (Or.imp_left fun h => hlog h))

/-- A step of the client that moves nothing. -/
theorem inv_client {client : Client.MediaPipeline.State} (h : Accounted s)
    (hcalls : s.client.calls ⊆ client.calls)
    (hheld : ∀ id, (s.client.needDataRequestMap.find? id).isSome →
      (client.needDataRequestMap.find? id).isSome)
    (hlog : s.client.log ⊆ client.log)
    (hstate : s.client.currentState.takesData = false → client.currentState.takesData = false) :
    Accounted { s with client := client } :=
  inv_grows h (grows_client hcalls hheld) rfl (fun _ => lost_client hlog) hstate

theorem inv_start (h : Accounted s) (call : Call) :
    Accounted { s with client := s.client.start call } :=
  inv_client h (List.subset_append_left _ _) (fun _ h => h) (List.Subset.refl _) fun h => h

/-- A call of the application begins. -/
theorem inv_call {env : Client.MediaPipeline.Env} {a : Client.MediaPipeline.Act}
    {client : Client.MediaPipeline.State} (h : Accounted s) (ha : isCall a = true)
    (hstep : Client.MediaPipeline.step env s.client a = some client) :
    Accounted { s with client := client } := by
  cases a with
  | haveData status id =>
    cases hstep
    unfold Client.MediaPipeline.haveData
    split_ifs
    · exact inv_start h _
    · exact inv_start h _
  | setPosition =>
    cases hstep
    unfold Client.MediaPipeline.setPosition
    split_ifs
    · exact inv_start h _
    · exact h
  | stop =>
    cases hstep
    exact inv_client h (List.Subset.refl _) (fun _ h => h) (List.Subset.refl _) fun _ => rfl
  | removeSource sourceId =>
    cases hstep
    exact inv_client h (List.subset_append_left _ _) (fun _ h => h) (List.Subset.refl _) fun h => h
  | addSegment id a =>
    obtain ⟨shm, m, hadd, hm⟩ := Client.Requests.addSegment_keys env s.client id a
    simp only [Client.MediaPipeline.step, Option.some.injEq] at hstep
    subst hstep
    rw [hadd]
    exact inv_client h (List.Subset.refl _) (fun i => (hm i).mpr) (List.subset_append_left _ _)
      fun h => h
  | _ => exact nomatch ha

/-! ### Threads -/

theorem inv_take {awaited : Bool} (h : Accounted s) (hstep : take s awaited = some s') :
    Accounted s' := by
  unfold take at hstep
  cases hq : s.toClient with
  | nil =>
    rw [hq] at hstep
    exact nomatch hstep
  | cons d rest =>
    have htaken := take_delivery h hq
    rw [hq] at hstep
    cases d with
    | attached sourceId t =>
      have hrest : Accounted { s with toClient := rest } := by
        refine htaken.grows ⟨List.Subset.refl _, List.Subset.refl _, List.Subset.refl _,
          List.Subset.refl _, fun _ h => h, List.Subset.refl _, List.Subset.refl _,
          fun h => ⟨h, rfl⟩⟩
          (fun _ h => h) (fun _ request hfind => Or.inl ⟨request, hfind, rfl⟩) ?_
          (fun _ _ _ _ hW => hW.elim) fun _ _ _ _ hidle => Or.inr hidle
        rintro _ _ _ ⟨_, _, heq⟩
        exact nomatch heq
      dsimp only at hstep
      split_ifs at hstep
      · cases hstep
        exact inv_start hrest _
      · cases hstep
        exact hrest
    | event e =>
      cases hstep
      refine htaken.grows ⟨List.Subset.refl _, List.Subset.refl _, List.subset_append_left _ _,
        List.Subset.refl _, fun _ h => h, List.Subset.refl _, List.Subset.refl _, fun h => ⟨h, rfl⟩⟩
        (fun _ h => h) (fun _ request hfind => Or.inl ⟨request, hfind, rfl⟩) ?_
        (fun _ _ _ _ hW => hW.elim) fun _ _ _ _ hidle => Or.inr hidle
      rintro id _ _ ⟨sourceId, region, heq⟩
      cases heq
      exact Or.inl (.queued (List.mem_append_right _ (List.mem_singleton.mpr rfl)))

/-- What the event thread does with an event that it has taken, in a state that may have changed. -/
theorem inv_event {e : Event} {rest : List Event} {client : Client.MediaPipeline.State}
    (h : Accounted s)
    (hq : s.events = e :: rest) (hcalls : s.client.calls ⊆ client.calls)
    (hmap : client.needDataRequestMap = s.client.needDataRequestMap)
    (hlog : s.client.log ⊆ client.log)
    (hT : ∀ sourceId id region, e = .needMediaData sourceId id region →
      ∀ request, s.server.activeRequests.find? id = some request →
        Fine { s with events := rest, client := client } id request.type)
    (hstate : ∀ id, Lost s id → takesData s = false →
      Safe s id ∨ client.currentState.takesData = false) :
    Accounted { s with events := rest, client := client } := by
  refine (take_event h hq).grows ⟨List.Subset.refl _, List.Subset.refl _, List.Subset.refl _,
    hcalls, fun _ h => ?_, List.Subset.refl _, List.Subset.refl _, fun h => ⟨h, rfl⟩⟩
    (fun _ h => ?_)
    (fun _ request hfind => Or.inl ⟨request, hfind, rfl⟩) ?_ (fun _ _ _ _ hW => hW.elim) ?_
  · show (client.needDataRequestMap.find? _).isSome
    rw [hmap]
    exact h
  · exact h.imp (fun h => hlog h) (Or.imp (fun h => hlog h) (Or.imp_left fun h => hlog h))
  · rintro id request hfind ⟨sourceId, region, heq⟩
    exact hT sourceId id region heq request hfind
  · intro id request hfind hgone hidle
    refine (hstate id hgone hidle).imp_left fun hsafe => ?_
    exact (hsafe request hfind).mono hcalls (List.Subset.refl _) (List.Subset.refl _)
      (List.Subset.refl _) fun h => ⟨h, rfl⟩

theorem inv_handle (h : Accounted s) (hmeets : Meets s .handle) (hstep : handle s = some s') :
    Accounted s' := by
  unfold handle at hstep
  split_ifs at hstep
  cases hq : s.events with
  | nil =>
    rw [hq] at hstep
    exact nomatch hstep
  | cons e rest =>
    have hevent := hmeets e rest hq
    rw [hq] at hstep
    cases e with
    | needMediaData sourceId id region =>
      cases hstep
      unfold Client.MediaPipeline.notifyNeedMediaData
      dsimp only
      split_ifs with hunknown
      · refine inv_event h hq (List.Subset.refl _) rfl (List.subset_append_left _ _) ?_
          fun _ _ hidle => Or.inr hidle
        intro _ _ _ heq request hfind
        cases heq
        refine Or.inr ⟨Or.inl (List.mem_append_right _ (List.mem_singleton.mpr rfl)), ?_⟩
        cases hstate : takesData s with
        | false => exact Or.inr hstate
        | true =>
          have hwith := hevent hunknown hstate request hfind
          exact Or.inl (hwith.mono (List.Subset.refl _) (List.Subset.refl _) (List.Subset.refl _)
            (List.Subset.refl _) fun h => ⟨h, rfl⟩)
      · refine inv_event h hq (List.subset_append_left _ _) rfl (List.Subset.refl _) ?_
          fun _ _ hidle => Or.inr hidle
        intro _ _ _ heq request hfind
        cases heq
        exact Or.inl (.carried (List.mem_append_right _ (List.mem_singleton.mpr rfl))
          (by simp [carries, isEvent]))
    | playbackState state =>
      cases hstep
      refine inv_event h hq (List.Subset.refl _) rfl (List.Subset.refl _) nofun ?_
      intro id hgone hidle
      cases hafter : (s.client.currentState.updatePlayback state).takesData with
      | false => exact Or.inr rfl
      | true => exact Or.inl (hevent hidle hafter id hgone)
    | networkState state =>
      cases hstep
      refine inv_event h hq (List.Subset.refl _) rfl (List.Subset.refl _) nofun ?_
      intro id hgone hidle
      cases hafter : (s.client.currentState.updateNetwork state).takesData with
      | false => exact Or.inr rfl
      | true => exact Or.inl (hevent hidle hafter id hgone)

/-! ### Parts of calls -/

section Parts

variable {i : ℕ} {call : Call} {client : Client.MediaPipeline.State} {ms : List Message}
  {fs : List ℕ}

/-- The state after a part of a call. -/
def after (s : State) (client : Client.MediaPipeline.State) (ms : List Message) (fs : List ℕ) :
    State :=
  { s with client := client, toServer := s.toServer ++ ms, failed := s.failed ++ fs }

/-- **A part of a call**: what it had in its hands, what it takes from the map and what it withdrew
is to be looked after. -/
theorem inv_part (h : Accounted s) (hcall : s.client.calls[i]? = some call)
    (hcalls : s.client.calls.eraseIdx i ⊆ client.calls) (hlog : s.client.log ⊆ client.log)
    (hstate : client.currentState = s.client.currentState)
    (hT : ∀ id request, s.server.activeRequests.find? id = some request →
      carries id call = true ∨ (s.client.needDataRequestMap.find? id).isSome ∧
        (client.needDataRequestMap.find? id).isSome = false →
      Fine (after s client ms fs) id request.type)
    (hW : ∀ id request, s.server.activeRequests.find? id = some request → Lost s id →
      callWithdraws s request.type call = true →
      Withdrawing (after s client ms fs) request.type ∨ takesData s = false) :
    Accounted (after s client ms fs) := by
  have hdata : takesData (after s client ms fs) = takesData s :=
    congrArg Client.MediaPipeline.PipelineState.takesData hstate
  refine ((take_call h hcall).unhold client.needDataRequestMap).grows
    ⟨List.subset_append_left _ _, List.Subset.refl _, List.Subset.refl _, hcalls, fun _ h => h,
      List.Subset.refl _, List.Subset.refl _, fun h => ⟨h, rfl⟩⟩ (fun _ h => ?_)
    (fun _ request hfind => Or.inl ⟨request, hfind, rfl⟩) hT ?_ ?_
  · exact h.imp (fun h => hlog h) (Or.imp (fun h => hlog h) (Or.imp (fun h => hlog h)
      fun h => List.mem_append_left _ h))
  · intro id request hfind hgone hwith
    rw [hdata]
    exact hW id request hfind hgone hwith
  · intro _ _ _ _ hidle
    exact Or.inr (hdata.trans hidle)

/-- A withdrawal that does not rest on the call stays under way. -/
theorem withdrawing_after (hcall : s.client.calls[i]? = some call)
    (hcalls : s.client.calls.eraseIdx i ⊆ client.calls) {t : Source} (h : Withdrawing s t)
    (hnot : callWithdraws s t call = false) : Withdrawing (after s client ms fs) t := by
  have hrest : ∀ c ∈ s.client.calls, callWithdraws s t c = true → c ∈ client.calls := by
    intro c hc hw
    obtain ⟨hi, rfl⟩ := List.getElem?_eq_some_iff.mp hcall
    rcases List.mem_cons.mp ((List.getElem_cons_eraseIdx_perm hi).mem_iff.mpr hc) with rfl | hc
    · rw [hnot] at hw
      exact nomatch hw
    · exact hcalls hc
  cases h with
  | call h hw => exact .call (hrest _ h hw) hw
  | message h hw => exact .message (List.mem_append_left _ h) hw
  | task h hw => exact .task h hw
  | work h hw => exact .work h hw

/-- A request that is lost in a part of a call. -/
theorem fine_of_lost (hcall : s.client.calls[i]? = some call)
    (hcalls : s.client.calls.eraseIdx i ⊆ client.calls)
    (hstate : client.currentState = s.client.currentState) {id : ℕ}
    {request : Pipeline.Session.Request}
    (hfind : s.server.activeRequests.find? id = some request)
    (hlost : Lost (after s client ms fs) id)
    (hnot : ∀ t, callWithdraws s t call = false) (hsafe : takesData s = true → Safe s id) :
    Fine (after s client ms fs) id request.type := by
  refine Or.inr ⟨hlost, ?_⟩
  cases hdata : takesData s with
  | true =>
    exact Or.inl (withdrawing_after hcall hcalls (hsafe hdata request hfind) (hnot _))
  | false =>
    exact Or.inr ((congrArg Client.MediaPipeline.PipelineState.takesData hstate).trans hdata)

/-- A part that has no request in its hands, takes none from the map and withdraws nothing. -/
theorem inv_part_neutral (h : Accounted s) (hcall : s.client.calls[i]? = some call)
    (hcalls : s.client.calls.eraseIdx i ⊆ client.calls) (hlog : s.client.log ⊆ client.log)
    (hstate : client.currentState = s.client.currentState)
    (hmap : client.needDataRequestMap = s.client.needDataRequestMap)
    (hcarries : ∀ id, carries id call = false) (hnot : ∀ t, callWithdraws s t call = false) :
    Accounted (after s client ms fs) := by
  refine inv_part h hcall hcalls hlog hstate (fun id request _ hT => ?_) fun _ request _ _ hw => ?_
  · rcases hT with hT | ⟨hbefore, hafter⟩
    · rw [hcarries] at hT
      exact nomatch hT
    · rw [hmap, hbefore] at hafter
      exact nomatch hafter
  · rw [hnot] at hw
    exact nomatch hw

/-- `notifyNeedMediaData` goes on, with the event in its hands. -/
theorem inv_part_event (h : Accounted s) {id : ℕ} (hcall : s.client.calls[i]? = some call)
    (hcalls : s.client.calls.eraseIdx i ⊆ client.calls) (hlog : s.client.log ⊆ client.log)
    (hstate : client.currentState = s.client.currentState)
    (hheld : ∀ j, (s.client.needDataRequestMap.find? j).isSome →
      (client.needDataRequestMap.find? j).isSome)
    (hcarries : ∀ j, carries j call = true → j = id) (hnot : ∀ t, callWithdraws s t call = false)
    (hfine : ∀ request, s.server.activeRequests.find? id = some request →
      Fine (after s client ms fs) id request.type) : Accounted (after s client ms fs) := by
  refine inv_part h hcall hcalls hlog hstate (fun j request hfind hT => ?_)
    fun _ request _ _ hw => ?_
  · rcases hT with hT | ⟨hbefore, hafter⟩
    · obtain rfl := hcarries j hT
      exact hfine request hfind
    · rw [hheld j hbefore] at hafter
      exact nomatch hafter
  · rw [hnot] at hw
    exact nomatch hw

/-- A request is taken from the map. -/
theorem inv_part_erase (h : Accounted s) {id : ℕ} (hcall : s.client.calls[i]? = some call)
    (hcalls : s.client.calls.eraseIdx i ⊆ client.calls) (hlog : s.client.log ⊆ client.log)
    (hstate : client.currentState = s.client.currentState)
    (hmap : client.needDataRequestMap = s.client.needDataRequestMap.erase id)
    (hcarries : ∀ j, carries j call = false) (hnot : ∀ t, callWithdraws s t call = false)
    (hfine : ∀ request, s.server.activeRequests.find? id = some request →
      Fine (after s client ms fs) id request.type) : Accounted (after s client ms fs) := by
  refine inv_part h hcall hcalls hlog hstate (fun j request hfind hT => ?_)
    fun _ request _ _ hw => ?_
  · rcases hT with hT | ⟨hbefore, hafter⟩
    · rw [hcarries] at hT
      exact nomatch hT
    · rw [hmap, OMap.find?_erase] at hafter
      split_ifs at hafter with heq
      · rw [heq] at hfind ⊢
        exact hfine request hfind
      · rw [hbefore] at hafter
        exact nomatch hafter
  · rw [hnot] at hw
    exact nomatch hw

end Parts

theorem carries_sending {id j n : ℕ} {status : Pipeline.Session.MediaSourceStatus}
    (h : carries j (.sending status n id) = true) : j = id := by
  have : (id == j) = true := by simpa [carries, isEvent, isSending] using h
  exact (beq_iff_eq.mp this).symm

theorem carries_known {id j : ℕ} {region : Region}
    (h : carries j (.known id region) = true) : j = id := by
  have : (id == j) = true := by simpa [carries, isEvent, isSending] using h
  exact (beq_iff_eq.mp this).symm

theorem carries_inserting {id j : ℕ} {region : Region}
    (h : carries j (.inserting id region) = true) : j = id := by
  have : (id == j) = true := by simpa [carries, isEvent, isSending] using h
  exact (beq_iff_eq.mp this).symm

/-- The client after the part of a call at a place. -/
def resumed (s : State) (i : ℕ) (call : Call) : Client.MediaPipeline.State :=
  let r := Client.MediaPipeline.resume (without s i).client call
  { r.1 with calls := r.1.calls ++ r.2 }

theorem inv_known {i id : ℕ} {region : Region} {ms : List Message} {fs : List ℕ} (h : Accounted s)
    (hcall : s.client.calls[i]? = some (.known id region)) :
    Accounted (after s (resumed s i (.known id region)) ms fs) := by
  unfold resumed Client.MediaPipeline.resume
  dsimp only
  split_ifs with hdata
  · refine inv_part_event h hcall (List.subset_append_left _ _) (List.Subset.refl _) rfl
      (fun _ h => h) (fun _ => carries_known) (fun _ => rfl) fun request hfind => Or.inl ?_
    exact .carried (List.mem_append_right _ (List.mem_singleton.mpr rfl))
      (by simp [carries, isEvent])
  · refine inv_part_event h hcall (List.subset_append_left _ _) (List.subset_append_left _ _) rfl
      (fun _ h => h) (fun _ => carries_known) (fun _ => rfl) fun request hfind => ?_
    exact Or.inr ⟨Or.inl (List.mem_append_right _ (List.mem_singleton.mpr rfl)),
      Or.inr (Bool.eq_false_iff.mpr hdata)⟩

theorem inv_inserting {i id : ℕ} {region : Region} {ms : List Message} {fs : List ℕ}
    (h : Accounted s)
    (hcall : s.client.calls[i]? = some (.inserting id region)) :
    Accounted (after s (resumed s i (.inserting id region)) ms fs) := by
  have hfind : ∀ j, (s.client.needDataRequestMap.find? j).isSome ∨ j = id →
      ((s.client.needDataRequestMap.insert id
        ⟨needMediaData region, none⟩).find? j).isSome := by
    intro j hj
    rw [OMap.find?_insert]
    split_ifs with heq
    · rfl
    · exact hj.resolve_right heq
  exact inv_part_event h hcall (List.subset_append_left _ _) (List.Subset.refl _) rfl
    (fun j hj => hfind j (Or.inl hj)) (fun _ => carries_inserting) (fun _ => rfl)
    fun request _ => Or.inl (.held (hfind id (Or.inr rfl)))

/-- The client is called with a request that is in the map. -/
theorem inv_delivering {i id : ℕ} {ms : List Message} {fs : List ℕ} (h : Accounted s)
    (hcall : s.client.calls[i]? = some (.delivering id)) :
    Accounted (after s (resumed s i (.delivering id)) ms fs) := by
  unfold resumed Client.MediaPipeline.resume
  dsimp only
  split_ifs
  · exact inv_part_neutral h hcall (List.subset_append_left _ _) (List.subset_append_left _ _) rfl
      rfl (fun _ => rfl) fun _ => rfl
  · exact inv_part_neutral h hcall (List.subset_append_left _ _) (List.Subset.refl _) rfl rfl
      (fun _ => rfl) fun _ => rfl

theorem inv_answering {i id : ℕ} {status : Pipeline.Session.MediaSourceStatus}
    {ms : List Message} {fs : List ℕ} (h : Accounted s)
    (hcall : s.client.calls[i]? = some (.answering status id)) :
    Accounted (after s (resumed s i (.answering status id)) ms fs) := by
  cases hfind : s.client.needDataRequestMap.find? id with
  | none =>
    have hr : Client.MediaPipeline.resume (without s i).client (.answering status id) =
        ((without s i).client, []) := by
      show Client.MediaPipeline.takeRequest _ _ _ = _
      unfold Client.MediaPipeline.takeRequest without
      rw [hfind]
    unfold resumed
    rw [hr]
    exact inv_part_neutral h hcall (List.subset_append_left _ _) (List.Subset.refl _) rfl rfl
      (fun _ => rfl) fun _ => rfl
  | some request =>
    have hr : Client.MediaPipeline.resume (without s i).client (.answering status id) =
        ({ (without s i).client with
          needDataRequestMap := s.client.needDataRequestMap.erase id },
          [.sending status request.numFrames id]) := by
      show Client.MediaPipeline.takeRequest _ _ _ = _
      unfold Client.MediaPipeline.takeRequest without
      rw [hfind]
    unfold resumed
    rw [hr]
    refine inv_part_erase h hcall (List.subset_append_left _ _) (List.Subset.refl _) rfl rfl
      (fun _ => rfl) (fun _ => rfl) fun request hfind => Or.inl ?_
    exact .carried (List.mem_append_right _ (List.mem_singleton.mpr rfl))
      (by simp [carries, isSending])

theorem inv_discarding {i id : ℕ} {succeeds : Bool} {ms : List Message} {fs : List ℕ}
    (h : Accounted s)
    (hcall : s.client.calls[i]? = some (.discarding id))
    (hmeets : CallMeets s i succeeds (.discarding id)) :
    Accounted (after s (resumed s i (.discarding id)) ms fs) := by
  cases hfind : s.client.needDataRequestMap.find? id with
  | none =>
    have hr : Client.MediaPipeline.resume (without s i).client (.discarding id) =
        ((without s i).client, []) := by
      show (Client.MediaPipeline.discardNeedDataRequest _ _, _) = _
      unfold Client.MediaPipeline.discardNeedDataRequest without
      rw [hfind]
    unfold resumed
    rw [hr]
    exact inv_part_neutral h hcall (List.subset_append_left _ _) (List.Subset.refl _) rfl rfl
      (fun _ => rfl) fun _ => rfl
  | some request =>
    have hr : Client.MediaPipeline.resume (without s i).client (.discarding id) =
        ({ (without s i).client with
          needDataRequestMap := s.client.needDataRequestMap.erase id
          log := s.client.log ++ [.discarded id] }, []) := by
      show (Client.MediaPipeline.discardNeedDataRequest _ _, _) = _
      unfold Client.MediaPipeline.discardNeedDataRequest without
      rw [hfind]
      rfl
    have hheld : (s.client.needDataRequestMap.find? id).isSome := by
      rw [hfind]
      rfl
    unfold resumed
    rw [hr]
    refine inv_part_erase h hcall (List.subset_append_left _ _) (List.subset_append_left _ _) rfl
      rfl (fun _ => rfl) (fun _ => rfl) fun request hfind => ?_
    refine fine_of_lost hcall ?_ ?_ hfind ?_ (fun _ => rfl) (hmeets hheld)
    · exact List.subset_append_left _ _
    · rfl
    · exact Or.inr (Or.inl (List.mem_append_right _ (List.mem_singleton.mpr rfl)))

/-- The answer is sent, or fails. -/
theorem inv_sending {i id n : ℕ} {status : Pipeline.Session.MediaSourceStatus} {succeeds : Bool}
    (h : Accounted s) (hcall : s.client.calls[i]? = some (.sending status n id))
    (hmeets : CallMeets s i succeeds (.sending status n id)) :
    Accounted (after s (resumed s i (.sending status n id))
      (if succeeds then [.haveData status n id] else []) (if succeeds then [] else [id])) := by
  refine inv_part_event h hcall (List.subset_append_left _ _) (List.subset_append_left _ _) rfl
    (fun _ h => h) (fun _ => carries_sending) (fun _ => rfl) fun request hfind => ?_
  cases succeeds with
  | true => exact Or.inl (.answered (List.mem_append_right _ (List.mem_singleton.mpr rfl)))
  | false =>
    refine fine_of_lost hcall ?_ ?_ hfind ?_ (fun _ => rfl) (hmeets rfl)
    · exact List.subset_append_left _ _
    · rfl
    · exact Or.inr (Or.inr (Or.inr (List.mem_append_right _ (List.mem_singleton.mpr rfl))))

/-- The map is cleared; the call to the server follows. -/
theorem inv_clearing {i : ℕ} {ms : List Message} {fs : List ℕ} (h : Accounted s)
    (hcall : s.client.calls[i]? = some .clearing) :
    Accounted (after s (resumed s i .clearing) ms fs) := by
  have hwith : ∀ t, Withdrawing (after s (resumed s i .clearing) ms fs) t := fun t =>
    .call (List.mem_append_right _ (List.mem_singleton.mpr rfl)) rfl
  refine inv_part h hcall (List.subset_append_left _ _) (List.subset_append_left _ _) rfl
    (fun id request _ hT => ?_) fun _ request _ _ _ => Or.inl (hwith _)
  rcases hT with hT | ⟨hbefore, -⟩
  · exact nomatch hT
  · have hkey : id ∈ s.client.needDataRequestMap.keys := by
      by_contra hnot
      rw [OMap.find?_eq_none.mpr hnot] at hbefore
      exact nomatch hbefore
    refine Or.inr ⟨Or.inr (Or.inr (Or.inl ?_)), Or.inl (hwith _)⟩
    exact List.mem_append_right _ (List.mem_map_of_mem hkey)

/-- A call that withdraws requests is made, or fails. -/
theorem inv_withdrawal {i : ℕ} {call : Call} {m : Message} {succeeds : Bool} {fs : List ℕ}
    {client : Client.MediaPipeline.State} (h : Accounted s)
    (hcall : s.client.calls[i]? = some call)
    (hclient : client = { (without s i).client with
      calls := (without s i).client.calls ++ [] })
    (hcarries : ∀ id, carries id call = false)
    (hm : ∀ t, callWithdraws s t call = messageWithdraws s t m)
    (hmeets : succeeds = false → takesData s = true → ∀ id, Lost s id → Safe (without s i) id) :
    Accounted (after s client (if succeeds then [m] else []) fs) := by
  subst hclient
  refine inv_part h hcall (List.subset_append_left _ _) (List.Subset.refl _) rfl
    (fun id request _ hT => ?_) fun id request hfind hgone hw => ?_
  · rcases hT with hT | ⟨hbefore, hafter⟩
    · rw [hcarries] at hT
      exact nomatch hT
    · have hafter : (s.client.needDataRequestMap.find? id).isSome = false := hafter
      rw [hbefore] at hafter
      exact nomatch hafter
  · cases succeeds with
    | true =>
      rw [hm] at hw
      exact Or.inl (.message (List.mem_append_right _ (List.mem_singleton.mpr rfl)) hw)
    | false =>
      cases hdata : takesData s with
      | false => exact Or.inr rfl
      | true =>
        have hwith := hmeets rfl hdata id hgone request hfind
        exact Or.inl (hwith.mono (List.subset_append_left _ _) (List.subset_append_left _ _)
          (List.Subset.refl _) (List.Subset.refl _) fun h => ⟨h, rfl⟩)

theorem proceed_eq {i : ℕ} {call : Call} (succeeds : Bool)
    (hcall : s.client.calls[i]? = some call) :
    proceed s i succeeds = some (after s (resumed s i call)
      (if succeeds then (message call).toList else []) (if succeeds then [] else lostBy call)) := by
  have hproceed : Client.MediaPipeline.proceed s.client i = some (resumed s i call) := by
    unfold Client.MediaPipeline.proceed
    rw [hcall]
    rfl
  unfold proceed
  rw [hcall, hproceed]
  cases succeeds with
  | true => simp [after]
  | false => simp [after]

theorem inv_proceed {i : ℕ} {succeeds : Bool} (h : Accounted s)
    (hmeets : Meets s (.proceed i succeeds)) (hstep : proceed s i succeeds = some s') :
    Accounted s' := by
  cases hcall : s.client.calls[i]? with
  | none =>
    unfold proceed at hstep
    rw [hcall] at hstep
    exact nomatch hstep
  | some call =>
    have hcallMeets := hmeets call hcall
    rw [proceed_eq succeeds hcall] at hstep
    cases hstep
    cases call with
    | known id region => exact inv_known h hcall
    | inserting id region => exact inv_inserting h hcall
    | delivering id => exact inv_delivering h hcall
    | answering status id => exact inv_answering h hcall
    | discarding id => exact inv_discarding h hcall hcallMeets
    | sending status n id => exact inv_sending h hcall hcallMeets
    | clearing => exact inv_clearing h hcall
    | positioning =>
      exact inv_withdrawal h hcall rfl (fun _ => rfl) (fun _ => rfl) hcallMeets
    | adding sourceId type =>
      exact inv_part_neutral h hcall (List.subset_append_left _ _) (List.Subset.refl _) rfl rfl
        (fun _ => rfl) fun _ => rfl
    | removing sourceId =>
      exact inv_withdrawal h hcall rfl (fun _ => rfl) (fun _ => rfl) hcallMeets

end Client

end Rialto.Link.ClientSteps

import Rialto.Client.Requests
import Rialto.Link.Connection

/-! # The requests of the server and those of the client

A request that the server waits for is tracked: its event or its answer is on the way, or the client
holds it. The client can lose it instead. That does no harm while a `setPosition` is under way, with
which the server forgets all its requests, or, for a request of the audio source, a `removeSource`.

* `Tracked`, `Lost`, `Withdrawing`: where a request is, and what will end it.
* `Accounted`: a request that the server holds is tracked or will be withdrawn, or the client takes
  no data.
* `AccountedWith.step`: the rule for steps; `take_message`, `take_event`, …: what leaves its
  place. -/

namespace Rialto.Link.Tracking

open Rialto.Lib.OrdMap Rialto.Media.Frames
open Rialto.Client.MediaPipeline (Call)
open Rialto.Client.Requests (isEvent isSending)
open Rialto.Pipeline.Session (Source MainTask WorkerTask Request)
open Rialto.Link.Connection

/-! ## Places of a request -/

/-- The call of the client has the request in its hands. -/
def carries (id : ℕ) (call : Call) : Bool := isEvent id call || isSending id call

/-- The request is on its way to the client, with it, or on its way back. -/
inductive Tracked (s : State) (id : ℕ) : Prop
  | sent {sourceId : ℕ} {region : Region}
      (h : .event (.needMediaData sourceId id region) ∈ s.toClient)
  | queued {sourceId : ℕ} {region : Region} (h : .needMediaData sourceId id region ∈ s.events)
  | carried {call : Call} (h : call ∈ s.client.calls) (hid : carries id call = true)
  | held (h : (s.client.needDataRequestMap.find? id).isSome)
  | answered {status : Pipeline.Session.MediaSourceStatus} {n : ℕ}
      (h : .haveData status n id ∈ s.toServer)
  | posted {status : Pipeline.Session.MediaSourceStatus} {n : ℕ}
      (h : .haveData status n id ∈ s.server.mainQueue)

/-- The client has let go of the request, or its answer has failed. -/
def Lost (s : State) (id : ℕ) : Prop :=
  .ignored id ∈ s.client.log ∨ .discarded id ∈ s.client.log ∨ .dropped id ∈ s.client.log ∨
    id ∈ s.failed

/-- The id is that of the attached audio source, and the request is one of it. -/
def removes (s : State) (t : Source) (sourceId : ℕ) : Bool :=
  t = .audio && s.server.attachedSources .audio && s.sourceIds .audio = sourceId

/-- The call leads to the end of the requests of the source. -/
def callWithdraws (s : State) (t : Source) : Call → Bool
  | .clearing | .positioning => true
  | .removing sourceId => removes s t sourceId
  | _ => false

def messageWithdraws (s : State) (t : Source) : Message → Bool
  | .setPosition => true
  | .removeSource sourceId => removes s t sourceId
  | _ => false

def taskWithdraws (s : State) (t : Source) : MainTask → Bool
  | .setPosition | .clearActiveRequests => true
  | .removeSource u => u = .audio && t = .audio && s.server.attachedSources .audio
  | .invalidateActiveRequests u => u = t
  | _ => false

def workWithdraws (t : Source) : WorkerTask → Bool
  | .setPosition => true
  | .removeSource u => u = .audio && t = .audio
  | _ => false

/-- The end of the requests of the source is under way. -/
inductive Withdrawing (s : State) (t : Source) : Prop
  | call {call : Call} (h : call ∈ s.client.calls) (hw : callWithdraws s t call = true)
  | message {m : Message} (h : m ∈ s.toServer) (hw : messageWithdraws s t m = true)
  | task {task : MainTask} (h : task ∈ s.server.mainQueue) (hw : taskWithdraws s t task = true)
  | work {task : WorkerTask} (h : task ∈ s.server.workerQueue) (hw : workWithdraws t task = true)

/-- The client takes and answers requests. -/
def takesData (s : State) : Bool := s.client.currentState.takesData

/-! ## The invariant -/

/-- A request that the server holds is tracked, or it is lost and will be withdrawn, or the client
takes no data. `T` is what is between two places, and `W` what is just being withdrawn. -/
def AccountedWith (T : ℕ → Prop) (W : Source → Prop) (s : State) : Prop :=
  ∀ id request, s.server.activeRequests.find? id = some request →
    (Tracked s id ∨ T id) ∨
      Lost s id ∧ ((Withdrawing s request.type ∨ W request.type) ∨ takesData s = false)

/-- **The invariant.** -/
def Accounted : State → Prop := AccountedWith (fun _ => False) fun _ => False

theorem accounted_init (shm : Rialto.Lib.Memory.Mem UInt8) : Accounted (init shm) := nofun

/-- Nothing leaves its place, and the audio source of the server stays if there is one. -/
structure Grows (s s' : State) : Prop where
  toServer : s.toServer ⊆ s'.toServer
  toClient : s.toClient ⊆ s'.toClient
  events : s.events ⊆ s'.events
  calls : s.client.calls ⊆ s'.client.calls
  held : ∀ id, (s.client.needDataRequestMap.find? id).isSome →
    (s'.client.needDataRequestMap.find? id).isSome
  mainQueue : s.server.mainQueue ⊆ s'.server.mainQueue
  workerQueue : s.server.workerQueue ⊆ s'.server.workerQueue
  audio : s.server.attachedSources .audio = true →
    s'.server.attachedSources .audio = true ∧ s'.sourceIds .audio = s.sourceIds .audio

section Grows

variable {s s' : State} {id : ℕ} {t : Source}

theorem Tracked.grows (h : Tracked s id) (hg : Grows s s') : Tracked s' id := by
  cases h with
  | sent h => exact .sent (hg.toClient h)
  | queued h => exact .queued (hg.events h)
  | carried h hid => exact .carried (hg.calls h) hid
  | held h => exact .held (hg.held id h)
  | answered h => exact .answered (hg.toServer h)
  | posted h => exact .posted (hg.mainQueue h)

/-- A withdrawal stays under way while the messages and tasks do and the source stays. -/
theorem Withdrawing.mono (h : Withdrawing s t) (hcalls : s.client.calls ⊆ s'.client.calls)
    (hserver : s.toServer ⊆ s'.toServer) (hmain : s.server.mainQueue ⊆ s'.server.mainQueue)
    (hworker : s.server.workerQueue ⊆ s'.server.workerQueue)
    (haudio : s.server.attachedSources .audio = true →
      s'.server.attachedSources .audio = true ∧ s'.sourceIds .audio = s.sourceIds .audio) :
    Withdrawing s' t := by
  have hremoves : ∀ sourceId, removes s t sourceId = true → removes s' t sourceId = true := by
    intro sourceId hr
    simp only [removes, Bool.and_eq_true, decide_eq_true_eq] at hr ⊢
    obtain ⟨hattached, hid⟩ := haudio hr.1.2
    exact ⟨⟨hr.1.1, hattached⟩, hid.trans hr.2⟩
  cases h with
  | @call call h hw =>
    refine .call (hcalls h) ?_
    cases call <;> first | exact hw | exact hremoves _ hw
  | @message m h hw =>
    refine .message (hserver h) ?_
    cases m <;> first | exact hw | exact hremoves _ hw
  | @task task h hw =>
    refine .task (hmain h) ?_
    cases task <;> first | exact hw | skip
    simp only [taskWithdraws, Bool.and_eq_true, decide_eq_true_eq] at hw ⊢
    exact ⟨hw.1, (haudio hw.2).1⟩
  | work h hw => exact .work (hworker h) hw

theorem Withdrawing.grows (h : Withdrawing s t) (hg : Grows s s') : Withdrawing s' t :=
  h.mono hg.calls hg.toServer hg.mainQueue hg.workerQueue hg.audio

/-- What may become of a request that the server holds. -/
def Fine (s : State) (id : ℕ) (t : Source) : Prop :=
  Tracked s id ∨ Lost s id ∧ (Withdrawing s t ∨ takesData s = false)

/-- **The rule for steps**: what is in its place stays there; what is between two places, is being
withdrawn or was excused by the state is to be looked after. -/
theorem AccountedWith.step {T : ℕ → Prop} {W : Source → Prop} (h : AccountedWith T W s)
    (htracked : ∀ id, Tracked s id → Tracked s' id)
    (hwithdrawing : ∀ t, Withdrawing s t → Withdrawing s' t)
    (hlost : ∀ id, Lost s id → Lost s' id)
    (hheld : ∀ id request, s'.server.activeRequests.find? id = some request →
      (∃ before, s.server.activeRequests.find? id = some before ∧ before.type = request.type) ∨
        Tracked s' id)
    (hT : ∀ id request, s'.server.activeRequests.find? id = some request → T id →
      Fine s' id request.type)
    (hW : ∀ id request, s'.server.activeRequests.find? id = some request → Lost s id →
      W request.type → Withdrawing s' request.type ∨ takesData s' = false)
    (hstate : ∀ id request, s'.server.activeRequests.find? id = some request → Lost s id →
      takesData s = false → Withdrawing s' request.type ∨ takesData s' = false) : Accounted s' := by
  have hfine : ∀ id request, s'.server.activeRequests.find? id = some request →
      Fine s' id request.type := by
    intro id request hfind
    rcases hheld id request hfind with ⟨before, hbefore, htype⟩ | hin
    · rcases h id before hbefore with (hin | hhand) | ⟨hgone, (hwith | hwith) | hidle⟩
      · exact Or.inl (htracked id hin)
      · exact hT id request hfind hhand
      · exact Or.inr ⟨hlost id hgone, Or.inl (htype ▸ hwithdrawing _ hwith)⟩
      · exact Or.inr ⟨hlost id hgone, hW id request hfind hgone (htype ▸ hwith)⟩
      · exact Or.inr ⟨hlost id hgone, hstate id request hfind hgone hidle⟩
    · exact Or.inl hin
  intro id request hfind
  rcases hfine id request hfind with hin | ⟨hgone, hwith | hidle⟩
  · exact Or.inl (Or.inl hin)
  · exact Or.inr ⟨hgone, Or.inl (Or.inl hwith)⟩
  · exact Or.inr ⟨hgone, Or.inr hidle⟩

theorem AccountedWith.grows {T : ℕ → Prop} {W : Source → Prop} (h : AccountedWith T W s)
    (hg : Grows s s') (hlost : ∀ id, Lost s id → Lost s' id)
    (hheld : ∀ id request, s'.server.activeRequests.find? id = some request →
      (∃ before, s.server.activeRequests.find? id = some before ∧ before.type = request.type) ∨
        Tracked s' id)
    (hT : ∀ id request, s'.server.activeRequests.find? id = some request → T id →
      Fine s' id request.type)
    (hW : ∀ id request, s'.server.activeRequests.find? id = some request → Lost s id →
      W request.type → Withdrawing s' request.type ∨ takesData s' = false)
    (hstate : ∀ id request, s'.server.activeRequests.find? id = some request → Lost s id →
      takesData s = false → Withdrawing s' request.type ∨ takesData s' = false) : Accounted s' :=
  h.step (fun _ h => h.grows hg) (fun _ h => h.grows hg) hlost hheld hT hW hstate

end Grows

/-! ## Taking something from its place -/

section Take

variable {s : State} {id : ℕ}

/-- What leaves its place is in hand. -/
theorem Accounted.take {s₀ : State} {T : ℕ → Prop} {W : Source → Prop} (h : Accounted s)
    (hT : ∀ id, Tracked s id → Tracked s₀ id ∨ T id)
    (hW : ∀ t, Withdrawing s t → Withdrawing s₀ t ∨ W t)
    (hreq : s₀.server.activeRequests = s.server.activeRequests)
    (hlost : ∀ id, Lost s id → Lost s₀ id) (hstate : takesData s₀ = takesData s) :
    AccountedWith T W s₀ := by
  intro id request hfind
  rw [hreq] at hfind
  rcases h id request hfind with (htracked | hfalse) | ⟨hgone, (hwith | hfalse) | hidle⟩
  · exact Or.inl (hT id htracked)
  · exact hfalse.elim
  · exact Or.inr ⟨hlost id hgone, Or.inl (hW _ hwith)⟩
  · exact hfalse.elim
  · exact Or.inr ⟨hlost id hgone, Or.inr (hstate.trans hidle)⟩

/-- The server takes a call. -/
theorem take_message {m : Message} {rest : List Message} (h : Accounted s)
    (hq : s.toServer = m :: rest) :
    AccountedWith (fun id => ∃ status n, m = .haveData status n id)
      (fun t => messageWithdraws s t m = true) { s with toServer := rest } := by
  refine h.take (fun id htracked => ?_) (fun t hwith => ?_) rfl (fun _ h => h) rfl
  · cases htracked with
    | sent h => exact Or.inl (.sent h)
    | queued h => exact Or.inl (.queued h)
    | carried h hid => exact Or.inl (.carried h hid)
    | held h => exact Or.inl (.held h)
    | posted h => exact Or.inl (.posted h)
    | answered h =>
      rw [hq] at h
      rcases List.mem_cons.mp h with heq | h
      · exact Or.inr ⟨_, _, heq.symm⟩
      · exact Or.inl (.answered h)
  · cases hwith with
    | call h hw => exact Or.inl (.call h hw)
    | task h hw => exact Or.inl (.task h hw)
    | work h hw => exact Or.inl (.work h hw)
    | message h hw =>
      rw [hq] at h
      rcases List.mem_cons.mp h with rfl | h
      · exact Or.inr hw
      · exact Or.inl (.message h hw)

/-- The client takes what the server has sent. -/
theorem take_delivery {d : Delivery} {rest : List Delivery} (h : Accounted s)
    (hq : s.toClient = d :: rest) :
    AccountedWith (fun id => ∃ sourceId region, d = .event (.needMediaData sourceId id region))
      (fun _ => False) { s with toClient := rest } := by
  refine h.take (fun id htracked => ?_) (fun t hwith => Or.inl ?_) rfl (fun _ h => h) rfl
  · cases htracked with
    | queued h => exact Or.inl (.queued h)
    | carried h hid => exact Or.inl (.carried h hid)
    | held h => exact Or.inl (.held h)
    | answered h => exact Or.inl (.answered h)
    | posted h => exact Or.inl (.posted h)
    | sent h =>
      rw [hq] at h
      rcases List.mem_cons.mp h with heq | h
      · exact Or.inr ⟨_, _, heq.symm⟩
      · exact Or.inl (.sent h)
  · cases hwith with
    | call h hw => exact .call h hw
    | message h hw => exact .message h hw
    | task h hw => exact .task h hw
    | work h hw => exact .work h hw

/-- The event thread takes an event. -/
theorem take_event {e : Event} {rest : List Event} (h : Accounted s) (hq : s.events = e :: rest) :
    AccountedWith (fun id => ∃ sourceId region, e = .needMediaData sourceId id region)
      (fun _ => False) { s with events := rest } := by
  refine h.take (fun id htracked => ?_) (fun t hwith => Or.inl ?_) rfl (fun _ h => h) rfl
  · cases htracked with
    | sent h => exact Or.inl (.sent h)
    | carried h hid => exact Or.inl (.carried h hid)
    | held h => exact Or.inl (.held h)
    | answered h => exact Or.inl (.answered h)
    | posted h => exact Or.inl (.posted h)
    | queued h =>
      rw [hq] at h
      rcases List.mem_cons.mp h with heq | h
      · exact Or.inr ⟨_, _, heq.symm⟩
      · exact Or.inl (.queued h)
  · cases hwith with
    | call h hw => exact .call h hw
    | message h hw => exact .message h hw
    | task h hw => exact .task h hw
    | work h hw => exact .work h hw

/-- The state without the call at a place. -/
def without (s : State) (i : ℕ) : State :=
  { s with client := { s.client with calls := s.client.calls.eraseIdx i } }

/-- A call of the client goes on. -/
theorem take_call {i : ℕ} {call : Call} (h : Accounted s) (hcall : s.client.calls[i]? = some call) :
    AccountedWith (fun id => carries id call = true) (fun t => callWithdraws s t call = true)
      (without s i) := by
  have hrest : ∀ {c}, c ∈ s.client.calls → c = call ∨ c ∈ (without s i).client.calls := by
    intro c hc
    obtain ⟨hi, rfl⟩ := List.getElem?_eq_some_iff.mp hcall
    exact List.mem_cons.mp ((List.getElem_cons_eraseIdx_perm hi).mem_iff.mpr hc)
  refine h.take (fun id htracked => ?_) (fun t hwith => ?_) rfl (fun _ h => h) rfl
  · cases htracked with
    | sent h => exact Or.inl (.sent h)
    | queued h => exact Or.inl (.queued h)
    | held h => exact Or.inl (.held h)
    | answered h => exact Or.inl (.answered h)
    | posted h => exact Or.inl (.posted h)
    | carried h hid =>
      rcases hrest h with rfl | h
      · exact Or.inr hid
      · exact Or.inl (.carried h hid)
  · cases hwith with
    | message h hw => exact Or.inl (.message h hw)
    | task h hw => exact Or.inl (.task h hw)
    | work h hw => exact Or.inl (.work h hw)
    | call h hw =>
      rcases hrest h with rfl | h
      · exact Or.inr hw
      · exact Or.inl (.call h hw)

/-- The main thread takes a task. -/
theorem take_task {task : MainTask} {queue : List MainTask} (h : Accounted s)
    (hq : s.server.mainQueue = task :: queue) :
    AccountedWith (fun id => ∃ status n, task = .haveData status n id)
      (fun t => taskWithdraws s t task = true)
      { s with server := { s.server with mainQueue := queue } } := by
  refine h.take (fun id htracked => ?_) (fun t hwith => ?_) rfl (fun _ h => h) rfl
  · cases htracked with
    | sent h => exact Or.inl (.sent h)
    | queued h => exact Or.inl (.queued h)
    | carried h hid => exact Or.inl (.carried h hid)
    | held h => exact Or.inl (.held h)
    | answered h => exact Or.inl (.answered h)
    | posted h =>
      rw [hq] at h
      rcases List.mem_cons.mp h with heq | h
      · exact Or.inr ⟨_, _, heq.symm⟩
      · exact Or.inl (.posted h)
  · cases hwith with
    | call h hw => exact Or.inl (.call h hw)
    | message h hw => exact Or.inl (.message h hw)
    | work h hw => exact Or.inl (.work h hw)
    | task h hw =>
      rw [hq] at h
      rcases List.mem_cons.mp h with rfl | h
      · exact Or.inr hw
      · exact Or.inl (.task h hw)

/-- The worker takes a task. -/
theorem take_work {task : WorkerTask} {queue : List WorkerTask} (h : Accounted s)
    (hq : s.server.workerQueue = task :: queue) :
    AccountedWith (fun _ => False) (fun t => workWithdraws t task = true)
      { s with server := { s.server with workerQueue := queue } } := by
  refine h.take (fun id htracked => Or.inl ?_) (fun t hwith => ?_) rfl (fun _ h => h) rfl
  · cases htracked with
    | sent h => exact .sent h
    | queued h => exact .queued h
    | carried h hid => exact .carried h hid
    | held h => exact .held h
    | answered h => exact .answered h
    | posted h => exact .posted h
  · cases hwith with
    | call h hw => exact Or.inl (.call h hw)
    | message h hw => exact Or.inl (.message h hw)
    | task h hw => exact Or.inl (.task h hw)
    | work h hw =>
      rw [hq] at h
      rcases List.mem_cons.mp h with rfl | h
      · exact Or.inr hw
      · exact Or.inl (.work h hw)

/-- Requests leave the map of the client. -/
theorem AccountedWith.unhold {T : ℕ → Prop} {W : Source → Prop} (h : AccountedWith T W s)
    (m : OMap ℕ Client.MediaPipeline.NeedDataRequest) :
    AccountedWith (fun id => T id ∨ (s.client.needDataRequestMap.find? id).isSome ∧
        (m.find? id).isSome = false) W
      { s with client := { s.client with needDataRequestMap := m } } := by
  intro id request hfind
  rcases h id request hfind with (htracked | hhand) | ⟨hgone, (hwith | hwith) | hidle⟩
  · refine Or.inl ?_
    cases htracked with
    | sent h => exact Or.inl (.sent h)
    | queued h => exact Or.inl (.queued h)
    | carried h hid => exact Or.inl (.carried h hid)
    | answered h => exact Or.inl (.answered h)
    | posted h => exact Or.inl (.posted h)
    | held h =>
      cases hm : (m.find? id).isSome with
      | true => exact Or.inl (.held hm)
      | false => exact Or.inr (Or.inr ⟨h, hm⟩)
  · exact Or.inl (Or.inr (Or.inl hhand))
  · refine Or.inr ⟨hgone, Or.inl (Or.inl ?_)⟩
    cases hwith with
    | call h hw => exact .call h hw
    | message h hw => exact .message h hw
    | task h hw => exact .task h hw
    | work h hw => exact .work h hw
  · exact Or.inr ⟨hgone, Or.inl (Or.inr hwith)⟩
  · exact Or.inr ⟨hgone, Or.inr hidle⟩

end Take

end Rialto.Link.Tracking

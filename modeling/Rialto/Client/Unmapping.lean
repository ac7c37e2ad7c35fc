import Rialto.Client.SharedMemory

/-! # Writes and the end of the shared memory

Once the address is taken away, what a client still has of it is from before. A `MediaPipeline` that
was notified has nothing of it any more, and the memory is unmapped after all were notified.

* `Inv`: who may still have the address of the memory that is to be unmapped.
* `writes_mapped_iff`: all writes go to mapped memory exactly when no unmapping finds a
  `WebAudioPlayer` writing. -/

namespace Rialto.Client.Unmapping

open Rialto.Lib.OrdMap Rialto.Lib.Runs Rialto.Client.SharedMemory

/-! ## Who has an address -/

/-- The client can still write to the address: a frame writer has it, or a call is writing there. -/
def Holds (client : ManagerClient) (q : ℕ) : Prop :=
  (∃ id, client.needDataRequestMap.find? id = some (some q)) ∨ client.access = .writing q

/-- The address that is to be unmapped. -/
def pending : Control → Option ℕ
  | .idle => none
  | .invalidated p _ => p
  | .notifying p _ _ => p
  | .unmapping p _ => p

/-- The client is still to be notified. -/
def Awaits (control : Control) (c : ℕ) : Prop :=
  match control with
  | .idle => False
  | .invalidated _ _ => True
  | .notifying _ rest _ => c ∈ rest
  | .unmapping _ _ => False

/-- **The invariant**: the address that clients can get and the one that is to be unmapped are those
of mappings, there is no address to get while one is to be unmapped or when the application is not
running, and a `MediaPipeline` has no other address than these two, the latter only before it is
notified. -/
structure Inv (s : State) : Prop where
  current : ∀ p, s.shmBuffer = some p → p ∈ s.mapped
  pending : ∀ p, pending s.control = some p → p ∈ s.mapped
  invalidated : s.control ≠ .idle → s.shmBuffer = none
  stopped : s.currentState ≠ .running → s.shmBuffer = none
  held : ∀ c client, s.clientVec.find? c = some client → client.kind = .mediaPipeline →
    ∀ q, Holds client q →
      s.shmBuffer = some q ∨ Unmapping.pending s.control = some q ∧ Awaits s.control c

theorem inv_init : Inv init := ⟨nofun, nofun, fun h => absurd rfl h, fun _ => rfl, nofun⟩

/-- Every write goes to mapped memory. -/
def WritesMapped (s : State) : Prop :=
  ∀ c client q, s.clientVec.find? c = some client → client.access = .writing q → q ∈ s.mapped

section Clients

variable {s : State} {c : ℕ} {client client' : ManagerClient}

theorem Inv.mapped (h : Inv s) (hc : s.clientVec.find? c = some client)
    (hkind : client.kind = .mediaPipeline) {q : ℕ} (hq : Holds client q) : q ∈ s.mapped := by
  rcases h.held c client hc hkind q hq with hq | ⟨hq, -⟩
  · exact h.current q hq
  · exact h.pending q hq

/-- A client takes no address but the one there is to get. -/
theorem inv_setClient (h : Inv s) (hc : s.clientVec.find? c = some client)
    (hkind : client'.kind = client.kind)
    (hholds : client.kind = .mediaPipeline → ∀ q, Holds client' q →
      Holds client q ∨ s.shmBuffer = some q) : Inv (setClient s c client') := by
  refine ⟨h.current, h.pending, h.invalidated, h.stopped, fun d e hd he q hq => ?_⟩
  simp only [setClient, OMap.find?_insert] at hd
  split_ifs at hd with hdc
  · cases hd
    rw [hkind] at he
    rcases hholds he q hq with hq | hq
    · rw [hdc]
      exact h.held c client hc he q hq
    · exact Or.inl hq
  · exact h.held d e hd he q hq

theorem writesMapped_setClient (h : WritesMapped s)
    (haccess : ∀ q, client'.access = .writing q → q ∈ s.mapped) :
    WritesMapped (setClient s c client') := by
  intro d e q hd hq
  simp only [setClient, OMap.find?_insert] at hd
  split_ifs at hd
  · cases hd
    exact haccess q hq
  · exact h d e q hd hq

end Clients

/-! ## The control -/

section Control

variable {s s' : State}

/-- Nothing is held by a `MediaPipeline` when there is no address and nobody awaits a
notification. -/
theorem nothing_held (h : Inv s) (hbuffer : s.shmBuffer = none)
    (hawaits : ∀ c, ¬ Awaits s.control c) {c : ℕ} {client : ManagerClient}
    (hc : s.clientVec.find? c = some client) (hkind : client.kind = .mediaPipeline) (q : ℕ) :
    ¬ Holds client q := by
  intro hq
  rcases h.held c client hc hkind q hq with hq | ⟨-, hq⟩
  · rw [hbuffer] at hq
    cases hq
  · exact hawaits c hq

theorem initSharedMemory_cases (s : State) (o : Outcome) :
    (∃ fd len, initSharedMemory s o = (false, { s with shmFd := fd, shmBufferLen := len })) ∨
    (∃ fd len, initSharedMemory s o = (false, { s with
      shmFd := fd, shmBufferLen := len, shmBuffer := none })) ∨
    (∃ fd len, initSharedMemory s o = (true, { s with
      shmFd := fd
      shmBufferLen := len
      shmBuffer := some s.nextMapping
      mapped := insert s.nextMapping s.mapped
      nextMapping := s.nextMapping + 1 })) := by
  unfold initSharedMemory
  rcases o.getSharedMemory with _ | ⟨fd, len⟩
  · exact Or.inl ⟨s.shmFd, s.shmBufferLen, rfl⟩
  · dsimp only
    split_ifs
    · exact Or.inl ⟨fd, len, rfl⟩
    · exact Or.inr (Or.inr ⟨fd, len, rfl⟩)
    · exact Or.inr (Or.inl ⟨-1, 0, rfl⟩)

theorem inv_termSharedMemory (h : Inv s) (hidle : s.control = .idle) (next : ApplicationState) :
    Inv (termSharedMemory s next) := by
  refine ⟨nofun, h.current, fun _ => rfl, fun _ => rfl, fun c client hc hkind q hq => ?_⟩
  rcases h.held c client hc hkind q hq with hq | ⟨-, hq⟩
  · exact Or.inr ⟨hq, trivial⟩
  · rw [hidle] at hq
    exact hq.elim

theorem inv_setApplicationState (h : Inv s) (hidle : s.control = .idle)
    (state : ApplicationState) (o : Outcome) :
    Inv (setApplicationState s state o) ∧
      (WritesMapped s → WritesMapped (setApplicationState s state o)) := by
  have hsame : Inv s ∧ (WritesMapped s → WritesMapped s) := ⟨h, fun hw => hw⟩
  unfold setApplicationState
  split_ifs with h1 h2
  · exact hsame
  · exact hsame
  · cases state with
    | unknown => exact hsame
    | inactive => exact ⟨inv_termSharedMemory h hidle .inactive, fun hw => hw⟩
    | running =>
      have hbuffer := h.stopped h2
      have hnone : ∀ c client, s.clientVec.find? c = some client → client.kind = .mediaPipeline →
          ∀ q, ¬ Holds client q := fun c client hc hkind q =>
        nothing_held h hbuffer (fun c => by rw [hidle]; exact id) hc hkind q
      dsimp only
      rcases initSharedMemory_cases s o with ⟨fd, len, heq⟩ | ⟨fd, len, heq⟩ | ⟨fd, len, heq⟩
      · rw [heq]
        exact ⟨⟨h.current, h.pending, h.invalidated, h.stopped, h.held⟩, fun hw => hw⟩
      · rw [heq]
        refine ⟨⟨nofun, h.pending, fun _ => rfl, fun _ => rfl, ?_⟩, fun hw => hw⟩
        exact fun c client hc hkind q hq => absurd hq (hnone c client hc hkind q)
      · rw [heq]
        refine ⟨⟨?_, ?_, fun hne => absurd hidle hne, fun hne => absurd rfl hne, ?_⟩, ?_⟩
        · rintro p hp
          cases hp
          exact Finset.mem_insert_self ..
        · rintro p hp
          simp only [hidle, pending] at hp
          cases hp
        · exact fun c client hc hkind q hq => absurd hq (hnone c client hc hkind q)
        · exact fun hw c client q hc hq => Finset.mem_insert_of_mem (hw c client q hc hq)

theorem inv_term (h : Inv s) (hidle : s.control = .idle) :
    Inv (term s) ∧ (WritesMapped s → WritesMapped (term s)) := by
  unfold term
  split_ifs with hrunning
  · exact ⟨inv_termSharedMemory h hidle .unknown, fun hw => hw⟩
  · refine ⟨⟨h.current, h.pending, h.invalidated, ?_, h.held⟩, fun hw => hw⟩
    exact fun _ => h.stopped hrunning

theorem inv_lockClients (h : Inv s) {p : Option ℕ} {next : ApplicationState}
    (hcontrol : s.control = .invalidated p next) :
    Inv { s with control := .notifying p s.clientVec.keys next } := by
  have hbuffer : s.shmBuffer = none := h.invalidated (by rw [hcontrol]; nofun)
  refine ⟨h.current, ?_, fun _ => hbuffer, h.stopped, fun c client hc hkind q hq => ?_⟩
  · have hpending := h.pending
    rwa [hcontrol] at hpending
  · rcases h.held c client hc hkind q hq with hq | ⟨hq, -⟩
    · exact Or.inl hq
    · rw [hcontrol] at hq
      exact Or.inr ⟨hq, OMap.mem_keys.mpr ⟨client, OMap.find?_eq_some.mp hc⟩⟩

theorem inv_notifyClient (h : Inv s) {p : Option ℕ} {c : ℕ} {rest : List ℕ}
    {next : ApplicationState} (hcontrol : s.control = .notifying p (c :: rest) next)
    {client : ManagerClient} (hc : s.clientVec.find? c = some client)
    (hstep : notifyBufferTerm { s with control := .notifying p rest next } c client = some s') :
    Inv s' ∧ (WritesMapped s → WritesMapped s') := by
  have hbuffer : s.shmBuffer = none := h.invalidated (by rw [hcontrol]; nofun)
  have hpending := h.pending
  have hheld := h.held
  rw [hcontrol] at hpending hheld
  -- what the clients other than the one that is notified hold
  have hothers : ∀ d e, d ≠ c → s.clientVec.find? d = some e → e.kind = .mediaPipeline →
      ∀ q, Holds e q → s.shmBuffer = some q ∨ p = some q ∧ d ∈ rest := by
    intro d e hne hd he q hq
    rcases hheld d e hd he q hq with hq | ⟨hq, hmem⟩
    · exact Or.inl hq
    · exact Or.inr ⟨hq, (List.mem_cons.mp hmem).resolve_left hne⟩
  unfold notifyBufferTerm at hstep
  cases hkind : client.kind with
  | mediaPipeline =>
    rw [hkind] at hstep
    dsimp only at hstep
    split_ifs at hstep with hfree
    cases hstep
    refine ⟨⟨h.current, hpending, fun _ => hbuffer, h.stopped, fun d e hd he q hq => ?_⟩,
      fun hw => ?_⟩
    · simp only [setClient, OMap.find?_insert] at hd
      split_ifs at hd with hdc
      · cases hd
        rcases hq with ⟨id, hid⟩ | hq
        · cases hid
        · rw [hfree] at hq
          cases hq
      · exact hothers d e hdc hd he q hq
    · refine writesMapped_setClient (s := { s with control := .notifying p rest next }) hw ?_
      intro q hq
      rw [hfree] at hq
      cases hq
  | webAudioPlayer =>
    rw [hkind] at hstep
    cases hstep
    refine ⟨⟨h.current, hpending, fun _ => hbuffer, h.stopped, fun d e hd he q hq => ?_⟩,
      fun hw => hw⟩
    by_cases hdc : d = c
    · rw [hdc, hc] at hd
      cases hd
      rw [hkind] at he
      cases he
    · exact hothers d e hdc hd he q hq

theorem inv_unlockClients (h : Inv s) {p : Option ℕ} {next : ApplicationState}
    (hcontrol : s.control = .notifying p [] next) :
    Inv { s with control := .unmapping p next } := by
  have hbuffer : s.shmBuffer = none := h.invalidated (by rw [hcontrol]; nofun)
  have hpending := h.pending
  rw [hcontrol] at hpending
  refine ⟨h.current, hpending, fun _ => hbuffer, h.stopped, fun c client hc hkind q hq => ?_⟩
  refine absurd hq (nothing_held h hbuffer (fun c => ?_) hc hkind q)
  rw [hcontrol]
  exact List.not_mem_nil

/-- The condition on a step: memory is not unmapped while a `WebAudioPlayer` writes to it. -/
def Meets (s : State) : Act → Prop
  | .unmap unmapped => unmapped = true → s.shmFd ≠ -1 → ∀ p next c client,
      s.control = .unmapping (some p) next → s.clientVec.find? c = some client →
      client.kind = .webAudioPlayer → client.access ≠ .writing p
  | _ => True

theorem inv_unmap (h : Inv s) {p : Option ℕ} {next : ApplicationState}
    (hcontrol : s.control = .unmapping p next) (unmapped : Bool) :
    Inv (unmap s p next unmapped) := by
  have hbuffer : s.shmBuffer = none := h.invalidated (by rw [hcontrol]; nofun)
  have hnone : ∀ c client, s.clientVec.find? c = some client → client.kind = .mediaPipeline →
      ∀ q, ¬ Holds client q := fun c client hc hkind q =>
    nothing_held h hbuffer (fun c => by rw [hcontrol]; exact id) hc hkind q
  unfold unmap
  split_ifs
  · refine ⟨h.current, nofun, fun _ => hbuffer, fun _ => hbuffer, ?_⟩
    exact fun c client hc hkind q hq => absurd hq (hnone c client hc hkind q)
  · refine ⟨?_, nofun, fun _ => hbuffer, fun _ => hbuffer, ?_⟩
    · intro q hq
      rw [hbuffer] at hq
      cases hq
    · exact fun c client hc hkind q hq => absurd hq (hnone c client hc hkind q)
  · refine ⟨h.current, nofun, fun _ => hbuffer, fun _ => hbuffer, ?_⟩
    exact fun c client hc hkind q hq => absurd hq (hnone c client hc hkind q)

/-- Unmapping: the `MediaPipeline`s hold nothing, so it is the `WebAudioPlayer`s that decide. -/
theorem writesMapped_unmap_iff (h : Inv s) {p : Option ℕ} {next : ApplicationState}
    (hcontrol : s.control = .unmapping p next) (unmapped : Bool) (hw : WritesMapped s) :
    WritesMapped (unmap s p next unmapped) ↔ Meets s (.unmap unmapped) := by
  have hbuffer : s.shmBuffer = none := h.invalidated (by rw [hcontrol]; nofun)
  constructor
  · intro hafter hunmapped hfd p' next' c client hcontrol' hc hkind haccess
    rw [hcontrol] at hcontrol'
    cases hcontrol'
    have hmem := hafter c client p' (by rw [unmap, if_neg hfd]; exact hc) haccess
    rw [unmap, if_neg hfd, if_pos hunmapped] at hmem
    exact Finset.notMem_erase p' s.mapped hmem
  · intro hmeets c client q hc hq
    unfold unmap at hc ⊢
    split_ifs at hc ⊢ with hfd hunmapped
    · exact hw c client q hc hq
    · have hmem := hw c client q hc hq
      cases p with
      | none => exact hmem
      | some p =>
        refine Finset.mem_erase.mpr ⟨?_, hmem⟩
        rintro rfl
        cases hkind : client.kind with
        | mediaPipeline =>
          refine nothing_held h hbuffer (fun c => ?_) hc hkind q (Or.inr hq)
          rw [hcontrol]
          exact id
        | webAudioPlayer => exact hmeets hunmapped hfd q next c client hcontrol hc hkind hq
    · exact hw c client q hc hq

end Control

/-! ## Steps of the clients -/

section Steps

variable {s s' : State} {c : ℕ}

theorem onClient_eq {f : ManagerClient → Option State} (h : onClient s c f = some s') :
    ∃ client, s.clientVec.find? c = some client ∧ f client = some s' := by
  unfold onClient at h
  cases hc : s.clientVec.find? c with
  | none =>
    rw [hc] at h
    cases h
  | some client =>
    rw [hc] at h
    exact ⟨client, rfl, h⟩

theorem onPipeline_eq {f : ManagerClient → Option ManagerClient}
    (h : onPipeline s c f = some s') :
    ∃ client client', s.clientVec.find? c = some client ∧ client.access = .free ∧
      f client = some client' ∧ s' = setClient s c client' := by
  obtain ⟨client, hc, hf⟩ := onClient_eq h
  split_ifs at hf with hfree
  obtain ⟨client', hclient', heq⟩ := Option.map_eq_some_iff.mp hf
  exact ⟨client, client', hc, hfree.2, hclient', heq.symm⟩

/-- A step that takes no address. -/
theorem keeps_setClient (h : Inv s) {client client' : ManagerClient}
    (hc : s.clientVec.find? c = some client) (hkind : client'.kind = client.kind)
    (hmap : ∀ id q, client'.needDataRequestMap.find? id = some (some q) →
      client.needDataRequestMap.find? id = some (some q))
    (haccess : ∀ q, client'.access ≠ .writing q) :
    Inv (setClient s c client') ∧ (WritesMapped s → WritesMapped (setClient s c client')) := by
  refine ⟨inv_setClient h hc hkind fun _ q hq => ?_, fun hw => ?_⟩
  · rcases hq with ⟨id, hid⟩ | hq
    · exact Or.inl (Or.inl ⟨id, hmap id q hid⟩)
    · exact absurd hq (haccess q)
  · exact writesMapped_setClient hw fun q hq => absurd hq (haccess q)

theorem keeps_fetch (h : Inv s) {client : ManagerClient} (hc : s.clientVec.find? c = some client)
    (id : ℕ) (created : Bool) :
    Inv (fetch s c client id created) ∧
      (WritesMapped s → WritesMapped (fetch s c client id created)) := by
  have hrelease : Inv (setClient s c { client with access := .free }) ∧
      (WritesMapped s → WritesMapped (setClient s c { client with access := .free })) :=
    keeps_setClient h hc rfl (fun _ _ h => h) nofun
  obtain ⟨kind, requests, access⟩ := client
  unfold fetch
  cases hbuffer : s.shmBuffer with
  | none => exact hrelease
  | some p =>
    cases kind with
    | webAudioPlayer =>
      refine ⟨inv_setClient h hc rfl nofun, fun hw => writesMapped_setClient hw ?_⟩
      rintro q hq
      cases hq
      exact h.current p hbuffer
    | mediaPipeline =>
      dsimp only
      split
      · next q hreq =>
        -- the frame writer of the request has the address from before
        have hholds : Holds ⟨.mediaPipeline, requests, access⟩ q := Or.inl ⟨id, hreq⟩
        refine ⟨inv_setClient h hc rfl fun _ q' hq' => ?_, fun hw => ?_⟩
        · rcases hq' with hq' | hq'
          · exact Or.inl (Or.inl hq')
          · cases hq'
            exact Or.inl hholds
        · refine writesMapped_setClient hw fun q' hq' => ?_
          cases hq'
          exact h.mapped hc rfl hholds
      · split_ifs
        · refine ⟨inv_setClient h hc rfl fun _ q' hq' => ?_, fun hw => ?_⟩
          · rcases hq' with ⟨id', hid'⟩ | hq'
            · simp only [OMap.find?_insert] at hid'
              split_ifs at hid'
              · cases hid'
                exact Or.inr hbuffer
              · exact Or.inl (Or.inl ⟨id', hid'⟩)
            · cases hq'
              exact Or.inr hbuffer
          · refine writesMapped_setClient hw fun q' hq' => ?_
            cases hq'
            exact h.current p hbuffer
        · exact hrelease
      · exact hrelease

theorem keeps_registerClient (h : Inv s) (kind : Kind) :
    Inv { s with clientVec := s.clientVec.emplace c (ManagerClient.fresh kind) } ∧
      (WritesMapped s →
        WritesMapped { s with clientVec := s.clientVec.emplace c (ManagerClient.fresh kind) }) := by
  have hcases : ∀ d e, (s.clientVec.emplace c (ManagerClient.fresh kind)).find? d = some e →
      s.clientVec.find? d = some e ∨ e = ManagerClient.fresh kind := by
    intro d e hd
    rcases OMap.mem_of_mem_emplace (OMap.find?_eq_some.mp hd) with hd | hd
    · exact Or.inr (congrArg Prod.snd hd)
    · exact Or.inl (OMap.find?_eq_some.mpr hd)
  refine ⟨⟨h.current, h.pending, h.invalidated, h.stopped, fun d e hd he q hq => ?_⟩,
    fun hw d e q hd hq => ?_⟩
  · rcases hcases d e hd with hd | rfl
    · exact h.held d e hd he q hq
    · rcases hq with ⟨id, hid⟩ | hq
      · cases hid
      · cases hq
  · rcases hcases d e hd with hd | rfl
    · exact hw d e q hd hq
    · cases hq

theorem keeps_unregisterClient (h : Inv s) :
    Inv { s with clientVec := s.clientVec.erase c } ∧
      (WritesMapped s → WritesMapped { s with clientVec := s.clientVec.erase c }) := by
  have hcases : ∀ d e, (s.clientVec.erase c).find? d = some e → s.clientVec.find? d = some e := by
    intro d e hd
    rw [OMap.find?_erase] at hd
    split_ifs at hd
    exact hd
  exact ⟨⟨h.current, h.pending, h.invalidated, h.stopped, fun d e hd => h.held d e (hcases d e hd)⟩,
    fun hw d e q hd => hw d e q (hcases d e hd)⟩

/-! ## All steps -/

theorem stepClient_keeps {a : Act} (h : Inv s) (hstep : stepClient s a = some s') :
    Inv s' ∧ (WritesMapped s → WritesMapped s') := by
  cases a with
  | registerClient c kind =>
    simp only [stepClient] at hstep
    split_ifs at hstep
    cases hstep
    exact keeps_registerClient h kind
  | unregisterClient c =>
    simp only [stepClient] at hstep
    split_ifs at hstep
    obtain ⟨client, -, hf⟩ := onClient_eq hstep
    split_ifs at hf
    cases hf
    exact keeps_unregisterClient h
  | needData c id =>
    obtain ⟨client, client', hc, hfree, hf, rfl⟩ := onPipeline_eq hstep
    cases hf
    refine keeps_setClient h hc rfl (fun id' q hq => ?_) fun q hq => ?_
    · rw [OMap.find?_insert] at hq
      split_ifs at hq
      · cases hq
      · exact hq
    · cases hfree.symm.trans hq
  | drop c id =>
    obtain ⟨client, client', hc, hfree, hf, rfl⟩ := onPipeline_eq hstep
    cases hf
    refine keeps_setClient h hc rfl (fun id' q hq => ?_) fun q hq => ?_
    · rw [OMap.find?_erase] at hq
      split_ifs at hq
      exact hq
    · cases hfree.symm.trans hq
  | dropAll c =>
    obtain ⟨client, client', hc, hfree, hf, rfl⟩ := onPipeline_eq hstep
    cases hf
    exact keeps_setClient h hc rfl nofun fun q hq => by cases hfree.symm.trans hq
  | addSegment c id =>
    obtain ⟨client, client', hc, hfree, hf, rfl⟩ := onPipeline_eq hstep
    split_ifs at hf
    cases hf
    exact keeps_setClient h hc rfl (fun _ _ h => h) nofun
  | writeBuffer c =>
    obtain ⟨client, hc, hf⟩ := onClient_eq hstep
    split_ifs at hf
    cases hf
    exact keeps_setClient h hc rfl (fun _ _ h => h) nofun
  | fetch c created =>
    obtain ⟨client, hc, hf⟩ := onClient_eq hstep
    split at hf
    · cases hf
      exact keeps_fetch h hc _ created
    · cases hf
  | copy c =>
    obtain ⟨client, hc, hf⟩ := onClient_eq hstep
    split at hf
    · cases hf
      exact ⟨h, fun hw => hw⟩
    · cases hf
  | copied c =>
    obtain ⟨client, hc, hf⟩ := onClient_eq hstep
    split at hf
    · cases hf
      exact keeps_setClient h hc rfl (fun _ _ h => h) nofun
    · cases hf
  | unlock c =>
    obtain ⟨client, hc, hf⟩ := onClient_eq hstep
    split_ifs at hf
    cases hf
    exact keeps_setClient h hc rfl (fun _ _ h => h) nofun
  | _ => cases hstep

theorem stepControl_keeps {a : Act} (h : Inv s) (hstep : stepControl s a = some s') :
    Inv s' ∧ (WritesMapped s → (WritesMapped s' ↔ Meets s a)) := by
  have hmeets : ∀ {t : State} {b : Act}, Meets s b →
      Inv t ∧ (WritesMapped s → WritesMapped t) →
      Inv t ∧ (WritesMapped s → (WritesMapped t ↔ Meets s b)) := fun hb ht =>
    ⟨ht.1, fun hw => iff_of_true (ht.2 hw) hb⟩
  cases a with
  | setApplicationState state o =>
    simp only [stepControl] at hstep
    split_ifs at hstep with hidle
    cases hstep
    exact hmeets trivial (inv_setApplicationState h hidle state o)
  | destructor =>
    simp only [stepControl] at hstep
    split_ifs at hstep with hidle
    cases hstep
    exact hmeets trivial (inv_term h hidle)
  | lockClients =>
    simp only [stepControl] at hstep
    split at hstep
    · next hcontrol =>
      cases hstep
      exact hmeets trivial ⟨inv_lockClients h hcontrol, fun hw => hw⟩
    · cases hstep
  | notifyClient =>
    simp only [stepControl] at hstep
    split at hstep
    · next hcontrol =>
      obtain ⟨client, hc, hf⟩ := onClient_eq hstep
      exact hmeets trivial (inv_notifyClient h hcontrol hc hf)
    · cases hstep
  | unlockClients =>
    simp only [stepControl] at hstep
    split at hstep
    · next hcontrol =>
      cases hstep
      exact hmeets trivial ⟨inv_unlockClients h hcontrol, fun hw => hw⟩
    · cases hstep
  | unmap unmapped =>
    simp only [stepControl] at hstep
    split at hstep
    · next hcontrol =>
      cases hstep
      exact ⟨inv_unmap h hcontrol unmapped, writesMapped_unmap_iff h hcontrol unmapped⟩
    · cases hstep
  | _ => cases hstep

/-- What a step keeps. -/
theorem step_keeps {a : Act} (h : Inv s) (hstep : step s a = some s') :
    Inv s' ∧ (WritesMapped s → (WritesMapped s' ↔ Meets s a)) := by
  unfold step at hstep
  cases hcontrol : stepControl s a with
  | some t =>
    rw [hcontrol] at hstep
    cases hstep
    exact stepControl_keeps h hcontrol
  | none =>
    rw [hcontrol] at hstep
    obtain ⟨hinv, hwrites⟩ := stepClient_keeps h hstep
    refine ⟨hinv, fun hw => iff_of_true (hwrites hw) ?_⟩
    -- a step of a client is no unmapping
    cases a <;> first | exact trivial | cases hstep

end Steps

/-- **Writes go to mapped memory** all along a run exactly when no step of the run unmaps memory
that a `WebAudioPlayer` is writing to. -/
theorem writes_mapped_iff {as : List Act} {s : State}
    (h : Run step (fun _ _ => True) init as s) :
    (∀ pre post t, as = pre ++ post → Run step (fun _ _ => True) init pre t → WritesMapped t) ↔
      ∀ a t, Occurs step (fun _ _ => True) init as a t → Meets t a :=
  h.always_iff Inv WritesMapped Meets inv_init (fun _ _ _ ht hstep => (step_keeps ht hstep).1)
    (fun _ _ _ hc _ => by cases hc) fun _ _ _ ht hw hstep => (step_keeps ht hstep).2 hw

/-- The shared memory is there. -/
def granted : Outcome := ⟨some (3, 4096), true⟩

/-- A `MediaPipeline` is notified before the memory is unmapped. -/
theorem writes_mapped_pipeline :
    ∃ s, Run step (fun _ _ => True) init ([.setApplicationState .running granted,
        .registerClient 1 .mediaPipeline, .setApplicationState .inactive granted, .lockClients,
        .notifyClient, .unlockClients] ++ [.unmap true]) s ∧ WritesMapped s := by
  have hrun : Run step (fun _ _ => True) init [.setApplicationState .running granted,
      .registerClient 1 .mediaPipeline, .setApplicationState .inactive granted, .lockClients,
      .notifyClient, .unlockClients] _ :=
    Run.cons trivial rfl <| Run.cons trivial rfl <| Run.cons trivial rfl <| Run.cons trivial rfl <|
      Run.cons trivial rfl <| Run.cons trivial rfl <| Run.nil _
  have hunmap := hrun.append (Run.cons trivial rfl (Run.nil _) : Run _ _ _ [.unmap true] _)
  refine ⟨_, hunmap, (writes_mapped_iff hunmap).mpr (fun a t h => ?_) _ [] _
    (List.append_nil _).symm hunmap⟩
  rcases h.snoc_cases with h | ⟨rfl, hrun'⟩
  · have hmem := h.mem
    simp only [List.mem_cons, List.not_mem_nil, or_false] at hmem
    rcases hmem with rfl | rfl | rfl | rfl | rfl | rfl <;> trivial
  · cases hrun.unique hrun'
    intro _ _ p next c client _ hc hkind
    cases List.mem_singleton.mp (OMap.find?_eq_some.mp hc)
    cases hkind

/-- A `WebAudioPlayer` has fetched the address; the memory is unmapped, and the copy comes after
that. -/
theorem write_after_unmap :
    ∃ as s client, Run step (fun _ _ => True) init as s ∧ s.clientVec.find? 1 = some client ∧
      client.access = .writing 0 ∧ 0 ∉ s.mapped ∧ (step s (.copy 1)).isSome := by
  have hrun : Run step (fun _ _ => True) init [.setApplicationState .running granted,
      .registerClient 1 .webAudioPlayer, .writeBuffer 1, .fetch 1 true,
      .setApplicationState .inactive granted, .lockClients, .notifyClient, .unlockClients,
      .unmap true] _ :=
    Run.cons trivial rfl <| Run.cons trivial rfl <| Run.cons trivial rfl <| Run.cons trivial rfl <|
      Run.cons trivial rfl <| Run.cons trivial rfl <| Run.cons trivial rfl <|
      Run.cons trivial rfl <| Run.cons trivial rfl <| Run.nil _
  exact ⟨_, _, _, hrun, rfl, rfl, by decide, rfl⟩

end Rialto.Client.Unmapping

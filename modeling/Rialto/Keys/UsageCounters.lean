import Mathlib.Data.List.Perm.Basic
import Rialto.Keys.Cdm

/-! # Usage counters and buffers

The usage counter of a session is to be the number of the buffers that name it. An increment for a
session that does not exist yet is lost, while the decrement of the same buffer comes later and
finds the session. So the counter is right for the sessions whose id was not in use when they were
created. The destructor of a `MediaKeysServerInternal` closes its sessions whatever their counters
are.

* `Counts`: what an operation on one session does to its counter, proved of each operation.
* `counters_count_buffers`: the counter is the number of buffers, and only a destructor closes a
  session that a buffer names.
* `early_buffer_not_counted`: a buffer that names a session not created yet, a session closed by a
  destructor, and `2 ^ 32` buffers. -/

namespace Rialto.Keys.UsageCounters

open Rialto.Lib.OrdMap Rialto.Lib.Runs Rialto.Lib.Word
open Rialto.Keys.Sessions Rialto.Keys.Effects Rialto.Keys.Cdm

/-! ## One session -/

theorem attempts_eq {bs : List ℤ} {o o' : Sessions.State} {es : List Entry}
    (h : o'.log = o.log ++ es) : attempts bs o o' = es.filterMap (closeOf bs) := by
  rw [attempts, h, List.drop_left]

theorem attempts_refl (bs : List ℤ) (o : Sessions.State) : attempts bs o o = [] := by
  rw [attempts_eq (List.append_nil _).symm]
  rfl

/-- What an operation on the session `id` does, with `n` its counter after it. -/
structure Counts (bs : List ℤ) (id : ℤ) (o o' : Sessions.State) (n : ℕ) : Prop where
  only : Only id o o'
  counter : ∀ u, o'.mediaKeySessions.find? id = some u → u.bufCounter = n
  attempts : ∀ c ∈ attempts bs o o', c.keySessionId = id ∧ n = 0

section Ops

variable {bs : List ℤ} {id : ℤ} {o : Sessions.State} {u : MediaKeySessionUsage}

/-- The counter and the log are left alone. -/
theorem counts_put (u' : MediaKeySessionUsage) :
    Counts bs id o (o.put id u') u'.bufCounter := by
  refine ⟨only_put id o u', fun v hv => ?_, fun c hc => ?_⟩
  · rw [find?_put] at hv
    cases hv
    rfl
  · rw [attempts_eq (show (o.put id u').log = o.log ++ [] from (List.append_nil _).symm)] at hc
    exact nomatch hc

theorem counts_refl (hu : o.mediaKeySessions.find? id = some u) :
    Counts bs id o o u.bufCounter := by
  refine ⟨Only.refl id o, fun v hv => ?_, fun c hc => ?_⟩
  · cases hu.symm.trans hv
    rfl
  · rw [attempts_refl] at hc
    exact nomatch hc

/-- An attempt to close leaves the counter at `0` or erases the session. -/
theorem counts_attemptClose (ocdm : OcdmSession) (hzero : u.bufCounter = 0) :
    Counts bs id o (attemptClose o id u ocdm).2 0 := by
  refine ⟨attemptClose_only ocdm hzero, fun v hv => ?_, fun c hc => ?_⟩
  · rcases attemptClose_cases o id u ocdm with ⟨status, m, -, heq⟩ | heq
    · rw [heq, State.note_mediaKeySessions, find?_put] at hv
      cases hv
      exact hzero
    · rw [heq, State.note_mediaKeySessions, OMap.find?_erase, if_pos rfl] at hv
      exact nomatch hv
  · refine ⟨?_, rfl⟩
    rcases attemptClose_cases o id u ocdm with ⟨status, m, -, heq⟩ | heq
    all_goals
      rw [heq, attempts_eq rfl] at hc
      cases List.mem_singleton.mp hc
      rfl

theorem counts_generateRequest (constructSession : MediaKeyErrorStatus)
    (hu : o.mediaKeySessions.find? id = some u) :
    Counts bs id o (generateRequestInternal o id constructSession).2 u.bufCounter := by
  unfold generateRequestInternal
  rw [hu]
  dsimp only
  split_ifs
  · exact counts_refl hu
  · exact counts_refl hu
  · exact counts_put _

theorem counts_close (ocdm : OcdmSession) (hu : o.mediaKeySessions.find? id = some u) :
    Counts bs id o (closeKeySessionInternal o id ocdm).2 u.bufCounter := by
  unfold closeKeySessionInternal
  rw [hu]
  dsimp only
  split_ifs with hzero
  · rw [hzero]
    exact counts_attemptClose ocdm hzero
  · exact counts_put _

theorem counts_increment (hu : o.mediaKeySessions.find? id = some u) :
    Counts bs id o (incrementSessionIdUsageCounterInternal o id) (add32 u.bufCounter 1) := by
  refine ⟨(effect_increment o id).only, fun v hv => ?_, fun c hc => ?_⟩
  · unfold incrementSessionIdUsageCounterInternal at hv
    rw [hu] at hv
    dsimp only at hv
    rw [State.note_mediaKeySessions, find?_put] at hv
    cases hv
    rfl
  · unfold incrementSessionIdUsageCounterInternal at hc
    rw [hu] at hc
    dsimp only at hc
    rw [attempts_eq rfl] at hc
    exact nomatch hc

theorem counts_decrement (ocdm : OcdmSession) (hu : o.mediaKeySessions.find? id = some u) :
    Counts bs id o (decrementSessionIdUsageCounterInternal o id ocdm) (u.bufCounter - 1) := by
  have hdown : (decrementCounter o id u).2.bufCounter = u.bufCounter - 1 := by
    unfold decrementCounter
    split_ifs with hpos
    · rfl
    · dsimp only
      omega
  have hlog : ∃ es, (decrementCounter o id u).1.log = o.log ++ es ∧
      es.filterMap (closeOf bs) = [] := by
    unfold decrementCounter
    split_ifs
    · exact ⟨[.decremented id], rfl, rfl⟩
    · exact ⟨[], (List.append_nil _).symm, rfl⟩
  obtain ⟨es, hes, hnone⟩ := hlog
  obtain ⟨heffect, hu'⟩ := effect_decrementCounter hu
  unfold decrementSessionIdUsageCounterInternal
  rw [hu]
  dsimp only
  split_ifs with hclose
  · have hzero : u.bufCounter - 1 = 0 := hdown.symm.trans hclose.1
    have hcounts : Counts bs id (decrementCounter o id u).1 _ 0 :=
      counts_attemptClose ocdm hclose.1
    rw [hzero]
    refine ⟨heffect.only.trans hcounts.only, hcounts.counter, fun c hc => hcounts.attempts c ?_⟩
    obtain ⟨es', hes', -⟩ := hcounts.only.log
    rw [attempts_eq hes']
    rw [attempts_eq (hes'.trans (by rw [hes, List.append_assoc])), List.filterMap_append,
      hnone] at hc
    exact hc
  · refine ⟨heffect.only, fun v hv => ?_, fun c hc => ?_⟩
    · cases hu'.symm.trans hv
      exact hdown
    · rw [attempts_eq hes, hnone] at hc
      exact nomatch hc

end Ops

/-! ## All sessions -/

/-- **The invariant.** -/
structure Counted (s : Cdm.State) : Prop where
  counter : ∀ id u, Live s id u → id ∉ s.early → u.bufCounter = s.buffers.count id
  closes : ∀ c ∈ s.closes, c.keySessionId ∉ s.early → c.destroyed = false → c.buffers = 0

theorem counted_init : Counted Cdm.init where
  counter := by
    rintro id u ⟨handle, o, hh, -⟩
    exact nomatch hh
  closes := nofun

section Steps

variable {s : Cdm.State} {handle id : ℤ} {o o' : Sessions.State} {u : MediaKeySessionUsage} {n : ℕ}

/-- An operation on the session `id`, which may have had a wrong counter before. -/
theorem counted_put (hissued : Issued s) (hh : s.mediaKeys.find? handle = some o)
    (hu : o.mediaKeySessions.find? id = some u) (hcounts : Counts s.buffers id o o' n)
    (hn : id ∉ s.early → n = s.buffers.count id)
    (hothers : ∀ id' u', id' ≠ id → Live s id' u' → id' ∉ s.early →
      u'.bufCounter = s.buffers.count id')
    (hcloses : ∀ c ∈ s.closes, c.keySessionId ∉ s.early → c.destroyed = false → c.buffers = 0) :
    Counted (s.put handle o o') := by
  refine ⟨fun id' u' hlive hearly => ?_, fun c hc hearly hdestroyed => ?_⟩
  · by_cases heq : id' = id
    · subst heq
      have hu' := (live_put_self (hissued.owner hh hu)).mp hlive
      exact (hcounts.counter u' hu').trans (hn hearly)
    · have hlive' := (live_put_of_ne hh (hcounts.only.others id' heq)).mp hlive
      exact hothers id' u' heq hlive' hearly
  · rcases List.mem_append.mp hc with hc | hc
    · exact hcloses c hc hearly hdestroyed
    · obtain ⟨rfl, hzero⟩ := hcounts.attempts c hc
      obtain ⟨e, -, he⟩ := List.mem_filterMap.mp hc
      have hcount : c.buffers = s.buffers.count c.keySessionId := by
        cases e <;> cases he
        rfl
      rw [hcount, ← hn hearly, hzero]

/-- An operation that has done nothing. -/
theorem counted_put_self (h : Counted s) (hh : s.mediaKeys.find? handle = some o) :
    Counted (s.put handle o o) := by
  refine ⟨fun id u hlive hearly => ?_, ?_⟩
  · exact h.counter id u ((live_put_of_ne hh rfl).mp hlive) hearly
  · unfold Cdm.State.put
    rw [attempts_refl, List.append_nil]
    exact h.closes

/-- A request for a session of an object. -/
theorem counted_request (hissued : Issued s) (h : Counted s)
    (hh : s.mediaKeys.find? handle = some o)
    (habsent : o.mediaKeySessions.find? id = none → o' = o)
    (hcounts : ∀ u, o.mediaKeySessions.find? id = some u →
      Counts s.buffers id o o' u.bufCounter) : Counted (s.put handle o o') := by
  cases hu : o.mediaKeySessions.find? id with
  | none =>
    rw [habsent hu]
    exact counted_put_self h hh
  | some u =>
    refine counted_put hissued hh hu (hcounts u hu) (fun hearly => ?_)
      (fun id' u' _ => h.counter id' u') h.closes
    exact h.counter id u (live_of_find hh hu) hearly

theorem counted_init_metadata (hissued : Issued s) (h : Counted s)
    (hfits : s.buffers.length + 1 < 2 ^ 32) :
    Counted (incrementSessionIdUsageCounter { s with buffers := id :: s.buffers } id) := by
  have hothers : ∀ id' u', id' ≠ id → Live s id' u' → id' ∉ s.early →
      u'.bufCounter = (id :: s.buffers).count id' := by
    intro id' u' hne hlive hearly
    rw [List.count_cons_of_ne hne.symm]
    exact h.counter id' u' hlive hearly
  unfold incrementSessionIdUsageCounter
  split
  next hnone =>
    refine ⟨fun id' u' hlive hearly => ?_, h.closes⟩
    refine hothers id' u' ?_ hlive hearly
    rintro rfl
    exact mediaKeysOf_none hnone hlive
  next handle o hsome =>
    obtain ⟨hh, u, hu⟩ := mediaKeysOf_some hsome
    refine counted_put (issued_buffers hissued _) hh hu (counts_increment hu) (fun hearly => ?_)
      hothers h.closes
    have hcount := h.counter id u (live_of_find hh hu) hearly
    have hle : s.buffers.count id ≤ s.buffers.length := List.count_le_length
    show add32 u.bufCounter 1 = (id :: s.buffers).count id
    rw [add32_of_lt (by rw [hcount]; unfold w32; omega), hcount, List.count_cons_self]

theorem count_eraseIdx {bs : List ℤ} {i : ℕ} (hi : bs[i]? = some id) (id' : ℤ) :
    bs.count id' = (bs.eraseIdx i).count id' + if id = id' then 1 else 0 := by
  obtain ⟨hlt, hget⟩ := List.getElem?_eq_some_iff.mp hi
  have hperm := List.getElem_cons_eraseIdx_perm hlt
  rw [← hperm.count_eq id', hget, List.count_cons]
  simp

theorem counted_free_metadata (hissued : Issued s) (h : Counted s) {i : ℕ} (ocdm : OcdmSession)
    (hi : s.buffers[i]? = some id) :
    Counted
      (decrementSessionIdUsageCounter { s with buffers := s.buffers.eraseIdx i } id ocdm) := by
  have hothers : ∀ id' u', id' ≠ id → Live s id' u' → id' ∉ s.early →
      u'.bufCounter = (s.buffers.eraseIdx i).count id' := by
    intro id' u' hne hlive hearly
    have hcount := count_eraseIdx hi id'
    rw [if_neg hne.symm] at hcount
    rw [h.counter id' u' hlive hearly, hcount, Nat.add_zero]
  unfold decrementSessionIdUsageCounter
  split
  next hnone =>
    refine ⟨fun id' u' hlive hearly => ?_, h.closes⟩
    refine hothers id' u' ?_ hlive hearly
    rintro rfl
    exact mediaKeysOf_none hnone hlive
  next handle o hsome =>
    obtain ⟨hh, u, hu⟩ := mediaKeysOf_some hsome
    refine counted_put (issued_buffers hissued _) hh hu (counts_decrement ocdm hu)
      (fun hearly => ?_) hothers h.closes
    have hcount := count_eraseIdx hi id
    rw [if_pos rfl] at hcount
    show u.bufCounter - 1 = (s.buffers.eraseIdx i).count id
    rw [h.counter id u (live_of_find hh hu) hearly, hcount, Nat.add_sub_cancel]

/-- Sessions only go, and what is recorded more was done by a destructor. -/
theorem counted_mono (h : Counted s) {s' : Cdm.State} (hfewer : Fewer s s')
    (hbuffers : s'.buffers = s.buffers) (hearly : s'.early = s.early)
    (hcloses : ∀ c ∈ s'.closes, c ∈ s.closes ∨ c.destroyed = true) : Counted s' := by
  refine ⟨fun id u hlive hid => ?_, fun c hc hid hdestroyed => ?_⟩
  · rw [hbuffers]
    exact h.counter id u (hfewer.live hlive) (hearly ▸ hid)
  · rcases hcloses c hc with hc | hc
    · exact h.closes c hc (hearly ▸ hid) hdestroyed
    · exact nomatch hdestroyed.symm.trans hc

theorem destroyed_of_mem {bs : List ℤ} {c : Close} (hc : c ∈ destructions bs o) :
    c.destroyed = true := by
  obtain ⟨e, -, he⟩ := List.mem_filterMap.mp hc
  split_ifs at he
  cases he
  rfl

/-- The id is issued, but the session could not be made. -/
theorem counted_create_failed (h : Counted s) (hh : s.mediaKeys.find? handle = some o)
    (hsame : o'.mediaKeySessions = o.mediaKeySessions) (hlog : o'.log = o.log) :
    Counted { s.put handle o o' with keySessionId := s.keySessionId + 1 } := by
  have hlive : ∀ {id u}, Live (s.put handle o o') id u → Live s id u := fun hlive =>
    (live_put_of_ne hh (by rw [hsame])).mp hlive
  refine ⟨fun id u hl hid => h.counter id u (hlive hl) hid, fun c hc => ?_⟩
  rcases List.mem_append.mp hc with hc | hc
  · exact h.closes c hc
  · rw [attempts_eq (show o'.log = o.log ++ [] by rw [hlog, List.append_nil])] at hc
    exact nomatch hc

theorem counted_remove (h : Counted s) (handle id : ℤ) (remove : MediaKeyErrorStatus) :
    Counted (removeKeySession s handle id remove).2 := by
  have hput : Counted (s.onMediaKeys handle fun o => removeKeySessionInternal o id remove).2 := by
    unfold Cdm.State.onMediaKeys
    split
    next => exact h
    next o hh =>
      rw [removeKeySession_state]
      exact counted_put_self h hh
  unfold removeKeySession
  dsimp only
  split_ifs
  · exact counted_mono hput fewer_refl rfl rfl fun c hc => Or.inl hc
  · exact hput

theorem counted_create (hissued : Issued s) (h : Counted s) (hh : s.mediaKeys.find? handle = some o)
    (client : ℕ)
    (hnew : o'.mediaKeySessions = o.mediaKeySessions.emplace s.keySessionId (fresh o.keySystem))
    (hlog : o'.log = o.log ++ [Entry.created s.keySessionId]) :
    Counted (s.withSession handle o o' client) := by
  have hearly : ∀ id, id ∉ (s.withSession handle o o' client).early →
      id ∉ s.early ∧ (id = s.keySessionId → id ∉ s.buffers) := by
    intro id hid
    simp only [Cdm.State.withSession] at hid
    split_ifs at hid with hmem
    · rw [List.mem_cons, not_or] at hid
      exact ⟨hid.2, fun heq => absurd heq hid.1⟩
    · exact ⟨hid, fun heq => heq ▸ hmem⟩
  refine ⟨fun id u hlive hid => ?_, fun c hc hid => ?_⟩
  · obtain ⟨hold, hbuffers⟩ := hearly id hid
    rcases (live_create hissued hh hnew).mp hlive with ⟨heq, rfl⟩ | ⟨-, hlive⟩
    · exact (List.count_eq_zero.mpr (hbuffers heq)).symm
    · exact h.counter id u hlive hold
  · rcases List.mem_append.mp hc with hc | hc
    · exact h.closes c hc (hearly _ hid).1
    · rw [attempts_eq hlog] at hc
      exact nomatch hc

end Steps

/-! ## Runs -/

/-- Fewer than `2 ^ 32` buffers exist at once. -/
def Fits (s : Cdm.State) : Act → Prop
  | .initMetadata _ => s.buffers.length + 1 < 2 ^ 32
  | _ => True

theorem step_counted {s s' : Cdm.State} {a : Act} (hissued : Issued s) (h : Counted s)
    (hok : Fits s a) (hstep : Cdm.step s a = some s') : Counted s' := by
  cases a with
  | switchToActive =>
    cases hstep
    exact ⟨h.counter, h.closes⟩
  | switchToInactive =>
    cases hstep
    have hfewer : Fewer s (switchToInactive s) := by
      intro _ _ _ _ hh
      cases hh
    refine counted_mono h hfewer rfl rfl fun c hc => ?_
    rcases List.mem_append.mp hc with hc | hc
    · exact Or.inl hc
    · obtain ⟨e, -, hc⟩ := List.mem_flatMap.mp hc
      exact Or.inr (destroyed_of_mem hc)
  | createMediaKeys handle keySystem created =>
    cases hstep
    rcases createMediaKeys_cases s handle keySystem created with heq | ⟨hnone, heq⟩
    · rw [heq]
      exact h
    · rw [heq]
      exact counted_mono h (fewer_emplace hnone keySystem) rfl rfl fun c hc => Or.inl hc
  | destroyMediaKeys handle =>
    cases hstep
    unfold destroyMediaKeys
    split
    next => exact h
    next o hh =>
      refine counted_mono h fewer_erase rfl rfl fun c hc => ?_
      rcases List.mem_append.mp hc with hc | hc
      · exact Or.inl hc
      · exact Or.inr (destroyed_of_mem hc)
  | createKeySession handle client created remove =>
    simp only [Cdm.step] at hstep
    split_ifs at hstep
    cases hstep
    rcases createKeySession_cases hissued handle client created remove with heq |
      ⟨o, o', hh, ⟨hsame, hlog, heq⟩ | ⟨hnew, hlog, heq⟩⟩
    · rw [heq]
      exact h
    · rw [heq]
      exact counted_create_failed h hh hsame hlog
    · rw [heq]
      exact counted_create hissued h hh client hnew hlog
  | generateRequest handle id constructSession =>
    cases hstep
    unfold generateRequest Cdm.State.onMediaKeys
    split
    next => exact h
    next o hh =>
      exact counted_request hissued h hh (fun hnone => (absent_ops hnone).1 constructSession)
        fun u hu => counts_generateRequest constructSession hu
  | closeKeySession handle id ocdm =>
    cases hstep
    unfold closeKeySession Cdm.State.onMediaKeys
    split
    next => exact h
    next o hh =>
      exact counted_request hissued h hh (fun hnone => (absent_ops hnone).2 ocdm)
        fun u hu => counts_close ocdm hu
  | removeKeySession handle id remove =>
    cases hstep
    exact counted_remove h handle id remove
  | initMetadata id =>
    cases hstep
    exact counted_init_metadata hissued h hok
  | freeMetadata i ocdm =>
    simp only [Cdm.step] at hstep
    split at hstep
    next => cases hstep
    next id hi =>
      cases hstep
      exact counted_free_metadata hissued h ocdm hi

/-- **In every run, the usage counter of a session is the number of the existing buffers whose
protection metadata names it, unless such a buffer existed when the session was created; and only
the destructor of its object closes it while such a buffer exists.** -/
theorem counters_count_buffers {as : List Act} {s : Cdm.State}
    (h : Run Cdm.step Fits Cdm.init as s) :
    (∀ id u, Live s id u → id ∉ s.early → u.bufCounter = s.buffers.count id) ∧
      ∀ c ∈ s.closes, c.keySessionId ∉ s.early → c.destroyed = false → c.buffers = 0 := by
  obtain ⟨-, hcounted⟩ : Issued s ∧ Counted s :=
    h.invariant (fun s => Issued s ∧ Counted s)
      (fun _ _ _ hs hok hstep => ⟨step_issued hs.1 hstep, step_counted hs.1 hs.2 hok hstep⟩)
      ⟨issued_init, counted_init⟩
  exact ⟨hcounted.counter, hcounted.closes⟩

/-! ## Runs on fixed inputs -/

/-- OCDM does what it is asked to. -/
def succeeding : OcdmSession := ⟨.ok, .ok, .ok, .ok⟩

/-- The session `0` is made. -/
def creating : List Act :=
  [.switchToActive, .createMediaKeys 1 "com.widevine.alpha" true, .createKeySession 1 7 true .ok,
    .generateRequest 1 0 .ok]

/-- Two buffers, a close that is put off and the release of both. -/
def deferring : List Act :=
  creating ++ ([.initMetadata 0, .initMetadata 0, .freeMetadata 1 succeeding,
    .closeKeySession 1 0 succeeding, .freeMetadata 0 succeeding] : List Act)

/-- A buffer is created before the session that it names. -/
def before : List Act := .initMetadata 0 :: creating

/-- The usage of the session `0`, as these runs have it. -/
def usage (s : Cdm.State) : Option MediaKeySessionUsage :=
  (s.mediaKeys.find? 1).bind fun o => o.mediaKeySessions.find? 0

theorem live_of_usage {s : Cdm.State} {u : MediaKeySessionUsage} (h : usage s = some u) :
    Live s 0 u := by
  obtain ⟨o, hh, hu⟩ := Option.bind_eq_some_iff.mp h
  exact ⟨1, o, hh, hu⟩

instance (s : Cdm.State) (a : Act) : Decidable (Fits s a) := by
  unfold Fits
  split <;> infer_instance

theorem counters_count_buffers_deferred :
    ∃ s, Run Cdm.step Fits Cdm.init deferring s ∧ ⟨0, false, 0⟩ ∈ s.closes ∧
      (∀ id u, Live s id u → id ∉ s.early → u.bufCounter = s.buffers.count id) ∧
      ∀ c ∈ s.closes, c.keySessionId ∉ s.early → c.destroyed = false → c.buffers = 0 := by
  have hview : (runsIf Cdm.step Fits Cdm.init deferring).map Cdm.State.closes =
      some [⟨0, false, 0⟩] := by
    decide +kernel
  obtain ⟨s, hs, hview⟩ := Option.map_eq_some_iff.mp hview
  have hrun := Run.of_runsIf hs
  refine ⟨s, hrun, ?_, counters_count_buffers hrun⟩
  rw [hview]
  exact List.mem_singleton.mpr rfl

/-- The counter after `n` buffers. -/
theorem run_initMetadata {s : Cdm.State} {u : MediaKeySessionUsage} (hissued : Issued s)
    (hlive : Live s 0 u) (hzero : u.bufCounter = 0) (n : ℕ) :
    ∃ s' u', Run Cdm.step (fun _ _ => True) s (List.replicate n (.initMetadata 0)) s' ∧ Issued s' ∧
      Live s' 0 u' ∧ u'.bufCounter = n % w32 ∧ s'.buffers.count 0 = s.buffers.count 0 + n ∧
      s'.early = s.early := by
  induction n with
  | zero => exact ⟨s, u, Run.nil s, hissued, hlive, hzero, rfl, rfl⟩
  | succ n ih =>
    obtain ⟨s', u', hrun, hissued', ⟨handle', o', hh', hu'⟩, hcounter, hcount, hearly⟩ := ih
    rw [List.replicate_succ']
    have hissued'' : Issued { s' with buffers := 0 :: s'.buffers } := issued_buffers hissued' _
    have hstep : Cdm.step s' (.initMetadata 0) =
        some (incrementSessionIdUsageCounter { s' with buffers := 0 :: s'.buffers } 0) := rfl
    unfold incrementSessionIdUsageCounter at hstep
    split at hstep
    next hnone => exact absurd (live_of_find hh' hu') (mediaKeysOf_none hnone)
    next handle o hsome =>
      obtain ⟨hh, v, hv⟩ := mediaKeysOf_some hsome
      obtain rfl : handle' = handle := hissued'.unique hh' hu' hh hv
      cases hh'.symm.trans hh
      refine ⟨_, { u' with bufCounter := add32 u'.bufCounter 1 },
        hrun.append (Run.cons trivial hstep (Run.nil _)), ?_, ?_, ?_, ?_, hearly⟩
      · exact issued_effect hissued'' hh hv (effect_increment _ 0)
      · refine (live_put_self (hissued''.owner hh hv)).mpr ?_
        unfold incrementSessionIdUsageCounterInternal
        rw [hu']
        exact find?_put _ _ _
      · show (u'.bufCounter + 1) % w32 = (n + 1) % w32
        rw [hcounter, Nat.mod_add_mod]
      · show (0 :: s'.buffers).count 0 = _
        rw [List.count_cons_self, hcount, Nat.add_assoc]

/-- A buffer that named the session before it was created is not counted, and the session is closed
while it exists; a destructor closes a session that is in use; and `2 ^ 32` buffers count as
none. -/
theorem early_buffer_not_counted :
    (∃ as s u, Run Cdm.step (fun _ _ => True) Cdm.init as s ∧ Live s 0 u ∧ u.bufCounter = 0 ∧
      s.buffers = [0]) ∧
    (∃ as s, Run Cdm.step (fun _ _ => True) Cdm.init as s ∧ s.closes = [⟨0, false, 1⟩]) ∧
    (∃ as s, Run Cdm.step (fun _ _ => True) Cdm.init as s ∧ s.closes = [⟨0, true, 1⟩] ∧
      s.early = []) ∧
    ∃ as s u, Run Cdm.step (fun _ _ => True) Cdm.init as s ∧ Live s 0 u ∧ u.bufCounter = 0 ∧
      s.buffers.count 0 = 2 ^ 32 ∧ s.early = [] := by
  refine ⟨?_, ?_, ?_, ?_⟩
  · have hview : (runs Cdm.step Cdm.init before).map (fun s => (usage s, s.buffers)) =
        some (some ⟨⟨"com.widevine.alpha", true⟩, 0, false⟩, [0]) := by
      decide +kernel
    obtain ⟨s, hs, hview⟩ := Option.map_eq_some_iff.mp hview
    simp only [Prod.mk.injEq] at hview
    exact ⟨before, s, _, Run.of_runs hs, live_of_usage hview.1, rfl, hview.2⟩
  · have hview : (runs Cdm.step Cdm.init (before ++ [.closeKeySession 1 0 succeeding])).map
        Cdm.State.closes = some [⟨0, false, 1⟩] := by
      decide +kernel
    obtain ⟨s, hs, hview⟩ := Option.map_eq_some_iff.mp hview
    exact ⟨_, s, Run.of_runs hs, hview⟩
  · have hview : (runs Cdm.step Cdm.init (creating ++ [.initMetadata 0, .destroyMediaKeys 1])).map
        (fun s => (s.closes, s.early)) = some ([⟨0, true, 1⟩], []) := by
      decide +kernel
    obtain ⟨s, hs, hview⟩ := Option.map_eq_some_iff.mp hview
    simp only [Prod.mk.injEq] at hview
    exact ⟨_, s, Run.of_runs hs, hview.1, hview.2⟩
  · have hview : (runsIf Cdm.step Fits Cdm.init creating).map
        (fun s => (usage s, s.buffers, s.early)) =
        some (some ⟨⟨"com.widevine.alpha", true⟩, 0, false⟩, [], []) := by
      decide +kernel
    obtain ⟨s, hs, hview⟩ := Option.map_eq_some_iff.mp hview
    simp only [Prod.mk.injEq] at hview
    have hrun := Run.of_runsIf hs
    have hissued : Issued s :=
      hrun.invariant Issued (fun _ _ _ hs _ hstep => step_issued hs hstep) issued_init
    obtain ⟨s', u', hrun', -, hlive, hcounter, hcount, hearly⟩ :=
      run_initMetadata hissued (live_of_usage hview.1) rfl (2 ^ 32)
    refine ⟨_, s', u', (hrun.mono fun _ _ _ => trivial).append hrun', hlive, ?_, ?_, ?_⟩
    · rw [hcounter]
      exact Nat.mod_self _
    · rw [hcount, hview.2.1, List.count_nil, Nat.zero_add]
    · rw [hearly, hview.2.2]

end Rialto.Keys.UsageCounters

import Rialto.Keys.Effects

/-! # Closing key sessions that are in use

Over a run the log counts what was done to each session. An id is generated once, so a session that
is gone does not come back.

* `step_cases`: what a step is; `step_inv` and `run_inv`: the invariant of steps and of runs.
* `run_doomed`: a deferred close is remembered until the session is erased.
* `deferred_close`: the counting, the closes and the deferred closes, over all runs. -/

namespace Rialto.Keys.DeferredClose

open Rialto.Lib.OrdMap Rialto.Lib.Runs Rialto.Lib.Word Rialto.Keys.Sessions Rialto.Keys.Effects

/-! ## All sessions -/

/-- **The invariant**: the one of each session, no session has an id that is still to be generated,
and closes were attempted at counter `0` only. -/
structure Inv (s : State) : Prop where
  sessions : ∀ id, Local id (s.mediaKeySessions.find? id) s.log
  fresh : ∀ id : ℤ, s.keySessionId ≤ id → tally isCreated id s.log = 0
  idle : Idle s.log

theorem inv_init (keySystem : String) (n : ℕ) : Inv (init keySystem n) :=
  ⟨fun _ => ⟨Nat.zero_le 1, rfl, fun _ => rfl⟩, fun _ _ => rfl, nofun⟩

theorem local_append {id : ℤ} {u : Option MediaKeySessionUsage} {log es : List Entry}
    (hes : ∀ e ∈ es, entryId e ≠ id) (h : Local id u log) : Local id u (log ++ es) := by
  have htally : ∀ kind, tally kind id (log ++ es) = tally kind id log := by
    intro kind
    rw [tally_append, tally_other hes, Nat.add_zero]
  cases u with
  | none => simpa only [Local, htally] using h
  | some u => simpa only [Local, htally] using h

/-- The session an operation is about; a new session takes the next id that is free. -/
def about (s : State) : Op → ℤ
  | .createKeySession taken _ => (s.keySessionId + taken : ℕ)
  | .generateRequest id _ => id
  | .incrementSessionIdUsageCounter id => id
  | .decrementSessionIdUsageCounter id _ => id
  | .closeKeySession id _ => id
  | .removeKeySession id _ => id

section Invariant

variable {s s' : State} {id : ℤ}

theorem inv_effect (h : Inv s) (heffect : Effect id s s') : Inv s' := by
  obtain ⟨es, hlog, hes, hidle⟩ := heffect.only.log
  refine ⟨fun id' => ?_, fun id' hid' => ?_, ?_⟩
  · by_cases hid : id' = id
    · rw [hid]
      exact heffect.keeps (h.sessions id)
    · rw [heffect.only.others id' hid, hlog]
      exact local_append (fun e he heq => hid (heq.symm.trans (hes e he).1)) (h.sessions id')
  · rw [heffect.only.keySessionId] at hid'
    have hnone : tally isCreated id' es = 0 := by
      unfold tally
      rw [List.countP_eq_zero]
      intro e he
      simp [(hes e he).2]
    rw [hlog, tally_append, h.fresh id' hid', hnone]
  · rw [hlog]
    exact fun d c status he => (List.mem_append.mp he).elim (h.idle d c status) (hidle d c status)

/-- A session is not there before its id is generated. -/
theorem find?_of_fresh (h : Inv s) (hid : (s.keySessionId : ℤ) ≤ id) :
    s.mediaKeySessions.find? id = none := by
  cases hu : s.mediaKeySessions.find? id with
  | none => rfl
  | some u =>
    have hlocal := h.sessions id
    rw [hu] at hlocal
    have := hlocal.1
    rw [h.fresh id hid] at this
    omega

theorem create_others (s : State) (n : ℕ) (created : Bool) {id' : ℤ} (hne : id' ≠ n) :
    (createKeySessionInternal s n created).2.mediaKeySessions.find? id' =
      s.mediaKeySessions.find? id' := by
  unfold createKeySessionInternal
  split_ifs
  · exact OMap.find?_emplace_of_ne _ hne _
  · rfl

theorem inv_create (h : Inv s) {n : ℕ} (hn : s.keySessionId ≤ n) (created : Bool) :
    Inv (createKeySessionInternal s n created).2 := by
  have hle : ∀ id : ℤ, ((n + 1 : ℕ) : ℤ) ≤ id → (s.keySessionId : ℤ) ≤ id := by
    intro id hid
    omega
  unfold createKeySessionInternal
  split_ifs
  · have hnew : (s.keySessionId : ℤ) ≤ n := by omega
    have hnone := find?_of_fresh h hnew
    have hlocal := h.sessions n
    rw [hnone] at hlocal
    refine ⟨fun id => ?_, fun id hid => ?_, ?_⟩
    · by_cases hid : id = n
      · subst hid
        simp only [State.note_mediaKeySessions, State.note_log, OMap.find?_emplace hnone, Local,
          tally_append, tally_singleton, isCreated, isClosed, isIncremented, isDecremented, entryId,
          Bool.false_eq_true, false_and, true_and, if_true, if_false, Nat.add_zero]
        have hzero := h.fresh n hnew
        refine ⟨by rw [hzero], hlocal.2.1.trans hzero, by decide, 0, ?_⟩
        rw [hlocal.2.2 hzero, Nat.mul_zero, Nat.add_zero]
      · simp only [State.note_mediaKeySessions, State.note_log, OMap.find?_emplace_of_ne _ hid]
        refine local_append (fun e he => ?_) (h.sessions id)
        rw [List.mem_singleton.mp he]
        exact fun heq => hid heq.symm
    · have hne : (n : ℤ) ≠ id := by
        intro heq
        simp only [State.note_keySessionId] at hid
        omega
      rw [State.note_log, tally_append, h.fresh id (hle id hid), tally_singleton, if_neg]
      exact fun heq => hne heq.2
    · intro d c status he
      rcases List.mem_append.mp he with he | he
      · exact h.idle d c status he
      · cases List.mem_singleton.mp he
  · exact ⟨h.sessions, fun id hid => h.fresh id (hle id hid), h.idle⟩

/-- What a step is: a new session, or an operation on a session. -/
theorem step_cases {a : Op} (h : step s a = some s') :
    (∃ n created, s.keySessionId ≤ n ∧ about s a = n ∧
      s' = (createKeySessionInternal s n created).2) ∨ Effect (about s a) s s' := by
  cases a with
  | createKeySession taken created =>
    simp only [step] at h
    split_ifs at h
    cases h
    exact Or.inl ⟨_, created, Nat.le_add_right _ _, rfl, rfl⟩
  | generateRequest id constructSession =>
    cases h
    exact Or.inr (effect_generateRequest s id constructSession)
  | incrementSessionIdUsageCounter id =>
    cases h
    exact Or.inr (effect_increment s id)
  | decrementSessionIdUsageCounter id ocdm =>
    cases h
    exact Or.inr (effect_decrement s id ocdm)
  | closeKeySession id ocdm =>
    cases h
    exact Or.inr (effect_close s id ocdm)
  | removeKeySession id remove =>
    cases h
    rw [removeKeySession_state]
    exact Or.inr (Effect.refl _ s)

theorem step_inv {a : Op} (h : Inv s) (hstep : step s a = some s') : Inv s' := by
  rcases step_cases hstep with ⟨n, created, hn, -, rfl⟩ | heffect
  · exact inv_create h hn created
  · exact inv_effect h heffect

theorem step_others {a : Op} (hstep : step s a = some s') {id' : ℤ} (hne : id' ≠ about s a) :
    s'.mediaKeySessions.find? id' = s.mediaKeySessions.find? id' := by
  rcases step_cases hstep with ⟨n, created, -, hid, rfl⟩ | heffect
  · rw [hid] at hne
    exact create_others s n created hne
  · exact heffect.only.others id' hne

theorem step_keySessionId {a : Op} (hstep : step s a = some s') :
    s.keySessionId ≤ s'.keySessionId := by
  rcases step_cases hstep with ⟨n, created, hn, -, rfl⟩ | heffect
  · cases created
    · exact Nat.le_succ_of_le hn
    · exact Nat.le_succ_of_le hn
  · exact Nat.le_of_eq heffect.only.keySessionId.symm

theorem run_inv {keySystem : String} {n : ℕ} {as : List Op}
    (h : Run step (fun _ _ => True) (init keySystem n) as s) : Inv s :=
  h.invariant Inv (fun _ _ _ hinv _ hstep => step_inv hinv hstep) (inv_init keySystem n)

/-! ## Deferred closes -/

/-- A session that is to be destroyed stays so until it is erased: its id is not generated again. -/
theorem run_doomed {as : List Op} (h : Run step (fun _ _ => True) s as s')
    (hid : id < s.keySessionId) (hdoomed : Doomed (s.mediaKeySessions.find? id)) :
    Doomed (s'.mediaKeySessions.find? id) := by
  refine (h.invariant (fun s => id < s.keySessionId ∧ Doomed (s.mediaKeySessions.find? id))
    ?_ ⟨hid, hdoomed⟩).2
  rintro s a s' ⟨hid, hdoomed⟩ - hstep
  have hle := step_keySessionId hstep
  refine ⟨by omega, ?_⟩
  by_cases hne : id = about s a
  · rcases step_cases hstep with ⟨n, created, hn, heq, -⟩ | heffect
    · rw [← hne] at heq
      omega
    · rw [← hne] at heffect
      exact heffect.doomed hdoomed
  · rwa [step_others hstep hne]

variable {u : MediaKeySessionUsage}

theorem lt_of_mem (h : Inv s) (hu : s.mediaKeySessions.find? id = some u) :
    id < s.keySessionId := by
  by_contra hid
  rw [find?_of_fresh h (by omega)] at hu
  cases hu

/-- The last decrement of a session that is to be destroyed attempts to close it. -/
theorem decrement_last (hu : s.mediaKeySessions.find? id = some u) (hone : u.bufCounter = 1)
    (hflag : u.shouldBeDestroyed = true) (ocdm : OcdmSession) :
    ∃ status, (decrementSessionIdUsageCounterInternal s id ocdm).log =
        s.log ++ [Entry.decremented id, .closeAttempted id 0 status] ∧
      ((decrementSessionIdUsageCounterInternal s id ocdm).mediaKeySessions.find? id = none ↔
        status = .ok) := by
  have hcounter : decrementCounter s id u = ((s.put id { u with bufCounter := 0 }).note
      (.decremented id), { u with bufCounter := 0 }) := by
    rw [decrementCounter, if_pos (by omega), hone]
  unfold decrementSessionIdUsageCounterInternal
  rw [hu]
  dsimp only
  rw [hcounter, if_pos ⟨rfl, hflag⟩]
  rcases attemptClose_cases _ id _ ocdm with ⟨status, m, hne, heq⟩ | heq
  · rw [heq]
    refine ⟨status, ?_, ?_⟩
    · simp
    · simp [find?_put, hne]
  · rw [heq]
    refine ⟨.ok, ?_, ?_⟩
    · simp
    · simp [OMap.find?_erase]

theorem close_in_use (hu : s.mediaKeySessions.find? id = some u) (hpos : 0 < u.bufCounter)
    (ocdm : OcdmSession) : closeKeySessionInternal s id ocdm =
      (.ok, s.put id { u with shouldBeDestroyed := true }) := by
  unfold closeKeySessionInternal
  rw [hu]
  dsimp only
  rw [if_neg (by omega)]

/-- What the invariant says of a session that was created. -/
theorem erased_iff (h : Inv s) (hcreated : .created id ∈ s.log) :
    s.mediaKeySessions.find? id = none ↔ tally isClosed id s.log = 1 := by
  have hpos : 0 < tally isCreated id s.log := by
    unfold tally
    rw [List.countP_pos_iff]
    exact ⟨_, hcreated, by simp [isCreated, entryId]⟩
  have hlocal := h.sessions id
  cases hu : s.mediaKeySessions.find? id with
  | none =>
    rw [hu] at hlocal
    simp only [Local] at hlocal
    exact iff_of_true rfl (by omega)
  | some u =>
    rw [hu] at hlocal
    simp only [Local] at hlocal
    exact iff_of_false (by simp) (by omega)

theorem closed_le (h : Inv s) (id : ℤ) : tally isClosed id s.log ≤ 1 := by
  have hlocal := h.sessions id
  cases hu : s.mediaKeySessions.find? id with
  | none =>
    rw [hu] at hlocal
    simp only [Local] at hlocal
    omega
  | some u =>
    rw [hu] at hlocal
    simp only [Local] at hlocal
    omega

theorem counter_eq (h : Inv s) (hu : s.mediaKeySessions.find? id = some u) :
    tally isDecremented id s.log ≤ tally isIncremented id s.log ∧
      u.bufCounter = (tally isIncremented id s.log - tally isDecremented id s.log) % w32 := by
  have hlocal := h.sessions id
  rw [hu] at hlocal
  obtain ⟨-, -, hlt, k, hk⟩ := hlocal
  refine ⟨by omega, ?_⟩
  have hsub : tally isIncremented id s.log - tally isDecremented id s.log =
      u.bufCounter + w32 * k := by omega
  rw [hsub, Nat.add_mul_mod_self_left, Nat.mod_eq_of_lt hlt]

end Invariant

/-- **Deferred close of key sessions.** In every state that a sequence of calls leads to: closes
were attempted at counter `0` only; a counter is the increments less the effective decrements,
reduced to 32 bits; a session was closed at most once, and is out of the map exactly when it was; a
close requested at a positive counter returns `OK` and is attempted at the decrement that brings
the counter to `0`, whatever comes between; an operation changes no other session; and
`removeKeySession` changes none. -/
theorem deferred_close {keySystem : String} {n : ℕ} {as : List Op} {s : State}
    (h : Run step (fun _ _ => True) (init keySystem n) as s) :
    (∀ id c status, .closeAttempted id c status ∈ s.log → c = 0) ∧
    (∀ id u, s.mediaKeySessions.find? id = some u →
      tally isDecremented id s.log ≤ tally isIncremented id s.log ∧
      u.bufCounter = (tally isIncremented id s.log - tally isDecremented id s.log) % w32) ∧
    (∀ id, tally isClosed id s.log ≤ 1 ∧ (.created id ∈ s.log →
      (s.mediaKeySessions.find? id = none ↔ tally isClosed id s.log = 1))) ∧
    (∀ id u ocdm, s.mediaKeySessions.find? id = some u → 0 < u.bufCounter →
      (closeKeySessionInternal s id ocdm).1 = .ok ∧
      (closeKeySessionInternal s id ocdm).2.log = s.log ∧
      ∀ bs t, Run step (fun _ _ => True) (closeKeySessionInternal s id ocdm).2 bs t →
        ∀ v ocdm', t.mediaKeySessions.find? id = some v → v.bufCounter = 1 →
          ∃ status, (decrementSessionIdUsageCounterInternal t id ocdm').log =
              t.log ++ [.decremented id, .closeAttempted id 0 status] ∧
            ((decrementSessionIdUsageCounterInternal t id ocdm').mediaKeySessions.find? id = none ↔
              status = .ok)) ∧
    (∀ a s', step s a = some s' → ∀ id, id ≠ about s a →
      s'.mediaKeySessions.find? id = s.mediaKeySessions.find? id) ∧
    (∀ id remove, (removeKeySessionInternal s id remove).2 = s) := by
  have hinv := run_inv h
  refine ⟨hinv.idle, fun id u hu => counter_eq hinv hu,
    fun id => ⟨closed_le hinv id, erased_iff hinv⟩, ?_,
    fun a s' hstep id hne => step_others hstep hne, removeKeySession_state s⟩
  intro id u ocdm hu hpos
  rw [close_in_use hu hpos]
  refine ⟨rfl, rfl, fun bs t hrun v ocdm' hv hone => ?_⟩
  have hlt : id < s.keySessionId := lt_of_mem hinv hu
  have hdoomed :
      Doomed ((s.put id { u with shouldBeDestroyed := true }).mediaKeySessions.find? id) := by
    intro w hw
    rw [find?_put] at hw
    cases hw
    rfl
  have hflag : v.shouldBeDestroyed = true := run_doomed hrun hlt hdoomed v hv
  exact decrement_last hv hone hflag ocdm'

/-- A session in use by one buffer. -/
def inUse : State :=
  ⟨"com.widevine.alpha", 1, OMap.empty.emplace 0 ⟨⟨"com.widevine.alpha", false⟩, 1, false⟩,
    [.created 0, .incremented 0]⟩

/-- A close while a buffer is in flight, and the end of that buffer. -/
theorem deferred_close_one :
    (closeKeySessionInternal inUse 0 ⟨.ok, .ok, .ok, .ok⟩).1 = .ok ∧
      ∃ status, (decrementSessionIdUsageCounterInternal
          (closeKeySessionInternal inUse 0 ⟨.ok, .ok, .ok, .ok⟩).2 0 ⟨.ok, .ok, .ok, .ok⟩).log =
        [.created 0, .incremented 0, .decremented 0, .closeAttempted 0 0 status] := by
  have hrun : Run step (fun _ _ => True) (init "com.widevine.alpha" 0)
      [.createKeySession 0 true, .incrementSessionIdUsageCounter 0] inUse :=
    Run.cons trivial rfl (Run.cons trivial rfl (Run.nil _))
  obtain ⟨-, -, -, hdeferred, -, -⟩ := deferred_close hrun
  obtain ⟨hok, -, hlast⟩ := hdeferred 0 _ ⟨.ok, .ok, .ok, .ok⟩ rfl (by decide)
  obtain ⟨status, hlog, -⟩ := hlast [] _ (Run.nil _) _ ⟨.ok, .ok, .ok, .ok⟩ rfl rfl
  exact ⟨hok, status, hlog⟩

/-! ## The width of the counter -/

/-- A session of its own, incremented `k` times. -/
theorem increments_counter (k : ℕ) :
    ∃ s, Run step (fun _ _ => True) (init "com.widevine.alpha" 0)
        (.createKeySession 0 true :: List.replicate k (.incrementSessionIdUsageCounter 0)) s ∧
      s.mediaKeySessions.find? 0 =
        some ⟨⟨"com.widevine.alpha", false⟩, k % w32, false⟩ ∧
      tally isIncremented 0 s.log = k ∧ tally isDecremented 0 s.log = 0 := by
  induction k with
  | zero => exact ⟨_, Run.cons trivial rfl (Run.nil _), rfl, rfl, rfl⟩
  | succ k ih =>
    obtain ⟨s, hrun, hu, hinc, hdec⟩ := ih
    refine ⟨incrementSessionIdUsageCounterInternal s 0, ?_, ?_, ?_, ?_⟩
    · rw [List.replicate_succ', ← List.cons_append]
      exact hrun.append (Run.cons trivial rfl (Run.nil _))
    · rw [incrementSessionIdUsageCounterInternal, hu]
      simp only [State.note_mediaKeySessions, find?_put, add32, Nat.mod_add_mod]
    · rw [incrementSessionIdUsageCounterInternal, hu]
      simp [tally_append, hinc, isIncremented, entryId]
    · rw [incrementSessionIdUsageCounterInternal, hu]
      simp [tally_append, hdec, isDecremented]

/-- After `2 ^ 32` increments the counter is `0`. -/
theorem counter_wraps :
    ¬ ∀ as s, Run step (fun _ _ => True) (init "com.widevine.alpha" 0) as s →
      ∀ id u, s.mediaKeySessions.find? id = some u →
        (u.bufCounter : ℤ) = tally isIncremented id s.log - tally isDecremented id s.log := by
  intro hclaim
  obtain ⟨s, hrun, hu, hinc, hdec⟩ := increments_counter w32
  have := hclaim _ s hrun 0 _ hu
  rw [hinc, hdec] at this
  simp at this

end Rialto.Keys.DeferredClose

import Rialto.Keys.Sessions

/-! # What an operation does to a key session

What an operation does concerns one session (`Only`), so the invariant is a statement about one
session (`Local`): while it is in the map its counter is what the log has counted, reduced to 32
bits, and it is out of the map when its close has succeeded.

* `attemptClose_cases`: what an attempt to close a session does.
* `Effect`: what an operation keeps, proved of each operation (`effect_increment`,
  `effect_decrement`, `effect_close` and so on). -/

namespace Rialto.Keys.Effects

open Rialto.Lib.OrdMap Rialto.Lib.Runs Rialto.Lib.Word Rialto.Keys.Sessions

/-! ## What the log has counted -/

def entryId : Entry → ℤ
  | .created id => id
  | .incremented id => id
  | .decremented id => id
  | .closeAttempted id _ _ => id

def isCreated : Entry → Bool
  | .created _ => true
  | _ => false

def isIncremented : Entry → Bool
  | .incremented _ => true
  | _ => false

def isDecremented : Entry → Bool
  | .decremented _ => true
  | _ => false

/-- A close that succeeded. -/
def isClosed : Entry → Bool
  | .closeAttempted _ _ status => status == .ok
  | _ => false

/-- How many entries of a kind there are about a session. -/
def tally (kind : Entry → Bool) (id : ℤ) (log : List Entry) : ℕ :=
  log.countP fun e => kind e && entryId e == id

theorem tally_append (kind : Entry → Bool) (id : ℤ) (l l' : List Entry) :
    tally kind id (l ++ l') = tally kind id l + tally kind id l' := List.countP_append

@[simp] theorem tally_nil (kind : Entry → Bool) (id : ℤ) : tally kind id [] = 0 := rfl

@[simp] theorem tally_singleton (kind : Entry → Bool) (id : ℤ) (e : Entry) :
    tally kind id [e] = if kind e = true ∧ entryId e = id then 1 else 0 := by
  simp [tally, List.countP_cons]

theorem tally_other {kind : Entry → Bool} {id : ℤ} {es : List Entry}
    (h : ∀ e ∈ es, entryId e ≠ id) : tally kind id es = 0 := by
  unfold tally
  rw [List.countP_eq_zero]
  intro e he
  simp [h e he]

/-! ## One session -/

/-- **The invariant**, for one session: in the map it was created and not closed, and its counter
is the increments less the decrements, up to multiples of `2 ^ 32`; out of the map it was closed as
often as it was created, and nothing was counted before that. -/
def Local (id : ℤ) (u : Option MediaKeySessionUsage) (log : List Entry) : Prop :=
  match u with
  | some u => tally isCreated id log = 1 ∧ tally isClosed id log = 0 ∧ u.bufCounter < w32 ∧
      ∃ k, tally isIncremented id log = tally isDecremented id log + u.bufCounter + w32 * k
  | none => tally isCreated id log ≤ 1 ∧ tally isClosed id log = tally isCreated id log ∧
      (tally isCreated id log = 0 → tally isIncremented id log = tally isDecremented id log)

/-- Attempts to close are made at counter `0`. -/
def Idle (es : List Entry) : Prop := ∀ id c status, .closeAttempted id c status ∈ es → c = 0

/-- What an operation on the session `id` may do: it changes no other session and writes about no
other session, and attempts to close at counter `0` only. -/
structure Only (id : ℤ) (s s' : State) : Prop where
  keySessionId : s'.keySessionId = s.keySessionId
  others : ∀ id', id' ≠ id → s'.mediaKeySessions.find? id' = s.mediaKeySessions.find? id'
  log : ∃ es, s'.log = s.log ++ es ∧ (∀ e ∈ es, entryId e = id ∧ isCreated e = false) ∧ Idle es

theorem Only.refl (id : ℤ) (s : State) : Only id s s :=
  ⟨rfl, fun _ _ => rfl, [], (List.append_nil _).symm, nofun, nofun⟩

theorem Only.trans {id : ℤ} {s s' s'' : State} (h : Only id s s') (h' : Only id s' s'') :
    Only id s s'' := by
  obtain ⟨es, hlog, hid, hidle⟩ := h.log
  obtain ⟨es', hlog', hid', hidle'⟩ := h'.log
  refine ⟨h'.keySessionId.trans h.keySessionId,
    fun id' hne => (h'.others id' hne).trans (h.others id' hne), es ++ es', ?_, ?_, ?_⟩
  · rw [hlog', hlog, List.append_assoc]
  · exact fun e he => (List.mem_append.mp he).elim (hid e) (hid' e)
  · exact fun d c status he => (List.mem_append.mp he).elim (hidle d c status) (hidle' d c status)

theorem only_put (id : ℤ) (s : State) (u : MediaKeySessionUsage) : Only id s (s.put id u) := by
  refine ⟨rfl, fun id' hne => ?_, [], (List.append_nil _).symm, nofun, nofun⟩
  rw [State.put, OMap.find?_insert, if_neg hne]

theorem only_note {id : ℤ} {s s' : State} (h : Only id s s') {e : Entry}
    (he : entryId e = id ∧ isCreated e = false) (hidle : Idle [e]) : Only id s (s'.note e) := by
  refine h.trans ⟨rfl, fun _ _ => rfl, [e], rfl, fun e' he' => ?_, hidle⟩
  rwa [List.mem_singleton.mp he']

theorem find?_put (s : State) (id : ℤ) (u : MediaKeySessionUsage) :
    (s.put id u).mediaKeySessions.find? id = some u := by
  rw [State.put, OMap.find?_insert, if_pos rfl]

/-! ## Closing -/

/-- What an attempt to close does: the session stays with its counter, or it is erased. -/
theorem attemptClose_cases (s : State) (id : ℤ) (u : MediaKeySessionUsage) (ocdm : OcdmSession) :
    (∃ status m, status ≠ .ok ∧ attemptClose s id u ocdm =
      (status, (s.put id { u with mediaKeySession := m }).note
        (.closeAttempted id u.bufCounter status))) ∨
    attemptClose s id u ocdm = (.ok, { s with mediaKeySessions := s.mediaKeySessions.erase id }.note
      (.closeAttempted id u.bufCounter .ok)) := by
  unfold attemptClose MediaKeySession.closeKeySession
  by_cases hclose : u.mediaKeySession.keySystem ≠ netflixKeySystem ∧ ocdm.close ≠ .ok
  · rw [if_pos hclose]
    dsimp only
    rw [if_pos hclose.2]
    exact Or.inl ⟨_, _, hclose.2, rfl⟩
  · rw [if_neg hclose]
    by_cases hdestruct : ocdm.destructSession ≠ .ok
    · rw [if_pos hdestruct]
      dsimp only
      rw [if_pos hdestruct]
      exact Or.inl ⟨_, _, hdestruct, rfl⟩
    · rw [if_neg hdestruct]
      dsimp only
      -- a session that was closed is no longer constructed, so its destructor does nothing
      exact Or.inr rfl

theorem attemptClose_only {s : State} {id : ℤ} {u : MediaKeySessionUsage} (ocdm : OcdmSession)
    (hu : u.bufCounter = 0) : Only id s (attemptClose s id u ocdm).2 := by
  have hidle : ∀ status, Idle [.closeAttempted id u.bufCounter status] := by
    intro status d c st h
    cases List.mem_singleton.mp h
    exact hu
  rcases attemptClose_cases s id u ocdm with ⟨status, m, -, heq⟩ | heq
  · rw [heq]
    exact only_note (only_put id s _) ⟨rfl, rfl⟩ (hidle status)
  · rw [heq]
    have herase : Only id s { s with mediaKeySessions := s.mediaKeySessions.erase id } := by
      refine ⟨rfl, fun id' hne => ?_, [], (List.append_nil _).symm, nofun, nofun⟩
      rw [OMap.find?_erase, if_neg hne]
    exact only_note herase ⟨rfl, rfl⟩ (hidle .ok)

theorem attemptClose_local {s : State} {id : ℤ} {u : MediaKeySessionUsage} (ocdm : OcdmSession)
    (h : Local id (some u) s.log) :
    Local id ((attemptClose s id u ocdm).2.mediaKeySessions.find? id)
      (attemptClose s id u ocdm).2.log := by
  obtain ⟨hcreated, hclosed, hlt, k, hk⟩ := h
  rcases attemptClose_cases s id u ocdm with ⟨status, m, hne, heq⟩ | heq
  · rw [heq]
    simp only [State.note_mediaKeySessions, State.note_log, State.put_log, find?_put, Local,
      tally_append, tally_singleton]
    refine ⟨hcreated, ?_, hlt, k, hk⟩
    simpa [isClosed, hne] using hclosed
  · rw [heq]
    simp only [State.note_mediaKeySessions, State.note_log, OMap.find?_erase, if_true, Local,
      tally_append, tally_singleton]
    refine ⟨Nat.le_of_eq hcreated, ?_, fun h => ?_⟩
    · simp [isClosed, isCreated, entryId, hcreated, hclosed]
    · simp [isCreated, hcreated] at h

/-! ## Operations -/

/-- A session that is still in the map is to be destroyed. -/
def Doomed (u : Option MediaKeySessionUsage) : Prop := ∀ v, u = some v → v.shouldBeDestroyed = true

/-- What an operation on the session `id` does. -/
structure Effect (id : ℤ) (s s' : State) : Prop where
  only : Only id s s'
  keeps : Local id (s.mediaKeySessions.find? id) s.log →
    Local id (s'.mediaKeySessions.find? id) s'.log
  doomed : Doomed (s.mediaKeySessions.find? id) → Doomed (s'.mediaKeySessions.find? id)

theorem Effect.refl (id : ℤ) (s : State) : Effect id s s := ⟨Only.refl id s, fun h => h, fun h => h⟩

theorem Effect.trans {id : ℤ} {s s' s'' : State} (h : Effect id s s') (h' : Effect id s' s'') :
    Effect id s s'' :=
  ⟨h.only.trans h'.only, fun hl => h'.keeps (h.keeps hl), fun hd => h'.doomed (h.doomed hd)⟩

section Ops

variable {s : State} {id : ℤ} {u : MediaKeySessionUsage}

theorem doomed_put (hu : s.mediaKeySessions.find? id = some u) {u' : MediaKeySessionUsage}
    (hflag : u.shouldBeDestroyed = true → u'.shouldBeDestroyed = true)
    (h : Doomed (s.mediaKeySessions.find? id)) :
    Doomed ((s.put id u').mediaKeySessions.find? id) := by
  intro v hv
  rw [find?_put] at hv
  cases hv
  exact hflag (h u hu)

/-- The counter is left alone. -/
theorem effect_put (hu : s.mediaKeySessions.find? id = some u) {u' : MediaKeySessionUsage}
    (hsame : u'.bufCounter = u.bufCounter)
    (hflag : u.shouldBeDestroyed = true → u'.shouldBeDestroyed = true) :
    Effect id s (s.put id u') := by
  refine ⟨only_put id s u', fun h => ?_, doomed_put hu hflag⟩
  rw [hu] at h
  rw [find?_put]
  simp only [Local, hsame, State.put_log]
  exact h

theorem effect_attemptClose (ocdm : OcdmSession) (hu : s.mediaKeySessions.find? id = some u)
    (hzero : u.bufCounter = 0) : Effect id s (attemptClose s id u ocdm).2 := by
  refine ⟨attemptClose_only ocdm hzero, fun h => attemptClose_local ocdm ?_, fun h => ?_⟩
  · rwa [hu] at h
  · rcases attemptClose_cases s id u ocdm with ⟨status, m, -, heq⟩ | heq
    · rw [heq]
      exact doomed_put hu (fun hflag => hflag) h
    · rw [heq]
      intro v hv
      simp [OMap.find?_erase] at hv

theorem effect_generateRequest (s : State) (id : ℤ) (constructSession : MediaKeyErrorStatus) :
    Effect id s (generateRequestInternal s id constructSession).2 := by
  unfold generateRequestInternal
  cases hu : s.mediaKeySessions.find? id with
  | none => exact Effect.refl id s
  | some u =>
    dsimp only
    split_ifs
    · exact Effect.refl id s
    · exact Effect.refl id s
    · exact effect_put hu rfl fun h => h

theorem effect_increment (s : State) (id : ℤ) :
    Effect id s (incrementSessionIdUsageCounterInternal s id) := by
  unfold incrementSessionIdUsageCounterInternal
  cases hu : s.mediaKeySessions.find? id with
  | none => exact Effect.refl id s
  | some u =>
    refine ⟨only_note (only_put id s _) ⟨rfl, rfl⟩ ?_, fun h => ?_, doomed_put hu fun h => h⟩
    · rintro d c status h
      cases List.mem_singleton.mp h
    · rw [hu] at h
      obtain ⟨hcreated, hclosed, hlt, k, hk⟩ := h
      simp only [State.note_mediaKeySessions, State.note_log, State.put_log, find?_put, Local,
        tally_append, tally_singleton, isCreated, isClosed, isIncremented, isDecremented, entryId,
        Bool.false_eq_true, false_and, true_and, if_true, if_false, Nat.add_zero]
      refine ⟨hcreated, hclosed, Nat.mod_lt _ (by decide), ?_⟩
      by_cases hwrap : u.bufCounter + 1 = w32
      · refine ⟨k + 1, ?_⟩
        have hzero : add32 u.bufCounter 1 = 0 := by rw [add32, hwrap, Nat.mod_self]
        rw [hzero, hk, Nat.mul_succ]
        omega
      · refine ⟨k, ?_⟩
        rw [add32_of_lt (by omega), hk]
        omega

theorem effect_decrementCounter (hu : s.mediaKeySessions.find? id = some u) :
    Effect id s (decrementCounter s id u).1 ∧
      (decrementCounter s id u).1.mediaKeySessions.find? id = some (decrementCounter s id u).2 := by
  unfold decrementCounter
  split_ifs with hpos
  · refine ⟨⟨only_note (only_put id s _) ⟨rfl, rfl⟩ ?_, fun h => ?_, doomed_put hu fun h => h⟩, ?_⟩
    · rintro d c status h
      cases List.mem_singleton.mp h
    · rw [hu] at h
      obtain ⟨hcreated, hclosed, hlt, k, hk⟩ := h
      simp only [State.note_mediaKeySessions, State.note_log, State.put_log, find?_put, Local,
        tally_append, tally_singleton, isCreated, isClosed, isIncremented, isDecremented, entryId,
        Bool.false_eq_true, false_and, true_and, if_true, if_false, Nat.add_zero]
      exact ⟨hcreated, hclosed, by omega, k, by omega⟩
    · exact find?_put s id _
  · exact ⟨Effect.refl id s, hu⟩

theorem effect_decrement (s : State) (id : ℤ) (ocdm : OcdmSession) :
    Effect id s (decrementSessionIdUsageCounterInternal s id ocdm) := by
  unfold decrementSessionIdUsageCounterInternal
  cases hu : s.mediaKeySessions.find? id with
  | none => exact Effect.refl id s
  | some u =>
    obtain ⟨heffect, hu'⟩ := effect_decrementCounter hu
    dsimp only
    split_ifs with hclose
    · exact heffect.trans (effect_attemptClose ocdm hu' hclose.1)
    · exact heffect

theorem effect_close (s : State) (id : ℤ) (ocdm : OcdmSession) :
    Effect id s (closeKeySessionInternal s id ocdm).2 := by
  unfold closeKeySessionInternal
  cases hu : s.mediaKeySessions.find? id with
  | none => exact Effect.refl id s
  | some u =>
    dsimp only
    split_ifs with hzero
    · exact effect_attemptClose ocdm hu hzero
    · exact effect_put hu rfl fun _ => rfl

/-- `removeKeySession` changes nothing here. -/
theorem removeKeySession_state (s : State) (id : ℤ) (remove : MediaKeyErrorStatus) :
    (removeKeySessionInternal s id remove).2 = s := by
  unfold removeKeySessionInternal
  cases s.mediaKeySessions.find? id <;> rfl

end Ops

end Rialto.Keys.Effects

import Rialto.Keys.Cdm

/-! # The registry of clients

`m_mediaKeysClients` is to have an entry exactly for the live key sessions: the session has a weak
pointer to its client only, and its events are lost when the entry is gone. A session ends when it
is closed, at once or by the release of a buffer, and with its object, and nothing of this touches
the registry; removing a session takes its entry and leaves the session.

* `Agree`: there is an entry exactly for the live sessions.
* `Keeps`: the step ends no session, and removes none successfully.
* `agree_iff`: the registry agrees with the sessions all along a run exactly if every step keeps it;
  then the client of every live session is found.
* `closed_session_keeps_entry`: the sessions that leave an entry behind, or lose theirs. -/

namespace Rialto.Keys.ClientRegistry

open Rialto.Lib.OrdMap Rialto.Lib.Runs
open Rialto.Keys.Sessions Rialto.Keys.Effects Rialto.Keys.Cdm

/-! ## Agreement -/

/-- There is an entry exactly for the live sessions. -/
def Agree (s : Cdm.State) : Prop :=
  ∀ id, (∃ c, s.mediaKeysClients.find? id = some c) ↔ ∃ u, Live s id u

/-- `m_mediaKeysClient.lock()` of a session: its client, if the registry holds on to it. -/
def lock (s : Cdm.State) (id : ℤ) : Option ℕ :=
  (s.clientOf id).filter fun c => s.mediaKeysClients.entries.any fun e => e.2 == c

/-- The object has no session. -/
def Empty (o : Sessions.State) : Prop := ∀ id, o.mediaKeySessions.find? id = none

/-- The session can be closed now. -/
def Closes (u : MediaKeySessionUsage) (ocdm : OcdmSession) : Prop :=
  (u.mediaKeySession.closeKeySession ocdm).1 = .ok

/-- **The condition on a step**: no session ends, and none is removed successfully. -/
def Keeps (s : Cdm.State) : Act → Prop
  | .switchToInactive => ∀ handle o, s.mediaKeys.find? handle = some o → Empty o
  | .destroyMediaKeys handle => ∀ o, s.mediaKeys.find? handle = some o → Empty o
  | .closeKeySession handle id ocdm => ∀ o u, s.mediaKeys.find? handle = some o →
      o.mediaKeySessions.find? id = some u → u.bufCounter = 0 → ¬ Closes u ocdm
  | .removeKeySession handle id remove => ∀ o u, s.mediaKeys.find? handle = some o →
      o.mediaKeySessions.find? id = some u → remove ≠ .ok
  | .freeMetadata i ocdm => ∀ id u, s.buffers[i]? = some id → Live s id u → u.bufCounter ≤ 1 →
      u.shouldBeDestroyed = true → ¬ Closes u ocdm
  | _ => True

/-! ## What a step does to the agreement -/

section Steps

variable {s : Cdm.State} {handle id : ℤ} {o o' : Sessions.State} {u : MediaKeySessionUsage}

/-- The sessions and the entries stay. -/
theorem agree_of_same {s' : Cdm.State} (h : Agree s)
    (hlive : ∀ id, (∃ u, Live s' id u) ↔ ∃ u, Live s id u)
    (hclients : s'.mediaKeysClients = s.mediaKeysClients) : Agree s' := by
  intro id
  rw [hclients, hlive id]
  exact h id

/-- An operation on a session keeps the agreement exactly if the session stays. -/
theorem agree_put (hissued : Issued s) (h : Agree s) (hh : s.mediaKeys.find? handle = some o)
    (hu : o.mediaKeySessions.find? id = some u) (honly : Only id o o') :
    Agree (s.put handle o o') ↔ ∃ u', o'.mediaKeySessions.find? id = some u' := by
  have hself : ∀ {u'}, Live (s.put handle o o') id u' ↔ o'.mediaKeySessions.find? id = some u' :=
    live_put_self (hissued.owner hh hu)
  have hentry := (h id).mpr ⟨u, live_of_find hh hu⟩
  constructor
  · intro h'
    obtain ⟨u', hu'⟩ := (h' id).mp hentry
    exact ⟨u', hself.mp hu'⟩
  · rintro ⟨u', hu'⟩ id'
    by_cases heq : id' = id
    · subst heq
      exact ⟨fun _ => ⟨u', hself.mpr hu'⟩, fun _ => hentry⟩
    · refine (h id').trans (exists_congr fun v => ?_)
      exact (live_put_of_ne hh (honly.others id' heq)).symm

theorem agree_put_self (h : Agree s) (hh : s.mediaKeys.find? handle = some o) :
    Agree (s.put handle o o) :=
  agree_of_same h (fun _ => exists_congr fun _ => live_put_of_ne hh rfl) rfl

/-! ### Closing -/

theorem attemptClose_status (o : Sessions.State) (id : ℤ) (u : MediaKeySessionUsage)
    (ocdm : OcdmSession) :
    (attemptClose o id u ocdm).1 = (u.mediaKeySession.closeKeySession ocdm).1 := by
  unfold attemptClose
  dsimp only
  split_ifs <;> rfl

theorem attemptClose_stays (o : Sessions.State) (id : ℤ) (u : MediaKeySessionUsage)
    (ocdm : OcdmSession) :
    (∃ u', (attemptClose o id u ocdm).2.mediaKeySessions.find? id = some u') ↔ ¬ Closes u ocdm := by
  unfold Closes
  rw [← attemptClose_status o id]
  rcases attemptClose_cases o id u ocdm with ⟨status, m, hne, heq⟩ | heq
  · rw [heq, State.note_mediaKeySessions, find?_put]
    exact ⟨fun _ => hne, fun _ => ⟨_, rfl⟩⟩
  · rw [heq, State.note_mediaKeySessions, OMap.find?_erase, if_pos rfl]
    exact ⟨fun ⟨_, hu'⟩ => (nomatch hu'), fun hok => absurd rfl hok⟩

theorem generateRequest_stays (hu : o.mediaKeySessions.find? id = some u)
    (constructSession : MediaKeyErrorStatus) :
    ∃ u', (generateRequestInternal o id constructSession).2.mediaKeySessions.find? id =
      some u' := by
  unfold generateRequestInternal
  rw [hu]
  dsimp only
  split_ifs
  · exact ⟨u, hu⟩
  · exact ⟨u, hu⟩
  · exact ⟨_, find?_put _ _ _⟩

theorem close_stays (hu : o.mediaKeySessions.find? id = some u) (ocdm : OcdmSession) :
    (∃ u', (closeKeySessionInternal o id ocdm).2.mediaKeySessions.find? id = some u') ↔
      (u.bufCounter = 0 → ¬ Closes u ocdm) := by
  unfold closeKeySessionInternal
  rw [hu]
  dsimp only
  split_ifs with hzero
  · rw [attemptClose_stays]
    exact ⟨fun h _ => h, fun h => h hzero⟩
  · rw [find?_put]
    exact ⟨fun _ h => absurd h hzero, fun _ => ⟨_, rfl⟩⟩

theorem decrement_stays (hu : o.mediaKeySessions.find? id = some u) (ocdm : OcdmSession) :
    (∃ u', (decrementSessionIdUsageCounterInternal o id ocdm).mediaKeySessions.find? id = some u') ↔
      (u.bufCounter ≤ 1 → u.shouldBeDestroyed = true → ¬ Closes u ocdm) := by
  have hdown : (decrementCounter o id u).2 = { u with bufCounter := u.bufCounter - 1 } := by
    unfold decrementCounter
    split_ifs with hpos
    · rfl
    · rw [Nat.eq_zero_of_not_pos hpos]
      cases u
      simp_all
  obtain ⟨-, hu'⟩ := effect_decrementCounter hu
  unfold decrementSessionIdUsageCounterInternal
  rw [hu]
  dsimp only
  split_ifs with hclose
  · rw [attemptClose_stays, hdown]
    rw [hdown] at hclose
    have hle : u.bufCounter ≤ 1 := Nat.sub_eq_zero_iff_le.mp hclose.1
    exact ⟨fun h _ _ => h, fun h => h hle hclose.2⟩
  · rw [hu']
    refine ⟨fun _ hle hflag => absurd ⟨?_, ?_⟩ hclose, fun _ => ⟨_, rfl⟩⟩
    · rw [hdown]
      exact Nat.sub_eq_zero_iff_le.mpr hle
    · rw [hdown]
      exact hflag

theorem Issued.live_eq (hissued : Issued s) (hh : s.mediaKeys.find? handle = some o)
    (hu : o.mediaKeySessions.find? id = some u) {v : MediaKeySessionUsage} (hlive : Live s id v) :
    v = u := by
  obtain ⟨handle', o', hh', hv⟩ := hlive
  obtain rfl := hissued.unique hh hu hh' hv
  cases hh.symm.trans hh'
  exact Option.some.inj (hv.symm.trans hu)

theorem agree_close (hissued : Issued s) (h : Agree s) (ocdm : OcdmSession) :
    Agree (closeKeySession s handle id ocdm).2 ↔ Keeps s (.closeKeySession handle id ocdm) := by
  unfold closeKeySession Cdm.State.onMediaKeys
  cases hh : s.mediaKeys.find? handle with
  | none => exact ⟨fun _ _ _ hh' => (nomatch hh.symm.trans hh'), fun _ => h⟩
  | some o =>
    cases hu : o.mediaKeySessions.find? id with
    | none =>
      dsimp only
      rw [(absent_ops hu).2 ocdm]
      refine ⟨fun _ o' u hh' hu' => ?_, fun _ => agree_put_self h hh⟩
      cases hh.symm.trans hh'
      exact nomatch hu.symm.trans hu'
    | some u =>
      dsimp only
      rw [agree_put hissued h hh hu (effect_close o id ocdm).only, close_stays hu]
      refine ⟨fun hkeeps o' u' hh' hu' => ?_, fun hkeeps => hkeeps o u hh hu⟩
      cases hh.symm.trans hh'
      cases hu.symm.trans hu'
      exact hkeeps

theorem agree_free (hissued : Issued s) (h : Agree s) {i : ℕ} (hi : s.buffers[i]? = some id)
    (ocdm : OcdmSession) :
    Agree (decrementSessionIdUsageCounter { s with buffers := s.buffers.eraseIdx i } id ocdm) ↔
      Keeps s (.freeMetadata i ocdm) := by
  unfold decrementSessionIdUsageCounter
  split
  next hnone =>
    refine ⟨fun _ id' u hi' hlive => ?_, fun _ => h⟩
    cases hi.symm.trans hi'
    exact absurd hlive (mediaKeysOf_none hnone)
  next handle o hsome =>
    obtain ⟨hh, u, hu⟩ := mediaKeysOf_some hsome
    have hagree : Agree { s with buffers := s.buffers.eraseIdx i } := h
    rw [agree_put (issued_buffers hissued _) hagree hh hu (effect_decrement o id ocdm).only,
      decrement_stays hu]
    refine ⟨fun hkeeps id' u' hi' hlive => ?_, fun hkeeps => hkeeps id u hi (live_of_find hh hu)⟩
    cases hi.symm.trans hi'
    rw [Issued.live_eq hissued hh hu hlive]
    exact hkeeps

/-- Removing a session takes its entry away, and the session stays. -/
theorem agree_remove (h : Agree s) (remove : MediaKeyErrorStatus) :
    Agree (removeKeySession s handle id remove).2 ↔
      Keeps s (.removeKeySession handle id remove) := by
  unfold removeKeySession Cdm.State.onMediaKeys
  cases hh : s.mediaKeys.find? handle with
  | none => exact ⟨fun _ _ _ hh' => (nomatch hh.symm.trans hh'), fun _ => h⟩
  | some o =>
    dsimp only
    rw [removeKeySession_state]
    cases hu : o.mediaKeySessions.find? id with
    | none =>
      rw [show (removeKeySessionInternal o id remove).1 = .badSessionId by
        rw [removeKeySessionInternal, hu]]
      refine ⟨fun _ o' u hh' hu' => ?_, fun _ => agree_put_self h hh⟩
      cases hh.symm.trans hh'
      exact nomatch hu.symm.trans hu'
    | some u =>
      rw [show (removeKeySessionInternal o id remove).1 = remove by
        rw [removeKeySessionInternal, hu]]
      split_ifs with hok
      · refine ⟨fun hagree => ?_, fun hkeeps => absurd hok (hkeeps o u hh hu)⟩
        have hlive : Live (s.put handle o o) id u :=
          (live_put_of_ne hh rfl).mpr (live_of_find hh hu)
        obtain ⟨c, hc⟩ := (hagree id).mpr ⟨u, hlive⟩
        rw [OMap.find?_erase, if_pos rfl] at hc
        exact nomatch hc
      · exact ⟨fun _ _ _ _ _ => hok, fun _ => agree_put_self h hh⟩

theorem agree_inactive (h : Agree s) :
    Agree (switchToInactive s) ↔ Keeps s .switchToInactive := by
  constructor
  · intro hagree handle o hh id
    cases hu : o.mediaKeySessions.find? id with
    | none => rfl
    | some u =>
      obtain ⟨_, _, _, hh', -⟩ := (hagree id).mp ((h id).mpr ⟨u, live_of_find hh hu⟩)
      exact nomatch hh'
  · intro hempty id
    refine ⟨fun hentry => ?_, ?_⟩
    · obtain ⟨u, handle, o, hh, hu⟩ := (h id).mp hentry
      exact nomatch (hempty handle o hh id).symm.trans hu
    · rintro ⟨_, _, _, hh', -⟩
      exact nomatch hh'

theorem agree_destroy (hissued : Issued s) (h : Agree s) :
    Agree (destroyMediaKeys s handle).2 ↔ Keeps s (.destroyMediaKeys handle) := by
  unfold destroyMediaKeys
  cases hh : s.mediaKeys.find? handle with
  | none => exact ⟨fun _ _ hh' => (nomatch hh.symm.trans hh'), fun _ => h⟩
  | some o =>
    constructor
    · intro hagree o' hh' id
      cases hh.symm.trans hh'
      cases hu : o.mediaKeySessions.find? id with
      | none => rfl
      | some u =>
        obtain ⟨u', handle', o', hh', hu'⟩ := (hagree id).mp ((h id).mpr ⟨u, live_of_find hh hu⟩)
        have hh' : (s.mediaKeys.erase handle).find? handle' = some o' := hh'
        rw [OMap.find?_erase] at hh'
        split_ifs at hh' with hne
        exact absurd (hissued.unique hh' hu' hh hu) hne
    · intro hempty id
      refine (h id).trans (exists_congr fun u => ⟨?_, fun hlive => fewer_erase.live hlive⟩)
      rintro ⟨handle', o', hh', hu⟩
      refine ⟨handle', o', ?_, hu⟩
      show (s.mediaKeys.erase handle).find? handle' = some o'
      rw [OMap.find?_erase, if_neg, hh']
      rintro rfl
      cases hh.symm.trans hh'
      exact nomatch (hempty o hh id).symm.trans hu

/-- A new session gets its entry. -/
theorem agree_create (hissued : Issued s) (h : Agree s) (hh : s.mediaKeys.find? handle = some o)
    (client : ℕ)
    (hnew : o'.mediaKeySessions = o.mediaKeySessions.emplace s.keySessionId (fresh o.keySystem)) :
    Agree (s.withSession handle o o' client) := by
  intro id
  have hlive : ∀ {u}, Live (s.withSession handle o o' client) id u ↔ _ :=
    live_create hissued hh hnew
  show (∃ c, (s.mediaKeysClients.emplace s.keySessionId client).find? id = some c) ↔ _
  by_cases heq : id = s.keySessionId
  · subst heq
    rw [OMap.find?_emplace hissued.no_client]
    exact ⟨fun _ => ⟨_, hlive.mpr (Or.inl ⟨rfl, rfl⟩)⟩, fun _ => ⟨_, rfl⟩⟩
  · rw [OMap.find?_emplace_of_ne _ heq, h id]
    refine exists_congr fun u => ⟨fun hu => hlive.mpr (Or.inr ⟨heq, hu⟩), fun hu => ?_⟩
    rcases hlive.mp hu with ⟨rfl, -⟩ | ⟨-, hu⟩
    · exact absurd rfl heq
    · exact hu

end Steps

theorem agree_step {s s' : Cdm.State} {a : Act} (hissued : Issued s) (h : Agree s)
    (hstep : Cdm.step s a = some s') : Agree s' ↔ Keeps s a := by
  cases a with
  | switchToActive =>
    cases hstep
    exact ⟨fun _ => trivial, fun _ => h⟩
  | switchToInactive =>
    cases hstep
    exact agree_inactive h
  | createMediaKeys handle keySystem created =>
    cases hstep
    refine ⟨fun _ => trivial, fun _ => ?_⟩
    rcases createMediaKeys_cases s handle keySystem created with heq | ⟨hnone, heq⟩
    · rw [heq]
      exact h
    · rw [heq]
      refine agree_of_same h (fun id => exists_congr fun u => ?_) rfl
      refine ⟨fun hlive => (fewer_emplace hnone keySystem).live hlive, ?_⟩
      rintro ⟨handle', o, hh, hu⟩
      refine ⟨handle', o, ?_, hu⟩
      rw [OMap.find?_emplace_of_ne, hh]
      rintro rfl
      cases hnone.symm.trans hh
  | destroyMediaKeys handle =>
    cases hstep
    exact agree_destroy hissued h
  | createKeySession handle client created remove =>
    simp only [Cdm.step] at hstep
    split_ifs at hstep
    cases hstep
    refine ⟨fun _ => trivial, fun _ => ?_⟩
    rcases createKeySession_cases hissued handle client created remove with heq |
      ⟨o, o', hh, ⟨hsame, -, heq⟩ | ⟨hnew, -, heq⟩⟩
    · rw [heq]
      exact h
    · rw [heq]
      refine agree_of_same h (fun id => exists_congr fun u => ?_) rfl
      exact live_put_of_ne hh (by rw [hsame])
    · rw [heq]
      exact agree_create hissued h hh client hnew
  | generateRequest handle id constructSession =>
    cases hstep
    refine ⟨fun _ => trivial, fun _ => ?_⟩
    unfold generateRequest Cdm.State.onMediaKeys
    split
    next => exact h
    next o hh =>
      cases hu : o.mediaKeySessions.find? id with
      | none =>
        rw [(absent_ops hu).1 constructSession]
        exact agree_put_self h hh
      | some u =>
        rw [agree_put hissued h hh hu (effect_generateRequest o id constructSession).only]
        exact generateRequest_stays hu constructSession
  | closeKeySession handle id ocdm =>
    cases hstep
    exact agree_close hissued h ocdm
  | removeKeySession handle id remove =>
    cases hstep
    exact agree_remove h remove
  | initMetadata id =>
    cases hstep
    refine ⟨fun _ => trivial, fun _ => ?_⟩
    unfold incrementSessionIdUsageCounter
    split
    next => exact h
    next handle o hsome =>
      obtain ⟨hh, u, hu⟩ := mediaKeysOf_some hsome
      have hagree : Agree { s with buffers := id :: s.buffers } := h
      rw [agree_put (issued_buffers hissued _) hagree hh hu (effect_increment o id).only]
      unfold incrementSessionIdUsageCounterInternal
      rw [hu]
      exact ⟨_, find?_put _ _ _⟩
  | freeMetadata i ocdm =>
    simp only [Cdm.step] at hstep
    split at hstep
    next => cases hstep
    next id hi =>
      cases hstep
      exact agree_free hissued h hi ocdm

/-- The weak pointer of a session with an entry can be locked. -/
theorem lock_eq {s : Cdm.State} {id : ℤ} {c : ℕ} (hissued : Issued s)
    (hc : s.mediaKeysClients.find? id = some c) : s.clientOf id = some c ∧ lock s id = some c := by
  have hclient := (hissued.clients id c hc).2
  refine ⟨hclient, ?_⟩
  have hany : s.mediaKeysClients.entries.any (fun e => e.2 == c) = true :=
    List.any_eq_true.mpr ⟨(id, c), OMap.find?_eq_some.mp hc, by simp⟩
  rw [lock, hclient, Option.filter_some, if_pos hany]

/-- **Along a run there is an entry exactly for the live sessions after every operation if and only
if no operation ends a session or removes one successfully. Where the entries agree with the
sessions, the client of every live session is found.** -/
theorem agree_iff {as : List Act} {s : Cdm.State}
    (hrun : Run Cdm.step (fun _ _ => True) Cdm.init as s) :
    ((∀ pre post t, as = pre ++ post → Run Cdm.step (fun _ _ => True) Cdm.init pre t → Agree t) ↔
      ∀ a t, Occurs Cdm.step (fun _ _ => True) Cdm.init as a t → Keeps t a) ∧
    (Agree s → ∀ id u, Live s id u → ∃ c, s.clientOf id = some c ∧ lock s id = some c) := by
  have hissued : Issued s :=
    hrun.invariant Issued (fun _ _ _ hs _ hstep => step_issued hs hstep) issued_init
  refine ⟨?_, fun hagree id u hlive => ?_⟩
  · refine Run.always_iff Issued Agree Keeps issued_init (fun _ _ _ => step_issued) ?_
      (fun _ _ _ => agree_step) hrun
    intro id
    refine ⟨fun ⟨c, hc⟩ => (nomatch hc), ?_⟩
    rintro ⟨u, handle, o, hh, -⟩
    exact nomatch hh
  · obtain ⟨c, hc⟩ := (hagree id).mpr ⟨u, hlive⟩
    exact ⟨c, lock_eq hissued hc⟩

/-! ## Runs on fixed inputs -/

/-- OCDM does what it is asked to. -/
def succeeding : OcdmSession := ⟨.ok, .ok, .ok, .ok⟩

/-- The session `0` of the client `7`. -/
def creating : List Act :=
  [.switchToActive, .createMediaKeys 1 "com.widevine.alpha" true, .createKeySession 1 7 true .ok]

/-- A close that is put off, and one that fails. -/
def keeping : List Act :=
  creating ++ [.initMetadata 0, .closeKeySession 1 0 succeeding,
    .freeMetadata 0 ⟨.ok, .ok, .fail, .ok⟩]

theorem agree_iff_keeping :
    ∃ s, Run Cdm.step (fun _ _ => True) Cdm.init keeping s ∧ lock s 0 = some 7 ∧
      ((∀ pre post t, keeping = pre ++ post →
          Run Cdm.step (fun _ _ => True) Cdm.init pre t → Agree t) ↔
        ∀ a t, Occurs Cdm.step (fun _ _ => True) Cdm.init keeping a t → Keeps t a) ∧
      (Agree s → ∀ id u, Live s id u → ∃ c, s.clientOf id = some c ∧ lock s id = some c) := by
  have hview : (runs Cdm.step Cdm.init keeping).map (lock · 0) = some (some 7) := by
    decide +kernel
  obtain ⟨s, hs, hview⟩ := Option.map_eq_some_iff.mp hview
  exact ⟨s, Run.of_runs hs, hview, agree_iff (Run.of_runs hs)⟩

/-- The entry stays when the session is closed, and goes when the session is removed but lives
on. -/
theorem closed_session_keeps_entry :
    (∃ as s, Run Cdm.step (fun _ _ => True) Cdm.init as s ∧
      s.mediaKeysClients.find? 0 = some 7 ∧ ∀ u, ¬ Live s 0 u) ∧
    ∃ as s u, Run Cdm.step (fun _ _ => True) Cdm.init as s ∧ Live s 0 u ∧
      s.mediaKeysClients.find? 0 = none ∧ lock s 0 = none := by
  constructor
  · have hview : (runs Cdm.step Cdm.init (creating ++ [.closeKeySession 1 0 succeeding])).map
        (fun s => (s.mediaKeysClients.find? 0, (s.mediaKeysOf 0).isNone)) =
        some (some 7, true) := by
      decide +kernel
    obtain ⟨s, hs, hview⟩ := Option.map_eq_some_iff.mp hview
    simp only [Prod.mk.injEq, Option.isNone_iff_eq_none] at hview
    exact ⟨_, s, Run.of_runs hs, hview.1, fun u => mediaKeysOf_none hview.2⟩
  · have hview : (runs Cdm.step Cdm.init (creating ++ [.removeKeySession 1 0 .ok])).map
        (fun s => (s.mediaKeysClients.find? 0, lock s 0, (s.mediaKeysOf 0).isSome)) =
        some (none, none, true) := by
      decide +kernel
    obtain ⟨s, hs, hview⟩ := Option.map_eq_some_iff.mp hview
    simp only [Prod.mk.injEq, Option.isSome_iff_exists] at hview
    obtain ⟨hclient, hlock, ⟨handle, o⟩, hsome⟩ := hview
    obtain ⟨hh, u, hu⟩ := mediaKeysOf_some hsome
    exact ⟨_, s, u, Run.of_runs hs, live_of_find hh hu, hclient, hlock⟩

end Rialto.Keys.ClientRegistry

import Rialto.Ipc.ClientChannel

/-! # Every call is in one place

A call that has been begun is in exactly one place: in its `CallMethod`, in `m_methodCalls`, with
the thread that took it out of the map, or completed in the log.

* `tally`, `Owned`: the count of the places of a call, and the ids that have been handed out;
* `tally_step`, `owned_of_run`: along a step and along a run. -/

namespace Rialto.Ipc.Places

open Rialto.Lib.OrdMap Rialto.Lib.Runs Rialto.Ipc.ClientChannel

variable {c c' : ChannelImpl} {a : Action} {as : List Action}

/-! ## The places of a call -/

/-- The completions of a call in the log. -/
def completions (n : ℕ) (log : List Event) : ℕ := (log.filterMap Event.completes).count n

/-- The number of places a call is in once the map has let it go. -/
def gone (c : ChannelImpl) (n : ℕ) : ℕ :=
  (c.completing.map Completion.serialId).count n + completions n c.log

/-- The number of places a call is in. -/
def tally (c : ChannelImpl) (n : ℕ) : ℕ :=
  (c.calling.map Calling.serialId).count n + c.methodCalls.keys.count n + gone c n

/-- Exactly the calls begun so far are in exactly one place. -/
def Owned (c : ChannelImpl) : Prop :=
  c.serialCounter = (1 + c.begun) % 2 ^ 64 ∧
    ∀ n, tally c n = if 1 ≤ n ∧ n ≤ c.begun then 1 else 0

theorem completions_append (n : ℕ) (l l' : List Event) :
    completions n (l ++ l') = completions n l + completions n l' := by
  simp [completions]

theorem completions_effects (d : Completion) (n : ℕ) :
    completions n d.effects = if d.serialId = n then 1 else 0 := by
  have hone : ∀ e : Event, e.completes = some d.serialId →
      completions n [e] = if d.serialId = n then 1 else 0 := by
    intro e he
    simp [completions, he, List.count_singleton]
  have hw : ∀ m l, completions n (.responseWritten d.serialId m :: l) = completions n l :=
    fun _ _ => rfl
  unfold Completion.effects
  rcases d.outcome with ⟨m, p, f⟩ | r
  · rw [hw]
    cases p <;> cases f <;> exact hone _ rfl
  · exact hone _ rfl

theorem count_map_erase {α : Type*} [DecidableEq α] (f : α → ℕ) {l : List α} {x : α} (h : x ∈ l)
    (n : ℕ) : (l.map f).count n = (if f x = n then 1 else 0) + ((l.erase x).map f).count n := by
  have hp := ((List.perm_cons_erase h).map f).count_eq n
  rw [List.map_cons, List.count_cons] at hp
  simp only [beq_iff_eq] at hp
  omega

/-! ## What each function does to the places -/

theorem tally_updateTimeoutTimer (c : ChannelImpl) (n : ℕ) :
    tally (updateTimeoutTimer c) n = tally c n := by
  rw [updateTimeoutTimer_eq]
  rfl

theorem tally_endCall {k : Calling} {e : Event} (hk : k ∈ c.calling)
    (he : e.completes = some k.serialId) (n : ℕ) : tally (endCall c k e) n = tally c n := by
  have hcount := count_map_erase Calling.serialId hk n
  have hlog : completions n (c.log ++ [e]) =
      completions n c.log + if k.serialId = n then 1 else 0 := by
    rw [completions_append]
    simp [completions, he, List.count_singleton]
  simp only [tally, gone, endCall, hlog]
  omega

theorem tally_sendCall {k : Calling} {sent : Bool} (hk : k ∈ c.calling)
    (hn : k.serialId ∉ c.methodCalls.keys) (n : ℕ) : tally (sendCall c k sent) n = tally c n := by
  unfold sendCall
  split_ifs
  · exact tally_endCall hk rfl n
  · exact tally_endCall hk rfl n
  · exact tally_endCall hk rfl n
  · rw [tally_updateTimeoutTimer]
    have hcount := count_map_erase Calling.serialId hk n
    have hkeys := OMap.count_keys_emplace (v := k.call) hn n
    simp only [tally, gone]
    omega

theorem tally_takeCall (c : ChannelImpl) (m : ℕ) (o : Outcome) (n : ℕ) :
    tally (startCompleting (takeCall c m o)) n = tally c n := by
  rcases h : c.methodCalls.find? m with _ | call
  · rw [takeCall_of_notMem (OMap.find?_eq_none.mp h)]
    rfl
  · have hkeys := OMap.count_keys_erase (OMap.find?_eq_some.mp h) n
    rw [takeCall_of_find? h, updateTimeoutTimer_eq]
    simp only [tally, gone, startCompleting, List.singleton_append, List.map_cons,
      List.count_cons, beq_iff_eq]
    omega

theorem tally_receive (c : ChannelImpl) (m : MessageFromServer) (n : ℕ) :
    tally (receive c m) n = tally c n := by
  cases m with
  | reply m p f => exact tally_takeCall c m _ n
  | error m r => exact tally_takeCall c m _ n
  | event => rfl
  | invalid => rfl

theorem tally_processTimeoutEvent (c : ChannelImpl) (n : ℕ) :
    tally (startCompleting (processTimeoutEvent c)) n = tally c n := by
  by_cases hr : readable c = true
  · obtain ⟨hcalls, htaken⟩ := processTimeoutEvent_of_readable hr
    have hkeys := OMap.count_keys_eraseIf c.methodCalls (expired c) n
    have hframe := processTimeoutEvent_frame c
    simp only [tally, gone, startCompleting, htaken, List.map_append, List.count_append,
      List.map_map, Function.comp_def]
    have hfst : (fun e : ℕ × MethodCall => e.1) = Prod.fst := rfl
    rw [hcalls, hframe, hfst]
    dsimp only
    omega
  · rw [processTimeoutEvent_of_not_readable hr]
    rfl

theorem tally_finish {d : Completion} (hd : d ∈ c.completing) (n : ℕ) :
    tally { c with completing := c.completing.erase d, log := c.log ++ d.effects } n =
      tally c n := by
  have hcount := count_map_erase Completion.serialId hd n
  have heff := completions_effects d n
  simp only [tally, gone, completions_append]
  omega

theorem tally_termChannel (c : ChannelImpl) (n : ℕ) : tally (termChannel c) n = tally c n := by
  have hlog : completions n (c.methodCalls.entries.map fun e =>
      Event.completeWithError e.1 e.2 "Channel destructed") = c.methodCalls.keys.count n := by
    unfold completions OMap.keys
    rw [List.filterMap_map]
    congr 1
    induction c.methodCalls.entries with
    | nil => rfl
    | cons e es ih => simp [Event.completes, Function.comp_def]
  have hempty : (OMap.empty : OMap ℕ MethodCall).keys.count n = 0 := rfl
  simp only [tally, gone, termChannel, disconnectNoLock, completions_append, hlog, hempty]
  omega

/-! ## Along a run -/

/-- A step begins a call or moves calls between their places. -/
theorem tally_step (hc : Owned c) (h : step c a = some c') :
    (∃ x y z, a = .callMethod x y z ∧ c' = beginCall c x y z) ∨
      c'.begun = c.begun ∧ c'.serialCounter = c.serialCounter ∧ ∀ n, tally c' n = tally c n := by
  cases Step.of_step h with
  | advance ns => exact Or.inr ⟨rfl, rfl, fun _ => rfl⟩
  | callMethod x y z => exact Or.inl ⟨x, y, z, rfl, rfl⟩
  | tooBig hk => exact Or.inr ⟨rfl, rfl, tally_endCall hk rfl⟩
  | noCmsgHeader hk => exact Or.inr ⟨rfl, rfl, tally_endCall hk rfl⟩
  | @send k hk sent =>
    have hn : k.serialId ∉ c.methodCalls.keys := by
      intro hkeys
      have hpos := List.count_pos_iff.mpr hkeys
      have hpos' := List.count_pos_iff.mpr (List.mem_map_of_mem (f := Calling.serialId) hk)
      have hone := hc.2 k.serialId
      unfold tally at hone
      split_ifs at hone <;> omega
    have hf := sendCall_frame c k sent
    exact Or.inr ⟨by rw [hf], by rw [hf], tally_sendCall hk hn⟩
  | message m =>
    have hf := receive_frame c m
    exact Or.inr ⟨by rw [hf], by rw [hf], tally_receive c m⟩
  | timeout =>
    have hf := timeout_frame c
    exact Or.inr ⟨by rw [hf], by rw [hf], tally_processTimeoutEvent c⟩
  | finish hd => exact Or.inr ⟨rfl, rfl, tally_finish hd⟩
  | disconnect => exact Or.inr ⟨rfl, rfl, fun _ => rfl⟩
  | socketClosed => exact Or.inr ⟨rfl, rfl, fun _ => rfl⟩
  | destroy _ _ => exact Or.inr ⟨rfl, rfl, tally_termChannel c⟩

theorem tally_beginCall (c : ChannelImpl) (x y z : Bool) (n : ℕ) :
    tally (beginCall c x y z) n = tally c n + if c.serialCounter = n then 1 else 0 := by
  simp only [tally, gone, beginCall, List.map_cons, List.count_cons, beq_iff_eq]
  omega

theorem owned_step (hc : Owned c) (hb : c'.begun < 2 ^ 64) (h : step c a = some c') : Owned c' := by
  rcases tally_step hc h with ⟨x, y, z, -, rfl⟩ | ⟨hbegun, hserial, htally⟩
  · have hlt : c.begun + 1 < 2 ^ 64 := hb
    have hsc : c.serialCounter = 1 + c.begun := by
      rw [hc.1, Nat.mod_eq_of_lt (by omega)]
    refine ⟨?_, fun n => ?_⟩
    · simp only [beginCall, hsc, Nat.add_comm]
    · have hbegun : (beginCall c x y z).begun = c.begun + 1 := rfl
      rw [tally_beginCall, hc.2 n, hsc, hbegun]
      by_cases h1 : 1 + c.begun = n
      · rw [if_neg (by omega), if_pos h1, if_pos (by omega)]
      · rw [if_neg h1, Nat.add_zero]
        exact if_congr (by omega) rfl rfl
  · refine ⟨by rw [hserial, hbegun]; exact hc.1, fun n => ?_⟩
    rw [htally, hbegun]
    exact hc.2 n

theorem owned_init : Owned init := by
  refine ⟨rfl, fun n => ?_⟩
  have : ¬(1 ≤ n ∧ n ≤ init.begun) := by simp [init]; omega
  rw [if_neg this]
  rfl

theorem begun_le_of_run {t : ChannelImpl} (h : Run step (fun _ _ => True) c as t) :
    c.begun ≤ t.begun := by
  refine h.invariant (fun s => c.begun ≤ s.begun) ?_ le_rfl
  intro s a s' hs _ hstep
  cases Step.of_step hstep with
  | callMethod x y z => exact Nat.le_succ_of_le hs
  | send hk sent => rw [sendCall_frame]; exact hs
  | message m => rw [receive_frame]; exact hs
  | timeout => rw [timeout_frame]; exact hs
  | _ => exact hs

/-- **Every call is in one place**, in every state a run reaches. -/
theorem owned_of_run (h : Run step (fun _ _ => True) init as c) (hb : c.begun < 2 ^ 64) :
    Owned c := by
  revert hb
  refine Run.history (P := fun _ t => t.begun < 2 ^ 64 → Owned t) (fun _ => owned_init) ?_ h
  intro as t a u _ ih _ hstep hb
  have hle := begun_le_of_run (Run.cons trivial hstep (Run.nil u))
  exact owned_step (ih (by omega)) hb hstep

/-- A call that has left the map stays out of it. -/
theorem notMem_keys_of_gone (hc : Owned c) {n : ℕ} (hg : 0 < gone c n) :
    n ∉ c.methodCalls.keys := by
  intro hkeys
  have hpos := List.count_pos_iff.mpr hkeys
  have hone := hc.2 n
  unfold tally at hone
  split_ifs at hone <;> omega

theorem gone_le_of_step (n : ℕ) (h : step c a = some c') : gone c n ≤ gone c' n := by
  have happ : ∀ l, completions n c.log ≤ completions n (c.log ++ l) := fun l => by
    rw [completions_append]; omega
  cases Step.of_step h with
  | tooBig hk => exact Nat.add_le_add_left (happ _) _
  | noCmsgHeader hk => exact Nat.add_le_add_left (happ _) _
  | send hk sent =>
    unfold sendCall
    split_ifs
    · exact Nat.add_le_add_left (happ _) _
    · exact Nat.add_le_add_left (happ _) _
    · exact Nat.add_le_add_left (happ _) _
    · rw [updateTimeoutTimer_eq]; exact le_rfl
  | message m =>
    rw [receive_frame]
    simp only [gone, List.map_append, List.count_append]
    omega
  | timeout =>
    rw [timeout_frame]
    simp only [gone, List.map_append, List.count_append]
    omega
  | @finish d hd =>
    have hcount := count_map_erase Completion.serialId hd n
    have heff := completions_effects d n
    simp only [gone, completions_append]
    omega
  | destroy _ _ =>
    simp only [gone, termChannel, completions_append, disconnectNoLock]
    omega
  | _ => exact le_rfl

theorem gone_le_of_run (n : ℕ) {t : ChannelImpl} (h : Run step (fun _ _ => True) c as t) :
    gone c n ≤ gone t n :=
  h.invariant (fun s => gone c n ≤ gone s n)
    (fun _ _ _ hs _ hstep => le_trans hs (gone_le_of_step n hstep)) le_rfl

end Rialto.Ipc.Places

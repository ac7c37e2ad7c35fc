import Rialto.Ipc.Server
import Rialto.Lib.History

/-! # The clients of the IPC server

A client is added to `m_clients`, condemned by `disconnectClient`, removed from `m_clients` in a
sweep of `process`, its socket closed and its callback run. The log counts these, and the invariant
`Inv` says what the counts are by where the client is: in `m_clients`, in the hands of the sweep, or
gone. There is one lemma for each thing that can happen to a client:

* `inv_takeId`, `inv_emplace`: a client is added;
* `inv_disconnect`, `inv_sweep`: it is condemned, and the sweep takes the condemned ones;
* `inv_skip`, `inv_remove`, `inv_close`, `inv_notify`: what the sweep does. -/

namespace Rialto.Ipc.ServerClients

open Rialto.Lib.History Rialto.Lib.OrdMap Rialto.Ipc.Server

open scoped List

variable {β : Type*}

/-! ## What the log says about a client -/

def isRemoved (c : ℕ) : Entry β → Bool
  | .removed d => d == c
  | _ => false

def isClosed (c : ℕ) : Entry β → Bool
  | .closed d => d == c
  | _ => false

def isNotified (c : ℕ) : Entry β → Bool
  | .notified d _ => d == c
  | _ => false

/-- How often the client was added to `m_clients`. -/
def accepted (c : ℕ) (log : List (Entry β)) : ℕ := log.countP (Entry.isAccepted c)

/-- How often it was removed from `m_clients`. -/
def removed (c : ℕ) (log : List (Entry β)) : ℕ := log.countP (isRemoved c)

/-- How often its socket was closed. -/
def closed (c : ℕ) (log : List (Entry β)) : ℕ := log.countP (isClosed c)

/-- How often its callback had its turn. -/
def notified (c : ℕ) (log : List (Entry β)) : ℕ := log.countP (isNotified c)

/-! ## Where the thread in `process` is -/

/-- The condemned clients that the sweep has still to look at. -/
def todo : Phase → List ℕ
  | .sweeping theCondemned => theCondemned
  | .closing _ _ theCondemned => theCondemned
  | .notifying _ _ theCondemned => theCondemned
  | _ => []

/-- The client whose socket is to be closed. -/
def closing : Phase → Option (ℕ × Bool)
  | .closing c cb _ => some (c, cb)
  | _ => none

/-- The client whose callback is to be run. -/
def notifying : Phase → Option (ℕ × Bool)
  | .notifying c cb _ => some (c, cb)
  | _ => none

/-- The client whose socket is looked at. -/
def served : Phase → Option ℕ
  | .failing c _ => some c
  | .reading c _ => some c
  | _ => none

/-- `1` if the client is the one given. -/
def one (c : ℕ) (x : Option (ℕ × Bool)) : ℕ := if x.map Prod.fst = some c then 1 else 0

/-! ## The invariant -/

/-- The part of the state that is about clients. -/
structure View (β : Type*) where
  counter : ℕ
  adding : List (ℕ × Bool)
  clients : OMap ℕ Bool
  condemned : OMap ℕ Unit
  phase : Phase
  log : List (Entry β)

def view (s : State β) : View β :=
  ⟨s.clientIdCounter, s.adding, s.clients, s.condemnedClients, s.phase, s.log⟩

/-- What the log says about the order of things: a callback is the one its client came with, only
clients that were added are condemned, only condemned ones are removed. -/
structure Sound (log : List (Entry β)) : Prop where
  callback : ∀ c cb, .notified c cb ∈ log → .accepted c cb ∈ log
  known : ∀ c, .condemned c ∈ log → 1 ≤ accepted c log
  order : ∀ c, .removed c ∈ log → [.condemned c, .removed c] <+ log

/-- **The invariant.** The first five fields count, by where the client is; `cbClients` and
`cbLeaving` keep the callback of a client; the last three follow the condemned clients. -/
structure Inv (v : View β) : Prop where
  ids : ∀ c, accepted c v.log + (v.adding.map Prod.fst).count c ≤ 1
  issued : ∀ c, v.counter ≤ c → accepted c v.log + (v.adding.map Prod.fst).count c = 0
  connected : ∀ c, accepted c v.log = v.clients.keys.count c + removed c v.log
  removed : ∀ c, removed c v.log = closed c v.log + one c (closing v.phase)
  closed : ∀ c, closed c v.log = notified c v.log + one c (notifying v.phase)
  served : ∀ c, served v.phase = some c → c ∈ v.clients.keys
  cbClients : ∀ c cb, (c, cb) ∈ v.clients.entries → .accepted c cb ∈ v.log
  cbLeaving : ∀ c cb, closing v.phase = some (c, cb) ∨ notifying v.phase = some (c, cb) →
    .accepted c cb ∈ v.log
  sound : Sound v.log
  condemned : ∀ c, c ∈ v.condemned.keys ∨ c ∈ todo v.phase → .condemned c ∈ v.log
  listed : ∀ c, .condemned c ∈ v.log → c ∈ v.clients.keys → c ∈ v.condemned.keys ∨ c ∈ todo v.phase
  swept : ∀ c, [.condemned c, .swept] <+ v.log → c ∈ v.clients.keys → c ∈ todo v.phase

theorem inv_init : Inv (view (init : State β)) where
  ids := fun _ => Nat.zero_le _
  issued := fun _ _ => rfl
  connected := fun _ => rfl
  removed := fun _ => rfl
  closed := fun _ => rfl
  served := fun _ h => nomatch h
  cbClients := fun _ _ h => nomatch h
  cbLeaving := fun _ _ h => by rcases h with h | h <;> cases h
  sound := ⟨fun _ _ h => (nomatch h), fun _ h => (nomatch h), fun _ h => nomatch h⟩
  condemned := fun _ h => by rcases h with h | h <;> cases h
  listed := fun _ h => nomatch h
  swept := fun _ h => nomatch h

/-- How often a client occurs in the log does not depend on an entry of another kind. -/
theorem counts_note (c : ℕ) (l : List (Entry β)) (e : Entry β) :
    accepted c (l ++ [e]) = accepted c l + (if Entry.isAccepted c e then 1 else 0) ∧
    removed c (l ++ [e]) = removed c l + (if isRemoved c e then 1 else 0) ∧
    closed c (l ++ [e]) = closed c l + (if isClosed c e then 1 else 0) ∧
    notified c (l ++ [e]) = notified c l + (if isNotified c e then 1 else 0) := by
  simp only [accepted, removed, closed, notified, List.countP_append, List.countP_singleton,
    and_self]

theorem one_le_accepted {c : ℕ} {cb : Bool} {l : List (Entry β)} (h : .accepted c cb ∈ l) :
    1 ≤ accepted c l :=
  List.countP_pos_iff.mpr ⟨_, h, beq_self_eq_true c⟩

theorem mem_note {e e' : Entry β} {l : List (Entry β)} (h : e ∈ l ++ [e']) : e ∈ l ∨ e = e' := by
  rcases List.mem_append.mp h with h | h
  · exact Or.inl h
  · exact Or.inr (List.mem_singleton.mp h)

theorem mem_note_of_mem {e : Entry β} {l : List (Entry β)} (e' : Entry β) (h : e ∈ l) :
    e ∈ l ++ [e'] := List.mem_append_left _ h

/-- What an entry needs for the log to stay sound. -/
def Justified (log : List (Entry β)) : Entry β → Prop
  | .notified c cb => .accepted c cb ∈ log
  | .condemned c => 1 ≤ accepted c log
  | .removed c => .condemned c ∈ log
  | _ => True

theorem Sound.note {l : List (Entry β)} (h : Sound l) {e : Entry β} (he : Justified l e) :
    Sound (l ++ [e]) where
  callback := by
    intro c cb hc
    rcases mem_note hc with hc | rfl
    · exact mem_note_of_mem e (h.callback c cb hc)
    · exact mem_note_of_mem _ he
  known := by
    intro c hc
    have hle : 1 ≤ accepted c l := by
      rcases mem_note hc with hc | rfl
      · exact h.known c hc
      · exact he
    rw [(counts_note c l e).1]
    exact Nat.le_add_right_of_le hle
  order := by
    intro c hc
    rcases mem_note hc with hc | rfl
    · exact (h.order c hc).trans (List.sublist_append_left ..)
    · exact pair_sublist_snoc.mpr (Or.inr ⟨he, rfl⟩)

/-! ## What the steps keep -/

/-- The thread moves on, between events. -/
theorem inv_phase {v : View β} (hv : Inv v) {phase : Phase} (htodo : todo phase = todo v.phase)
    (hclosing : closing phase = closing v.phase) (hnotifying : notifying phase = notifying v.phase)
    (hserved : ∀ c, ServerClients.served phase = some c → c ∈ v.clients.keys) :
    Inv { v with phase := phase } where
  ids := hv.ids
  issued := hv.issued
  connected := hv.connected
  removed := fun c => by rw [hclosing]; exact hv.removed c
  closed := fun c => by rw [hnotifying]; exact hv.closed c
  served := hserved
  cbClients := hv.cbClients
  cbLeaving := by rw [hclosing, hnotifying]; exact hv.cbLeaving
  sound := hv.sound
  condemned := by rw [htodo]; exact hv.condemned
  listed := by rw [htodo]; exact hv.listed
  swept := by rw [htodo]; exact hv.swept

/-- An entry that counts for no client. -/
def Uncounted : Entry β → Prop
  | .condemned _ => True
  | .swept => True
  | .invoked _ _ => True
  | .answered _ _ => True
  | _ => False

theorem counts_uncounted {e : Entry β} (he : Uncounted e) (l : List (Entry β)) (c : ℕ) :
    accepted c (l ++ [e]) = accepted c l ∧ removed c (l ++ [e]) = removed c l ∧
      closed c (l ++ [e]) = closed c l ∧ notified c (l ++ [e]) = notified c l := by
  have h := counts_note c l e
  cases e <;> first | exact he.elim | exact h

/-- A step that writes an entry that counts for no client, and changes what is condemned. -/
theorem inv_note {v : View β} (hv : Inv v) {e : Entry β} (he : Uncounted e)
    (hjust : Justified v.log e) {condemned : OMap ℕ Unit}
    (hcond : ∀ c, c ∈ condemned.keys ∨ c ∈ todo v.phase → .condemned c ∈ v.log ++ [e])
    (hlisted : ∀ c, .condemned c ∈ v.log ++ [e] → c ∈ v.clients.keys →
      c ∈ condemned.keys ∨ c ∈ todo v.phase)
    (hswept : e ≠ .swept) :
    Inv { v with condemned := condemned, log := v.log ++ [e] } := by
  have hcounts := counts_uncounted he v.log
  constructor
  · exact fun c => (hcounts c).1.symm ▸ hv.ids c
  · exact fun c hc => (hcounts c).1.symm ▸ hv.issued c hc
  · intro c
    rw [(hcounts c).1, (hcounts c).2.1]
    exact hv.connected c
  · intro c
    rw [(hcounts c).2.1, (hcounts c).2.2.1]
    exact hv.removed c
  · intro c
    rw [(hcounts c).2.2.1, (hcounts c).2.2.2]
    exact hv.closed c
  · exact hv.served
  · exact fun c cb h => mem_note_of_mem e (hv.cbClients c cb h)
  · exact fun c cb h => mem_note_of_mem e (hv.cbLeaving c cb h)
  · exact hv.sound.note hjust
  · exact hcond
  · exact hlisted
  · intro c h
    rcases pair_sublist_snoc.mp h with h | ⟨-, h⟩
    · exact hv.swept c h
    · exact absurd h.symm hswept

/-- An entry about calls says nothing about clients. -/
theorem inv_call {v : View β} (hv : Inv v) {e : Entry β}
    (he : (∃ n c, e = .invoked n c) ∨ ∃ n r, e = .answered n r) :
    Inv { v with log := v.log ++ [e] } := by
  have hne : ∀ c, (.condemned c : Entry β) ≠ e := by
    rcases he with ⟨n, d, rfl⟩ | ⟨n, r, rfl⟩ <;> exact fun _ h => nomatch h
  have hold : ∀ c, .condemned c ∈ v.log ++ [e] → .condemned c ∈ v.log := fun c h =>
    (mem_note h).resolve_right (hne c)
  refine inv_note hv ?_ ?_ (fun c h => mem_note_of_mem e (hv.condemned c h))
    (fun c h => hv.listed c (hold c h)) ?_ <;>
    rcases he with ⟨n, d, rfl⟩ | ⟨n, r, rfl⟩ <;> first | trivial | exact fun h => nomatch h

/-- `disconnectClient` of a client that has been added. -/
theorem inv_disconnect {v : View β} (hv : Inv v) {c : ℕ} (hc : 1 ≤ accepted c v.log) :
    Inv { v with condemned := v.condemned.emplace c (), log := v.log ++ [Entry.condemned c] } := by
  refine inv_note (e := .condemned c) hv trivial hc ?_ ?_ fun h => nomatch h
  · rintro d (h | h)
    · rcases OMap.mem_keys_emplace.mp h with rfl | h
      · exact List.mem_append_right _ (List.mem_singleton_self _)
      · exact mem_note_of_mem _ (hv.condemned d (Or.inl h))
    · exact mem_note_of_mem _ (hv.condemned d (Or.inr h))
  · intro d h hd
    rcases mem_note h with h | h
    · exact (hv.listed d h hd).imp_left fun h => OMap.mem_keys_emplace.mpr (Or.inr h)
    · cases h
      exact Or.inl (OMap.mem_keys_emplace.mpr (Or.inl rfl))

/-- A connection gets its id. -/
theorem inv_takeId {v : View β} (hv : Inv v) (cb added : Bool) :
    Inv { v with
      counter := v.counter + 1
      adding := if added then v.adding ++ [(v.counter, cb)] else v.adding } := by
  have hcount : ∀ c, ((if added then v.adding ++ [(v.counter, cb)] else v.adding).map
      Prod.fst).count c ≤ (v.adding.map Prod.fst).count c + if v.counter = c then 1 else 0 := by
    intro c
    cases added with
    | false => exact Nat.le_add_right _ _
    | true =>
      simp only [if_true, List.map_append, List.count_append, List.map_cons, List.map_nil,
        List.count_singleton, beq_iff_eq]
      exact Nat.le_refl _
  refine { hv with ids := fun c => ?_, issued := fun c hc => ?_ }
  · have h := hcount c
    by_cases hc : v.counter = c
    · have h0 := hv.issued c (Nat.le_of_eq hc)
      rw [if_pos hc] at h
      dsimp only
      omega
    · have h1 := hv.ids c
      rw [if_neg hc] at h
      dsimp only
      omega
  · have h := hcount c
    have h0 := hv.issued c (Nat.le_of_succ_le hc)
    rw [if_neg (Nat.ne_of_lt hc)] at h
    dsimp only
    omega

theorem count_map_erase {l : List (ℕ × Bool)} {x : ℕ × Bool} (h : x ∈ l) (d : ℕ) :
    ((l.erase x).map Prod.fst).count d + (if x.1 = d then 1 else 0) = (l.map Prod.fst).count d := by
  have hp := ((List.perm_cons_erase h).map Prod.fst).count_eq d
  rw [hp, List.map_cons, List.count_cons]
  simp only [beq_iff_eq]

/-- A connection with an id is added to `m_clients`. -/
theorem inv_emplace {v : View β} (hv : Inv v) {c : ℕ} {cb : Bool} (h : (c, cb) ∈ v.adding) :
    Inv { v with
      adding := v.adding.erase (c, cb)
      clients := v.clients.emplace c cb
      log := v.log ++ [Entry.accepted c cb] } := by
  obtain hcounts := fun d => counts_note d v.log (.accepted c cb)
  have hacc : ∀ d, accepted d (v.log ++ [Entry.accepted c cb]) =
      accepted d v.log + if c = d then 1 else 0 := by
    intro d
    rw [(hcounts d).1]
    simp only [Entry.isAccepted, beq_iff_eq]
  have hpos : 1 ≤ (v.adding.map Prod.fst).count c :=
    List.count_pos_iff.mpr (List.mem_map_of_mem (f := Prod.fst) h)
  have hzero : accepted c v.log = 0 := by
    have := hv.ids c
    omega
  have hfree : c ∉ v.clients.keys := by
    intro hc
    have h1 := hv.connected c
    have h2 := List.count_pos_iff.mpr hc
    omega
  -- a client that is added was never condemned before
  have hmem : ∀ d, .condemned d ∈ v.log → d ∈ (v.clients.emplace c cb).keys →
      d ∈ v.clients.keys := by
    intro d hd hmem
    rcases OMap.mem_keys_emplace.mp hmem with rfl | hmem
    · have := hv.sound.known d hd
      omega
    · exact hmem
  constructor
  · intro d
    have h1 := hv.ids d
    have h2 := count_map_erase h d
    rw [hacc]
    dsimp only at *
    omega
  · intro d hd
    have h1 := hv.issued d hd
    have h2 := count_map_erase h d
    rw [hacc]
    dsimp only at *
    omega
  · intro d
    have h1 := hv.connected d
    dsimp only
    rw [hacc, OMap.count_keys_emplace hfree, (hcounts d).2.1]
    simp only [isRemoved, Bool.false_eq_true, if_false]
    omega
  · intro d
    rw [(hcounts d).2.1, (hcounts d).2.2.1]
    exact hv.removed d
  · intro d
    rw [(hcounts d).2.2.1, (hcounts d).2.2.2]
    exact hv.closed d
  · exact fun d hd => OMap.mem_keys_emplace.mpr (Or.inr (hv.served d hd))
  · intro d cb' hd
    rcases OMap.mem_of_mem_emplace hd with hd | hd
    · cases hd
      exact List.mem_append_right _ (List.mem_singleton_self _)
    · exact mem_note_of_mem _ (hv.cbClients d cb' hd)
  · exact fun d cb' hd => mem_note_of_mem _ (hv.cbLeaving d cb' hd)
  · exact hv.sound.note trivial
  · exact fun d hd => mem_note_of_mem _ (hv.condemned d hd)
  · intro d hd hd'
    have hold := (mem_note hd).resolve_right fun h => nomatch h
    exact hv.listed d hold (hmem d hold hd')
  · intro d hd hd'
    have hold := (pair_sublist_snoc.mp hd).resolve_right fun h => nomatch h.2
    exact hv.swept d hold (hmem d (mem_left_of_pair hold) hd')

/-- The sweep begins with what was condemned. -/
theorem inv_sweep {v : View β} (hv : Inv v) {phase : Phase} {condemned : OMap ℕ Unit}
    (hphase : v.phase = .events []) (hclosing : closing phase = none)
    (hnotifying : notifying phase = none) (hserved : ServerClients.served phase = none)
    (hleft : ∀ c, c ∈ condemned.keys ∨ c ∈ todo phase ↔ c ∈ v.condemned.keys)
    (htodo : ∀ c ∈ v.condemned.keys, c ∈ todo phase) :
    Inv { v with condemned := condemned, phase := phase, log := v.log ++ [Entry.swept] } := by
  have hcounts := counts_uncounted (e := .swept) trivial v.log
  have hlisted : ∀ d, .condemned d ∈ v.log → d ∈ v.clients.keys → d ∈ v.condemned.keys := by
    intro d hd hmem
    rcases hv.listed d hd hmem with h | h
    · exact h
    · rw [hphase] at h
      cases h
  constructor
  · exact fun d => (hcounts d).1.symm ▸ hv.ids d
  · exact fun d hd => (hcounts d).1.symm ▸ hv.issued d hd
  · intro d
    rw [(hcounts d).1, (hcounts d).2.1]
    exact hv.connected d
  · intro d
    have h := hv.removed d
    rw [hphase] at h
    rw [(hcounts d).2.1, (hcounts d).2.2.1, hclosing]
    exact h
  · intro d
    have h := hv.closed d
    rw [hphase] at h
    rw [(hcounts d).2.2.1, (hcounts d).2.2.2, hnotifying]
    exact h
  · intro d hd
    dsimp only at hd
    rw [hserved] at hd
    cases hd
  · exact fun d cb h => mem_note_of_mem _ (hv.cbClients d cb h)
  · intro d cb h
    dsimp only at h
    rw [hclosing, hnotifying] at h
    rcases h with h | h <;> cases h
  · exact hv.sound.note trivial
  · exact fun d h => mem_note_of_mem _ (hv.condemned d (Or.inl ((hleft d).mp h)))
  · intro d h hmem
    have hold := (mem_note h).resolve_right fun h => nomatch h
    exact (hleft d).mpr (hlisted d hold hmem)
  · intro d h hmem
    rcases pair_sublist_snoc.mp h with h | ⟨h, -⟩
    · exact htodo d (hlisted d (mem_left_of_pair h) hmem)
    · exact htodo d (hlisted d h hmem)

section Sweep

variable {v : View β} (hv : Inv v) {c : ℕ} {cb : Bool} {cs : List ℕ}
include hv

/-- A condemned client that is not in `m_clients` is passed over. -/
theorem inv_skip (hphase : v.phase = .sweeping (c :: cs)) (hc : c ∉ v.clients.keys) :
    Inv { v with phase := .sweeping cs } := by
  have htodo : ∀ d ∈ v.clients.keys, d ∈ todo v.phase → d ∈ cs := by
    intro d hd htodo
    rw [hphase] at htodo
    refine (List.mem_cons.mp htodo).resolve_left ?_
    rintro rfl
    exact hc hd
  refine { hv with
    removed := fun d => ?_, closed := fun d => ?_, served := fun _ h => (nomatch h),
    cbLeaving := fun d cb h => ?_, condemned := fun d h => ?_, listed := fun d h hmem => ?_,
    swept := fun d h hmem => ?_ }
  · have := hv.removed d
    rwa [hphase] at this
  · have := hv.closed d
    rwa [hphase] at this
  · rcases h with h | h <;> cases h
  · refine hv.condemned d (h.imp_right fun h => ?_)
    rw [hphase]
    exact List.mem_cons_of_mem _ h
  · exact (hv.listed d h hmem).imp_right fun h => htodo d hmem h
  · exact htodo d hmem (hv.swept d h hmem)

/-- A condemned client is removed from `m_clients`. -/
theorem inv_remove (hphase : v.phase = .sweeping (c :: cs)) (hc : (c, cb) ∈ v.clients.entries) :
    Inv { v with
      clients := v.clients.erase c
      phase := .closing c cb cs
      log := v.log ++ [Entry.removed c] } := by
  have hcond : .condemned c ∈ v.log := by
    refine hv.condemned c (Or.inr ?_)
    rw [hphase]
    exact List.mem_cons_self ..
  have hcounts := fun d => counts_note d v.log (.removed c)
  have htodo : ∀ d, d ∈ todo v.phase → d ≠ c → d ∈ cs := by
    intro d hd hne
    rw [hphase] at hd
    exact (List.mem_cons.mp hd).resolve_left hne
  constructor
  · exact fun d => (hcounts d).1.symm ▸ hv.ids d
  · exact fun d hd => (hcounts d).1.symm ▸ hv.issued d hd
  · intro d
    have h1 := hv.connected d
    have h2 := OMap.count_keys_erase hc d
    dsimp only
    rw [(hcounts d).1, (hcounts d).2.1]
    simp only [Entry.isAccepted, isRemoved, Bool.false_eq_true, if_false, beq_iff_eq]
    omega
  · intro d
    have h := hv.removed d
    rw [hphase] at h
    dsimp only
    rw [(hcounts d).2.1, (hcounts d).2.2.1]
    simp only [isRemoved, isClosed, Bool.false_eq_true, if_false, beq_iff_eq, one, closing,
      Option.map_some, Option.map_none, Option.some.injEq, reduceCtorEq] at h ⊢
    omega
  · intro d
    have h := hv.closed d
    rw [hphase] at h
    rw [(hcounts d).2.2.1, (hcounts d).2.2.2]
    exact h
  · exact fun d hd => nomatch hd
  · exact fun d cb' hd => mem_note_of_mem _ (hv.cbClients d cb' (OMap.mem_erase.mp hd).1)
  · rintro d cb' (hd | hd)
    · cases hd
      exact mem_note_of_mem _ (hv.cbClients c cb hc)
    · cases hd
  · exact hv.sound.note hcond
  · intro d hd
    refine mem_note_of_mem _ (hv.condemned d (hd.imp_right fun hd => ?_))
    rw [hphase]
    exact List.mem_cons_of_mem _ hd
  · intro d hd hmem
    obtain ⟨hmem, hne⟩ := OMap.mem_keys_erase.mp hmem
    have hold := (mem_note hd).resolve_right fun h => nomatch h
    exact (hv.listed d hold hmem).imp_right fun h => htodo d h hne
  · intro d hd hmem
    obtain ⟨hmem, hne⟩ := OMap.mem_keys_erase.mp hmem
    have hold := (pair_sublist_snoc.mp hd).resolve_right fun h => nomatch h.2
    exact htodo d (hv.swept d hold hmem) hne

/-- The socket of a removed client is closed. -/
theorem inv_close (hphase : v.phase = .closing c cb cs) :
    Inv { v with phase := .notifying c cb cs, log := v.log ++ [Entry.closed c] } := by
  have hcounts := fun d => counts_note d v.log (.closed c)
  constructor
  · exact fun d => (hcounts d).1.symm ▸ hv.ids d
  · exact fun d hd => (hcounts d).1.symm ▸ hv.issued d hd
  · intro d
    rw [(hcounts d).1, (hcounts d).2.1]
    exact hv.connected d
  · intro d
    have h := hv.removed d
    rw [hphase] at h
    dsimp only
    rw [(hcounts d).2.1, (hcounts d).2.2.1]
    simp only [isRemoved, isClosed, Bool.false_eq_true, if_false, beq_iff_eq, one, closing,
      Option.map_some, Option.map_none, Option.some.injEq, reduceCtorEq] at h ⊢
    omega
  · intro d
    have h := hv.closed d
    rw [hphase] at h
    dsimp only
    rw [(hcounts d).2.2.1, (hcounts d).2.2.2]
    simp only [isClosed, isNotified, Bool.false_eq_true, if_false, beq_iff_eq, one, notifying,
      Option.map_some, Option.map_none, Option.some.injEq, reduceCtorEq] at h ⊢
    omega
  · exact fun d hd => nomatch hd
  · exact fun d cb' hd => mem_note_of_mem _ (hv.cbClients d cb' hd)
  · rintro d cb' (hd | hd)
    · cases hd
    · cases hd
      exact mem_note_of_mem _ (hv.cbLeaving c cb (Or.inl (by rw [hphase]; rfl)))
  · exact hv.sound.note trivial
  · have h := hv.condemned
    rw [hphase] at h
    exact fun d hd => mem_note_of_mem _ (h d hd)
  · have h := hv.listed
    rw [hphase] at h
    exact fun d hd => h d ((mem_note hd).resolve_right fun h => nomatch h)
  · have h := hv.swept
    rw [hphase] at h
    exact fun d hd => h d ((pair_sublist_snoc.mp hd).resolve_right fun h => nomatch h.2)

/-- The callback of a removed client is run. -/
theorem inv_notify (hphase : v.phase = .notifying c cb cs) :
    Inv { v with phase := .sweeping cs, log := v.log ++ [Entry.notified c cb] } := by
  have hcounts := fun d => counts_note d v.log (.notified c cb)
  constructor
  · exact fun d => (hcounts d).1.symm ▸ hv.ids d
  · exact fun d hd => (hcounts d).1.symm ▸ hv.issued d hd
  · intro d
    rw [(hcounts d).1, (hcounts d).2.1]
    exact hv.connected d
  · intro d
    have h := hv.removed d
    rw [hphase] at h
    rw [(hcounts d).2.1, (hcounts d).2.2.1]
    exact h
  · intro d
    have h := hv.closed d
    rw [hphase] at h
    dsimp only
    rw [(hcounts d).2.2.1, (hcounts d).2.2.2]
    simp only [isClosed, isNotified, Bool.false_eq_true, if_false, beq_iff_eq, one, notifying,
      Option.map_some, Option.map_none, Option.some.injEq, reduceCtorEq] at h ⊢
    omega
  · exact fun d hd => nomatch hd
  · exact fun d cb' hd => mem_note_of_mem _ (hv.cbClients d cb' hd)
  · rintro d cb' (hd | hd) <;> cases hd
  · exact hv.sound.note (hv.cbLeaving c cb (Or.inr (by rw [hphase]; rfl)))
  · have h := hv.condemned
    rw [hphase] at h
    exact fun d hd => mem_note_of_mem _ (h d hd)
  · have h := hv.listed
    rw [hphase] at h
    exact fun d hd => h d ((mem_note hd).resolve_right fun h => nomatch h)
  · have h := hv.swept
    rw [hphase] at h
    exact fun d hd => h d ((pair_sublist_snoc.mp hd).resolve_right fun h => nomatch h.2)

end Sweep

end Rialto.Ipc.ServerClients

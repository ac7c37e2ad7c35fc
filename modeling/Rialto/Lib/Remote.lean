import Mathlib.Logic.Function.Basic
import Rialto.Lib.OrdMap
import Rialto.Lib.Runs

/-! # Objects at a server

A server makes objects at the request of clients and numbers them in one sequence; a stub at the
client knows the number of its object, and calls the functions of the object with it. The server
records an object under the process of its client, and destroys it when the process goes. A request
may not be sent, may not arrive, or may not be answered; a stub is made by the answer that names its
object, so an object whose answer is lost has no stub.

The functions of an object write variables of the caller, of type `V`. What they do is a parameter,
and so is what becomes of the arguments and the variables on the way (`Interface`), which a
`Protocol` brings about by its messages.

* `Interface.calls`: an object that only one caller has.
* `Inv`: a number is that of one stub, and is recorded under its process only.
* `Inv.step`, `stub_step`, `stub_run`: as long as it is not destroyed, the object of a stub is as if
  no one else had it, whatever is done by other stubs.
* `Protocol.Lawful`, `Protocol.Lawful.stub_stands`: the same over the messages of a protocol. -/

namespace Rialto.Lib.Remote

open Rialto.Lib.OrdMap Rialto.Lib.Runs

variable {C V M : Type*}

/-! ## Calls -/

/-- How far a request gets. -/
inductive Way
  | disconnected
  | lost
  | unanswered
  | answered
  deriving DecidableEq

/-- The request arrives at the server. -/
def Way.arrives : Way → Bool
  | disconnected | lost => false
  | unanswered | answered => true

/-- A call with the variables of the caller. -/
structure Call (C V : Type*) where
  command : C
  vars : V
  way : Way

/-- The functions of an object, which return whether they succeed; what becomes of a call on the way
to the server, the variables that the server calls them with, and what becomes of the variables of
the caller with those of the server. -/
structure Interface (C V M : Type*) where
  run : M → C → V → Bool × V × M
  arrive : C → C
  unset : V
  copy : C → V → V → V

namespace Interface

/-- What a call returns and leaves in the variables, and the object then. The variables change only
if the call succeeds. -/
def call (I : Interface C V M) (m : M) (c : Call C V) : (Bool × V) × M :=
  let done := I.run m (I.arrive c.command) I.unset
  match c.way with
  | .disconnected | .lost => ((false, c.vars), m)
  | .unanswered => ((false, c.vars), done.2.2)
  | .answered => ((done.1, if done.1 then I.copy c.command done.2.1 c.vars else c.vars), done.2.2)

/-- Calls one after the other. -/
def calls (I : Interface C V M) : M → List (Call C V) → List (Bool × V) × M
  | m, [] => ([], m)
  | m, c :: cs =>
    let first := I.call m c
    let rest := calls I first.2 cs
    (first.1 :: rest.1, rest.2)

theorem calls_append (I : Interface C V M) (m : M) (cs ds : List (Call C V)) :
    I.calls m (cs ++ ds) =
      ((I.calls m cs).1 ++ (I.calls (I.calls m cs).2 ds).1, (I.calls (I.calls m cs).2 ds).2) := by
  induction cs generalizing m with
  | nil => rfl
  | cons c cs ih =>
    show (_ :: (I.calls _ (cs ++ ds)).1, (I.calls _ (cs ++ ds)).2) = _
    rw [ih]
    rfl

end Interface

/-! ## Server and stubs -/

/-- The objects by their numbers, how many numbers are given out, the numbers that are recorded
under a process, the stubs with their numbers, and what calls have returned. -/
structure State (V M : Type*) where
  objects : OMap ℤ M
  issued : ℕ
  records : ℕ → List ℤ
  stubs : ℕ → Option ℤ
  returned : List (ℕ × Bool × V)

def init : State V M := ⟨OMap.empty, 0, fun _ => [], fun _ => none, []⟩

/-- A process asks for an object; a number is spent even if none is made. -/
def create (s : State V M) (process i : ℕ) (made : Option M) (way : Way) : State V M :=
  if way.arrives then
    match made with
    | none => { s with issued := s.issued + 1 }
    | some m =>
      { s with
        objects := s.objects.insert s.issued m
        issued := s.issued + 1
        records := Function.update s.records process ((s.issued : ℤ) :: s.records process)
        stubs := if way = .answered then Function.update s.stubs i (some (s.issued : ℤ))
          else s.stubs }
  else s

/-- A stub calls its object. -/
def callStub (I : Interface C V M) (s : State V M) (i : ℕ) (id : ℤ) (c : Call C V) : State V M :=
  match s.objects.find? id with
  | none => { s with returned := s.returned ++ [(i, false, c.vars)] }
  | some m =>
    { s with
      objects := if c.way.arrives then s.objects.insert id (I.call m c).2 else s.objects
      returned := s.returned ++ [(i, (I.call m c).1)] }

/-- A stub goes, and asks for the end of its object. -/
def destroy (s : State V M) (process i : ℕ) (id : ℤ) (way : Way) : State V M :=
  let s := { s with stubs := Function.update s.stubs i none }
  if way.arrives && (s.objects.find? id).isSome then
    { s with
      objects := s.objects.erase id
      records := Function.update s.records process ((s.records process).erase id) }
  else s

/-- A process goes: its objects are destroyed. -/
def disconnect (s : State V M) (process : ℕ) : State V M :=
  { s with
    objects := s.objects.eraseIf fun e => e.1 ∈ s.records process
    records := Function.update s.records process [] }

/-- The server destroys all objects. -/
def clear (s : State V M) : State V M := { s with objects := OMap.empty }

inductive Act (C V M : Type*)
  | create (i : ℕ) (made : Option M) (way : Way)
  | call (i : ℕ) (c : Call C V)
  | destroy (i : ℕ) (way : Way)
  | disconnect (process : ℕ)
  | clear

/-- The stub `i` is one of the process `process i`. -/
def step (I : Interface C V M) (process : ℕ → ℕ) (s : State V M) : Act C V M → Option (State V M)
  | .create i made way =>
    if s.stubs i = none then some (create s (process i) i made way) else none
  | .call i c => (s.stubs i).map fun id => callStub I s i id c
  | .destroy i way => (s.stubs i).map fun id => destroy s (process i) i id way
  | .disconnect p => some (disconnect s p)
  | .clear => some (clear s)

/-! ## Numbers -/

variable {I : Interface C V M} {process : ℕ → ℕ} {s t u : State V M} {i j : ℕ} {id : ℤ}

/-- The numbers of stubs and records have been given out; no two stubs have the same, and a number
is recorded under no other process than that of its stub. -/
structure Inv (process : ℕ → ℕ) (s : State V M) : Prop where
  stub_lt : ∀ i id, s.stubs i = some id → id < s.issued
  stub_inj : ∀ i j id, s.stubs i = some id → s.stubs j = some id → i = j
  record_lt : ∀ p, ∀ id ∈ s.records p, id < s.issued
  record_own : ∀ i p id, s.stubs i = some id → id ∈ s.records p → process i = p

theorem inv_init (process : ℕ → ℕ) : Inv process (init : State V M) :=
  ⟨nofun, nofun, nofun, nofun⟩

/-- Stubs and records may go. -/
theorem Inv.of_subset (h : Inv process s) (hissued : s.issued ≤ t.issued)
    (hstubs : ∀ i id, t.stubs i = some id → s.stubs i = some id)
    (hrecords : ∀ p, ∀ id ∈ t.records p, id ∈ s.records p) : Inv process t := by
  have hcast : (s.issued : ℤ) ≤ t.issued := by omega
  refine ⟨fun i id hi => ?_, fun i j id hi hj => ?_, fun p id hp => ?_, fun i p id hi hp => ?_⟩
  · have hlt := h.stub_lt i id (hstubs i id hi)
    omega
  · exact h.stub_inj i j id (hstubs i id hi) (hstubs j id hj)
  · have hlt := h.record_lt p id (hrecords p id hp)
    omega
  · exact h.record_own i p id (hstubs i id hi) (hrecords p id hp)

/-- What an object that is made adds: a record, and perhaps a stub. -/
theorem create_cases (s : State V M) (p i : ℕ) (made : Option M) (way : Way) :
    s.issued ≤ (create s p i made way).issued ∧
    (∀ j id, (create s p i made way).stubs j = some id → s.stubs j = some id ∨
      j = i ∧ id = s.issued ∧ s.issued < (create s p i made way).issued) ∧
    ∀ q, ∀ id ∈ (create s p i made way).records q, id ∈ s.records q ∨
      q = p ∧ id = s.issued ∧ s.issued < (create s p i made way).issued := by
  unfold create
  by_cases harrives : way.arrives = true
  · rw [if_pos harrives]
    cases made with
    | none => exact ⟨Nat.le_succ _, fun _ _ hj => Or.inl hj, fun _ _ hq => Or.inl hq⟩
    | some m =>
      refine ⟨Nat.le_succ _, fun j id hj => ?_, fun q id hq => ?_⟩
      · have hj' : (if way = .answered then Function.update s.stubs i (some (s.issued : ℤ))
          else s.stubs) j = some id := hj
        split_ifs at hj'
        · by_cases hji : j = i
          · rw [hji, Function.update_self] at hj'
            exact Or.inr ⟨hji, (Option.some.inj hj').symm, Nat.lt_succ_self _⟩
          · rw [Function.update_of_ne hji] at hj'
            exact Or.inl hj'
        · exact Or.inl hj'
      · have hq' : id ∈ Function.update s.records p ((s.issued : ℤ) :: s.records p) q := hq
        by_cases hqp : q = p
        · rw [hqp, Function.update_self] at hq'
          rcases List.mem_cons.mp hq' with hid | hid
          · exact Or.inr ⟨hqp, hid, Nat.lt_succ_self _⟩
          · exact Or.inl (hqp ▸ hid)
        · rw [Function.update_of_ne hqp] at hq'
          exact Or.inl hq'
  · rw [if_neg harrives]
    exact ⟨Nat.le_refl _, fun _ _ hj => Or.inl hj, fun _ _ hq => Or.inl hq⟩

theorem Inv.create (h : Inv process s) (i : ℕ) (made : Option M) (way : Way) :
    Inv process (create s (process i) i made way) := by
  obtain ⟨hissued, hstubs, hrecords⟩ := create_cases s (process i) i made way
  refine ⟨fun j id hj => ?_, fun j k id hj hk => ?_, fun p id hp => ?_, fun j p id hj hp => ?_⟩
  · rcases hstubs j id hj with hj | ⟨-, hid, hlt⟩
    · have hbound := h.stub_lt j id hj
      omega
    · omega
  · rcases hstubs j id hj with hj | ⟨hji, hid, -⟩
    · rcases hstubs k id hk with hk | ⟨-, hid, -⟩
      · exact h.stub_inj j k id hj hk
      · have hbound := h.stub_lt j id hj
        omega
    · rcases hstubs k id hk with hk | ⟨hki, -, -⟩
      · have hbound := h.stub_lt k id hk
        omega
      · exact hji.trans hki.symm
  · rcases hrecords p id hp with hp | ⟨-, hid, hlt⟩
    · have hbound := h.record_lt p id hp
      omega
    · omega
  · rcases hstubs j id hj with hj | ⟨hji, hid, -⟩
    · rcases hrecords p id hp with hp | ⟨-, hid, -⟩
      · exact h.record_own j p id hj hp
      · have hbound := h.stub_lt j id hj
        omega
    · rcases hrecords p id hp with hp | ⟨hpi, -, -⟩
      · have hbound := h.record_lt p id hp
        omega
      · rw [hji, hpi]

/-- The records of one process are cut down. -/
theorem mem_of_mem_update {records : ℕ → List ℤ} {p q : ℕ} {ids : List ℤ}
    (hsub : ∀ id ∈ ids, id ∈ records p) (hid : id ∈ Function.update records p ids q) :
    id ∈ records q :=
  (Function.forall_update_iff records fun q ids => ∀ id ∈ ids, id ∈ records q).mpr
    ⟨hsub, fun _ _ _ hq => hq⟩ q id hid

theorem Inv.callStub (h : Inv process s) (I : Interface C V M) (i : ℕ) (id : ℤ) (c : Call C V) :
    Inv process (callStub I s i id c) := by
  unfold Remote.callStub
  split
  · exact h.of_subset (Nat.le_refl _) (fun _ _ h => h) fun _ _ h => h
  · exact h.of_subset (Nat.le_refl _) (fun _ _ h => h) fun _ _ h => h

theorem Inv.destroy (h : Inv process s) (p i : ℕ) (id : ℤ) (way : Way) :
    Inv process (destroy s p i id way) := by
  have hstubs : ∀ j id', Function.update s.stubs i none j = some id' → s.stubs j = some id' := by
    intro j id' hj
    by_cases hji : j = i
    · rw [hji, Function.update_self] at hj
      cases hj
    · rwa [Function.update_of_ne hji] at hj
  unfold Remote.destroy
  dsimp only
  split_ifs
  · exact h.of_subset (Nat.le_refl _) hstubs fun q id' hq =>
      mem_of_mem_update (fun _ => List.mem_of_mem_erase) hq
  · exact h.of_subset (Nat.le_refl _) hstubs fun _ _ hq => hq

theorem Inv.disconnect (h : Inv process s) (p : ℕ) : Inv process (disconnect s p) :=
  h.of_subset (Nat.le_refl _) (fun _ _ h => h) fun _ _ hq =>
    mem_of_mem_update (fun _ hid => absurd hid List.not_mem_nil) hq

theorem Inv.step (h : Inv process s) {a : Act C V M} (hstep : step I process s a = some t) :
    Inv process t := by
  cases a with
  | create i made way =>
    obtain ⟨-, heq⟩ := Option.ite_none_right_eq_some.mp hstep
    cases heq
    exact h.create i made way
  | call i c =>
    obtain ⟨id, -, rfl⟩ := Option.map_eq_some_iff.mp hstep
    exact h.callStub I i id c
  | destroy i way =>
    obtain ⟨id, -, rfl⟩ := Option.map_eq_some_iff.mp hstep
    exact h.destroy (process i) i id way
  | disconnect p =>
    cases hstep
    exact h.disconnect p
  | clear =>
    cases hstep
    exact h.of_subset (Nat.le_refl _) (fun _ _ h => h) fun _ _ h => h

/-! ## The object of a stub -/

/-- What the stub `i` has returned. -/
def State.returnedBy (s : State V M) (i : ℕ) : List (Bool × V) :=
  (s.returned.filter fun e => e.1 = i).map Prod.snd

/-- The calls of the stub `i`. -/
def Act.callsOf (i : ℕ) : Act C V M → List (Call C V)
  | .call j c => if j = i then [c] else []
  | _ => []

theorem callsOf_self (i : ℕ) (c : Call C V) : (Act.call i c : Act C V M).callsOf i = [c] :=
  if_pos rfl

theorem callsOf_of_ne (h : j ≠ i) (c : Call C V) : (Act.call j c : Act C V M).callsOf i = [] :=
  if_neg h

/-- The object of the stub `i` is not destroyed. -/
def Act.Spares (process : ℕ → ℕ) (i : ℕ) : Act C V M → Prop
  | .destroy j _ => j ≠ i
  | .disconnect p => p ≠ process i
  | .clear => False
  | _ => True

instance (process : ℕ → ℕ) (i : ℕ) : (a : Act C V M) → Decidable (a.Spares process i)
  | .create _ _ _ => isTrue trivial
  | .call _ _ => isTrue trivial
  | .destroy j _ => inferInstanceAs (Decidable (j ≠ i))
  | .disconnect p => inferInstanceAs (Decidable (p ≠ process i))
  | .clear => isFalse nofun

/-- The stub `i` has the object `m`. -/
def Has (s : State V M) (i : ℕ) (m : M) : Prop :=
  ∃ id, s.stubs i = some id ∧ s.objects.find? id = some m

theorem returnedBy_append (s : State V M) (objects : OMap ℤ M) (i j : ℕ) (r : Bool × V) :
    ({ s with objects := objects, returned := s.returned ++ [(j, r)] } : State V M).returnedBy i =
      s.returnedBy i ++ if j = i then [r] else [] := by
  unfold State.returnedBy
  rw [List.filter_append, List.map_append]
  congr 1
  by_cases hji : j = i
  · simp [hji]
  · simp [hji]

theorem call_of_not_arrives (m : M) {c : Call C V} (h : c.way.arrives = false) :
    (I.call m c).2 = m := by
  unfold Interface.call
  cases hway : c.way with
  | disconnected => rfl
  | lost => rfl
  | unanswered => rw [hway] at h; cases h
  | answered => rw [hway] at h; cases h

/-- **What a step does to the object of a stub.** -/
theorem stub_step {m : M} (h : Inv process s) (hm : Has s i m) {a : Act C V M}
    (hspares : a.Spares process i) (hstep : step I process s a = some t) :
    Has t i (I.calls m (a.callsOf i)).2 ∧
    t.returnedBy i = s.returnedBy i ++ (I.calls m (a.callsOf i)).1 := by
  obtain ⟨id, hi, hid⟩ := hm
  cases a with
  | create j made way =>
    obtain ⟨hj, heq⟩ := Option.ite_none_right_eq_some.mp hstep
    cases heq
    have hne : i ≠ j := by
      rintro rfl
      rw [hi] at hj
      cases hj
    unfold create
    by_cases harrives : way.arrives = true
    · rw [if_pos harrives]
      cases made with
      | none => exact ⟨⟨id, hi, hid⟩, (List.append_nil _).symm⟩
      | some m' =>
        refine ⟨⟨id, ?_, ?_⟩, (List.append_nil _).symm⟩
        · dsimp only
          split_ifs
          · rw [Function.update_of_ne hne]
            exact hi
          · exact hi
        · have hlt := h.stub_lt i id hi
          show (s.objects.insert s.issued m').find? id = some m
          rw [OMap.find?_insert, if_neg (by omega)]
          exact hid
    · rw [if_neg harrives]
      exact ⟨⟨id, hi, hid⟩, (List.append_nil _).symm⟩
  | call j c =>
    obtain ⟨id', hj, rfl⟩ := Option.map_eq_some_iff.mp hstep
    by_cases hji : j = i
    · subst hji
      cases hi.symm.trans hj
      unfold callStub
      rw [hid, callsOf_self]
      refine ⟨⟨id, hi, ?_⟩, ?_⟩
      · dsimp only
        split_ifs with harrives
        · rw [OMap.find?_insert, if_pos rfl]
          rfl
        · rw [hid]
          exact congrArg some (call_of_not_arrives m (Bool.eq_false_iff.mpr harrives)).symm
      · rw [returnedBy_append, if_pos rfl]
        rfl
    · have hne : id ≠ id' := by
        rintro rfl
        exact hji (h.stub_inj j i id hj hi)
      unfold callStub
      rw [callsOf_of_ne hji]
      split
      · refine ⟨⟨id, hi, hid⟩, ?_⟩
        rw [returnedBy_append s s.objects, if_neg hji]
        rfl
      · refine ⟨⟨id, hi, ?_⟩, ?_⟩
        · dsimp only
          split_ifs
          · rw [OMap.find?_insert, if_neg hne]
            exact hid
          · exact hid
        · rw [returnedBy_append, if_neg hji]
          rfl
  | destroy j way =>
    obtain ⟨id', hj, rfl⟩ := Option.map_eq_some_iff.mp hstep
    have hne : id ≠ id' := by
      rintro rfl
      exact hspares (h.stub_inj j i id hj hi)
    have hstub : Function.update s.stubs j none i = some id := by
      rw [Function.update_of_ne (Ne.symm hspares)]
      exact hi
    unfold destroy
    dsimp only
    split_ifs
    · refine ⟨⟨id, hstub, ?_⟩, (List.append_nil _).symm⟩
      show (s.objects.erase id').find? id = some m
      rw [OMap.find?_erase, if_neg hne]
      exact hid
    · exact ⟨⟨id, hstub, hid⟩, (List.append_nil _).symm⟩
  | disconnect p =>
    cases hstep
    refine ⟨⟨id, hi, ?_⟩, (List.append_nil _).symm⟩
    show (s.objects.eraseIf _).find? id = some m
    refine OMap.find?_eq_some.mpr (OMap.mem_eraseIf.mpr ⟨OMap.find?_eq_some.mp hid, ?_⟩)
    have hrecord : id ∉ s.records p := fun hp => hspares (h.record_own i p id hi hp).symm
    simpa using hrecord
  | clear => exact hspares.elim

/-- **A stub is as good as the object**, as long as this is not destroyed. -/
theorem stub_run {m : M} {as : List (Act C V M)} (h : Inv process s) (hm : Has s i m)
    (hrun : Run (step I process) (fun _ a => a.Spares process i) s as t) :
    Has t i (I.calls m (as.flatMap (Act.callsOf i))).2 ∧
    t.returnedBy i = s.returnedBy i ++ (I.calls m (as.flatMap (Act.callsOf i))).1 := by
  induction hrun generalizing m with
  | nil s => exact ⟨hm, (List.append_nil _).symm⟩
  | cons hspares hstep rest ih =>
    obtain ⟨hm', hreturned⟩ := stub_step h hm hspares hstep
    obtain ⟨hmt, ht⟩ := ih (h.step hstep) hm'
    rw [List.flatMap_cons, Interface.calls_append]
    refine ⟨hmt, ?_⟩
    rw [ht, hreturned, List.append_assoc]

/-! ## Messages -/

/-- How calls travel: the request of a call, what the server reads from a request, the variables
that it calls the object with, the response, and what the client makes of it, given whether the call
has failed; `empty` is the response while none has come. -/
structure Protocol (C V Q R : Type*) where
  request : ℤ → C → Q
  number : Q → ℤ
  command : Q → Option C
  unset : V
  respond : Bool → V → C → R
  empty : R
  finish : Bool → R → C → V → Bool × V

/-- The object with a number is called; there may be none. -/
def callObject (o : M → C → V → Bool × V × M) (objects : OMap ℤ M) (id : ℤ) (c : C) (vars : V) :
    Bool × V × OMap ℤ M :=
  match objects.find? id with
  | none => (false, vars, objects)
  | some m =>
    let done := o m c vars
    (done.1, done.2.1, objects.insert id done.2.2)

namespace Protocol

variable {Q R : Type*} (P : Protocol C V Q R) (o : M → C → V → Bool × V × M)

/-- One request: whether the call has failed, the response, and the objects. A request may be one
that the server does not survive. -/
def serve (objects : OMap ℤ M) (q : Q) : Option ((Bool × R) × OMap ℤ M) :=
  (P.command q).map fun c =>
    let done := callObject o objects (P.number q) c P.unset
    ((!done.1, P.respond done.1 done.2.1 c), done.2.2)

/-- One call of a stub with a number. -/
def call (objects : OMap ℤ M) (id : ℤ) (c : Call C V) : Option ((Bool × V) × OMap ℤ M) :=
  match c.way with
  | .disconnected => some ((false, c.vars), objects)
  | .lost => some (P.finish true P.empty c.command c.vars, objects)
  | .unanswered =>
    (P.serve o objects (P.request id c.command)).map fun done =>
      (P.finish true P.empty c.command c.vars, done.2)
  | .answered =>
    (P.serve o objects (P.request id c.command)).map fun done =>
      (P.finish done.1.1 done.1.2 c.command c.vars, done.2)

/-- Server and stubs, with calls by messages. -/
def step (process : ℕ → ℕ) (s : State V M) : Act C V M → Option (State V M)
  | .create i made way =>
    if s.stubs i = none then some (create s (process i) i made way) else none
  | .call i c =>
    (s.stubs i).bind fun id =>
      (P.call o s.objects id c).map fun done =>
        { s with objects := done.2, returned := s.returned ++ [(i, done.1)] }
  | .destroy i way => (s.stubs i).map fun id => destroy s (process i) i id way
  | .disconnect p => some (disconnect s p)
  | .clear => some (clear s)

/-- A call arrives at its object as `arrive`; a failure leaves the variables of the caller, a
success makes them `copy`. -/
structure Lawful (arrive : C → C) (copy : C → V → V → V) : Prop where
  number_request : ∀ id c, P.number (P.request id c) = id
  command_request : ∀ id c, P.command (P.request id c) = some (arrive c)
  finish_failed : ∀ r c vars, P.finish true r c vars = (false, vars)
  finish_respond : ∀ c server vars,
    P.finish false (P.respond true server (arrive c)) c vars = (true, copy c server vars)

variable {P} {arrive : C → C} {copy : C → V → V → V}

theorem Lawful.serve_request (h : P.Lawful arrive copy) (objects : OMap ℤ M) (id : ℤ) (c : C) :
    P.serve o objects (P.request id c) =
      let done := callObject o objects id (arrive c) P.unset
      some ((!done.1, P.respond done.1 done.2.1 (arrive c)), done.2.2) := by
  unfold serve
  rw [h.command_request, h.number_request]
  rfl

theorem Lawful.finish_serve (h : P.Lawful arrive copy) (success : Bool) (c : C) (server vars : V) :
    P.finish (!success) (P.respond success server (arrive c)) c vars =
      (success, if success then copy c server vars else vars) := by
  cases success with
  | false => exact h.finish_failed ..
  | true => exact h.finish_respond ..

/-- A call of an object that is there. -/
theorem Lawful.call_eq (h : P.Lawful arrive copy) {objects : OMap ℤ M} {id : ℤ} {m : M}
    (hm : objects.find? id = some m) (c : Call C V) :
    P.call o objects id c = some (((⟨o, arrive, P.unset, copy⟩ : Interface C V M).call m c).1,
      if c.way.arrives then
        objects.insert id ((⟨o, arrive, P.unset, copy⟩ : Interface C V M).call m c).2
      else objects) := by
  have hcall : ∀ c vars, callObject o objects id c vars =
      ((o m c vars).1, (o m c vars).2.1, objects.insert id (o m c vars).2.2) := by
    intro c vars
    unfold callObject
    rw [hm]
  obtain ⟨c, vars, way⟩ := c
  unfold call
  cases way with
  | disconnected => rfl
  | lost =>
    dsimp only
    rw [h.finish_failed]
    rfl
  | unanswered =>
    dsimp only
    rw [h.serve_request, hcall, h.finish_failed]
    rfl
  | answered =>
    dsimp only
    rw [h.serve_request, hcall, Option.map_some]
    dsimp only
    rw [h.finish_serve]
    rfl

/-- The object is gone: the call fails. -/
theorem Lawful.call_of_none (h : P.Lawful arrive copy) {objects : OMap ℤ M} {id : ℤ}
    (hnone : objects.find? id = none) (c : Call C V) :
    P.call o objects id c = some ((false, c.vars), objects) := by
  have hcall : ∀ c vars, callObject o objects id c vars = (false, vars, objects) := by
    intro c vars
    unfold callObject
    rw [hnone]
  obtain ⟨c, vars, way⟩ := c
  unfold call
  cases way with
  | disconnected => rfl
  | lost =>
    dsimp only
    rw [h.finish_failed]
  | unanswered =>
    dsimp only
    rw [h.serve_request, hcall, h.finish_failed]
    rfl
  | answered =>
    dsimp only
    rw [h.serve_request, hcall, Option.map_some]
    dsimp only
    rw [h.finish_serve]
    rfl

/-- The messages do what the interface says. -/
theorem Lawful.step_eq (h : P.Lawful arrive copy) (process : ℕ → ℕ) :
    P.step o process = Remote.step ⟨o, arrive, P.unset, copy⟩ process := by
  funext s a
  cases a with
  | call i c =>
    show (s.stubs i).bind _ = (s.stubs i).map _
    cases s.stubs i with
    | none => rfl
    | some id =>
      show (P.call o s.objects id c).map _ = some (callStub _ s i id c)
      unfold callStub
      cases hm : s.objects.find? id with
      | none =>
        rw [h.call_of_none o hm]
        rfl
      | some m =>
        rw [h.call_eq o hm]
        rfl
  | _ => rfl

/-- **A stub stands for its object**, in every run from the beginning that has brought it one. -/
theorem Lawful.stub_stands (h : P.Lawful arrive copy) {m : M} {before as : List (Act C V M)}
    (hbefore : Run (P.step o process) (fun _ _ => True) init before s) (hm : Has s i m)
    (hrun : Run (P.step o process) (fun _ a => a.Spares process i) s as t) :
    Has t i ((⟨o, arrive, P.unset, copy⟩ : Interface C V M).calls m
      (as.flatMap (Act.callsOf i))).2 ∧
    t.returnedBy i = s.returnedBy i ++ ((⟨o, arrive, P.unset, copy⟩ : Interface C V M).calls m
      (as.flatMap (Act.callsOf i))).1 := by
  rw [h.step_eq] at hbefore hrun
  have hinv : Inv process s := hbefore.invariant (Inv process)
    (fun _ _ _ hs _ hstep => hs.step hstep) (inv_init process)
  exact stub_run hinv hm hrun

end Protocol

end Rialto.Lib.Remote

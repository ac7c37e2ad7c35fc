import Mathlib.Logic.Function.Basic
import Rialto.Lib.Runs

/-! # Who owns a descriptor

A `FileDescriptor` has a descriptor of its own: it duplicates those that it is given, and closes its
own when it is assigned another or destroyed. Besides the objects, other code of the process opens
and closes descriptors, and holds those that an object has released. A step is a member function of
one object, or a descriptor that the other code opens or closes.

* `fcntl`, `State.close`, `State.dup`: what the operating system does.
* `owned_once`: every descriptor that is open is held once, by an object or by the other code; no
  `close` fails, and none is missing.
* `denotes_iff`: an object stands for the file that was assigned to it last, exactly while no
  duplicate is refused and no object is given its own descriptor or moved to itself. -/

namespace Rialto.Ipc.DescriptorOwnership

open Rialto.Lib.Runs
open Function (update)

variable {Name File : Type}

/-! ## The operating system -/

/-- The descriptor that `F_DUPFD_CLOEXEC` takes: the lowest that is free from 3, below the limit. -/
def lowest (limit : ℕ) (table : ℕ → Option File) : Option ℕ :=
  (List.range' 3 (limit - 3)).find? fun fd => (table fd).isNone

/-- `fcntl(fd, F_DUPFD_CLOEXEC, 3)`, which fails for a descriptor that is not open. -/
def fcntl (limit : ℕ) (table : ℕ → Option File) (fd : ℕ) : Option ℕ :=
  if (table fd).isSome then lowest limit table else none

/-- A process: the files that its descriptors are open on, the objects that there are with their
`m_fd` (`none` for a negative number), and the descriptors that other code holds. `meant` is the
file that was assigned to an object last. -/
structure State (Name File : Type) where
  table : ℕ → Option File
  objects : Name → Option (Option ℕ)
  others : ℕ → Bool
  failedCloses : ℕ
  meant : Name → Option File

def init : State Name File := ⟨fun _ => none, fun _ => none, fun _ => false, 0, fun _ => none⟩

/-- `m_fd` of an object. -/
def State.fd (s : State Name File) (o : Name) : Option ℕ := (s.objects o).join

/-- The file that an object stands for. -/
def State.denotes (s : State Name File) (o : Name) : Option File := (s.fd o).bind s.table

/-- `if ((m_fd >= 0) && (::close(m_fd) != 0))` -/
def State.close (s : State Name File) (o : Name) : State Name File :=
  match s.fd o with
  | none => s
  | some fd =>
    if (s.table fd).isSome then { s with table := update s.table fd none }
    else { s with failedCloses := s.failedCloses + 1 }

/-- The duplicate of a descriptor, and none of a negative one. -/
def State.duplicate (limit : ℕ) (s : State Name File) (fd : Option ℕ) : Option ℕ :=
  fd.bind (fcntl limit s.table)

def State.dup (limit : ℕ) (s : State Name File) (fd : Option ℕ) : State Name File :=
  { s with
    table := match s.duplicate limit fd with
      | some new => update s.table new (fd.bind s.table)
      | none => s.table }

/-! ## Owned once -/

variable {limit : ℕ} {s t : State Name File} {o p : Name}

/-- An object that is valid has a descriptor of its own, and every open descriptor is held once. -/
structure Inv (limit : ℕ) (s : State Name File) : Prop where
  owned : ∀ (o : Name) (fd : ℕ), s.fd o = some fd →
    (s.table fd).isSome ∧ s.others fd = false ∧ 3 ≤ fd ∧ fd < limit
  distinct : ∀ (o p : Name) (fd : ℕ), s.fd o = some fd → s.fd p = some fd → o = p
  others : ∀ fd : ℕ, s.others fd = true → (s.table fd).isSome
  covered : ∀ fd : ℕ, (s.table fd).isSome → s.others fd = true ∨ ∃ o : Name, s.fd o = some fd
  closes : s.failedCloses = 0

theorem inv_init : Inv limit (init : State Name File) :=
  ⟨nofun, nofun, nofun, nofun, rfl⟩

/-- Only the descriptors that objects hold matter, not which objects there are. -/
theorem Inv.congr (h : Inv limit s) (htable : t.table = s.table) (hothers : t.others = s.others)
    (hcloses : t.failedCloses = s.failedCloses) (hfd : ∀ p, t.fd p = s.fd p) : Inv limit t := by
  refine ⟨fun p fd hp => ?_, fun p q fd hp hq => ?_, fun fd hf => ?_, fun fd hf => ?_, ?_⟩
  · rw [htable, hothers]
    exact h.owned p fd (by rw [← hfd p]; exact hp)
  · exact h.distinct p q fd (by rw [← hfd p]; exact hp) (by rw [← hfd q]; exact hq)
  · rw [htable]
    exact h.others fd (by rw [← hothers]; exact hf)
  · rw [hothers]
    obtain hf | ⟨p, hp⟩ := h.covered fd (by rw [← htable]; exact hf)
    · exact Or.inl hf
    · exact Or.inr ⟨p, by rw [hfd p]; exact hp⟩
  · rw [hcloses]
    exact h.closes

/-- The descriptor that `fcntl` takes was free. -/
theorem lowest_spec {table : ℕ → Option File} {new : ℕ} (h : lowest limit table = some new) :
    table new = none ∧ 3 ≤ new ∧ new < limit := by
  have hmem := List.mem_of_find?_eq_some h
  have hnone := List.find?_some h
  rw [List.mem_range'_1] at hmem
  exact ⟨by simpa using hnone, by omega, by omega⟩

/-- **Closing**: the descriptor of the object is open, so it is closed. -/
theorem close_eq (h : Inv limit s) : s.close o =
    match s.fd o with
    | none => s
    | some fd => { s with table := update s.table fd none } := by
  unfold State.close
  cases hfd : s.fd o with
  | none => rfl
  | some fd => exact if_pos (h.owned o fd hfd).1

theorem fd_close (s : State Name File) (o p : Name) : (s.close o).fd p = s.fd p := by
  unfold State.close
  split
  · rfl
  · split <;> rfl

theorem inv_openOther (h : Inv limit s) {fd : ℕ} (hfree : (s.table fd).isNone) (file : File) :
    Inv limit { s with
      table := update s.table fd (some file), others := update s.others fd true } := by
  have hnot : ∀ q, s.fd q ≠ some fd := fun q hq => by
    rw [Option.isNone_iff_eq_none] at hfree
    have hopen := (h.owned q fd hq).1
    rw [hfree] at hopen
    cases hopen
  refine ⟨fun q fd' hq => ?_, h.distinct, fun fd' hf => ?_, fun fd' hf => ?_, h.closes⟩
  · have hne : fd' ≠ fd := fun heq => hnot q (heq ▸ hq)
    dsimp only
    rw [Function.update_of_ne hne, Function.update_of_ne hne]
    exact h.owned q fd' hq
  · dsimp only at hf ⊢
    by_cases heq : fd' = fd
    · rw [heq, Function.update_self]
      rfl
    · rw [Function.update_of_ne heq] at hf ⊢
      exact h.others fd' hf
  · dsimp only at hf ⊢
    by_cases heq : fd' = fd
    · exact Or.inl (by rw [heq, Function.update_self])
    · rw [Function.update_of_ne heq] at hf ⊢
      exact h.covered fd' hf

theorem inv_closeOther (h : Inv limit s) {fd : ℕ} (hheld : s.others fd = true) :
    Inv limit { s with
      table := update s.table fd none, others := update s.others fd false } := by
  have hnot : ∀ q, s.fd q ≠ some fd := fun q hq =>
    absurd ((h.owned q fd hq).2.1.symm.trans hheld) Bool.noConfusion
  refine ⟨fun q fd' hq => ?_, h.distinct, fun fd' hf => ?_, fun fd' hf => ?_, h.closes⟩
  · have hne : fd' ≠ fd := fun heq => hnot q (heq ▸ hq)
    dsimp only
    rw [Function.update_of_ne hne, Function.update_of_ne hne]
    exact h.owned q fd' hq
  · dsimp only at hf ⊢
    by_cases heq : fd' = fd
    · rw [heq, Function.update_self] at hf
      cases hf
    · rw [Function.update_of_ne heq] at hf ⊢
      exact h.others fd' hf
  · dsimp only at hf ⊢
    by_cases heq : fd' = fd
    · rw [heq, Function.update_self] at hf
      cases hf
    · rw [Function.update_of_ne heq] at hf ⊢
      exact h.covered fd' hf

/-! ## The member functions -/

variable [DecidableEq Name]

def State.set (s : State Name File) (o : Name) (fd : Option ℕ) : State Name File :=
  { s with objects := update s.objects o (some fd) }

/-- The constructor from a descriptor, and the copy constructor with the descriptor of the other. -/
def construct (limit : ℕ) (s : State Name File) (o : Name) (fd : Option ℕ) : State Name File :=
  (s.dup limit fd).set o (s.duplicate limit fd)

/-- `operator=(FileDescriptor &&other)` -/
def moveAssign (s : State Name File) (o other : Name) : State Name File :=
  let s := s.close o
  let s := s.set o (s.fd other)
  s.set other none

/-- `operator=(const FileDescriptor &other)` -/
def copyAssign (limit : ℕ) (s : State Name File) (o other : Name) : State Name File :=
  if o = other then s
  else
    let s := (s.close o).set o none
    (s.dup limit (s.fd other)).set o (s.duplicate limit (s.fd other))

/-- `reset`; `clear` resets to a negative descriptor. -/
def reset (limit : ℕ) (s : State Name File) (o : Name) (fd : Option ℕ) : State Name File :=
  let s := s.close o
  (s.dup limit fd).set o (s.duplicate limit fd)

/-- `release`: the descriptor is the caller's from then on. -/
def release (s : State Name File) (o : Name) : State Name File :=
  match s.fd o with
  | some fd => { s.set o none with others := update s.others fd true }
  | none => s.set o none

/-- `~FileDescriptor` -/
def destroy (limit : ℕ) (s : State Name File) (o : Name) : State Name File :=
  let s := reset limit s o none
  { s with objects := update s.objects o none }

inductive Act (Name File : Type)
  | construct (o : Name) (fd : Option ℕ)
  | copyConstruct (o other : Name)
  | moveAssign (o other : Name)
  | copyAssign (o other : Name)
  | reset (o : Name) (fd : Option ℕ)
  | release (o : Name)
  | destroy (o : Name)
  | openOther (fd : ℕ) (file : File)
  | closeOther (fd : ℕ)

/-- What a step does; an object is constructed once, before all else and not after its end. -/
def perform (limit : ℕ) (s : State Name File) : Act Name File → Option (State Name File)
  | .construct o fd => if s.objects o = none then some (construct limit s o fd) else none
  | .copyConstruct o other =>
    if s.objects o = none ∧ (s.objects other).isSome then
      some (construct limit s o (s.fd other)) else none
  | .moveAssign o other =>
    if (s.objects o).isSome ∧ (s.objects other).isSome then some (moveAssign s o other) else none
  | .copyAssign o other =>
    if (s.objects o).isSome ∧ (s.objects other).isSome then
      some (copyAssign limit s o other) else none
  | .reset o fd => if (s.objects o).isSome then some (reset limit s o fd) else none
  | .release o => if (s.objects o).isSome then some (release s o) else none
  | .destroy o => if (s.objects o).isSome then some (destroy limit s o) else none
  | .openOther fd file =>
    if (s.table fd).isNone then
      some { s with table := update s.table fd (some file), others := update s.others fd true }
    else none
  | .closeOther fd =>
    if s.others fd then
      some { s with table := update s.table fd none, others := update s.others fd false }
    else none

/-- The files that the objects are meant to stand for after a step. -/
def meaning (s : State Name File) : Act Name File → Name → Option File
  | .construct o fd => update s.meant o (fd.bind s.table)
  | .copyConstruct o other => update s.meant o (s.meant other)
  | .moveAssign o other =>
    if o = other then s.meant else update (update s.meant o (s.meant other)) other none
  | .copyAssign o other => update s.meant o (s.meant other)
  | .reset o fd => update s.meant o (fd.bind s.table)
  | .release o => update s.meant o none
  | .destroy o => update s.meant o none
  | .openOther _ _ => s.meant
  | .closeOther _ => s.meant

def step (limit : ℕ) (s : State Name File) (a : Act Name File) : Option (State Name File) :=
  (perform limit s a).map fun t => { t with meant := meaning s a }

abbrev anyStep (_ : State Name File) (_ : Act Name File) : Prop := True

/-! ## What the functions keep -/

@[simp] theorem fd_set_self (s : State Name File) (o : Name) (fd : Option ℕ) :
    (s.set o fd).fd o = fd := by
  simp [State.fd, State.set]

theorem fd_set_of_ne (s : State Name File) {o p : Name} (h : p ≠ o) (fd : Option ℕ) :
    (s.set o fd).fd p = s.fd p := by
  simp [State.fd, State.set, h]

@[simp] theorem table_set (s : State Name File) (o : Name) (fd : Option ℕ) :
    (s.set o fd).table = s.table := rfl

theorem set_set (s : State Name File) (o : Name) (fd fd' : Option ℕ) :
    (s.set o fd).set o fd' = s.set o fd' := by
  simp [State.set]

/-- An object gives its descriptor back. -/
theorem inv_drop (h : Inv limit s) : Inv limit ((s.close o).set o none) := by
  rw [close_eq h]
  cases hfd : s.fd o with
  | none =>
    refine h.congr rfl rfl rfl fun p => ?_
    by_cases hp : p = o
    · rw [hp, fd_set_self, hfd]
    · exact fd_set_of_ne s hp none
  | some fd =>
    obtain ⟨hopen, hothers, -⟩ := h.owned o fd hfd
    -- no other object has the descriptor
    have hkeeps : ∀ p fd', p ≠ o → s.fd p = some fd' → fd' ≠ fd := fun p fd' hp hp' heq =>
      hp (h.distinct p o fd (heq ▸ hp') hfd)
    have hfdOf : ∀ p fd', (({ s with table := update s.table fd none } :
        State Name File).set o none).fd p = some fd' → p ≠ o ∧ s.fd p = some fd' := by
      intro p fd' hp'
      by_cases hp : p = o
      · rw [hp, fd_set_self] at hp'
        cases hp'
      · rw [fd_set_of_ne _ hp] at hp'
        exact ⟨hp, hp'⟩
    refine ⟨fun p fd' hp' => ?_, fun p q fd' hp' hq' => ?_, fun fd' hf => ?_, fun fd' hf => ?_,
      h.closes⟩
    · obtain ⟨hp, hp'⟩ := hfdOf p fd' hp'
      obtain ⟨hopen', hrest⟩ := h.owned p fd' hp'
      refine ⟨?_, hrest⟩
      show (update s.table fd none fd').isSome
      rw [Function.update_of_ne (hkeeps p fd' hp hp')]
      exact hopen'
    · exact h.distinct p q fd' (hfdOf p fd' hp').2 (hfdOf q fd' hq').2
    · have hne : fd' ≠ fd := fun heq => by
        rw [heq] at hf
        exact absurd (hothers.symm.trans hf) Bool.noConfusion
      show (update s.table fd none fd').isSome
      rw [Function.update_of_ne hne]
      exact h.others fd' hf
    · have hne : fd' ≠ fd := fun heq => by
        rw [heq] at hf
        replace hf : (update s.table fd none fd).isSome := hf
        rw [Function.update_self] at hf
        cases hf
      replace hf : (update s.table fd none fd').isSome := hf
      rw [Function.update_of_ne hne] at hf
      obtain hf | ⟨p, hp'⟩ := h.covered fd' hf
      · exact Or.inl hf
      · have hp : p ≠ o := fun heq => by
          rw [heq, hfd] at hp'
          cases hp'
          exact hne rfl
        exact Or.inr ⟨p, by rw [fd_set_of_ne _ hp]; exact hp'⟩

/-- An object without a descriptor is given a duplicate. -/
theorem inv_give (h : Inv limit s) (hnone : s.fd o = none) (fd : Option ℕ) :
    Inv limit ((s.dup limit fd).set o (s.duplicate limit fd)) := by
  have hsame : Inv limit (s.set o none) := by
    refine h.congr rfl rfl rfl fun p => ?_
    by_cases hp : p = o
    · rw [hp, fd_set_self, hnone]
    · exact fd_set_of_ne s hp none
  unfold State.dup
  cases hdup : s.duplicate limit fd with
  | none => exact hsame
  | some new =>
    obtain ⟨fd, rfl, hfcntl⟩ := Option.bind_eq_some_iff.mp hdup
    unfold fcntl at hfcntl
    split_ifs at hfcntl with hopen
    obtain ⟨hfree, hlow, hhigh⟩ := lowest_spec hfcntl
    have hfdOf : ∀ table p, p ≠ o → (({ s with table := table } :
        State Name File).set o (some new)).fd p = s.fd p := fun _ p hp => fd_set_of_ne _ hp _
    have hnew : ∀ p, s.fd p ≠ some new := fun p hp => by
      have hopen' := (h.owned p new hp).1
      rw [hfree] at hopen'
      cases hopen'
    have hnotOthers : s.others new = false := by
      by_contra htrue
      have hopen' := h.others new (by simpa using htrue)
      rw [hfree] at hopen'
      cases hopen'
    refine ⟨fun p fd' hp' => ?_, fun p q fd' hp' hq' => ?_, fun fd' hf => ?_, fun fd' hf => ?_,
      h.closes⟩
    · by_cases hp : p = o
      · rw [hp, fd_set_self] at hp'
        cases hp'
        refine ⟨?_, hnotOthers, hlow, hhigh⟩
        show (update s.table new (s.table fd) new).isSome
        rw [Function.update_self]
        exact hopen
      · rw [hfdOf _ p hp] at hp'
        obtain ⟨hopen', hrest⟩ := h.owned p fd' hp'
        refine ⟨?_, hrest⟩
        show (update s.table new (s.table fd) fd').isSome
        have hne : fd' ≠ new := fun heq => hnew p (hp'.trans (congrArg some heq))
        rw [Function.update_of_ne hne]
        exact hopen'
    · by_cases hp : p = o <;> by_cases hq : q = o
      · rw [hp, hq]
      · rw [hp, fd_set_self] at hp'
        rw [hfdOf _ q hq, ← hp'] at hq'
        exact absurd hq' (hnew q)
      · rw [hq, fd_set_self] at hq'
        rw [hfdOf _ p hp, ← hq'] at hp'
        exact absurd hp' (hnew p)
      · rw [hfdOf _ p hp] at hp'
        rw [hfdOf _ q hq] at hq'
        exact h.distinct p q fd' hp' hq'
    · show (update s.table new (s.table fd) fd').isSome
      by_cases heq : fd' = new
      · rw [heq, Function.update_self]
        exact hopen
      · rw [Function.update_of_ne heq]
        exact h.others fd' hf
    · by_cases heq : fd' = new
      · exact Or.inr ⟨o, by rw [heq, fd_set_self]⟩
      · replace hf : (update s.table new (s.table fd) fd').isSome := hf
        rw [Function.update_of_ne heq] at hf
        obtain hf | ⟨p, hp'⟩ := h.covered fd' hf
        · exact Or.inl hf
        · have hp : p ≠ o := fun heq' => by
            rw [heq', hnone] at hp'
            cases hp'
          exact Or.inr ⟨p, by rw [hfdOf _ p hp]; exact hp'⟩

/-- A descriptor goes from one object to another. -/
theorem inv_transfer (h : Inv limit s) (hnone : s.fd o = none) (hne : o ≠ p) :
    Inv limit ((s.set o (s.fd p)).set p none) := by
  -- who had the descriptor before
  have hfdOf : ∀ q fd, ((s.set o (s.fd p)).set p none).fd q = some fd →
      q ≠ p ∧ s.fd (if q = o then p else q) = some fd := by
    intro q fd hq
    by_cases hp : q = p
    · rw [hp, fd_set_self] at hq
      cases hq
    · rw [fd_set_of_ne _ hp] at hq
      refine ⟨hp, ?_⟩
      by_cases ho : q = o
      · rw [ho, fd_set_self] at hq
        rw [if_pos ho]
        exact hq
      · rw [fd_set_of_ne _ ho] at hq
        rw [if_neg ho]
        exact hq
  refine ⟨fun q fd hq => h.owned _ fd (hfdOf q fd hq).2, fun q q' fd hq hq' => ?_, h.others,
    fun fd hf => ?_, h.closes⟩
  · obtain ⟨hp, hq⟩ := hfdOf q fd hq
    obtain ⟨hp', hq'⟩ := hfdOf q' fd hq'
    have hsame := h.distinct _ _ fd hq hq'
    by_cases ho : q = o <;> by_cases ho' : q' = o
    · rw [ho, ho']
    · rw [if_pos ho, if_neg ho'] at hsame
      exact absurd hsame.symm hp'
    · rw [if_neg ho, if_pos ho'] at hsame
      exact absurd hsame hp
    · rw [if_neg ho, if_neg ho'] at hsame
      exact hsame
  · obtain hf | ⟨q, hq⟩ := h.covered fd hf
    · exact Or.inl hf
    · refine Or.inr ?_
      have ho : q ≠ o := fun heq => by
        rw [heq, hnone] at hq
        cases hq
      by_cases hp : q = p
      · exact ⟨o, by rw [fd_set_of_ne _ hne, fd_set_self, ← hp, hq]⟩
      · exact ⟨q, by rw [fd_set_of_ne _ hp, fd_set_of_ne _ ho]; exact hq⟩

theorem inv_reset (h : Inv limit s) (fd : Option ℕ) : Inv limit (reset limit s o fd) := by
  have hgive := inv_give (inv_drop h) (fd_set_self (s.close o) o none) fd
  -- the number that was closed is overwritten
  have heq : reset limit s o fd = (((s.close o).set o none).dup limit fd).set o
      (((s.close o).set o none).duplicate limit fd) :=
    (set_set ((s.close o).dup limit fd) o none ((s.close o).duplicate limit fd)).symm
  rw [heq]
  exact hgive

theorem inv_moveAssign (h : Inv limit s) : Inv limit (moveAssign s o p) := by
  unfold moveAssign
  dsimp only
  rw [fd_close]
  by_cases hp : o = p
  · rw [← hp, set_set]
    exact inv_drop h
  · have htransfer := inv_transfer (inv_drop h) (fd_set_self (s.close o) o none) hp
    rw [set_set, fd_set_of_ne _ (Ne.symm hp), fd_close] at htransfer
    exact htransfer

theorem inv_release (h : Inv limit s) : Inv limit (release s o) := by
  unfold release
  cases hfd : s.fd o with
  | none =>
    refine h.congr rfl rfl rfl fun q => ?_
    by_cases hq : q = o
    · rw [hq, fd_set_self, hfd]
    · exact fd_set_of_ne s hq none
  | some fd =>
    have hfdOf : ∀ q fd', (s.set o none).fd q = some fd' → q ≠ o ∧ s.fd q = some fd' := by
      intro q fd' hq
      by_cases ho : q = o
      · rw [ho, fd_set_self] at hq
        cases hq
      · rw [fd_set_of_ne _ ho] at hq
        exact ⟨ho, hq⟩
    refine ⟨fun q fd' hq => ?_, fun q q' fd' hq hq' => ?_, fun fd' hf => ?_, fun fd' hf => ?_,
      h.closes⟩
    · obtain ⟨ho, hq⟩ := hfdOf q fd' hq
      obtain ⟨hopen, hothers, hrange⟩ := h.owned q fd' hq
      have hne : fd' ≠ fd := fun heq => ho (h.distinct q o fd (heq ▸ hq) hfd)
      refine ⟨hopen, ?_, hrange⟩
      show update s.others fd true fd' = false
      rw [Function.update_of_ne hne]
      exact hothers
    · exact h.distinct q q' fd' (hfdOf q fd' hq).2 (hfdOf q' fd' hq').2
    · by_cases heq : fd' = fd
      · rw [heq]
        exact (h.owned o fd hfd).1
      · replace hf : update s.others fd true fd' = true := hf
        rw [Function.update_of_ne heq] at hf
        exact h.others fd' hf
    · by_cases heq : fd' = fd
      · refine Or.inl ?_
        show update s.others fd true fd' = true
        rw [heq, Function.update_self]
      · obtain hf | ⟨q, hq⟩ := h.covered fd' hf
        · refine Or.inl ?_
          show update s.others fd true fd' = true
          rw [Function.update_of_ne heq]
          exact hf
        · have ho : q ≠ o := fun heq' => by
            rw [heq', hfd] at hq
            cases hq
            exact heq rfl
          exact Or.inr ⟨q, by
            show (s.set o none).fd q = some fd'
            rw [fd_set_of_ne _ ho]
            exact hq⟩

theorem inv_construct (h : Inv limit s) (ho : s.objects o = none) (fd : Option ℕ) :
    Inv limit (construct limit s o fd) :=
  inv_give h (by rw [State.fd, ho]; rfl) fd

theorem inv_copyAssign (h : Inv limit s) : Inv limit (copyAssign limit s o p) := by
  unfold copyAssign
  split
  · exact h
  · exact inv_give (inv_drop h) (fd_set_self ..) _

theorem inv_destroy (h : Inv limit s) : Inv limit (destroy limit s o) := by
  refine (inv_reset h none).congr rfl rfl rfl fun q => ?_
  have hreset : (reset limit s o none).fd o = none := fd_set_self ..
  by_cases hq : q = o
  · rw [hq, hreset]
    simp [State.fd, destroy]
  · simp [State.fd, destroy, hq]

theorem inv_perform (h : Inv limit s) {a : Act Name File} (hstep : perform limit s a = some t) :
    Inv limit t := by
  cases a <;> simp only [perform, Option.ite_none_right_eq_some, Option.some.injEq] at hstep <;>
    obtain ⟨hguard, rfl⟩ := hstep
  case construct o fd => exact inv_construct h hguard fd
  case copyConstruct o other => exact inv_construct h hguard.1 _
  case moveAssign o other => exact inv_moveAssign h
  case copyAssign o other => exact inv_copyAssign h
  case reset o fd => exact inv_reset h fd
  case release o => exact inv_release h
  case destroy o => exact inv_destroy h
  case openOther fd file => exact inv_openOther h hguard file
  case closeOther fd => exact inv_closeOther h hguard

theorem step_eq {a : Act Name File} (hstep : step limit s a = some t) :
    ∃ u, perform limit s a = some u ∧ t = { u with meant := meaning s a } := by
  obtain ⟨u, hu, rfl⟩ := Option.map_eq_some_iff.mp hstep
  exact ⟨u, hu, rfl⟩

theorem step_inv (h : Inv limit s) {a : Act Name File} (hstep : step limit s a = some t) :
    Inv limit t := by
  obtain ⟨u, hu, rfl⟩ := step_eq hstep
  exact (inv_perform h hu).congr rfl rfl rfl fun _ => rfl

theorem run_inv {as : List (Act Name File)} (h : Inv limit s)
    (hrun : Run (step limit) anyStep s as t) : Inv limit t :=
  hrun.invariant (Inv limit) (fun _ _ _ hs _ hstep => step_inv hs hstep) h

/-! ## What the objects stand for -/

/-- The file of a duplicate: there is one if a descriptor is free. -/
def copied (limit : ℕ) (table : ℕ → Option File) (fd : Option ℕ) : Option File :=
  if (lowest limit table).isSome then fd.bind table else none

theorem denotes_set (s : State Name File) (o : Name) (fd : Option ℕ) :
    (s.set o fd).denotes = update s.denotes o (fd.bind s.table) := by
  funext q
  by_cases hq : q = o
  · rw [hq, Function.update_self, State.denotes, fd_set_self, table_set]
  · rw [Function.update_of_ne hq, State.denotes, State.denotes, fd_set_of_ne _ hq, table_set]

theorem denotes_drop (h : Inv limit s) :
    ((s.close o).set o none).denotes = update s.denotes o none := by
  rw [denotes_set, Option.bind_none]
  funext q
  by_cases hq : q = o
  · rw [hq, Function.update_self, Function.update_self]
  · rw [Function.update_of_ne hq, Function.update_of_ne hq, State.denotes, State.denotes, fd_close,
      close_eq h]
    cases ho : s.fd o with
    | none => rfl
    | some fd =>
      cases hfd : s.fd q with
      | none => rfl
      | some fd' =>
        have hne : fd' ≠ fd := fun heq => hq (h.distinct q o fd (heq ▸ hfd) ho)
        show update s.table fd none fd' = s.table fd'
        exact Function.update_of_ne hne ..

theorem denotes_give (h : Inv limit s) (fd : Option ℕ) :
    ((s.dup limit fd).set o (s.duplicate limit fd)).denotes =
      update s.denotes o (copied limit s.table fd) := by
  rw [denotes_set]
  unfold State.dup copied
  cases hdup : s.duplicate limit fd with
  | none =>
    have hnone : (if (lowest limit s.table).isSome then fd.bind s.table else none) = none := by
      split_ifs with hroom
      · cases fd with
        | none => rfl
        | some fd =>
          by_contra hopen
          have hisSome : (s.table fd).isSome := Option.isSome_iff_ne_none.mpr hopen
          replace hdup : fcntl limit s.table fd = none := hdup
          unfold fcntl at hdup
          rw [if_pos hisSome] at hdup
          rw [hdup] at hroom
          cases hroom
      · rfl
    rw [hnone]
    rfl
  | some new =>
    obtain ⟨fd, rfl, hfcntl⟩ := Option.bind_eq_some_iff.mp hdup
    unfold fcntl at hfcntl
    split_ifs at hfcntl with hopen
    obtain ⟨hfree, -, -⟩ := lowest_spec hfcntl
    rw [hfcntl]
    funext q
    by_cases hq : q = o
    · rw [hq, Function.update_self, Function.update_self]
      exact Function.update_self ..
    · rw [Function.update_of_ne hq, Function.update_of_ne hq]
      show (s.fd q).bind (update s.table new (s.table fd)) = (s.fd q).bind s.table
      cases hfd : s.fd q with
      | none => rfl
      | some fd' =>
        have hne : fd' ≠ new := fun heq => by
          have hopen' := (h.owned q fd' hfd).1
          rw [heq, hfree] at hopen'
          cases hopen'
        exact Function.update_of_ne hne ..

theorem denotes_reset (h : Inv limit s) (fd : Option ℕ) : (reset limit s o fd).denotes =
    update s.denotes o (copied limit (s.close o).table fd) := by
  have hgive := denotes_give (o := o) (inv_drop (o := o) h) fd
  rw [denotes_drop h, Function.update_idem, table_set] at hgive
  rw [← hgive]
  unfold reset
  exact congrArg State.denotes
    (set_set ((s.close o).dup limit fd) o none ((s.close o).duplicate limit fd)).symm

/-- What the objects stand for after a step. -/
def shown (limit : ℕ) (s : State Name File) : Act Name File → Name → Option File
  | .construct o fd => update s.denotes o (copied limit s.table fd)
  | .copyConstruct o other => update s.denotes o (copied limit s.table (s.fd other))
  | .moveAssign o other =>
    if o = other then update s.denotes o none
    else update (update s.denotes o (s.denotes other)) other none
  | .copyAssign o other =>
    if o = other then s.denotes
    else update s.denotes o (copied limit (s.close o).table (s.fd other))
  | .reset o fd => update s.denotes o (copied limit (s.close o).table fd)
  | .release o => update s.denotes o none
  | .destroy o => update s.denotes o none
  | .openOther _ _ => s.denotes
  | .closeOther _ => s.denotes

theorem denotes_perform (h : Inv limit s) {a : Act Name File} (hstep : perform limit s a = some t) :
    t.denotes = shown limit s a := by
  cases a <;> simp only [perform, Option.ite_none_right_eq_some, Option.some.injEq] at hstep <;>
    obtain ⟨hguard, rfl⟩ := hstep
  case construct o fd => exact denotes_give h fd
  case copyConstruct o other => exact denotes_give h _
  case moveAssign o other =>
    unfold moveAssign shown
    dsimp only
    rw [fd_close]
    split_ifs with ho
    · rw [← ho, set_set, denotes_drop h]
    · have hdrop := congrFun (denotes_drop (o := o) h) other
      rw [Function.update_of_ne (Ne.symm ho), State.denotes, fd_set_of_ne _ (Ne.symm ho),
        fd_close] at hdrop
      rw [denotes_set, ← set_set _ o none, denotes_set, denotes_drop h, Function.update_idem]
      exact congrArg (fun file => update (update s.denotes o file) other none) hdrop
  case copyAssign o other =>
    unfold copyAssign shown
    dsimp only
    split_ifs with ho
    · rfl
    · have hfd : ((s.close o).set o none).fd other = s.fd other := by
        rw [fd_set_of_ne _ (Ne.symm ho), fd_close]
      have hgive := denotes_give (o := o) (inv_drop (o := o) h) (s.fd other)
      rw [denotes_drop h, Function.update_idem, table_set] at hgive
      rw [hfd]
      exact hgive
  case reset o fd => exact denotes_reset h fd
  case release o =>
    unfold release shown
    cases hfd : s.fd o with
    | none => exact denotes_set ..
    | some fd => exact denotes_set s o none
  case destroy o =>
    have hreset := denotes_reset (o := o) h none
    have hnone : copied limit (s.close o).table none = none := by
      unfold copied
      exact ite_self none
    rw [hnone] at hreset
    refine Eq.trans ?_ hreset
    funext q
    have hfd : (destroy limit s o).fd q = (reset limit s o none).fd q := by
      by_cases hq : q = o
      · rw [hq]
        simp [State.fd, destroy, reset, State.set, State.duplicate]
      · simp [State.fd, destroy, hq]
    unfold State.denotes
    rw [hfd]
    rfl
  case openOther fd file =>
    funext q
    show (s.fd q).bind (update s.table fd (some file)) = (s.fd q).bind s.table
    cases hfd : s.fd q with
    | none => rfl
    | some fd' =>
      have hne : fd' ≠ fd := fun heq => by
        have hopen := (h.owned q fd' hfd).1
        rw [heq, Option.isSome_iff_ne_none] at hopen
        exact hopen (Option.isNone_iff_eq_none.mp hguard)
      exact Function.update_of_ne hne ..
  case closeOther fd =>
    funext q
    show (s.fd q).bind (update s.table fd none) = (s.fd q).bind s.table
    cases hfd : s.fd q with
    | none => rfl
    | some fd' =>
      have hne : fd' ≠ fd := fun heq =>
        absurd (hguard.symm.trans (heq ▸ (h.owned q fd' hfd).2.1)) Bool.noConfusion
      exact Function.update_of_ne hne ..

/-- The objects that a step is about. -/
def Act.objects : Act Name File → List Name
  | .construct o _ | .copyConstruct o _ | .copyAssign o _ | .reset o _ | .release o | .destroy o =>
    [o]
  | .moveAssign o other => [o, other]
  | .openOther _ _ | .closeOther _ => []

theorem shown_of_notMem {a : Act Name File} (ho : o ∉ a.objects) :
    shown limit s a o = s.denotes o := by
  cases a <;> simp only [Act.objects, List.mem_cons, List.not_mem_nil, or_false, not_or] at ho <;>
    unfold shown
  case moveAssign q other =>
    dsimp only
    split_ifs
    · exact Function.update_of_ne ho.1 ..
    · rw [Function.update_of_ne ho.2, Function.update_of_ne ho.1]
  case copyAssign q other =>
    dsimp only
    split_ifs
    · rfl
    · exact Function.update_of_ne ho ..
  all_goals first | rfl | exact Function.update_of_ne ho ..

/-- An object stands for the same file as long as no step is about it. -/
theorem run_denotes (h : Inv limit s) {bs : List (Act Name File)}
    (hrun : Run (step limit) anyStep s bs t) (hother : ∀ a ∈ bs, o ∉ a.objects) :
    t.denotes o = s.denotes o := by
  induction hrun with
  | nil s => rfl
  | cons _ hstep rest ih =>
    obtain ⟨u, hu, rfl⟩ := step_eq hstep
    rw [ih (step_inv h hstep) fun a ha => hother a (List.mem_cons_of_mem _ ha)]
    exact (congrFun (denotes_perform h hu) o).trans
      (shown_of_notMem (hother _ (List.mem_cons_self ..)))

/-- **Every descriptor that is open is held once, and no `close` fails**; what other objects and the
other code do to theirs changes nothing of the file that an object stands for. -/
theorem owned_once {as : List (Act Name File)} (h : Run (step limit) anyStep init as s) :
    Inv limit s ∧ ∀ o bs t, Run (step limit) anyStep s bs t → (∀ a ∈ bs, o ∉ a.objects) →
      t.denotes o = s.denotes o :=
  have hs := run_inv inv_init h
  ⟨hs, fun _ _ _ hrun hother => run_denotes hs hrun hother⟩

/-! ## What the objects are meant to stand for -/

/-- A descriptor is free for an object, or its own will be. -/
def room (limit : ℕ) (s : State Name File) (o : Name) : Bool :=
  (s.fd o).isSome || (lowest limit s.table).isSome

/-- The steps after which an object stands for what it was given. -/
def Meets (limit : ℕ) (s : State Name File) : Act Name File → Prop
  | .construct _ fd => fd.bind s.table = none ∨ (lowest limit s.table).isSome
  | .copyConstruct _ other => s.denotes other = none ∨ (lowest limit s.table).isSome
  | .moveAssign o other => o = other → s.fd o = none
  | .copyAssign o other => o = other ∨ s.denotes other = none ∨ room limit s o = true
  | .reset o fd => fd.bind s.table = none ∨ s.fd o ≠ fd ∧ room limit s o = true
  | .release _ | .destroy _ | .openOther _ _ | .closeOther _ => True

omit [DecidableEq Name] in
theorem lowest_close (h : Inv limit s) :
    (lowest limit (s.close o).table).isSome ↔ room limit s o = true := by
  unfold room
  rw [close_eq h]
  cases hfd : s.fd o with
  | none => simp
  | some fd =>
    obtain ⟨-, -, hlow, hhigh⟩ := h.owned o fd hfd
    refine iff_of_true ?_ (by simp)
    unfold lowest
    rw [List.find?_isSome]
    exact ⟨fd, List.mem_range'_1.mpr (by omega), by simp⟩

omit [DecidableEq Name] in
theorem bind_close (h : Inv limit s) (fd : Option ℕ) :
    fd.bind (s.close o).table = if s.fd o = fd then none else fd.bind s.table := by
  rw [close_eq h]
  cases fd with
  | none => exact (ite_self none).symm
  | some fd =>
    cases hfd : s.fd o with
    | none => rfl
    | some own =>
      show update s.table own none fd = _
      by_cases heq : own = fd
      · rw [if_pos (congrArg some heq), heq, Function.update_self]
      · rw [if_neg (fun hsome => heq (Option.some.inj hsome)), Function.update_of_ne (Ne.symm heq)]
        rfl

theorem update_eq_iff {f : Name → Option File} {a b : Option File} :
    update f o a = update f o b ↔ a = b :=
  ⟨fun h => by simpa using congrFun h o, fun h => h ▸ rfl⟩

theorem copied_eq_iff {table : ℕ → Option File} {fd : Option ℕ} :
    copied limit table fd = fd.bind table ↔
      fd.bind table = none ∨ (lowest limit table).isSome := by
  unfold copied
  split_ifs with hroom
  · exact iff_of_true rfl (Or.inr hroom)
  · exact ⟨fun heq => Or.inl heq.symm, fun hor => (hor.resolve_right hroom).symm⟩

/-- **One step**: the objects stand for what they are meant to exactly if it meets the condition. -/
theorem shown_eq_iff (h : Inv limit s) (hmeant : s.denotes = s.meant) (a : Act Name File) :
    shown limit s a = meaning s a ↔ Meets limit s a := by
  have hclose : ∀ (o : Name) (fd : Option ℕ),
      copied limit (s.close o).table fd = fd.bind s.table ↔
        fd.bind s.table = none ∨ s.fd o ≠ fd ∧ room limit s o = true := by
    intro o fd
    unfold copied
    rw [bind_close h]
    by_cases hnone : fd.bind s.table = none
    · simp [hnone]
    · by_cases hroom : room limit s o = true <;> by_cases heq : s.fd o = fd <;>
        simp [lowest_close h, hroom, heq, hnone, Ne.symm hnone]
  cases a <;> unfold shown meaning Meets <;> dsimp only <;> rw [← hmeant]
  case construct o fd => exact update_eq_iff.trans copied_eq_iff
  case copyConstruct o other => exact update_eq_iff.trans copied_eq_iff
  case moveAssign o other =>
    split_ifs with heq
    · have hvalid : s.fd o = none ↔ s.denotes o = none := by
        unfold State.denotes
        cases hfd : s.fd o with
        | none => simp
        | some fd => simpa using Option.isSome_iff_ne_none.mp (h.owned o fd hfd).1
      rw [Function.update_eq_self_iff, hvalid]
      exact ⟨fun hnone _ => hnone.symm, fun hnone => (hnone heq).symm⟩
    · exact iff_of_true rfl fun ho => absurd ho heq
  case copyAssign o other =>
    split_ifs with heq
    · rw [heq, Function.update_eq_self]
      exact iff_of_true rfl (Or.inl rfl)
    · refine update_eq_iff.trans ((hclose o (s.fd other)).trans ?_)
      by_cases hnone : s.denotes other = none
      · exact iff_of_true (Or.inl hnone) (Or.inr (Or.inl hnone))
      · -- two valid objects do not have the same descriptor
        have hne : s.fd o ≠ s.fd other := fun hsame => by
          cases hfd : s.fd other with
          | none => exact hnone (by rw [State.denotes, hfd]; rfl)
          | some fd => exact heq (h.distinct o other fd (hsame.trans hfd) hfd)
        exact ⟨fun hor => Or.inr (hor.imp_right And.right),
          fun hor => (hor.resolve_left heq).imp_right fun hroom => ⟨hne, hroom⟩⟩
  case reset o fd => exact update_eq_iff.trans (hclose o fd)
  all_goals exact iff_of_true rfl trivial

/-- **An object stands for the file that was assigned to it last**, in every state of a run, exactly
if no step leaves an object without a duplicate: there is room for the new descriptor, and no object
is reset to its own or moved to itself. -/
theorem denotes_iff {as : List (Act Name File)} (h : Run (step limit) anyStep init as s) :
    (∀ pre post t, as = pre ++ post → Run (step limit) anyStep init pre t →
      t.denotes = t.meant) ↔
    ∀ a t, Occurs (step limit) anyStep init as a t → Meets limit t a :=
  h.always_iff (Inv limit) (fun t => t.denotes = t.meant) (Meets limit) inv_init
    (fun _ _ _ ht hstep => step_inv ht hstep) rfl fun t a t' ht hmeant hstep => by
      obtain ⟨u, hu, rfl⟩ := step_eq hstep
      show u.denotes = meaning t a ↔ Meets limit t a
      rw [denotes_perform ht hu]
      exact shown_eq_iff ht hmeant a

/-- A descriptor is received, handed to an object, and passed on; the object is then reset to the
number that it holds. -/
def passedOn : List (Act String String) :=
  [.openOther 5 "shm", .construct "message" (some 5), .closeOther 5,
    .copyConstruct "reply" "message", .moveAssign "message" "reply", .reset "message" (some 4)]

theorem owned_once_passedOn : ∃ s, Run (step 16) anyStep init passedOn s ∧ Inv 16 s ∧
    s.fd "message" = none := by
  have hs : Run (step 16) anyStep init passedOn _ := Run.of_runs rfl
  exact ⟨_, hs, (owned_once hs).1, by decide⟩

theorem denotes_iff_passedOn : ¬∀ a t, Occurs (step 16) anyStep init passedOn a t →
    Meets 16 t a := by
  have hs : Run (step 16) anyStep init passedOn _ := Run.of_runs rfl
  rw [← denotes_iff hs]
  intro h
  have hlast := congrFun (h passedOn [] _ (List.append_nil _).symm hs) "message"
  revert hlast
  decide

end Rialto.Ipc.DescriptorOwnership

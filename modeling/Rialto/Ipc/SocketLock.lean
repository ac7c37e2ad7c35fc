import Mathlib.Logic.Function.Basic
import Rialto.Lib.Runs

/-! # The lock of a listening socket

A server that listens at a path takes a lock on a file beside it first, so that no two servers
listen there. `ServerImpl::addSocket` opens the lock file, locks it, removes a socket that a server
before it has left behind, binds and listens; `closeListeningSocket` and the destructor remove the
socket, then the lock file, and give the lock up last. Any number of servers do this at one path, in
any order of their system calls, and any of them may end at any point.

A file at a path is known by its inode: a lock file that was removed can still be open, and locked.
`closeListeningSocket` is also called when the lock was not to be had.

* `Inv`: the locks are those of the servers that have taken one.
* `Safe`: one server at a time relies on the lock file, and a socket that is bound can be reached.
* `one_listens_iff`: `Safe` holds all along a run exactly if no removed lock file is locked and no
  server without a lock removes the socket of one that has bound it.
* `attempt_listens_iff`: when an undisturbed server comes to listen; else the socket is gone. -/

namespace Rialto.Ipc.SocketLock

open Rialto.Lib.Runs

/-! ## Files and servers -/

/-- What is at the path of the socket; its mode may let its owner or its group write. -/
structure SocketFile where
  inode : ℕ
  writable : Bool
  deriving DecidableEq

/-- How far a server is with its `Socket`, with the inodes of its lock file and its socket. A
`closing` one is in `closeListeningSocket` or in the destructor, with its lock if it has one. -/
inductive Phase
  | absent
  | opening
  | opened (lock : ℕ)
  | locked (lock : ℕ)
  | stale (lock : ℕ)
  | binding (lock : ℕ)
  | bound (lock sock : ℕ)
  | listening (lock sock : ℕ)
  | closing (lock : Option ℕ)
  | unlinked (lock : ℕ)
  | released (lock : ℕ)
  deriving DecidableEq

namespace Phase

/-- The lock file that it has locked. -/
def flocked : Phase → Option ℕ
  | absent | opening | opened _ => none
  | locked l | stale l | binding l | bound l _ | listening l _ | unlinked l | released l => some l
  | closing lock => lock

/-- The lock file that it relies on: the one it has locked, until it removes it. -/
def guard : Phase → Option ℕ
  | released _ => none
  | phase => phase.flocked

/-- The socket that it has bound. -/
def sock : Phase → Option ℕ
  | bound _ k | listening _ k => some k
  | _ => none

theorem flocked_of_guard {phase : Phase} {l : ℕ} (h : phase.guard = some l) :
    phase.flocked = some l := by
  cases phase with
  | released l' => cases h
  | _ => exact h

theorem guard_of_sock {phase : Phase} {k : ℕ} (h : phase.sock = some k) :
    ∃ l, phase.guard = some l := by
  cases phase with
  | bound l k' => exact ⟨l, rfl⟩
  | listening l k' => exact ⟨l, rfl⟩
  | _ => cases h

end Phase

/-- The two paths, the locks by inode, and the servers by a number of their own. -/
structure State where
  socket : Option SocketFile
  lockFile : Option ℕ
  flocks : ℕ → Option ℕ
  nextInode : ℕ
  servers : ℕ → Phase

/-- No server is there yet; a socket and a lock file may have been left behind. -/
def init (socket : Option Bool) (lockFile : Bool) : State where
  socket := socket.map fun writable => ⟨0, writable⟩
  lockFile := if lockFile then some 1 else none
  flocks := fun _ => none
  nextInode := 2
  servers := fun _ => .absent

namespace State

def set (s : State) (p : ℕ) (phase : Phase) : State :=
  { s with servers := Function.update s.servers p phase }

@[simp] theorem set_self (s : State) (p : ℕ) (phase : Phase) : (s.set p phase).servers p = phase :=
  Function.update_self ..

@[simp] theorem set_of_ne (s : State) {p q : ℕ} (phase : Phase) (h : q ≠ p) :
    (s.set p phase).servers q = s.servers q :=
  Function.update_of_ne h ..

/-- What is to be shown of all servers when one has moved. -/
theorem forall_set {s : State} {p : ℕ} {phase : Phase} (P : ℕ → Phase → Prop) (hself : P p phase)
    (hother : ∀ q, q ≠ p → P q (s.servers q)) (q : ℕ) : P q ((s.set p phase).servers q) :=
  (Function.forall_update_iff s.servers P).mpr ⟨hself, hother⟩ q

@[simp] theorem set_socket (s : State) (p : ℕ) (phase : Phase) :
    (s.set p phase).socket = s.socket := rfl

@[simp] theorem set_lockFile (s : State) (p : ℕ) (phase : Phase) :
    (s.set p phase).lockFile = s.lockFile := rfl

@[simp] theorem set_flocks (s : State) (p : ℕ) (phase : Phase) :
    (s.set p phase).flocks = s.flocks := rfl

@[simp] theorem set_nextInode (s : State) (p : ℕ) (phase : Phase) :
    (s.set p phase).nextInode = s.nextInode := rfl

/-- Nobody has the lock on an inode any more. -/
def unlock (s : State) (l : ℕ) : State := { s with flocks := Function.update s.flocks l none }

end State

/-! ## System calls -/

/-- One system call of a server, with its outcome where that is not decided by the files; `listen`
stands for all that comes after `bind`. -/
inductive Act
  | socket (p : ℕ)
  | openLock (p : ℕ) (ok : Bool)
  | flock (p : ℕ)
  | stat (p : ℕ) (error : Bool)
  | unlinkStale (p : ℕ)
  | bind (p : ℕ) (ok writable : Bool)
  | listen (p : ℕ) (ok : Bool)
  | close (p : ℕ)
  | unlinkSocket (p : ℕ)
  | unlinkLock (p : ℕ)
  | closeLock (p : ℕ)
  | crash (p : ℕ)
  deriving DecidableEq

/-- `open` with `O_CREAT`. -/
def openLock (s : State) (p : ℕ) : State :=
  match s.lockFile with
  | some l => s.set p (.opened l)
  | none =>
    { s with lockFile := some s.nextInode, nextInode := s.nextInode + 1 }.set p
      (.opened s.nextInode)

/-- `flock` with `LOCK_NB`. -/
def flock (s : State) (p l : ℕ) : State :=
  match s.flocks l with
  | some _ => s.set p (.closing none)
  | none => { s with flocks := Function.update s.flocks l (some p) }.set p (.locked l)

/-- `stat`: a socket that may be written will be removed. -/
def stat (s : State) (p l : ℕ) (error : Bool) : State :=
  if error then (s.unlock l).set p (.closing none)
  else
    match s.socket with
    | some file => s.set p (if file.writable then .stale l else .binding l)
    | none => s.set p (.binding l)

/-- `bind`, which fails where there is a file. -/
def bind (s : State) (p l : ℕ) (ok writable : Bool) : State :=
  if ok && s.socket.isNone then
    { s with socket := some ⟨s.nextInode, writable⟩, nextInode := s.nextInode + 1 }.set p
      (.bound l s.nextInode)
  else s.set p (.closing (some l))

def unlinkSocket (s : State) (p : ℕ) (lock : Option ℕ) : State :=
  { s with socket := none }.set p (lock.elim .absent .unlinked)

/-- The process ends, and its descriptors are closed. -/
def crash (s : State) (p : ℕ) : State :=
  { s with flocks := fun l => if s.flocks l = some p then none else s.flocks l }.set p .absent

def step (s : State) : Act → Option State
  | .socket p => if s.servers p = .absent then some (s.set p .opening) else none
  | .openLock p ok =>
    if s.servers p = .opening then
      some (if ok then openLock s p else s.set p (.closing none))
    else none
  | .flock p =>
    match s.servers p with
    | .opened l => some (flock s p l)
    | _ => none
  | .stat p error =>
    match s.servers p with
    | .locked l => some (stat s p l error)
    | _ => none
  | .unlinkStale p =>
    match s.servers p with
    | .stale l => some ({ s with socket := none }.set p (.binding l))
    | _ => none
  | .bind p ok writable =>
    match s.servers p with
    | .binding l => some (bind s p l ok writable)
    | _ => none
  | .listen p ok =>
    match s.servers p with
    | .bound l k => some (s.set p (if ok then .listening l k else .closing (some l)))
    | _ => none
  | .close p =>
    match s.servers p with
    | .listening l _ => some (s.set p (.closing (some l)))
    | _ => none
  | .unlinkSocket p =>
    match s.servers p with
    | .closing lock => some (unlinkSocket s p lock)
    | _ => none
  | .unlinkLock p =>
    match s.servers p with
    | .unlinked l => some ({ s with lockFile := none }.set p (.released l))
    | _ => none
  | .closeLock p =>
    match s.servers p with
    | .released l => some ((s.unlock l).set p .absent)
    | _ => none
  | .crash p => some (crash s p)

variable {s t u : State} {p : ℕ} {phase : Phase}

/-- What a step can do. -/
inductive Moves (s : State) : Act → State → Prop
  | socket {p : ℕ} (hp : s.servers p = .absent) : Moves s (.socket p) (s.set p .opening)
  | openFails {p : ℕ} (hp : s.servers p = .opening) :
    Moves s (.openLock p false) (s.set p (.closing none))
  | opens {p l : ℕ} (hp : s.servers p = .opening) (hl : s.lockFile = some l) :
    Moves s (.openLock p true) (s.set p (.opened l))
  | creates {p : ℕ} (hp : s.servers p = .opening) (hnone : s.lockFile = none) :
    Moves s (.openLock p true)
      ({ s with lockFile := some s.nextInode, nextInode := s.nextInode + 1 }.set p
        (.opened s.nextInode))
  | refused {p l q : ℕ} (hp : s.servers p = .opened l) (hheld : s.flocks l = some q) :
    Moves s (.flock p) (s.set p (.closing none))
  | locks {p l : ℕ} (hp : s.servers p = .opened l) (hfree : s.flocks l = none) :
    Moves s (.flock p)
      ({ s with flocks := Function.update s.flocks l (some p) }.set p (.locked l))
  | statFails {p l : ℕ} (hp : s.servers p = .locked l) :
    Moves s (.stat p true) ((s.unlock l).set p (.closing none))
  | found {p l : ℕ} {file : SocketFile} (hp : s.servers p = .locked l)
    (hsocket : s.socket = some file ∧ file.writable = true) :
    Moves s (.stat p false) (s.set p (.stale l))
  | noneStale {p l : ℕ} (hp : s.servers p = .locked l)
    (hsocket : ∀ file, s.socket = some file → file.writable = false) :
    Moves s (.stat p false) (s.set p (.binding l))
  | unlinkStale {p l : ℕ} (hp : s.servers p = .stale l) :
    Moves s (.unlinkStale p) ({ s with socket := none }.set p (.binding l))
  | binds {p l : ℕ} (writable : Bool) (hp : s.servers p = .binding l) (hsocket : s.socket = none) :
    Moves s (.bind p true writable)
      ({ s with socket := some ⟨s.nextInode, writable⟩, nextInode := s.nextInode + 1 }.set p
        (.bound l s.nextInode))
  | bindFails {p l : ℕ} {ok writable : Bool} (hp : s.servers p = .binding l)
    (hfails : (ok && s.socket.isNone) = false) :
    Moves s (.bind p ok writable) (s.set p (.closing (some l)))
  | listens {p l k : ℕ} (hp : s.servers p = .bound l k) :
    Moves s (.listen p true) (s.set p (.listening l k))
  | listenFails {p l k : ℕ} (hp : s.servers p = .bound l k) :
    Moves s (.listen p false) (s.set p (.closing (some l)))
  | closes {p l k : ℕ} (hp : s.servers p = .listening l k) :
    Moves s (.close p) (s.set p (.closing (some l)))
  | unlinkSocket {p l : ℕ} (hp : s.servers p = .closing (some l)) :
    Moves s (.unlinkSocket p) ({ s with socket := none }.set p (.unlinked l))
  | unlinkOther {p : ℕ} (hp : s.servers p = .closing none) :
    Moves s (.unlinkSocket p) ({ s with socket := none }.set p .absent)
  | unlinkLock {p l : ℕ} (hp : s.servers p = .unlinked l) :
    Moves s (.unlinkLock p) ({ s with lockFile := none }.set p (.released l))
  | closeLock {p l : ℕ} (hp : s.servers p = .released l) :
    Moves s (.closeLock p) ((s.unlock l).set p .absent)
  | crash (p : ℕ) : Moves s (.crash p) (crash s p)

theorem moves_of_step {a : Act} (hstep : step s a = some t) : Moves s a t := by
  cases a with
  | socket p =>
    obtain ⟨hp, heq⟩ := Option.ite_none_right_eq_some.mp hstep
    cases heq
    exact .socket hp
  | openLock p ok =>
    obtain ⟨hp, heq⟩ := Option.ite_none_right_eq_some.mp hstep
    cases heq
    cases ok with
    | false => exact .openFails hp
    | true =>
      simp only [if_true]
      unfold openLock
      split
      · next l hl => exact .opens hp hl
      · next hnone => exact .creates hp hnone
  | flock p =>
    simp only [step] at hstep
    split at hstep
    · next l hp =>
      cases hstep
      unfold flock
      split
      · next q hheld => exact .refused hp hheld
      · next hfree => exact .locks hp hfree
    · cases hstep
  | stat p error =>
    simp only [step] at hstep
    split at hstep
    · next l hp =>
      cases hstep
      unfold stat
      cases error with
      | true => exact .statFails hp
      | false =>
        simp only [Bool.false_eq_true, if_false]
        split
        · next file hsocket =>
          split_ifs with hwritable
          · exact .found hp ⟨hsocket, hwritable⟩
          · refine .noneStale hp fun file' hfile' => ?_
            rw [hsocket] at hfile'
            cases hfile'
            exact Bool.eq_false_iff.mpr hwritable
        · next hnone => exact .noneStale hp fun file hfile => by rw [hnone] at hfile; cases hfile
    · cases hstep
  | unlinkStale p =>
    simp only [step] at hstep
    split at hstep
    · next l hp =>
      cases hstep
      exact .unlinkStale hp
    · cases hstep
  | bind p ok writable =>
    simp only [step] at hstep
    split at hstep
    · next l hp =>
      cases hstep
      unfold bind
      split_ifs with hfree
      · obtain ⟨rfl, hnone⟩ := Bool.and_eq_true_iff.mp hfree
        exact .binds writable hp (Option.isNone_iff_eq_none.mp hnone)
      · exact .bindFails hp (Bool.eq_false_iff.mpr hfree)
    · cases hstep
  | listen p ok =>
    simp only [step] at hstep
    split at hstep
    · next l k hp =>
      cases hstep
      cases ok with
      | true => exact .listens hp
      | false => exact .listenFails hp
    · cases hstep
  | close p =>
    simp only [step] at hstep
    split at hstep
    · next l k hp =>
      cases hstep
      exact .closes hp
    · cases hstep
  | unlinkSocket p =>
    simp only [step] at hstep
    split at hstep
    · next lock hp =>
      cases hstep
      cases lock with
      | none => exact .unlinkOther hp
      | some l => exact .unlinkSocket hp
    · cases hstep
  | unlinkLock p =>
    simp only [step] at hstep
    split at hstep
    · next l hp =>
      cases hstep
      exact .unlinkLock hp
    · cases hstep
  | closeLock p =>
    simp only [step] at hstep
    split at hstep
    · next l hp =>
      cases hstep
      exact .closeLock hp
    · cases hstep
  | crash p =>
    cases hstep
    exact .crash p

/-! ## Who has the lock -/

/-- A lock is that of the server that has taken it; inodes are not given out twice. -/
structure Inv (s : State) : Prop where
  flocks : ∀ l p, s.flocks l = some p ↔ (s.servers p).flocked = some l
  lockFile_lt : ∀ l, s.lockFile = some l → l < s.nextInode
  opened_lt : ∀ p l, s.servers p = .opened l → l < s.nextInode
  flocked_lt : ∀ p l, (s.servers p).flocked = some l → l < s.nextInode

theorem inv_init (socket : Option Bool) (lockFile : Bool) : Inv (init socket lockFile) := by
  refine ⟨fun l p => ⟨nofun, nofun⟩, fun l h => ?_, nofun, nofun⟩
  have hlock : (if lockFile then some 1 else none) = some l := h
  show l < 2
  split_ifs at hlock
  cases hlock
  omega

section Step

variable (h : Inv s)
include h

/-- A server that keeps the lock it has, or has none, goes on; files may come and go. -/
theorem Inv.move {socket : Option SocketFile} {lockFile : Option ℕ} {n : ℕ}
    (hlock : ∀ l, lockFile = some l → l < n) (hn : s.nextInode ≤ n)
    (hflocked : phase.flocked = (s.servers p).flocked)
    (hopened : ∀ l, phase = .opened l → l < n) :
    Inv ({ s with socket := socket, lockFile := lockFile, nextInode := n }.set p phase) := by
  refine ⟨fun l => State.forall_set (fun q phase => s.flocks l = some q ↔ phase.flocked = some l)
      ?_ fun q _ => h.flocks l q, hlock,
    State.forall_set (fun _ phase => ∀ l, phase = .opened l → l < n) hopened fun q _ l hq =>
      Nat.lt_of_lt_of_le (h.opened_lt q l hq) hn,
    State.forall_set (fun _ phase => ∀ l, phase.flocked = some l → l < n) (fun l hl => ?_)
      fun q _ l hq => Nat.lt_of_lt_of_le (h.flocked_lt q l hq) hn⟩
  · rw [hflocked]
    exact h.flocks l p
  · rw [hflocked] at hl
    exact Nat.lt_of_lt_of_le (h.flocked_lt p l hl) hn

/-- The same without a change of the files. -/
theorem Inv.set (hflocked : phase.flocked = (s.servers p).flocked)
    (hopened : ∀ l, phase ≠ .opened l) : Inv (s.set p phase) :=
  h.move h.lockFile_lt (Nat.le_refl _) hflocked fun l hl => absurd hl (hopened l)

/-- A server takes a free lock on the file that it has opened. -/
theorem Inv.lock {l : ℕ} (hphase : s.servers p = .opened l) (hfree : s.flocks l = none) :
    Inv ({ s with flocks := Function.update s.flocks l (some p) }.set p (.locked l)) := by
  have hnone : ∀ l', s.flocks l' ≠ some p := by
    intro l' hl'
    have hflocked := (h.flocks l' p).mp hl'
    rw [hphase] at hflocked
    cases hflocked
  refine ⟨fun l' => State.forall_set (fun q phase =>
      Function.update s.flocks l (some p) l' = some q ↔ phase.flocked = some l') ?_ fun q hqp => ?_,
    h.lockFile_lt,
    State.forall_set (fun _ phase => ∀ l, phase = .opened l → l < s.nextInode) nofun
      fun q _ => h.opened_lt q,
    State.forall_set (fun _ phase => ∀ l, phase.flocked = some l → l < s.nextInode)
      (fun l' hl' => ?_) fun q _ => h.flocked_lt q⟩
  · by_cases hl : l' = l
    · rw [hl, Function.update_self]
      exact ⟨fun _ => rfl, fun _ => rfl⟩
    · rw [Function.update_of_ne hl]
      exact ⟨fun heq => absurd heq (hnone l'), fun heq => absurd (Option.some.inj heq).symm hl⟩
  · by_cases hl : l' = l
    · rw [hl, Function.update_self]
      refine ⟨fun heq => absurd (Option.some.inj heq).symm hqp, fun heq => ?_⟩
      rw [(h.flocks l q).mpr heq] at hfree
      cases hfree
    · rw [Function.update_of_ne hl]
      exact h.flocks l' q
  · exact Option.some.inj hl' ▸ h.opened_lt p l hphase

/-- A server gives its locks up. -/
theorem Inv.release {flocks : ℕ → Option ℕ}
    (hflocks : ∀ l, flocks l = if s.flocks l = some p then none else s.flocks l)
    (hphase : phase.flocked = none) (hopened : ∀ l, phase ≠ .opened l) :
    Inv ({ s with flocks := flocks }.set p phase) := by
  refine ⟨fun l => State.forall_set (fun q phase => flocks l = some q ↔ phase.flocked = some l)
      ?_ fun q hqp => ?_, h.lockFile_lt,
    State.forall_set (fun _ phase => ∀ l, phase = .opened l → l < s.nextInode)
      (fun l hl => absurd hl (hopened l)) fun q _ => h.opened_lt q,
    State.forall_set (fun _ phase => ∀ l, phase.flocked = some l → l < s.nextInode)
      (fun l hl => ?_) fun q _ => h.flocked_lt q⟩
  · rw [hflocks, hphase]
    split_ifs with hl
    · exact ⟨nofun, nofun⟩
    · exact ⟨fun heq => absurd heq hl, nofun⟩
  · rw [hflocks]
    split_ifs with hl
    · refine ⟨nofun, fun heq => ?_⟩
      rw [(h.flocks l q).mpr heq] at hl
      exact absurd (Option.some.inj hl) hqp
    · exact h.flocks l q
  · rw [hphase] at hl
    cases hl

/-- To unlock the file that a server has locked is to give its locks up. -/
theorem Inv.unlock_eq {l : ℕ} (hl : (s.servers p).flocked = some l) (l' : ℕ) :
    (s.unlock l).flocks l' = if s.flocks l' = some p then none else s.flocks l' := by
  show Function.update s.flocks l none l' = _
  by_cases heq : l' = l
  · rw [heq, Function.update_self, if_pos ((h.flocks l p).mpr hl)]
  · rw [Function.update_of_ne heq, if_neg]
    intro hl'
    have hl'' := (h.flocks l' p).mp hl'
    rw [hl] at hl''
    exact heq (Option.some.inj hl'').symm

end Step

theorem step_inv (h : Inv s) {a : Act} (hstep : step s a = some t) : Inv t := by
  cases moves_of_step hstep with
  | socket hp => exact h.set (by rw [hp]; rfl) nofun
  | openFails hp => exact h.set (by rw [hp]; rfl) nofun
  | opens hp hl =>
    refine h.move h.lockFile_lt (Nat.le_refl _) (by rw [hp]; rfl) fun l' hl' => ?_
    exact Phase.opened.inj hl' ▸ h.lockFile_lt _ hl
  | creates hp hnone =>
    refine h.move (fun l hl => ?_) (Nat.le_succ _) (by rw [hp]; rfl) fun l' hl' => ?_
    · exact Option.some.inj hl ▸ Nat.lt_succ_self _
    · exact Phase.opened.inj hl' ▸ Nat.lt_succ_self _
  | refused hp hheld => exact h.set (by rw [hp]; rfl) nofun
  | locks hp hfree => exact h.lock hp hfree
  | statFails hp => exact h.release (h.unlock_eq (by rw [hp]; rfl)) rfl nofun
  | found hp hsocket => exact h.set (by rw [hp]; rfl) nofun
  | noneStale hp hsocket => exact h.set (by rw [hp]; rfl) nofun
  | unlinkStale hp => exact h.move h.lockFile_lt (Nat.le_refl _) (by rw [hp]; rfl) nofun
  | binds writable hp hsocket =>
    exact h.move (fun l' hl' => Nat.lt_succ_of_lt (h.lockFile_lt l' hl')) (Nat.le_succ _)
      (by rw [hp]; rfl) nofun
  | bindFails hp hfails => exact h.set (by rw [hp]; rfl) nofun
  | listens hp => exact h.set (by rw [hp]; rfl) nofun
  | listenFails hp => exact h.set (by rw [hp]; rfl) nofun
  | closes hp => exact h.set (by rw [hp]; rfl) nofun
  | unlinkSocket hp =>
    exact h.move h.lockFile_lt (Nat.le_refl _) (by rw [hp]; rfl) nofun
  | unlinkOther hp =>
    exact h.move h.lockFile_lt (Nat.le_refl _) (by rw [hp]; rfl) nofun
  | unlinkLock hp => exact h.move nofun (Nat.le_refl _) (by rw [hp]; rfl) nofun
  | closeLock hp => exact h.release (h.unlock_eq (by rw [hp]; rfl)) rfl nofun
  | crash p => exact h.release (fun _ => rfl) rfl nofun

/-! ## One server at a time -/

/-- The lock file of a server is the one at the path, so one server has the lock at a time, and the
socket that it has bound is the one at the path. -/
structure Safe (s : State) : Prop where
  guarded : ∀ p l, (s.servers p).guard = some l → s.lockFile = some l
  unique : ∀ p q l l', (s.servers p).guard = some l → (s.servers q).guard = some l' → p = q
  reachable : ∀ p k, (s.servers p).sock = some k → s.socket.map SocketFile.inode = some k

/-- No removed lock file is locked, and no server without a lock removes a socket that another has
bound. -/
def Good (s : State) : Act → Prop
  | .flock p => ∀ l, s.servers p = .opened l → s.flocks l = none → s.lockFile = some l
  | .unlinkSocket p => s.servers p = .closing none → ∀ q, (s.servers q).sock = none
  | _ => True

theorem safe_init (socket : Option Bool) (lockFile : Bool) : Safe (init socket lockFile) :=
  ⟨nofun, nofun, nofun⟩

/-- As a lock has one owner, it is enough that the locks are on the file at the path. -/
theorem Inv.safe (h : Inv s) (hguarded : ∀ p l, (s.servers p).guard = some l → s.lockFile = some l)
    (hreachable : ∀ p k, (s.servers p).sock = some k → s.socket.map SocketFile.inode = some k) :
    Safe s := by
  refine ⟨hguarded, fun p q l l' hp hq => ?_, hreachable⟩
  have hl : l = l' := by
    have hfile := hguarded p l hp
    rw [hguarded q l' hq] at hfile
    exact (Option.some.inj hfile).symm
  have hpl := (h.flocks l p).mpr (Phase.flocked_of_guard hp)
  rw [hl, (h.flocks l' q).mpr (Phase.flocked_of_guard hq)] at hpl
  exact (Option.some.inj hpl).symm

/-- The same when one server has moved. -/
theorem Inv.safe_of_move (h : Inv t) (ht : t.servers = Function.update s.servers p phase)
    (hguard : ∀ l, phase.guard = some l → t.lockFile = some l)
    (hsock : ∀ k, phase.sock = some k → t.socket.map SocketFile.inode = some k)
    (hguards : ∀ q, q ≠ p → ∀ l, (s.servers q).guard = some l → t.lockFile = some l)
    (hsocks : ∀ q, q ≠ p → ∀ k, (s.servers q).sock = some k →
      t.socket.map SocketFile.inode = some k) : Safe t := by
  refine h.safe ?_ ?_ <;> rw [ht]
  · exact (Function.forall_update_iff s.servers fun _ phase => ∀ l, phase.guard = some l →
      t.lockFile = some l).mpr ⟨hguard, hguards⟩
  · exact (Function.forall_update_iff s.servers fun _ phase => ∀ k, phase.sock = some k →
      t.socket.map SocketFile.inode = some k).mpr ⟨hsock, hsocks⟩

/-- A server that has no lock and takes none may do so while nobody has. -/
theorem Inv.safe_of_none (h : Inv t) (hnone : ∀ q, q ≠ p → (s.servers q).guard = none)
    (ht : t.servers = Function.update s.servers p phase) (hguard : phase.guard = none) :
    Safe t := by
  have hsock : ∀ {phase : Phase}, phase.guard = none → ∀ k, phase.sock ≠ some k := by
    intro phase hphase k hk
    obtain ⟨l, hl⟩ := Phase.guard_of_sock hk
    rw [hphase] at hl
    cases hl
  refine h.safe_of_move ht (fun l hl => ?_) (fun k hk => absurd hk (hsock hguard k))
    (fun q hqp l hl => ?_) fun q hqp k hk => absurd hk (hsock (hnone q hqp) k)
  · rw [hguard] at hl
    cases hl
  · rw [hnone q hqp] at hl
    cases hl

section Step

variable (h : Inv t) (hs : Safe s)
include h hs

/-- A server goes on that takes no lock and binds no socket. -/
theorem Safe.move (ht : t.servers = Function.update s.servers p phase)
    (hlockFile : t.lockFile = s.lockFile) (hsocket : t.socket = s.socket)
    (hguard : ∀ l, phase.guard = some l → (s.servers p).guard = some l)
    (hsock : ∀ k, phase.sock = some k → (s.servers p).sock = some k) : Safe t := by
  refine h.safe_of_move ht ?_ ?_ ?_ ?_ <;> simp only [hlockFile, hsocket]
  · exact fun l hl => hs.guarded p l (hguard l hl)
  · exact fun k hk => hs.reachable p k (hsock k hk)
  · exact fun q _ => hs.guarded q
  · exact fun q _ => hs.reachable q

/-- The server that has the lock may do what it likes to the files. -/
theorem Safe.owner {l : ℕ} (hp : (s.servers p).guard = some l)
    (ht : t.servers = Function.update s.servers p phase)
    (hguard : ∀ l, phase.guard = some l → t.lockFile = some l)
    (hsock : ∀ k, phase.sock = some k → t.socket.map SocketFile.inode = some k) : Safe t := by
  have hother : ∀ q, q ≠ p → ∀ l', (s.servers q).guard ≠ some l' := fun q hqp l' hq =>
    hqp (hs.unique q p l' l hq hp)
  refine h.safe_of_move ht hguard hsock (fun q hqp l' hq => absurd hq (hother q hqp l'))
    fun q hqp k hq => ?_
  obtain ⟨l', hl'⟩ := Phase.guard_of_sock hq
  exact absurd hl' (hother q hqp l')

end Step

/-- **What a step does to safety.** -/
theorem safe_step (h : Inv s) (hs : Safe s) {a : Act} (hstep : step s a = some t) :
    Safe t ↔ Good s a := by
  have ht : Inv t := step_inv h hstep
  cases moves_of_step hstep with
  | socket hp => exact iff_of_true (Safe.move ht hs rfl rfl rfl nofun nofun) trivial
  | openFails hp => exact iff_of_true (Safe.move ht hs rfl rfl rfl nofun nofun) trivial
  | opens hp hl => exact iff_of_true (Safe.move ht hs rfl rfl rfl nofun nofun) trivial
  | creates hp hnone =>
    refine iff_of_true (ht.safe_of_none (fun q _ => ?_) rfl rfl) trivial
    refine Option.eq_none_iff_forall_ne_some.mpr fun l hl => ?_
    rw [hs.guarded q l hl] at hnone
    cases hnone
  | @refused p l q hp hheld =>
    refine iff_of_true (Safe.move ht hs rfl rfl rfl nofun nofun) fun l' hl' hfree => ?_
    rw [hp] at hl'
    cases hl'
    rw [hheld] at hfree
    cases hfree
  | @locks p l hp hfree =>
    constructor
    · intro hsafe l' hl' _
      rw [hp] at hl'
      cases hl'
      exact hsafe.guarded p l (by rw [State.set_self]; rfl)
    · intro hgood
      refine ht.safe_of_move rfl (fun l' hl' => ?_) nofun (fun q _ => hs.guarded q)
        fun q _ => hs.reachable q
      exact Option.some.inj hl' ▸ hgood l hp hfree
  | statFails hp => exact iff_of_true (Safe.move ht hs rfl rfl rfl nofun nofun) trivial
  | found hp hsocket =>
    exact iff_of_true (Safe.move ht hs rfl rfl rfl (fun l hl => by rw [hp]; exact hl) nofun) trivial
  | noneStale hp hsocket =>
    exact iff_of_true (Safe.move ht hs rfl rfl rfl (fun l hl => by rw [hp]; exact hl) nofun) trivial
  | @unlinkStale p l hp =>
    have hguard : (s.servers p).guard = some l := by rw [hp]; rfl
    refine iff_of_true (Safe.owner ht hs hguard rfl (fun l' hl' => ?_) nofun) trivial
    cases hl'
    exact hs.guarded p l hguard
  | @binds p l writable hp hsocket =>
    have hguard : (s.servers p).guard = some l := by rw [hp]; rfl
    refine iff_of_true (Safe.owner ht hs hguard rfl (fun l' hl' => ?_) fun k hk => hk) trivial
    cases hl'
    exact hs.guarded p l hguard
  | bindFails hp hfails =>
    exact iff_of_true (Safe.move ht hs rfl rfl rfl (fun l hl => by rw [hp]; exact hl) nofun) trivial
  | listens hp =>
    exact iff_of_true (Safe.move ht hs rfl rfl rfl (fun l hl => by rw [hp]; exact hl)
      fun k hk => by rw [hp]; exact hk) trivial
  | listenFails hp =>
    exact iff_of_true (Safe.move ht hs rfl rfl rfl (fun l hl => by rw [hp]; exact hl) nofun) trivial
  | closes hp =>
    exact iff_of_true (Safe.move ht hs rfl rfl rfl (fun l hl => by rw [hp]; exact hl) nofun) trivial
  | @unlinkSocket p l hp =>
    have hguard : (s.servers p).guard = some l := by rw [hp]; rfl
    refine iff_of_true (Safe.owner ht hs hguard rfl (fun l' hl' => ?_) nofun) fun hnone => ?_
    · cases hl'
      exact hs.guarded p l hguard
    · rw [hp] at hnone
      cases hnone
  | @unlinkOther p hp =>
    constructor
    · intro hsafe _ q
      refine Option.eq_none_iff_forall_ne_some.mpr fun k hk => ?_
      have hqp : q ≠ p := by
        rintro rfl
        rw [hp] at hk
        cases hk
      have hgone := hsafe.reachable q k (by rw [State.set_of_ne _ _ hqp]; exact hk)
      cases hgone
    · intro hgood
      refine ht.safe_of_move rfl nofun nofun (fun q _ => hs.guarded q) fun q _ k hq => ?_
      have hnone := (hgood hp q).symm.trans hq
      cases hnone
  | @unlinkLock p l hp =>
    exact iff_of_true (Safe.owner ht hs (by rw [hp]; rfl) rfl nofun nofun) trivial
  | closeLock hp => exact iff_of_true (Safe.move ht hs rfl rfl rfl nofun nofun) trivial
  | crash p => exact iff_of_true (Safe.move ht hs rfl rfl rfl nofun nofun) trivial

/-- **When one server at a time listens at the path, and can be reached.** -/
theorem one_listens_iff {socket : Option Bool} {lockFile : Bool} {as : List Act}
    (hrun : Run step (fun _ _ => True) (init socket lockFile) as u) :
    (∀ pre post t, as = pre ++ post →
      Run step (fun _ _ => True) (init socket lockFile) pre t → Safe t) ↔
    ∀ a t, Occurs step (fun _ _ => True) (init socket lockFile) as a t → Good t a :=
  Run.always_iff Inv Safe Good (inv_init socket lockFile)
    (fun _ _ _ ht hstep => step_inv ht hstep) (safe_init socket lockFile)
    (fun _ _ _ ht hs hstep => safe_step ht hs hstep) hrun

/-- A server listens, and a second one comes, which does not get the lock. -/
def secondServer : List Act :=
  [.socket 0, .openLock 0 true, .flock 0, .stat 0 false, .bind 0 true true, .listen 0 true,
    .socket 1, .openLock 1 true, .flock 1]

theorem one_listens_iff_secondServer : ∃ u,
    Run step (fun _ _ => True) (init none false) (secondServer ++ [.unlinkSocket 1]) u ∧
    u.servers 0 = .listening 2 3 ∧ u.socket = none ∧
    ¬ ∀ pre post t, secondServer ++ [.unlinkSocket 1] = pre ++ post →
      Run step (fun _ _ => True) (init none false) pre t → Safe t := by
  have hpre : Run step (fun _ _ => True) (init none false) secondServer _ := Run.of_runs rfl
  have hrun := hpre.append (Run.cons (a := .unlinkSocket 1) trivial rfl (Run.nil _))
  refine ⟨_, hrun, rfl, rfl, fun hall => ?_⟩
  have hgood := (one_listens_iff hrun).mp hall (.unlinkSocket 1) _ (Occurs.last hpre _)
  exact Option.some_ne_none 3 (hgood rfl 0)

/-! ## A server that is left alone -/

theorem step_of_moves {a : Act} (h : Moves s a t) : step s a = some t := by
  cases h with
  | found hp hsocket => simp [step, stat, hp, hsocket.1, hsocket.2]
  | @noneStale p l hp hsocket =>
    cases hfile : s.socket with
    | none => simp [step, stat, hp, hfile]
    | some file => simp [step, stat, hp, hfile, hsocket file hfile]
  | bindFails hp hfails => simp [step, bind, hp, hfails]
  | _ => simp_all [step, openLock, flock, stat, bind, unlinkSocket]

/-- Nobody has the lock of the file at the path. -/
def Free (s : State) : Prop := s.lockFile.bind s.flocks = none

/-- A socket that was left behind may be removed. -/
def Removable (s : State) : Prop := ∀ file, s.socket = some file → file.writable = true

/-- What a server does with the file that it has locked. -/
def attemptLocked (s : State) (p : ℕ) (writable : Bool) : List Act :=
  match s.socket with
  | none => [.bind p true writable, .listen p true]
  | some file =>
    if file.writable then [.unlinkStale p, .bind p true writable, .listen p true]
    else [.bind p true writable, .unlinkSocket p, .unlinkLock p, .closeLock p]

/-- What a server does when nothing comes in between and nothing else fails. -/
def attempt (s : State) (p : ℕ) (writable : Bool) : List Act :=
  [.socket p, .openLock p true, .flock p] ++
    if (s.lockFile.bind s.flocks).isSome then [.unlinkSocket p]
    else .stat p false :: attemptLocked s p writable

theorem Moves.run {a : Act} {as : List Act} (h : Moves s a t)
    (rest : Run step (fun _ _ => True) t as u) : Run step (fun _ _ => True) s (a :: as) u :=
  Run.cons trivial (step_of_moves h) rest

/-- The lock file is opened, which is there then and is locked if it was. -/
theorem run_opened (h : Inv s) (hp : s.servers p = .absent) : ∃ t l,
    Run step (fun _ _ => True) s [.socket p, .openLock p true] t ∧
    t.servers p = .opened l ∧ t.flocks l = s.lockFile.bind s.flocks ∧ t.socket = s.socket := by
  have hsocket : Moves s (.socket p) (s.set p .opening) := .socket hp
  cases hl : s.lockFile with
  | some l =>
    have hopens : Moves (s.set p .opening) (.openLock p true)
        ((s.set p .opening).set p (.opened l)) := .opens (State.set_self ..) hl
    exact ⟨_, l, hsocket.run (hopens.run (Run.nil _)), State.set_self .., rfl, rfl⟩
  | none =>
    have hcreates := Moves.creates (s := s.set p .opening) (p := p) (State.set_self ..) hl
    refine ⟨_, s.nextInode, hsocket.run (hcreates.run (Run.nil _)), State.set_self .., ?_, rfl⟩
    show s.flocks s.nextInode = none
    refine Option.eq_none_iff_forall_ne_some.mpr fun q hq => ?_
    exact Nat.lt_irrefl _ (h.flocked_lt q _ ((h.flocks _ q).mp hq))

theorem run_listening {l : ℕ} (hp : s.servers p = .binding l) (hsocket : s.socket = none)
    (writable : Bool) : ∃ t k,
    Run step (fun _ _ => True) s [.bind p true writable, .listen p true] t ∧
    t.servers p = .listening l k ∧ t.socket = some ⟨k, writable⟩ := by
  have hbind := Moves.binds writable hp hsocket
  have hlisten := Moves.listens (l := l) (k := s.nextInode) (State.set_self
    { s with socket := some ⟨s.nextInode, writable⟩, nextInode := s.nextInode + 1 } p _)
  exact ⟨_, _, hbind.run (hlisten.run (Run.nil _)), State.set_self .., rfl⟩

/-- Where a file is in the way, the server cleans up, and takes the file with it. -/
theorem run_cleanUp {l : ℕ} (hp : s.servers p = .binding l) (hsocket : s.socket ≠ none)
    (writable : Bool) : ∃ t,
    Run step (fun _ _ => True) s
      [.bind p true writable, .unlinkSocket p, .unlinkLock p, .closeLock p] t ∧
    t.servers p = .absent ∧ t.socket = none := by
  have hbind : Moves s (.bind p true writable) (s.set p (.closing (some l))) :=
    .bindFails hp (by simpa [Option.isSome_iff_ne_none] using hsocket)
  have hunlink := Moves.unlinkSocket (l := l) (State.set_self s p (.closing (some l)))
  have hlock := Moves.unlinkLock (l := l)
    (State.set_self { s.set p (.closing (some l)) with socket := none } p (.unlinked l))
  obtain ⟨t, ht⟩ : ∃ t, t = ({ s.set p (.closing (some l)) with socket := none }.set p
    (.unlinked l)) := ⟨_, rfl⟩
  rw [← ht] at hunlink hlock
  have hclose := Moves.closeLock (l := l)
    (State.set_self { t with lockFile := none } p (.released l))
  refine ⟨_, hbind.run (hunlink.run (hlock.run (hclose.run (Run.nil _)))), State.set_self .., ?_⟩
  rw [ht]
  rfl

/-- A server that has locked the lock file comes to listen, or cleans up. -/
theorem run_locked {l : ℕ} (hp : s.servers p = .locked l) (writable : Bool) : ∃ t,
    Run step (fun _ _ => True) s (.stat p false :: attemptLocked s p writable) t ∧
    ((Removable s ∧ ∃ k, t.servers p = .listening l k ∧ t.socket = some ⟨k, writable⟩) ∨
      (¬ Removable s ∧ t.servers p = .absent ∧ t.socket = none)) := by
  unfold attemptLocked
  cases hfile : s.socket with
  | none =>
    have hnone : ∀ file, s.socket ≠ some file := fun file heq => by
      rw [hfile] at heq
      cases heq
    have hstat := Moves.noneStale hp fun file heq => absurd heq (hnone file)
    obtain ⟨t, k, hrun, hlistening, hsocket⟩ :=
      run_listening (s := s.set p (.binding l)) (State.set_self ..) hfile writable
    exact ⟨t, hstat.run hrun, Or.inl ⟨fun file heq => absurd heq (hnone file), k, hlistening,
      hsocket⟩⟩
  | some file =>
    cases hwritable : file.writable with
    | true =>
      have hstat := Moves.found hp ⟨hfile, hwritable⟩
      have hstale := Moves.unlinkStale (l := l) (State.set_self s p (.stale l))
      obtain ⟨t, k, hrun, hlistening, hsocket⟩ :=
        run_listening (s := { s.set p (.stale l) with socket := none }.set p (.binding l))
          (State.set_self ..) rfl writable
      refine ⟨t, hstat.run ?_, Or.inl ⟨fun file' heq => ?_, k, hlistening, hsocket⟩⟩
      · simpa only [hwritable, if_true] using hstale.run hrun
      · rw [hfile] at heq
        cases heq
        exact hwritable
    | false =>
      have hstat := Moves.noneStale hp fun file' heq => by
        rw [hfile] at heq
        cases heq
        exact hwritable
      obtain ⟨t, hrun, habsent, hsocket⟩ := run_cleanUp (s := s.set p (.binding l))
        (State.set_self ..) (by rw [State.set_socket, hfile]; exact Option.some_ne_none _) writable
      refine ⟨t, hstat.run ?_, Or.inr ⟨fun hremovable => ?_, habsent, hsocket⟩⟩
      · simpa only [hwritable, Bool.false_eq_true, if_false] using hrun
      · rw [hremovable file hfile] at hwritable
        cases hwritable

/-- **When a server that is left alone comes to listen**; if it does not, no socket is left at the
path, whichever server has bound the one that was there. -/
theorem attempt_listens_iff {socket : Option Bool} {lockFile : Bool} {as : List Act}
    (hrun : Run step (fun _ _ => True) (init socket lockFile) as s) (hp : s.servers p = .absent)
    (writable : Bool) : ∃ t, Run step (fun _ _ => True) s (attempt s p writable) t ∧
      ((∃ l k, t.servers p = .listening l k ∧ t.socket = some ⟨k, writable⟩) ↔
        Free s ∧ Removable s) ∧
      (¬ (Free s ∧ Removable s) → t.servers p = .absent ∧ t.socket = none) := by
  have h : Inv s := hrun.invariant Inv (fun _ _ _ hs _ hstep => step_inv hs hstep)
    (inv_init socket lockFile)
  obtain ⟨t, l, hopened, hphase, hflocks, hsocket⟩ := run_opened h hp
  unfold attempt
  cases hheld : s.lockFile.bind s.flocks with
  | some q =>
    have hnot : ¬ (Free s ∧ Removable s) := fun hfree => by
      rw [Free, hheld] at hfree
      cases hfree.1
    have hrefused := Moves.refused hphase (hflocks.trans hheld)
    have hunlink := Moves.unlinkOther (State.set_self t p (.closing none))
    refine ⟨_, hopened.append (hrefused.run (hunlink.run (Run.nil _))), ?_, fun _ =>
      ⟨State.set_self .., rfl⟩⟩
    refine iff_of_false ?_ hnot
    rintro ⟨l', k, -, hnone⟩
    cases hnone
  | none =>
    have hlocks := Moves.locks hphase (hflocks.trans hheld)
    obtain ⟨u, hafter, hcases⟩ := run_locked (l := l)
      (State.set_self { t with flocks := Function.update t.flocks l (some p) } p _) writable
    have hsame : attemptLocked s p writable = attemptLocked
        ({ t with flocks := Function.update t.flocks l (some p) }.set p (.locked l)) p
        writable := by
      show _ = attemptLocked _ p writable
      unfold attemptLocked
      rw [State.set_socket, hsocket]
    rw [← hsame] at hafter
    refine ⟨u, hopened.append (hlocks.run hafter), ?_⟩
    have hremovable : Removable ({ t with flocks := Function.update t.flocks l (some p) }.set p
        (.locked l)) ↔ Removable s := by
      unfold Removable
      rw [State.set_socket, hsocket]
    rw [hremovable] at hcases
    rcases hcases with ⟨hyes, k, hlistening, hmade⟩ | ⟨hno, habsent, hgone⟩
    · exact ⟨iff_of_true ⟨l, k, hlistening, hmade⟩ ⟨hheld, hyes⟩,
        fun hnot => absurd ⟨hheld, hyes⟩ hnot⟩
    · refine ⟨iff_of_false ?_ fun hfree => hno hfree.2, fun _ => ⟨habsent, hgone⟩⟩
      rintro ⟨l', k, -, hmade⟩
      rw [hgone] at hmade
      cases hmade

/-- After the crash of a server, whose socket is left behind, another one listens. -/
theorem attempt_listens_iff_afterCrash : ∃ s t,
    Run step (fun _ _ => True) (init none false) (secondServer ++ [.crash 1, .crash 0]) s ∧
    Run step (fun _ _ => True) s (attempt s 5 true) t ∧ s.socket = some ⟨3, true⟩ ∧
    ∃ l k, t.servers 5 = .listening l k ∧ t.socket = some ⟨k, true⟩ := by
  have hrun : Run step (fun _ _ => True) (init none false) (secondServer ++ [.crash 1, .crash 0])
      _ := Run.of_runs rfl
  obtain ⟨t, hattempt, hiff, -⟩ := attempt_listens_iff (p := 5) hrun rfl true
  refine ⟨_, t, hrun, hattempt, rfl, hiff.mpr ⟨rfl, fun file hfile => ?_⟩⟩
  cases hfile
  rfl

end Rialto.Ipc.SocketLock

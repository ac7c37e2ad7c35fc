import Mathlib.Algebra.GroupWithZero.Nat
import Mathlib.Data.List.Pairwise
import Rialto.Lib.OrdMap
import Rialto.Lib.Runs

/-! # The buffer pool of the IPC

`SimpleBufferPool` hands out parts of a static area and reverts to `malloc` when none that is free
is large enough. A pointer that comes back is told by its address.

* `State`: the pool, the blocks that `malloc` gave and the buffers that are in use.
* `Safe`: buffers do not overlap and are large enough, each is recognised for what it is, and what
  is not in use can be used again.
* `pool_safe_iff`: a run is safe exactly when `malloc` never gives a block right behind the static
  area. -/

namespace Rialto.Ipc.BufferPool

open Rialto.Lib.OrdMap Rialto.Lib.Runs

structure BufInfo where
  size : ℕ
  free : Bool
  deriving DecidableEq

@[ext]
structure SimpleBufferPool where
  staticBuf : ℕ
  staticBufSize : ℕ
  staticBufMetaData : OMap ℕ BufInfo

/-- A loop of the constructor: `count` buffers from `p` on. -/
def emplaceBuffers (size : ℕ) : ℕ → ℕ × OMap ℕ BufInfo → ℕ × OMap ℕ BufInfo
  | 0, s => s
  | count + 1, (p, metaData) =>
    emplaceBuffers size count (p + size, metaData.emplace p ⟨size, true⟩)

/-- The constructor; `staticBuf` is the area of 64 kB that `new` gives. -/
def create (staticBuf : ℕ) : SimpleBufferPool where
  staticBuf := staticBuf
  staticBufSize := 64 * 1024
  staticBufMetaData :=
    (emplaceBuffers 32768 1 (emplaceBuffers 16384 1 (emplaceBuffers 4096 2
      (emplaceBuffers 1024 6 (emplaceBuffers 256 8 (staticBuf, OMap.empty)))))).2

/-- `none` where `malloc` is called. -/
def allocateImpl (pool : SimpleBufferPool) (bytes : ℕ) : Option (ℕ × BufInfo) × SimpleBufferPool :=
  match pool.staticBufMetaData.entries.find? fun e => e.2.free && decide (bytes ≤ e.2.size) with
  | some entry => (some entry, { pool with
      staticBufMetaData := pool.staticBufMetaData.insert entry.1 { entry.2 with free := false } })
  | none => (none, pool)

/-- What becomes of a pointer. -/
inductive Release
  | freed
  | marked
  | unknown
  deriving DecidableEq

def deallocate (pool : SimpleBufferPool) (p : ℕ) : Release × SimpleBufferPool :=
  if p < pool.staticBuf ∨ pool.staticBuf + pool.staticBufSize < p then (.freed, pool)
  else
    match pool.staticBufMetaData.find? p with
    | none => (.unknown, pool)
    | some info => (.marked, { pool with
        staticBufMetaData := pool.staticBufMetaData.insert p { info with free := true } })

/-! ## Runs -/

/-- A buffer in use, with the bytes asked for and those that it has. -/
structure Allocation where
  p : ℕ
  bytes : ℕ
  size : ℕ
  fallback : Bool
  deriving DecidableEq

/-- The pool, the blocks of the heap that were not freed with their sizes, and the buffers in
use. -/
structure State where
  pool : SimpleBufferPool
  heap : List (ℕ × ℕ)
  live : List Allocation

def init (staticBuf : ℕ) : State := ⟨create staticBuf, [], []⟩

/-- Two ranges of addresses have no address in common. -/
def Apart (p n q m : ℕ) : Prop := p + n ≤ q ∨ q + m ≤ p

instance (p n q m : ℕ) : Decidable (Apart p n q m) := inferInstanceAs (Decidable (_ ∨ _))

/-- A block that `malloc` can give: it is apart from the static area and from all other blocks. -/
def Fresh (s : State) (q n : ℕ) : Prop :=
  Apart q n s.pool.staticBuf s.pool.staticBufSize ∧ ∀ b ∈ s.heap, Apart q n b.1 b.2

instance (s : State) (q n : ℕ) : Decidable (Fresh s q n) := inferInstanceAs (Decidable (_ ∧ _))

/-- A call, with what `malloc` returns if it is called; `0` is the null pointer. -/
inductive Act
  | allocate (bytes malloc : ℕ)
  | deallocate (p : ℕ)

/-- A block of no bytes is given as one of a byte. What is deallocated is in use or null. -/
def step (s : State) : Act → Option State
  | .allocate bytes malloc =>
    match allocateImpl s.pool bytes with
    | (some (p, info), pool) =>
      some { s with pool := pool, live := ⟨p, bytes, info.size, false⟩ :: s.live }
    | (none, pool) =>
      if malloc = 0 then some { s with pool := pool }
      else if Fresh s malloc (max bytes 1) then
        some ⟨pool, (malloc, max bytes 1) :: s.heap, ⟨malloc, bytes, max bytes 1, true⟩ :: s.live⟩
      else none
  | .deallocate p =>
    if p = 0 ∨ ∃ a ∈ s.live, a.p = p then
      match deallocate s.pool p with
      | (.freed, pool) =>
        some ⟨pool, s.heap.filter fun b => b.1 ≠ p, s.live.filter fun a => a.p ≠ p⟩
      | (_, pool) => some { s with pool := pool, live := s.live.filter fun a => a.p ≠ p }
    else none

/-- What is asked of the pool whose static area is at `staticBuf`. -/
structure Safe (staticBuf : ℕ) (s : State) : Prop where
  apart : s.live.Pairwise fun a b => Apart a.p a.size b.p b.size
  large : ∀ a ∈ s.live, a.bytes ≤ a.size
  recognised : ∀ a ∈ s.live, a.fallback = false → deallocate s.pool a.p = (.marked, { s.pool with
    staticBufMetaData := s.pool.staticBufMetaData.insert a.p ⟨a.size, true⟩ })
  freed : ∀ a ∈ s.live, a.fallback = true → deallocate s.pool a.p = (.freed, s.pool)
  reusable : ∀ e ∈ s.pool.staticBufMetaData.entries,
    e.2.free = true ↔ ∀ a ∈ s.live, a.p ≠ e.1
  restored : s.live = [] → s.pool = create staticBuf

/-- When no free buffer is large enough, `malloc` gives no block right behind the static area. -/
def NotBehind (s : State) : Act → Prop
  | .allocate bytes malloc =>
    (∀ e ∈ s.pool.staticBufMetaData.entries, e.2.free = true → e.2.size < bytes) →
      malloc ≠ s.pool.staticBuf + s.pool.staticBufSize
  | .deallocate _ => True

/-! ## The buffers of the static area -/

/-- Free buffers of the sizes `ns`, one behind the other from `p` on. -/
def placed : ℕ → List ℕ → List (ℕ × BufInfo)
  | _, [] => []
  | p, n :: ns => (p, ⟨n, true⟩) :: placed (p + n) ns

theorem placed_append : ∀ (ns ms : List ℕ) {p : ℕ},
    placed p (ns ++ ms) = placed p ns ++ placed (p + ns.sum) ms
  | [], _, _ => rfl
  | n :: ns, ms, p => by
    rw [List.cons_append, placed, placed, placed_append ns ms, List.sum_cons, Nat.add_assoc]
    rfl

theorem mem_placed : ∀ {ns : List ℕ} {p : ℕ} {e : ℕ × BufInfo}, e ∈ placed p ns →
    p ≤ e.1 ∧ e.1 + e.2.size ≤ p + ns.sum ∧ e.2.size ∈ ns ∧ e.2.free = true
  | n :: ns, p, e, he => by
    rcases List.mem_cons.mp he with rfl | he
    · refine ⟨le_rfl, ?_, List.mem_cons_self, rfl⟩
      show p + n ≤ p + (n :: ns).sum
      rw [List.sum_cons]
      omega
    · obtain ⟨h1, h2, h3, h4⟩ := mem_placed he
      rw [List.sum_cons]
      exact ⟨by omega, by omega, List.mem_cons_of_mem _ h3, h4⟩

theorem placed_apart : ∀ (ns : List ℕ) {p : ℕ},
    (placed p ns).Pairwise fun e f => e.1 + e.2.size ≤ f.1
  | [], _ => List.Pairwise.nil
  | _ :: ns, _ => List.pairwise_cons.mpr ⟨fun _ hf => (mem_placed hf).1, placed_apart ns⟩

/-- What the loops of the constructor have filled. -/
structure Filled (base : ℕ) (ns : List ℕ) (s : ℕ × OMap ℕ BufInfo) : Prop where
  next : s.1 = base + ns.sum
  entries : s.2.entries = placed base ns
  pos : ∀ n ∈ ns, 0 < n

theorem Filled.emplaceBuffers {base size : ℕ} (hsize : 0 < size) : ∀ (count : ℕ) {ns : List ℕ}
    {s : ℕ × OMap ℕ BufInfo}, Filled base ns s →
      Filled base (ns ++ List.replicate count size) (emplaceBuffers size count s)
  | 0, ns, s, h => by
    rw [List.replicate_zero, List.append_nil]
    exact h
  | count + 1, ns, (p, m), h => by
    have hlt : ∀ e ∈ m.entries, e.1 < p := by
      intro e he
      rw [h.entries] at he
      obtain ⟨-, hend, hmem, -⟩ := mem_placed he
      have hpos := h.pos _ hmem
      have hp : p = base + ns.sum := h.next
      omega
    have hone : Filled base (ns ++ [size]) (p + size, m.emplace p ⟨size, true⟩) := by
      refine ⟨?_, ?_, fun n hn => ?_⟩
      · have hp : p = base + ns.sum := h.next
        rw [List.sum_append, List.sum_singleton, hp, Nat.add_assoc]
      · have hp : p = base + ns.sum := h.next
        rw [OMap.entries_emplace_of_lt hlt, h.entries, placed_append, hp]
        rfl
      · rcases List.mem_append.mp hn with hn | hn
        · exact h.pos n hn
        · rw [List.mem_singleton.mp hn]
          exact hsize
    have hrest := hone.emplaceBuffers hsize count
    rw [List.append_assoc, List.singleton_append, ← List.replicate_succ] at hrest
    exact hrest

/-- The sizes of the buffers. -/
def bufSizes : List ℕ :=
  List.replicate 8 256 ++ List.replicate 6 1024 ++ List.replicate 2 4096 ++
    List.replicate 1 16384 ++ List.replicate 1 32768

theorem filled_create (base : ℕ) : Filled base bufSizes
    (emplaceBuffers 32768 1 (emplaceBuffers 16384 1 (emplaceBuffers 4096 2
      (emplaceBuffers 1024 6 (emplaceBuffers 256 8 (base, OMap.empty)))))) := by
  have hempty : Filled base [] (base, OMap.empty) := ⟨rfl, rfl, fun n hn => nomatch hn⟩
  exact ((((hempty.emplaceBuffers (by decide) 8).emplaceBuffers (by decide) 6).emplaceBuffers
    (by decide) 2).emplaceBuffers (by decide) 1).emplaceBuffers (by decide) 1

theorem entries_create (base : ℕ) :
    (create base).staticBufMetaData.entries = placed base bufSizes :=
  (filled_create base).entries

/-- Where the buffers are and how large. -/
def extents (m : OMap ℕ BufInfo) : List (ℕ × ℕ) := m.entries.map fun e => (e.1, e.2.size)

def area (base : ℕ) : List (ℕ × ℕ) := extents (create base).staticBufMetaData

theorem mem_area {base : ℕ} {x : ℕ × ℕ} (hx : x ∈ area base) :
    base ≤ x.1 ∧ x.1 + x.2 ≤ base + 65536 ∧ 0 < x.2 := by
  unfold area extents at hx
  rw [entries_create] at hx
  obtain ⟨e, he, rfl⟩ := List.mem_map.mp hx
  obtain ⟨h1, h2, h3, -⟩ := mem_placed he
  exact ⟨h1, h2, (filled_create base).pos _ h3⟩

theorem area_apart (base : ℕ) : (area base).Pairwise fun x y => x.1 + x.2 ≤ y.1 := by
  unfold area extents
  rw [entries_create]
  exact (placed_apart bufSizes).map _ fun _ _ h => h

theorem apart_of_mem {l : List (ℕ × ℕ)} (h : l.Pairwise fun x y => Apart x.1 x.2 y.1 y.2)
    {x y : ℕ × ℕ} (hx : x ∈ l) (hy : y ∈ l) (hne : x.1 ≠ y.1) : Apart x.1 x.2 y.1 y.2 := by
  have hsymm : Std.Symm fun x y : ℕ × ℕ => Apart x.1 x.2 y.1 y.2 := ⟨fun _ _ h => Or.symm h⟩
  exact h.forall hx hy fun heq => hne (congrArg Prod.fst heq)

theorem mem_extents {m : OMap ℕ BufInfo} {p n : ℕ} :
    (p, n) ∈ extents m ↔ ∃ info, m.find? p = some info ∧ info.size = n := by
  unfold extents
  rw [List.mem_map]
  constructor
  · rintro ⟨⟨q, info⟩, he, heq⟩
    cases heq
    exact ⟨info, OMap.find?_eq_some.mpr he, rfl⟩
  · rintro ⟨info, hinfo, rfl⟩
    exact ⟨(p, info), OMap.find?_eq_some.mp hinfo, rfl⟩

theorem extents_insert {m : OMap ℕ BufInfo} {p : ℕ} {info : BufInfo} (h : m.find? p = some info)
    (free : Bool) : extents (m.insert p { info with free := free }) = extents m :=
  OMap.map_insert_of_find? h rfl

/-- A map with all buffers free is known by its extents. -/
theorem entries_of_free {m : OMap ℕ BufInfo} (h : ∀ e ∈ m.entries, e.2.free = true) :
    m.entries = (extents m).map fun x => (x.1, ⟨x.2, true⟩) := by
  unfold extents
  rw [List.map_map]
  refine ((List.map_congr_left fun e he => ?_).trans (List.map_id _)).symm
  rcases hinfo : e with ⟨p, ⟨n, free⟩⟩
  have hfree := h e he
  rw [hinfo] at hfree
  rw [show free = true from hfree]
  rfl

/-! ## The invariant -/

/-- `p` is not taken for a pointer into the static area. -/
def Outside (pool : SimpleBufferPool) (p : ℕ) : Prop :=
  p < pool.staticBuf ∨ pool.staticBuf + pool.staticBufSize < p

section states

variable {base : ℕ} {s s' : State}

/-- What a call does. -/
theorem step_cases {a : Act} (h : step s a = some s') :
    (∃ bytes malloc p info, a = .allocate bytes malloc ∧
      s.pool.staticBufMetaData.find? p = some info ∧ info.free = true ∧ bytes ≤ info.size ∧
      s' = { s with
        pool := { s.pool with
          staticBufMetaData := s.pool.staticBufMetaData.insert p { info with free := false } }
        live := ⟨p, bytes, info.size, false⟩ :: s.live }) ∨
    (∃ bytes, a = .allocate bytes 0 ∧ s' = s) ∨
    (∃ bytes q, a = .allocate bytes q ∧ q ≠ 0 ∧
      (∀ e ∈ s.pool.staticBufMetaData.entries, e.2.free = true → e.2.size < bytes) ∧
      Fresh s q (max bytes 1) ∧
      s' = ⟨s.pool, (q, max bytes 1) :: s.heap, ⟨q, bytes, max bytes 1, true⟩ :: s.live⟩) ∨
    (∃ p, a = .deallocate p ∧ Outside s.pool p ∧
      s' = ⟨s.pool, s.heap.filter fun b => b.1 ≠ p, s.live.filter fun a => a.p ≠ p⟩) ∨
    (∃ p info, a = .deallocate p ∧ s.pool.staticBufMetaData.find? p = some info ∧
      s' = { s with
        pool := { s.pool with
          staticBufMetaData := s.pool.staticBufMetaData.insert p { info with free := true } }
        live := s.live.filter fun a => a.p ≠ p }) ∨
    (∃ p, a = .deallocate p ∧ s.pool.staticBufMetaData.find? p = none ∧
      s' = { s with live := s.live.filter fun a => a.p ≠ p }) := by
  cases a with
  | allocate bytes malloc =>
    simp only [step, allocateImpl] at h
    rcases hfind : s.pool.staticBufMetaData.entries.find? fun e =>
        e.2.free && decide (bytes ≤ e.2.size) with _ | ⟨p, info⟩
    · have hfull : ∀ e ∈ s.pool.staticBufMetaData.entries, e.2.free = true → e.2.size < bytes := by
        intro e he hfree
        have hno := List.find?_eq_none.mp hfind e he
        simpa [hfree] using hno
      rw [hfind] at h
      dsimp only at h
      split_ifs at h with h0 hfresh
      · subst h0
        cases h
        exact Or.inr (Or.inl ⟨bytes, rfl, rfl⟩)
      · cases h
        exact Or.inr (Or.inr (Or.inl ⟨bytes, malloc, rfl, h0, hfull, hfresh, rfl⟩))
    · have hmem := List.mem_of_find?_eq_some hfind
      have hgood := List.find?_some hfind
      simp only [Bool.and_eq_true, decide_eq_true_eq] at hgood
      rw [hfind] at h
      cases h
      exact Or.inl ⟨bytes, malloc, p, info, rfl, OMap.find?_eq_some.mpr hmem, hgood.1, hgood.2, rfl⟩
  | deallocate p =>
    simp only [step, deallocate] at h
    split_ifs at h with hp hout
    · cases h
      exact Or.inr (Or.inr (Or.inr (Or.inl ⟨p, rfl, hout, rfl⟩)))
    · rcases hfind : s.pool.staticBufMetaData.find? p with _ | info
      · rw [hfind] at h
        cases h
        exact Or.inr (Or.inr (Or.inr (Or.inr (Or.inr ⟨p, rfl, hfind, rfl⟩))))
      · rw [hfind] at h
        cases h
        exact Or.inr (Or.inr (Or.inr (Or.inr (Or.inl ⟨p, info, rfl, hfind, rfl⟩))))

/-- The bookkeeping, which holds in every run. -/
structure Inv (base : ℕ) (s : State) : Prop where
  staticBuf : s.pool.staticBuf = base
  staticBufSize : s.pool.staticBufSize = 65536
  extents : extents s.pool.staticBufMetaData = area base
  free : ∀ e ∈ s.pool.staticBufMetaData.entries, e.2.free = true ↔ ∀ a ∈ s.live, a.p ≠ e.1
  inPool : ∀ a ∈ s.live, a.fallback = false → (a.p, a.size) ∈ area base
  inHeap : ∀ a ∈ s.live, a.fallback = true → (a.p, a.size) ∈ s.heap
  heap : s.heap.Pairwise fun x y => Apart x.1 x.2 y.1 y.2
  heapArea : ∀ b ∈ s.heap, Apart b.1 b.2 base 65536 ∧ 0 < b.2
  distinct : s.live.Pairwise fun a b => a.p ≠ b.p
  large : ∀ a ∈ s.live, a.bytes ≤ a.size

theorem Inv.mem_area (hinv : Inv base s) {p : ℕ} {info : BufInfo}
    (h : s.pool.staticBufMetaData.find? p = some info) : (p, info.size) ∈ area base := by
  rw [← hinv.extents]
  exact mem_extents.mpr ⟨info, h, rfl⟩

theorem Inv.entry_mem_area (hinv : Inv base s) {e : ℕ × BufInfo}
    (he : e ∈ s.pool.staticBufMetaData.entries) : (e.1, e.2.size) ∈ area base :=
  hinv.mem_area (OMap.find?_eq_some.mpr he)

/-- A pointer outside is none of the buffers. -/
theorem Inv.ne_of_outside (hinv : Inv base s) {p : ℕ} (hp : Outside s.pool p) {e : ℕ × BufInfo}
    (he : e ∈ s.pool.staticBufMetaData.entries) : e.1 ≠ p := by
  obtain ⟨h1, h2, h3⟩ := BufferPool.mem_area (hinv.entry_mem_area he)
  unfold Outside at hp
  rw [hinv.staticBuf, hinv.staticBufSize] at hp
  dsimp only at h1 h2 h3
  omega

theorem inv_init (base : ℕ) : Inv base (init base) where
  staticBuf := rfl
  staticBufSize := rfl
  extents := rfl
  free := by
    intro e he
    have he' : e ∈ placed base bufSizes := by
      rw [← entries_create]
      exact he
    exact iff_of_true (mem_placed he').2.2.2 fun a ha => nomatch ha
  inPool := fun a ha => nomatch ha
  inHeap := fun a ha => nomatch ha
  heap := List.Pairwise.nil
  heapArea := fun b hb => nomatch hb
  distinct := List.Pairwise.nil
  large := fun a ha => nomatch ha

/-- A buffer of the static area is handed out. -/
theorem Inv.allocate (hinv : Inv base s) {p bytes : ℕ} {info : BufInfo}
    (hfind : s.pool.staticBufMetaData.find? p = some info) (hfree : info.free = true)
    (hlarge : bytes ≤ info.size) :
    Inv base { s with
      pool := { s.pool with
        staticBufMetaData := s.pool.staticBufMetaData.insert p { info with free := false } }
      live := ⟨p, bytes, info.size, false⟩ :: s.live } where
  staticBuf := hinv.staticBuf
  staticBufSize := hinv.staticBufSize
  extents := (extents_insert hfind false).trans hinv.extents
  free := by
    intro e he
    rcases OMap.mem_insert.mp he with rfl | ⟨he, hne⟩
    · refine iff_of_false (by simp) fun h => ?_
      exact h _ List.mem_cons_self rfl
    · rw [hinv.free e he, List.forall_mem_cons]
      exact (and_iff_right hne.symm).symm
  inPool := by
    rw [List.forall_mem_cons]
    exact ⟨fun _ => hinv.mem_area hfind, hinv.inPool⟩
  inHeap := by
    rw [List.forall_mem_cons]
    exact ⟨(nomatch ·), hinv.inHeap⟩
  heap := hinv.heap
  heapArea := hinv.heapArea
  distinct := by
    refine List.pairwise_cons.mpr ⟨fun a ha => ?_, hinv.distinct⟩
    exact ((hinv.free _ (OMap.find?_eq_some.mp hfind)).mp hfree a ha).symm
  large := by
    rw [List.forall_mem_cons]
    exact ⟨hlarge, hinv.large⟩

/-- A fresh block is none of the buffers in use. -/
theorem Inv.ne_of_fresh (hinv : Inv base s) {q n : ℕ} (hn : 0 < n) (hfresh : Fresh s q n) :
    ∀ a ∈ s.live, q ≠ a.p := by
  intro a ha
  obtain ⟨harea, hheap⟩ := hfresh
  cases hf : a.fallback with
  | false =>
    obtain ⟨h1, h2, h3⟩ := BufferPool.mem_area (hinv.inPool a ha hf)
    unfold Apart at harea
    rw [hinv.staticBuf, hinv.staticBufSize] at harea
    dsimp only at h1 h2 h3
    omega
  | true =>
    have hmem := hinv.inHeap a ha hf
    have hpos := (hinv.heapArea _ hmem).2
    have hap := hheap _ hmem
    unfold Apart at hap
    dsimp only at hpos hap
    omega

/-- A block of the heap is handed out. -/
theorem Inv.revert (hinv : Inv base s) {q bytes : ℕ} (hfresh : Fresh s q (max bytes 1)) :
    Inv base
      ⟨s.pool, (q, max bytes 1) :: s.heap, ⟨q, bytes, max bytes 1, true⟩ :: s.live⟩ where
  staticBuf := hinv.staticBuf
  staticBufSize := hinv.staticBufSize
  extents := hinv.extents
  free := by
    intro e he
    rw [hinv.free e he, List.forall_mem_cons]
    refine (and_iff_right ?_).symm
    obtain ⟨h1, h2, h3⟩ := BufferPool.mem_area (hinv.entry_mem_area he)
    have harea := hfresh.1
    unfold Apart at harea
    rw [hinv.staticBuf, hinv.staticBufSize] at harea
    dsimp only at h1 h2 h3 ⊢
    omega
  inPool := by
    rw [List.forall_mem_cons]
    exact ⟨(nomatch ·), hinv.inPool⟩
  inHeap := by
    rw [List.forall_mem_cons]
    exact ⟨fun _ => List.mem_cons_self, fun a ha h => List.mem_cons_of_mem _ (hinv.inHeap a ha h)⟩
  heap := List.pairwise_cons.mpr ⟨hfresh.2, hinv.heap⟩
  heapArea := by
    rw [List.forall_mem_cons]
    have harea := hfresh.1
    rw [hinv.staticBuf, hinv.staticBufSize] at harea
    exact ⟨⟨harea, Nat.le_max_right bytes 1⟩, hinv.heapArea⟩
  distinct := List.pairwise_cons.mpr
    ⟨hinv.ne_of_fresh (Nat.le_max_right bytes 1) hfresh, hinv.distinct⟩
  large := by
    rw [List.forall_mem_cons]
    exact ⟨Nat.le_max_left bytes 1, hinv.large⟩

/-- A pointer is given back. -/
theorem Inv.release (hinv : Inv base s) (p : ℕ) {m : OMap ℕ BufInfo} {heap : List (ℕ × ℕ)}
    (hext : BufferPool.extents m = BufferPool.extents s.pool.staticBufMetaData)
    (hfree : ∀ e ∈ m.entries, e.2.free = true ↔ ∀ a ∈ s.live, a.p ≠ p → a.p ≠ e.1)
    (hsub : heap.Sublist s.heap) (hkeep : ∀ b ∈ s.heap, b.1 ≠ p → b ∈ heap) :
    Inv base ⟨{ s.pool with staticBufMetaData := m }, heap, s.live.filter fun a => a.p ≠ p⟩ where
  staticBuf := hinv.staticBuf
  staticBufSize := hinv.staticBufSize
  extents := hext.trans hinv.extents
  free := by
    intro e he
    rw [hfree e he]
    simp only [List.mem_filter, decide_eq_true_eq, and_imp]
  inPool := fun a ha => hinv.inPool a (List.mem_of_mem_filter ha)
  inHeap := by
    intro a ha hf
    obtain ⟨hmem, hne⟩ := List.mem_filter.mp ha
    exact hkeep _ (hinv.inHeap a hmem hf) (by simpa using hne)
  heap := hinv.heap.sublist hsub
  heapArea := fun b hb => hinv.heapArea b (hsub.subset hb)
  distinct := hinv.distinct.filter _
  large := fun a ha => hinv.large a (List.mem_of_mem_filter ha)

theorem inv_step (hinv : Inv base s) {a : Act} (h : step s a = some s') : Inv base s' := by
  obtain ⟨bytes, malloc, p, info, -, hfind, hfree, hlarge, rfl⟩ | ⟨bytes, -, rfl⟩ |
    ⟨bytes, q, -, -, -, hfresh, rfl⟩ | ⟨p, -, hout, rfl⟩ | ⟨p, info, -, hfind, rfl⟩ |
    ⟨p, -, hfind, rfl⟩ := step_cases h
  · exact hinv.allocate hfind hfree hlarge
  · exact hinv
  · exact hinv.revert hfresh
  · refine hinv.release p rfl (fun e he => ?_) List.filter_sublist fun b hb hne => ?_
    · have hne := hinv.ne_of_outside hout he
      rw [hinv.free e he]
      exact ⟨fun h a ha _ => h a ha, fun h a ha heq => h a ha (heq ▸ hne) heq⟩
    · exact List.mem_filter.mpr ⟨hb, by simpa using hne⟩
  · refine hinv.release p (extents_insert hfind true) (fun e he => ?_) (List.Sublist.refl _)
      fun b hb _ => hb
    rcases OMap.mem_insert.mp he with rfl | ⟨he, hne⟩
    · exact iff_of_true rfl fun a _ hap => hap
    · rw [hinv.free e he]
      exact ⟨fun h a ha _ => h a ha, fun h a ha heq => h a ha (heq ▸ hne) heq⟩
  · refine hinv.release p rfl (fun e he => ?_) (List.Sublist.refl _) fun b hb _ => hb
    have hne : e.1 ≠ p := by
      rintro rfl
      exact nomatch hfind.symm.trans (OMap.find?_eq_some.mpr he)
    rw [hinv.free e he]
    exact ⟨fun h a ha _ => h a ha, fun h a ha heq => h a ha (heq ▸ hne) heq⟩

/-! ## Safety -/

/-- Buffers in use are apart, whether they are of the static area or of the heap. -/
theorem Inv.apart (hinv : Inv base s) : s.live.Pairwise fun a b => Apart a.p a.size b.p b.size := by
  have harea := (area_apart base).imp fun {x y} h =>
    (show Apart x.1 x.2 y.1 y.2 from Or.inl h)
  refine hinv.distinct.imp_of_mem fun {a b} ha hb hne => ?_
  have hmixed : ∀ c ∈ s.live, ∀ d ∈ s.live, c.fallback = false → d.fallback = true →
      Apart c.p c.size d.p d.size := by
    intro c hc d hd hcf hdf
    obtain ⟨h1, h2, -⟩ := BufferPool.mem_area (hinv.inPool c hc hcf)
    have hap := (hinv.heapArea _ (hinv.inHeap d hd hdf)).1
    unfold Apart at hap ⊢
    dsimp only at h1 h2 hap
    omega
  cases ha' : a.fallback with
  | false =>
    cases hb' : b.fallback with
    | false => exact apart_of_mem harea (hinv.inPool a ha ha') (hinv.inPool b hb hb') hne
    | true => exact hmixed a ha b hb ha' hb'
  | true =>
    cases hb' : b.fallback with
    | false => exact (hmixed b hb a ha hb' ha').symm
    | true => exact apart_of_mem hinv.heap (hinv.inHeap a ha ha') (hinv.inHeap b hb hb') hne

theorem Inv.recognised (hinv : Inv base s) {a : Allocation} (ha : a ∈ s.live)
    (hf : a.fallback = false) : deallocate s.pool a.p = (.marked, { s.pool with
      staticBufMetaData := s.pool.staticBufMetaData.insert a.p ⟨a.size, true⟩ }) := by
  have hmem := hinv.inPool a ha hf
  obtain ⟨h1, h2, h3⟩ := BufferPool.mem_area hmem
  rw [← hinv.extents] at hmem
  obtain ⟨info, hinfo, hsize⟩ := mem_extents.mp hmem
  have hin : ¬(a.p < s.pool.staticBuf ∨ s.pool.staticBuf + s.pool.staticBufSize < a.p) := by
    rw [hinv.staticBuf, hinv.staticBufSize]
    dsimp only at h1 h2 h3
    omega
  unfold deallocate
  rw [if_neg hin, hinfo, ← hsize]

/-- A block of the heap is freed, unless it is right behind the static area. -/
theorem Inv.freed_iff (hinv : Inv base s) {a : Allocation} (ha : a ∈ s.live)
    (hf : a.fallback = true) :
    deallocate s.pool a.p = (.freed, s.pool) ↔ a.p ≠ base + 65536 := by
  obtain ⟨hap, hpos⟩ := hinv.heapArea _ (hinv.inHeap a ha hf)
  unfold Apart at hap
  dsimp only at hap hpos
  constructor
  · intro h heq
    have hin : ¬(a.p < s.pool.staticBuf ∨ s.pool.staticBuf + s.pool.staticBufSize < a.p) := by
      rw [hinv.staticBuf, hinv.staticBufSize]
      omega
    unfold deallocate at h
    rw [if_neg hin] at h
    cases hfind : s.pool.staticBufMetaData.find? a.p with
    | none => simp [hfind] at h
    | some info => simp [hfind] at h
  · intro hne
    have hout : a.p < s.pool.staticBuf ∨ s.pool.staticBuf + s.pool.staticBufSize < a.p := by
      rw [hinv.staticBuf, hinv.staticBufSize]
      omega
    unfold deallocate
    rw [if_pos hout]

/-- With nothing in use the pool is as it was created. -/
theorem Inv.restored (hinv : Inv base s) (hlive : s.live = []) : s.pool = create base := by
  have hfree : ∀ e ∈ s.pool.staticBufMetaData.entries, e.2.free = true := by
    intro e he
    refine (hinv.free e he).mpr fun a ha => ?_
    rw [hlive] at ha
    exact nomatch ha
  have hcreated : ∀ e ∈ (create base).staticBufMetaData.entries, e.2.free = true := by
    intro e he
    rw [entries_create] at he
    exact (mem_placed he).2.2.2
  have hentries : s.pool.staticBufMetaData.entries =
      (create base).staticBufMetaData.entries := by
    rw [entries_of_free hfree, hinv.extents, area, ← entries_of_free hcreated]
  refine SimpleBufferPool.ext hinv.staticBuf hinv.staticBufSize ?_
  exact OMap.ext_of_mem fun e => by rw [hentries]

/-- What can go wrong is a block behind the static area. -/
theorem safe_iff (hinv : Inv base s) :
    Safe base s ↔ ∀ a ∈ s.live, a.fallback = true → a.p ≠ base + 65536 := by
  constructor
  · intro hsafe a ha hf
    exact (hinv.freed_iff ha hf).mp (hsafe.freed a ha hf)
  · intro h
    exact ⟨hinv.apart, hinv.large, fun a ha hf => hinv.recognised ha hf,
      fun a ha hf => (hinv.freed_iff ha hf).mpr (h a ha hf), hinv.free, hinv.restored⟩

theorem safe_step_iff (hinv : Inv base s) (hsafe : Safe base s) {a : Act}
    (h : step s a = some s') : Safe base s' ↔ NotBehind s a := by
  have hall := (safe_iff hinv).mp hsafe
  rw [safe_iff (inv_step hinv h)]
  obtain ⟨bytes, malloc, p, info, rfl, hfind, hfree, hlarge, rfl⟩ | ⟨bytes, rfl, rfl⟩ |
    ⟨bytes, q, rfl, -, hfull, -, rfl⟩ | ⟨p, rfl, -, rfl⟩ | ⟨p, info, rfl, -, rfl⟩ |
    ⟨p, rfl, -, rfl⟩ := step_cases h
  · refine iff_of_true ?_ fun hfull => ?_
    · rw [List.forall_mem_cons]
      exact ⟨(nomatch ·), hall⟩
    · have hlt := hfull _ (OMap.find?_eq_some.mp hfind) hfree
      dsimp only at hlt
      omega
  · refine iff_of_true hall fun _ => ?_
    rw [hinv.staticBufSize]
    omega
  · rw [List.forall_mem_cons]
    unfold NotBehind
    rw [hinv.staticBuf, hinv.staticBufSize]
    exact ⟨fun h _ => h.1 rfl, fun h => ⟨fun _ => h hfull, hall⟩⟩
  all_goals exact iff_of_true (fun a ha => hall a (List.mem_of_mem_filter ha)) trivial

end states

/-- **Safety of the pool**: in every run of calls the pool is safe in all states exactly when
`malloc`, wherever it is called, does not give the block right behind the static area. -/
theorem pool_safe_iff {base : ℕ} {as : List Act} {t : State}
    (hrun : Run step (fun _ _ => True) (init base) as t) :
    (∀ pre post s, as = pre ++ post → Run step (fun _ _ => True) (init base) pre s →
        Safe base s) ↔
      ∀ a s, Occurs step (fun _ _ => True) (init base) as a s → NotBehind s a := by
  refine hrun.always_iff (Inv base) (Safe base) NotBehind (inv_init base) ?_ ?_ ?_
  · exact fun s a s' hinv h => inv_step hinv h
  · exact (safe_iff (inv_init base)).mpr fun a ha => nomatch ha
  · exact fun s a s' hinv hsafe h => safe_step_iff hinv hsafe h

theorem inv_run {base : ℕ} {as : List Act} {t : State}
    (hrun : Run step (fun _ _ => True) (init base) as t) : Inv base t :=
  hrun.invariant (Inv base) (fun _ _ _ hinv _ h => inv_step hinv h) (inv_init base)

/-- A block of the heap and a buffer of the static area, given out and back. -/
theorem pool_safe_two : ∃ t, Run step (fun _ _ => True) (init 4096)
    [.allocate 40000 100000, .allocate 100 0, .deallocate 100000, .deallocate 4096] t ∧
    t.live = [] ∧ Safe 4096 t := by
  refine Run.exists_of_runs State.live [] (by decide +kernel) fun t hrun hlive => ⟨hlive, ?_⟩
  refine (pool_safe_iff hrun).mpr ?_ _ [] t (List.append_nil _).symm hrun
  rintro a s ⟨pre, post, heq, hpre⟩
  have hmem : a ∈ pre ++ a :: post := by simp
  rw [← heq] at hmem
  have hinv := inv_run hpre
  cases a with
  | deallocate p => trivial
  | allocate bytes malloc =>
    intro _
    rw [hinv.staticBuf, hinv.staticBufSize]
    simp only [List.mem_cons, Act.allocate.injEq, reduceCtorEq, List.not_mem_nil,
      or_false] at hmem
    omega

/-- With the static area at 4096, `malloc` gives 40000 bytes at 69632. -/
theorem block_behind_area : ¬∀ base as t, Run step (fun _ _ => True) (init base) as t →
    Safe base t := by
  intro hall
  obtain ⟨t, hrun, hlive⟩ : ∃ t, Run step (fun _ _ => True) (init 4096)
      [.allocate 40000 69632] t ∧ t.live = [⟨69632, 40000, 40000, true⟩] :=
    Run.exists_of_runs State.live _ (by decide +kernel) fun t _ hlive => hlive
  have hmem : (⟨69632, 40000, 40000, true⟩ : Allocation) ∈ t.live := by
    rw [hlive]
    exact List.mem_singleton.mpr rfl
  have hfreed := (hall 4096 _ t hrun).freed _ hmem rfl
  exact ((inv_run hrun).freed_iff hmem rfl).mp hfreed rfl

end Rialto.Ipc.BufferPool

import Mathlib.Algebra.BigOperators.Group.List.Basic
import Mathlib.Algebra.GroupWithZero.Nat
import Rialto.Shm.Buffer

/-! # Mapping and unmapping partitions

Whatever partitions are mapped and unmapped, a partition never moves: its place is fixed by the
lengths of the partitions before it. Two invariants then give the isolation of the sessions, that
the size of the buffer is the sum of all lengths (`Inv.len`) and that no id is in two partitions of
one type (`Inv.distinct`).

* `create_inv`: a buffer whose total size fits into 32 bits starts with the invariant. The `int`
  accumulator of `calculateBufferSize` overflows from `2 ^ 31` on, but then the constructor throws.
* `mapPartition_cases`, `unmapPartition_cases`: what a call can do.
* `step_keeps`, `run_keeps`: what a call and a run of calls keep. -/

namespace Rialto.Shm.Mapping

open Rialto.Lib.Runs Rialto.Lib.Word Rialto.Shm.Buffer

/-! ## Lengths -/

/-- The length of a partition, without the reduction of `Partition.size`. -/
def fullLen (p : Partition) : ℕ := p.dataBufferVideoLen + p.dataBufferAudioLen

/-- The lengths of all partitions, in the order of the walk. -/
def sizes (b : SharedMemoryBuffer) : List ℕ :=
  (b.genericPartitions ++ b.webAudioPartitions).map fullLen

/-- The partitions of a type. -/
def partitions (b : SharedMemoryBuffer) (t : MediaPlaybackType) : List Partition :=
  (getPlaybackTypePartition b t).getD []

/-- The bytes that `numOfPlaybacks` generic and `numOfWebAudioPlayers` web audio partitions need. -/
def totalSize (numOfPlaybacks numOfWebAudioPlayers : ℕ) : ℕ :=
  numOfPlaybacks * (audioRegionSize + videoRegionSize) + numOfWebAudioPlayers * webAudioRegionSize

/-- No id is in two partitions. -/
def Distinct (ps : List Partition) : Prop :=
  ∀ (i j : ℕ) (p q : Partition), ps[i]? = some p → ps[j]? = some q → p.id = q.id → 0 ≤ p.id →
    i = j

/-- The invariant of the buffer. -/
structure Inv (b : SharedMemoryBuffer) : Prop where
  len : b.dataBufferLen = (sizes b).sum
  fits : (sizes b).sum < w32
  distinct : ∀ t, Distinct (partitions b t)

/-! ## The size of the buffer -/

theorem toSize_toInt (x : ℕ) : toSize (toInt x) =
    if x % w32 < 2147483648 then x % w32 else w64 - w32 + x % w32 := by
  unfold toSize toInt w32 w64
  split_ifs <;> omega

theorem toInt_congr {x y : ℕ} (h : x % w32 = y % w32) : toInt x = toInt y := by
  unfold toInt
  rw [h]

theorem toInt_step (x a : ℕ) : toInt ((toSize (toInt x) + a) % w64) = toInt (x + a) := by
  refine toInt_congr ?_
  rw [toSize_toInt]
  unfold w32 w64
  split_ifs <;> omega

/-- The `int` accumulator holds the sum, reduced to 32 bits. -/
theorem foldl_toInt (ps : List Partition) (x : ℕ) :
    ps.foldl (fun (sum : ℤ) p =>
      toInt ((toSize sum + p.dataBufferAudioLen + p.dataBufferVideoLen) % w64)) (toInt x) =
      toInt (x + (ps.map fullLen).sum) := by
  induction ps generalizing x with
  | nil => simp
  | cons p ps ih =>
    rw [List.foldl_cons, Nat.add_assoc, toInt_step, ih, List.map_cons, List.sum_cons]
    congr 1
    unfold fullLen
    omega

theorem accumulate_eq (ps : List Partition) :
    accumulate ps = toSize (toInt (ps.map fullLen).sum) := by
  unfold accumulate
  rw [show (0 : ℤ) = toInt 0 from rfl, foldl_toInt, Nat.zero_add]

/-- A total below `2 ^ 32` is computed correctly, or it is negative as an `off_t`. -/
theorem calculateBufferSize_eq {generic webAudio : List Partition}
    (hfit : (generic.map fullLen).sum + (webAudio.map fullLen).sum < w32)
    (hoff : calculateBufferSize generic webAudio < w64 / 2) :
    calculateBufferSize generic webAudio =
      (generic.map fullLen).sum + (webAudio.map fullLen).sum := by
  unfold calculateBufferSize at hoff ⊢
  rw [accumulate_eq, accumulate_eq] at hoff ⊢
  generalize (generic.map fullLen).sum = g at hfit hoff ⊢
  generalize (webAudio.map fullLen).sum = w at hfit hoff ⊢
  rw [toSize_toInt, toSize_toInt] at hoff ⊢
  unfold w32 w64 at *
  split_ifs at hoff ⊢ <;> omega

theorem calculatePartitionSize_eq {t : MediaPlaybackType} {n : ℕ} {ps : List Partition}
    (hn : n < w32) (h : calculatePartitionSize t (toInt n) = some ps) :
    ps = ((emptyPartition t).map (List.replicate n)).getD [] := by
  unfold calculatePartitionSize at h
  cases ht : emptyPartition t with
  | none => simpa [ht] using h.symm
  | some p =>
    simp only [ht] at h
    split_ifs at h with hneg
    have hto : (toInt n).toNat = n := by
      unfold toInt w32 at *
      split_ifs at hneg ⊢ <;> omega
    simpa [hto] using h.symm

theorem calculatePartitionSize_id {t : MediaPlaybackType} {num : ℤ} {ps : List Partition}
    (h : calculatePartitionSize t num = some ps) : ∀ p ∈ ps, p.id = noIdAssigned := by
  intro p hp
  unfold calculatePartitionSize at h
  cases t with
  | generic =>
    simp only [emptyPartition] at h
    split_ifs at h
    cases h
    rw [List.eq_of_mem_replicate hp]
  | webAudio =>
    simp only [emptyPartition] at h
    split_ifs at h
    cases h
    rw [List.eq_of_mem_replicate hp]
  | invalid =>
    cases h
    cases hp

/-- **What the constructor makes**: the lengths are those asked for, and no partition has an id. -/
theorem create_eq {sys : Sys} {numOfPlaybacks numOfWebAudioPlayers : ℕ} {b : SharedMemoryBuffer}
    (hn : numOfPlaybacks < w32) (hm : numOfWebAudioPlayers < w32)
    (h : create sys numOfPlaybacks numOfWebAudioPlayers = some b) :
    (b.genericPartitions.map fullLen).sum + (b.webAudioPartitions.map fullLen).sum =
        totalSize numOfPlaybacks numOfWebAudioPlayers ∧
      b.dataBufferLen = calculateBufferSize b.genericPartitions b.webAudioPartitions % w32 ∧
      calculateBufferSize b.genericPartitions b.webAudioPartitions < w64 / 2 ∧
      ∀ t, ∀ p ∈ partitions b t, p.id = noIdAssigned := by
  unfold create at h
  obtain ⟨generic, hg, h⟩ := Option.bind_eq_some_iff.mp h
  obtain ⟨webAudio, hw, h⟩ := Option.bind_eq_some_iff.mp h
  dsimp only at h
  split_ifs at h with hsys
  cases h
  refine ⟨?_, rfl, hsys.2.1.2, fun t p hp => ?_⟩
  · rw [calculatePartitionSize_eq hn hg, calculatePartitionSize_eq hm hw]
    simp [emptyPartition, fullLen, totalSize, Nat.add_comm]
  · cases t with
    | generic => exact calculatePartitionSize_id hg p hp
    | webAudio => exact calculatePartitionSize_id hw p hp
    | invalid => cases hp

theorem sum_sizes (b : SharedMemoryBuffer) : (sizes b).sum =
    (b.genericPartitions.map fullLen).sum + (b.webAudioPartitions.map fullLen).sum := by
  simp [sizes]

/-- **A buffer whose total size fits starts with the invariant.** -/
theorem create_inv {sys : Sys} {numOfPlaybacks numOfWebAudioPlayers : ℕ} {b : SharedMemoryBuffer}
    (hfit : totalSize numOfPlaybacks numOfWebAudioPlayers < w32)
    (h : create sys numOfPlaybacks numOfWebAudioPlayers = some b) : Inv b := by
  have hn : numOfPlaybacks < w32 := by
    simp only [totalSize, audioRegionSize, videoRegionSize, w32] at hfit ⊢
    omega
  have hm : numOfWebAudioPlayers < w32 := by
    simp only [totalSize, webAudioRegionSize, w32] at hfit ⊢
    omega
  obtain ⟨hsum, hlen, hoff, hfree⟩ := create_eq hn hm h
  rw [← hsum] at hfit
  have hsize := calculateBufferSize_eq hfit hoff
  refine ⟨?_, ?_, ?_⟩
  · rw [hlen, hsize, sum_sizes, Nat.mod_eq_of_lt hfit]
  · rw [sum_sizes]
    exact hfit
  · intro t i j p q hi _ _ hid
    rw [hfree t p (List.mem_of_getElem? hi)] at hid
    exact absurd hid (by decide)

/-! ## Finding and assigning -/

theorem findId_eq_length {ps : List Partition} {id : ℤ} :
    findId ps id = ps.length ↔ ∀ p ∈ ps, p.id ≠ id := by
  unfold findId
  simp [List.findIdx_eq_length]

theorem getElem_findId {ps : List Partition} {id : ℤ} (h : findId ps id ≠ ps.length) :
    ∃ p, ps[findId ps id]? = some p ∧ p.id = id := by
  have hlt : findId ps id < ps.length := Nat.lt_of_le_of_ne List.findIdx_le_length h
  refine ⟨ps[findId ps id], List.getElem?_eq_getElem hlt, ?_⟩
  have hfound := List.findIdx_getElem (w := hlt)
  exact beq_iff_eq.mp hfound

/-- Of the ids with a property none is in two partitions. -/
def DistinctOn (Q : ℤ → Prop) (ps : List Partition) : Prop :=
  ∀ (i j : ℕ) (p q : Partition), ps[i]? = some p → ps[j]? = some q → p.id = q.id → Q p.id → i = j

/-- With distinct ids, the partition found is the one that has the id. -/
theorem DistinctOn.findId {Q : ℤ → Prop} {ps : List Partition} (hd : DistinctOn Q ps) {k : ℕ}
    {p : Partition} (hk : ps[k]? = some p) (hid : Q p.id) : findId ps p.id = k := by
  have hne : Buffer.findId ps p.id ≠ ps.length := by
    rw [Ne, findId_eq_length]
    exact fun hall => hall p (List.mem_of_getElem? hk) rfl
  obtain ⟨q, hq, hqid⟩ := getElem_findId hne
  exact hd _ _ q p hq hk hqid (by rw [hqid]; exact hid)

theorem findId_of_getElem {ps : List Partition} (hd : Distinct ps) {k : ℕ} {p : Partition}
    (hk : ps[k]? = some p) (hid : 0 ≤ p.id) : findId ps p.id = k :=
  DistinctOn.findId (Q := (0 ≤ ·)) hd hk hid

theorem getElem?_assign (ps : List Partition) (it k : ℕ) (id : ℤ) :
    (assign ps it id)[k]? = if it = k then ps[k]?.map fun p => { p with id := id } else ps[k]? := by
  unfold assign
  rw [List.getElem?_modify]
  split_ifs <;> simp

/-- The lengths of the two parts of a partition. -/
def lens (p : Partition) : ℕ × ℕ := (p.dataBufferVideoLen, p.dataBufferAudioLen)

theorem map_lens_assign (ps : List Partition) (it : ℕ) (id : ℤ) :
    (assign ps it id).map lens = ps.map lens := by
  refine List.ext_getElem? fun k => ?_
  rw [List.getElem?_map, List.getElem?_map, getElem?_assign]
  split_ifs
  · cases ps[k]? <;> rfl
  · rfl

/-- An assignment keeps the ids distinct if the new id is nowhere else. -/
theorem DistinctOn.assign {Q : ℤ → Prop} {ps : List Partition} (hd : DistinctOn Q ps) {it : ℕ}
    {id : ℤ} (hid : Q id → ∀ p ∈ ps, p.id ≠ id) : DistinctOn Q (assign ps it id) := by
  have other : ∀ {k : ℕ} {q : Partition}, it ≠ k → (Buffer.assign ps it id)[k]? = some q →
      ps[k]? = some q := by
    intro k q hk h
    rwa [getElem?_assign, if_neg hk] at h
  have same : ∀ {q : Partition}, (Buffer.assign ps it id)[it]? = some q → q.id = id := by
    intro q h
    rw [getElem?_assign, if_pos rfl] at h
    obtain ⟨q', -, rfl⟩ := Option.map_eq_some_iff.mp h
    rfl
  intro i j p q hi hj heq hpos
  by_cases hiit : it = i
  · by_cases hjit : it = j
    · rw [← hiit, hjit]
    · subst hiit
      have hp := same hi
      refine absurd ?_ (hid (by rw [← hp]; exact hpos) q (List.mem_of_getElem? (other hjit hj)))
      rw [← heq, hp]
  · by_cases hjit : it = j
    · subst hjit
      have hq := same hj
      refine absurd ?_ (hid (by rw [← hq, ← heq]; exact hpos) p
        (List.mem_of_getElem? (other hiit hi)))
      rw [heq, hq]
    · exact hd i j p q (other hiit hi) (other hjit hj) heq hpos

theorem Distinct.assign {ps : List Partition} (hd : Distinct ps) {it : ℕ} {id : ℤ}
    (hid : 0 ≤ id → ∀ p ∈ ps, p.id ≠ id) : Distinct (assign ps it id) :=
  DistinctOn.assign (Q := (0 ≤ ·)) hd hid

/-! ## What a call can do -/

/-- The buffer with one partition of the type `t` given the id `id`. -/
def reassign (b : SharedMemoryBuffer) (t : MediaPlaybackType) (it : ℕ) (id : ℤ) :
    SharedMemoryBuffer :=
  setPlaybackTypePartition b (assign (partitions b t) it id) t

theorem partitions_reassign (b : SharedMemoryBuffer) (t t' : MediaPlaybackType) (it : ℕ) (id : ℤ) :
    partitions (reassign b t it id) t' =
      if t = t' then assign (partitions b t) it id else partitions b t' := by
  cases t <;> cases t' <;>
    simp [reassign, partitions, setPlaybackTypePartition, getPlaybackTypePartition, assign]

theorem mapPartition_cases (b : SharedMemoryBuffer) (t : MediaPlaybackType) (id : ℤ) :
    ((∃ p ∈ partitions b t, p.id = id) ∧ mapPartition b t id = (true, b)) ∨
    (∃ it p, (∀ q ∈ partitions b t, q.id ≠ id) ∧ (partitions b t)[it]? = some p ∧
      p.id = noIdAssigned ∧ mapPartition b t id = (true, reassign b t it id)) ∨
    ((∀ p ∈ partitions b t, p.id ≠ id ∧ p.id ≠ noIdAssigned) ∧
      mapPartition b t id = (false, b)) := by
  unfold mapPartition reassign partitions
  cases ht : getPlaybackTypePartition b t with
  | none => exact Or.inr (Or.inr ⟨by simp, rfl⟩)
  | some ps =>
    dsimp only [Option.getD_some]
    by_cases hfound : findId ps id = ps.length
    · rw [if_neg (by simpa using hfound)]
      by_cases hfree : findId ps noIdAssigned = ps.length
      · rw [if_pos hfree]
        refine Or.inr (Or.inr ⟨fun p hp => ⟨?_, ?_⟩, rfl⟩)
        · exact findId_eq_length.mp hfound p hp
        · exact findId_eq_length.mp hfree p hp
      · rw [if_neg hfree]
        obtain ⟨p, hp, hpid⟩ := getElem_findId hfree
        exact Or.inr (Or.inl ⟨_, p, findId_eq_length.mp hfound, hp, hpid, rfl⟩)
    · rw [if_pos hfound]
      obtain ⟨p, hp, hpid⟩ := getElem_findId hfound
      exact Or.inl ⟨⟨p, List.mem_of_getElem? hp, hpid⟩, rfl⟩

theorem unmapPartition_cases (b : SharedMemoryBuffer) (t : MediaPlaybackType) (id : ℤ) :
    ((∀ p ∈ partitions b t, p.id ≠ id) ∧ unmapPartition b t id = (false, b)) ∨
    ∃ it p, (partitions b t)[it]? = some p ∧ p.id = id ∧
      unmapPartition b t id = (true, reassign b t it noIdAssigned) := by
  unfold unmapPartition reassign partitions
  cases ht : getPlaybackTypePartition b t with
  | none => exact Or.inl ⟨by simp, rfl⟩
  | some ps =>
    dsimp only [Option.getD_some]
    by_cases hfound : findId ps id = ps.length
    · rw [if_pos hfound]
      exact Or.inl ⟨findId_eq_length.mp hfound, rfl⟩
    · rw [if_neg hfound]
      obtain ⟨p, hp, hpid⟩ := getElem_findId hfound
      exact Or.inr ⟨_, p, hp, hpid, rfl⟩

/-! ## What the calls keep -/

/-- The partitions are the same but for the ids. -/
structure SameLayout (b b' : SharedMemoryBuffer) : Prop where
  dataBufferLen : b'.dataBufferLen = b.dataBufferLen
  lens : ∀ t, (partitions b' t).map lens = (partitions b t).map lens

theorem SameLayout.refl (b : SharedMemoryBuffer) : SameLayout b b := ⟨rfl, fun _ => rfl⟩

theorem SameLayout.trans {b b' b'' : SharedMemoryBuffer} (h : SameLayout b b')
    (h' : SameLayout b' b'') : SameLayout b b'' :=
  ⟨h'.dataBufferLen.trans h.dataBufferLen, fun t => (h'.lens t).trans (h.lens t)⟩

theorem sizes_eq_lens (b : SharedMemoryBuffer) :
    sizes b = ((partitions b .generic).map lens ++ (partitions b .webAudio).map lens).map
      fun x => x.1 + x.2 := by
  simp only [sizes, partitions, getPlaybackTypePartition, Option.getD_some, List.map_append,
    List.map_map]
  rfl

theorem SameLayout.sizes_eq {b b' : SharedMemoryBuffer} (h : SameLayout b b') :
    sizes b' = sizes b := by
  rw [sizes_eq_lens, sizes_eq_lens, h.lens, h.lens]

theorem sameLayout_reassign (b : SharedMemoryBuffer) (t : MediaPlaybackType) (it : ℕ) (id : ℤ) :
    SameLayout b (reassign b t it id) := by
  constructor
  · cases t <;> rfl
  · intro t'
    rw [partitions_reassign]
    split_ifs with ht
    · rw [map_lens_assign, ht]
    · rfl

theorem inv_reassign {b : SharedMemoryBuffer} (hinv : Inv b) {t : MediaPlaybackType} {it : ℕ}
    {id : ℤ} (hid : 0 ≤ id → ∀ p ∈ partitions b t, p.id ≠ id) : Inv (reassign b t it id) := by
  have hsame := sameLayout_reassign b t it id
  refine ⟨?_, ?_, fun t' => ?_⟩
  · rw [hsame.dataBufferLen, hsame.sizes_eq, hinv.len]
  · rw [hsame.sizes_eq]
    exact hinv.fits
  · rw [partitions_reassign]
    split_ifs with ht
    · exact (hinv.distinct t).assign hid
    · exact hinv.distinct t'

/-- The partition `k` of the type `t` has the id `id`. -/
def OwnsAt (b : SharedMemoryBuffer) (t : MediaPlaybackType) (k : ℕ) (id : ℤ) : Prop :=
  ∃ p, (partitions b t)[k]? = some p ∧ p.id = id

theorem ownsAt_reassign {b : SharedMemoryBuffer} {t t' : MediaPlaybackType} {k it : ℕ} {id id' : ℤ}
    (h : OwnsAt b t k id) (hne : t' = t → it ≠ k) : OwnsAt (reassign b t' it id') t k id := by
  obtain ⟨p, hp, hid⟩ := h
  refine ⟨p, ?_, hid⟩
  rw [partitions_reassign]
  split_ifs with ht
  · rw [getElem?_assign, if_neg (hne ht), ht, hp]
  · exact hp

/-- What one call keeps: the invariant, the layout, and the partition of every id that it does not
unmap. -/
theorem step_keeps {b b' : SharedMemoryBuffer} {op : Op} (hinv : Inv b) (hop : NonNegId b op)
    (h : step b op = some b') : Inv b' ∧ SameLayout b b' ∧
      ∀ t k id, 0 ≤ id → op ≠ .unmapPartition t id → OwnsAt b t k id → OwnsAt b' t k id := by
  have same : Inv b ∧ SameLayout b b ∧ ∀ t k id, 0 ≤ id → op ≠ .unmapPartition t id →
      OwnsAt b t k id → OwnsAt b t k id :=
    ⟨hinv, SameLayout.refl b, fun _ _ _ _ _ h => h⟩
  cases op with
  | mapPartition t id =>
    cases h
    obtain ⟨-, heq⟩ | ⟨it, p, hnew, hp, hfree, heq⟩ | ⟨-, heq⟩ := mapPartition_cases b t id
    · rw [heq]
      exact same
    · rw [heq]
      refine ⟨inv_reassign hinv fun _ => hnew, sameLayout_reassign b t it id, ?_⟩
      intro t' k id' hid' _ howns
      refine ownsAt_reassign howns fun ht hk => ?_
      -- the partition taken was free, the one of `id'` is not
      obtain ⟨q, hq, hqid⟩ := howns
      rw [← ht, ← hk, hp] at hq
      cases hq
      rw [← hqid, hfree] at hid'
      exact absurd hid' (by decide)
    · rw [heq]
      exact same
  | unmapPartition t id =>
    cases h
    obtain ⟨-, heq⟩ | ⟨it, p, hp, hpid, heq⟩ := unmapPartition_cases b t id
    · rw [heq]
      exact same
    · rw [heq]
      refine ⟨inv_reassign hinv fun hneg => absurd hneg (by decide),
        sameLayout_reassign b t it noIdAssigned, ?_⟩
      intro t' k id' hid' hne howns
      refine ownsAt_reassign howns fun ht hk => hne ?_
      obtain ⟨q, hq, hqid⟩ := howns
      rw [← ht, ← hk, hp] at hq
      cases hq
      rw [← ht, ← hqid, hpid]

theorem run_inv {b b' : SharedMemoryBuffer} {ops : List Op} (hinv : Inv b)
    (h : Run step NonNegId b ops b') : Inv b' :=
  h.invariant Inv (fun _ _ _ hi hop hs => (step_keeps hi hop hs).1) hinv

/-- What a run keeps that does not unmap `id`. -/
theorem run_keeps {b b' : SharedMemoryBuffer} {ops : List Op} (h : Run step NonNegId b ops b')
    (hinv : Inv b) {t : MediaPlaybackType} {k : ℕ} {id : ℤ} (hid : 0 ≤ id)
    (hops : Op.unmapPartition t id ∉ ops) (howns : OwnsAt b t k id) :
    SameLayout b b' ∧ OwnsAt b' t k id := by
  induction h with
  | nil b => exact ⟨SameLayout.refl b, howns⟩
  | cons hop hstep _ ih =>
    obtain ⟨hinv', hsame, hkeep⟩ := step_keeps hinv hop hstep
    rw [List.mem_cons, not_or] at hops
    obtain ⟨hsame', howns'⟩ := ih hinv' hops.2 (hkeep t k id hid (Ne.symm hops.1) howns)
    exact ⟨hsame.trans hsame', howns'⟩

end Rialto.Shm.Mapping

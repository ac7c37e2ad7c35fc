import Mathlib.Data.Set.Lattice
import Mathlib.Order.CompletePartialOrder
import Rialto.Lib.Layout
import Rialto.Shm.Mapping

/-! # Isolation of the sessions in the shared memory

The partitions lie one behind the other, so the region of an id is where the blocks before its
partition end.

* `getDataOffset_eq`, `getMaxDataLen_eq`: the region of an id, by the place of its partition.
* `isolated_of_inv`: what the invariant of the buffer says about the regions.
* `partitions_isolated`: the result, over all runs. -/

namespace Rialto.Shm.Isolation

open Rialto.Lib.Runs Rialto.Lib.Word Rialto.Lib.Layout Rialto.Media.Segment Rialto.Shm.Buffer
  Rialto.Shm.Mapping

/-! ## Regions -/

/-- The number of a partition in the order of the walk. -/
def block (b : SharedMemoryBuffer) : MediaPlaybackType → ℕ → ℕ
  | .webAudio, k => b.genericPartitions.length + k
  | _, k => k

/-- The part of a partition that belongs to a source type: where it starts in the partition, and
its length. -/
def part (p : Partition) : MediaSourceType → Option (ℕ × ℕ)
  | .audio => if p.dataBufferAudioLen = 0 then none
      else some (p.dataBufferVideoLen, p.dataBufferAudioLen)
  | .video => if p.dataBufferVideoLen = 0 then none else some (0, p.dataBufferVideoLen)
  | .unknown => none

theorem part_le {p : Partition} {s : MediaSourceType} {x : ℕ × ℕ} (h : part p s = some x) :
    x.1 + x.2 ≤ fullLen p := by
  unfold part at h
  unfold fullLen
  cases s <;> simp only at h
  · cases h
  · split_ifs at h
    cases h
    exact Nat.le_refl _
  · split_ifs at h
    cases h
    dsimp only
    omega

theorem walk_of_notMem {found : Partition → Bool} : ∀ {ps : List Partition} (result : ℕ),
    (∀ p ∈ ps, found p = false) → walk found result ps = .inr (result + (ps.map Partition.size).sum)
  | [], result, _ => by simp [walk]
  | p :: ps, result, h => by
    rw [walk, h p (List.mem_cons_self ..), if_neg Bool.false_ne_true,
      walk_of_notMem _ fun q hq => h q (List.mem_cons_of_mem _ hq), List.map_cons, List.sum_cons,
      Nat.add_assoc]

theorem walk_findIdx {found : Partition → Bool} : ∀ {ps : List Partition} (result : ℕ),
    ps.findIdx found < ps.length →
      walk found result ps = .inl (result + start (ps.map Partition.size) (ps.findIdx found))
  | [], _, h => by simp at h
  | p :: ps, result, h => by
    unfold walk
    cases hp : found p with
    | true => simp [List.findIdx_cons, hp, start]
    | false =>
      simp only [List.findIdx_cons, hp, cond_false, List.length_cons, Nat.add_lt_add_iff_right] at h
      rw [if_neg Bool.false_ne_true, walk_findIdx _ h]
      simp [List.findIdx_cons, hp, start_cons_succ, Nat.add_assoc]

section Regions

variable {b : SharedMemoryBuffer} (hinv : Inv b) (hfits : (sizes b).sum < w32)
  {t : MediaPlaybackType} {k : ℕ} {p : Partition} (hk : (partitions b t)[k]? = some p)

theorem getPlaybackTypePartition_eq (hk : (partitions b t)[k]? = some p) :
    getPlaybackTypePartition b t = some (partitions b t) := by
  cases t with
  | generic => rfl
  | webAudio => rfl
  | invalid => simp [partitions, getPlaybackTypePartition] at hk

theorem block_getElem (hk : (partitions b t)[k]? = some p) :
    (b.genericPartitions ++ b.webAudioPartitions)[block b t k]? = some p := by
  cases t with
  | generic =>
    have hlt := (List.getElem?_eq_some_iff.mp hk).1
    exact (List.getElem?_append_left hlt).trans hk
  | webAudio =>
    rw [block, List.getElem?_append_right (Nat.le_add_right _ _), Nat.add_sub_cancel_left]
    exact hk
  | invalid => simp [partitions, getPlaybackTypePartition] at hk

theorem sizes_block (hk : (partitions b t)[k]? = some p) :
    (sizes b)[block b t k]? = some (fullLen p) := by
  unfold sizes
  rw [List.getElem?_map, block_getElem hk]
  rfl

include hfits in
/-- No reduction happens in the walk. -/
theorem map_size_eq :
    b.genericPartitions.map Partition.size = b.genericPartitions.map fullLen ∧
      b.webAudioPartitions.map Partition.size = b.webAudioPartitions.map fullLen := by
  have hsize : ∀ q ∈ b.genericPartitions ++ b.webAudioPartitions, q.size = fullLen q := by
    intro q hq
    refine add32_of_lt (Nat.lt_of_le_of_lt ?_ hfits)
    exact List.single_le_sum (by simp) _ (List.mem_map_of_mem (f := fullLen) hq)
  exact ⟨List.map_congr_left fun q hq => hsize q (List.mem_append_left _ hq),
    List.map_congr_left fun q hq => hsize q (List.mem_append_right _ hq)⟩

include hfits hk in
theorem getDataPtrForPartition_eq (hfind : findId (partitions b t) p.id = k) :
    getDataPtrForPartition b t p.id = some (start (sizes b) (block b t k)) := by
  obtain ⟨hg, hw⟩ := map_size_eq hfits
  have hlt := (List.getElem?_eq_some_iff.mp hk).1
  unfold getDataPtrForPartition
  cases t with
  | generic =>
    have heq : (fun q : Partition => MediaPlaybackType.generic == .generic && q.id == p.id) =
        fun q => q.id == p.id := by
      funext q
      simp
    change b.genericPartitions.findIdx _ = k at hfind
    change k < b.genericPartitions.length at hlt
    rw [heq, walk_findIdx _ (by rw [hfind]; exact hlt), hfind, hg, Nat.zero_add, block, sizes,
      List.map_append, start_append_left _ (by simpa using Nat.le_of_lt hlt)]
    · exact fun h => MediaPlaybackType.noConfusion h
  | webAudio =>
    have heq : (fun q : Partition => MediaPlaybackType.webAudio == .webAudio && q.id == p.id) =
        fun q => q.id == p.id := by
      funext q
      simp
    change b.webAudioPartitions.findIdx _ = k at hfind
    change k < b.webAudioPartitions.length at hlt
    rw [walk_of_notMem _ fun q _ => by simp, heq]
    dsimp only
    rw [walk_findIdx _ (by rw [hfind]; exact hlt), hfind, hg, hw, Nat.zero_add, block, sizes,
      List.map_append, ← List.length_map (f := fullLen), start_append_right]
  | invalid => simp [partitions, getPlaybackTypePartition] at hk

include hk in
/-- The end of a partition is inside the buffer. -/
theorem start_block_le : start (sizes b) (block b t k) + fullLen p ≤ (sizes b).sum := by
  obtain ⟨hlt, heq⟩ := List.getElem?_eq_some_iff.mp (sizes_block hk)
  rw [← heq]
  exact start_add_le_sum hlt

include hfits hk in
/-- **The offset of a source**, by the place of the partition that is found for the id. -/
theorem getDataOffset_of_find (hfind : findId (partitions b t) p.id = k) (s : MediaSourceType) :
    getDataOffset b t p.id s =
      (part p s).map fun x => start (sizes b) (block b t k) + x.1 := by
  have hend := start_block_le hk
  unfold getDataOffset getDataPtr
  rw [getPlaybackTypePartition_eq hk, getDataPtrForPartition_eq hfits hk hfind]
  simp only [Option.bind_eq_bind, Option.bind_some, hfind, hk]
  unfold fullLen at hend
  cases s with
  | unknown => simp [part]
  | audio =>
    by_cases ha : p.dataBufferAudioLen = 0
    · simp [part, ha]
    · have hlt : start (sizes b) (block b t k) + p.dataBufferVideoLen < w32 := by omega
      simp [part, ha, Nat.mod_eq_of_lt hlt]
  | video =>
    by_cases hv : p.dataBufferVideoLen = 0
    · simp [part, hv]
    · have hlt : start (sizes b) (block b t k) < w32 := by omega
      simp [part, hv, Nat.mod_eq_of_lt hlt]

include hinv hk in
theorem getDataOffset_eq (hid : 0 ≤ p.id) (s : MediaSourceType) :
    getDataOffset b t p.id s =
      (part p s).map fun x => start (sizes b) (block b t k) + x.1 :=
  getDataOffset_of_find hinv.fits hk (findId_of_getElem (hinv.distinct t) hk hid) s

include hinv hk in
theorem getMaxDataLen_eq (hid : 0 ≤ p.id) (s : MediaSourceType) :
    getMaxDataLen b t p.id s = ((part p s).map Prod.snd).getD 0 := by
  have hfind := findId_of_getElem (hinv.distinct t) hk hid
  unfold getMaxDataLen
  rw [getPlaybackTypePartition_eq hk]
  simp only [hfind, hk]
  cases s with
  | unknown => rfl
  | audio => by_cases ha : p.dataBufferAudioLen = 0 <;> simp [part, ha]
  | video => by_cases hv : p.dataBufferVideoLen = 0 <;> simp [part, hv]

end Regions

/-! ## Isolation -/

/-- The id owns a partition of the type. -/
def Owns (b : SharedMemoryBuffer) (t : MediaPlaybackType) (id : ℤ) : Prop :=
  ∃ p ∈ partitions b t, p.id = id

theorem owns_iff {b : SharedMemoryBuffer} {t : MediaPlaybackType} {id : ℤ} :
    Owns b t id ↔ ∃ k, OwnsAt b t k id := by
  constructor
  · rintro ⟨p, hp, hid⟩
    obtain ⟨k, hk⟩ := List.mem_iff_getElem?.mp hp
    exact ⟨k, p, hk, hid⟩
  · rintro ⟨k, p, hk, hid⟩
    exact ⟨p, List.mem_of_getElem? hk, hid⟩

/-- The bytes `[getDataOffset, getDataOffset + getMaxDataLen)`; none when `getDataOffset` throws. -/
def region (b : SharedMemoryBuffer) (t : MediaPlaybackType) (id : ℤ) (s : MediaSourceType) :
    Set ℕ :=
  {a | ∃ o, getDataOffset b t id s = some o ∧ o ≤ a ∧ a < o + getMaxDataLen b t id s}

/-- What the sessions rely on in one state of the buffer. -/
structure Isolated (b : SharedMemoryBuffer) : Prop where
  owner_unique : ∀ t k k' id, 0 ≤ id → OwnsAt b t k id → OwnsAt b t k' id → k = k'
  mapped : ∀ t id, (mapPartition b t id).1 = true ↔ Owns (mapPartition b t id).2 t id
  refused : ∀ t id, (mapPartition b t id).1 = false →
    ∀ p ∈ partitions b t, p.id ≠ noIdAssigned ∧ p.id ≠ id
  agree : ∀ t id s, 0 ≤ id → Owns b t id →
    (getDataOffset b t id s = none ↔ getMaxDataLen b t id s = 0)
  within : ∀ t id s, 0 ≤ id → Owns b t id → region b t id s ⊆ {a | a < getSize b}
  disjoint : ∀ t id s t' id' s', 0 ≤ id → 0 ≤ id' → Owns b t id → Owns b t' id' →
    (t, id, s) ≠ (t', id', s') → Disjoint (region b t id s) (region b t' id' s')

/-- A byte of a region is in the part of its source, in the partition of its id. -/
theorem mem_region {b : SharedMemoryBuffer} (hinv : Inv b) {t : MediaPlaybackType} {k : ℕ}
    {p : Partition} (hk : (partitions b t)[k]? = some p) (hid : 0 ≤ p.id) {s : MediaSourceType}
    {a : ℕ} : a ∈ region b t p.id s ↔ ∃ x, part p s = some x ∧
      start (sizes b) (block b t k) + x.1 ≤ a ∧
        a < start (sizes b) (block b t k) + x.1 + x.2 := by
  unfold region
  rw [Set.mem_ofPred_eq, getDataOffset_eq hinv hk hid, getMaxDataLen_eq hinv hk hid]
  cases part p s with
  | none => simp
  | some x => simp

theorem mem_region_block {b : SharedMemoryBuffer} (hinv : Inv b) {t : MediaPlaybackType} {k : ℕ}
    {p : Partition} (hk : (partitions b t)[k]? = some p) (hid : 0 ≤ p.id) {s : MediaSourceType}
    {a : ℕ} (ha : a ∈ region b t p.id s) : start (sizes b) (block b t k) ≤ a ∧
      a < start (sizes b) (block b t k) + fullLen p := by
  obtain ⟨x, hx, hle, hlt⟩ := (mem_region hinv hk hid).mp ha
  have := part_le hx
  omega

/-- Partitions of different numbers share no byte. -/
theorem block_eq_of_mem {b : SharedMemoryBuffer} {t t' : MediaPlaybackType} {k k' : ℕ}
    {p p' : Partition} (hk : (partitions b t)[k]? = some p) (hk' : (partitions b t')[k']? = some p')
    {a : ℕ}
    (ha : start (sizes b) (block b t k) ≤ a ∧ a < start (sizes b) (block b t k) + fullLen p)
    (ha' : start (sizes b) (block b t' k') ≤ a ∧
      a < start (sizes b) (block b t' k') + fullLen p') : block b t k = block b t' k' := by
  obtain ⟨hlt, heq⟩ := List.getElem?_eq_some_iff.mp (sizes_block hk)
  obtain ⟨hlt', heq'⟩ := List.getElem?_eq_some_iff.mp (sizes_block hk')
  rw [← heq] at ha
  rw [← heq'] at ha'
  rcases Nat.lt_trichotomy (block b t k) (block b t' k') with h | h | h
  · have := start_add_le hlt h
    omega
  · exact h
  · have := start_add_le hlt' h
    omega

theorem block_inj {b : SharedMemoryBuffer} {t t' : MediaPlaybackType} {k k' : ℕ}
    {p p' : Partition} (hk : (partitions b t)[k]? = some p) (hk' : (partitions b t')[k']? = some p')
    (h : block b t k = block b t' k') : t = t' ∧ k = k' := by
  have hlt := (List.getElem?_eq_some_iff.mp hk).1
  have hlt' := (List.getElem?_eq_some_iff.mp hk').1
  cases t <;> cases t' <;>
    simp_all [block, partitions, getPlaybackTypePartition]
  omega

theorem isolated_of_inv {b : SharedMemoryBuffer} (hinv : Inv b) : Isolated b where
  owner_unique := by
    rintro t k k' id hid ⟨p, hk, hpid⟩ ⟨q, hk', hqid⟩
    exact hinv.distinct t k k' p q hk hk' (hpid.trans hqid.symm) (by rw [hpid]; exact hid)
  mapped := by
    intro t id
    obtain ⟨hown, heq⟩ | ⟨it, p, -, hp, -, heq⟩ | ⟨hnone, heq⟩ := mapPartition_cases b t id
    · rw [heq]
      exact ⟨fun _ => hown, fun _ => rfl⟩
    · rw [heq]
      refine ⟨fun _ => owns_iff.mpr ⟨it, { p with id := id }, ?_, rfl⟩, fun _ => rfl⟩
      dsimp only
      rw [partitions_reassign, if_pos rfl, getElem?_assign, if_pos rfl, hp]
      rfl
    · rw [heq]
      refine ⟨fun h => absurd h Bool.false_ne_true, ?_⟩
      rintro ⟨p, hp, hpid⟩
      exact absurd hpid (hnone p hp).1
  refused := by
    intro t id hfalse p hp
    obtain ⟨-, heq⟩ | ⟨it, q, -, -, -, heq⟩ | ⟨hnone, -⟩ := mapPartition_cases b t id
    · rw [heq] at hfalse
      cases hfalse
    · rw [heq] at hfalse
      cases hfalse
    · exact (hnone p hp).symm
  agree := by
    intro t id s hid hown
    obtain ⟨k, p, hk, rfl⟩ := owns_iff.mp hown
    rw [getDataOffset_eq hinv hk hid, getMaxDataLen_eq hinv hk hid]
    cases s with
    | unknown => simp [part]
    | audio => by_cases ha : p.dataBufferAudioLen = 0 <;> simp [part, ha]
    | video => by_cases hv : p.dataBufferVideoLen = 0 <;> simp [part, hv]
  within := by
    intro t id s hid hown a ha
    obtain ⟨k, p, hk, rfl⟩ := owns_iff.mp hown
    have hmem := mem_region_block hinv hk hid ha
    have hend := start_block_le hk
    rw [Set.mem_ofPred_eq, getSize, hinv.len]
    omega
  disjoint := by
    intro t id s t' id' s' hid hid' hown hown' hne
    obtain ⟨k, p, hk, rfl⟩ := owns_iff.mp hown
    obtain ⟨k', p', hk', rfl⟩ := owns_iff.mp hown'
    rw [Set.disjoint_left]
    intro a ha ha'
    have hblock := block_eq_of_mem hk hk' (mem_region_block hinv hk hid ha)
      (mem_region_block hinv hk' hid' ha')
    obtain ⟨rfl, rfl⟩ := block_inj hk hk' hblock
    rw [hk] at hk'
    cases hk'
    have hs : s ≠ s' := fun hs => hne (by rw [hs])
    -- one partition, two source types: the audio part starts where the video part ends
    obtain ⟨x, hx, hle, hlt⟩ := (mem_region hinv hk hid).mp ha
    obtain ⟨x', hx', hle', hlt'⟩ := (mem_region hinv hk hid).mp ha'
    unfold part at hx hx'
    cases s <;> cases s' <;> simp only [reduceCtorEq, ne_eq, not_true_eq_false] at hx hx' hs
    · split_ifs at hx hx'
      cases hx
      cases hx'
      dsimp only at *
      omega
    · split_ifs at hx hx'
      cases hx
      cases hx'
      dsimp only at *
      omega

/-- **Isolation of the sessions.** In every state that calls with non-negative ids reach, ids own at
most one partition of a type and mapping fails only when all are taken; the regions of different
owners and source types lie in the buffer and share no byte; and the region of an id stays where it
is until that id is unmapped. -/
theorem partitions_isolated {sys : Sys} {numOfPlaybacks numOfWebAudioPlayers : ℕ}
    {b₀ b : SharedMemoryBuffer} {ops : List Op}
    (hfit : totalSize numOfPlaybacks numOfWebAudioPlayers < w32)
    (hcreate : create sys numOfPlaybacks numOfWebAudioPlayers = some b₀)
    (hrun : Run step NonNegId b₀ ops b) :
    Isolated b ∧ ∀ (ops' : List Op) (b' : SharedMemoryBuffer), Run step NonNegId b ops' b' →
      ∀ t id, 0 ≤ id → Owns b t id → Op.unmapPartition t id ∉ ops' →
        Owns b' t id ∧ ∀ s, getDataOffset b' t id s = getDataOffset b t id s ∧
          getMaxDataLen b' t id s = getMaxDataLen b t id s := by
  have hinv := run_inv (create_inv hfit hcreate) hrun
  refine ⟨isolated_of_inv hinv, ?_⟩
  intro ops' b' hrun' t id hid hown hops
  have hinv' := run_inv hinv hrun'
  obtain ⟨k, hownsAt⟩ := owns_iff.mp hown
  obtain ⟨hsame, p', hk', hpid'⟩ := run_keeps hrun' hinv hid hops hownsAt
  obtain ⟨p, hk, rfl⟩ := hownsAt
  refine ⟨owns_iff.mpr ⟨k, p', hk', hpid'⟩, fun s => ?_⟩
  have hlens : lens p' = lens p := by
    have := congrArg (fun l => l[k]?) (hsame.lens t)
    simpa [hk, hk'] using this
  have hblock : block b' t k = block b t k := by
    have hlen := congrArg List.length (hsame.lens .generic)
    rw [List.length_map, List.length_map] at hlen
    cases t with
    | webAudio => exact congrArg (· + k) hlen
    | generic => rfl
    | invalid => rfl
  have hpart : part p' s = part p s := by
    unfold lens at hlens
    rw [Prod.mk.injEq] at hlens
    unfold part
    rw [hlens.1, hlens.2]
  rw [← hpid', getDataOffset_eq hinv' hk' (by rw [hpid']; exact hid),
    getMaxDataLen_eq hinv' hk' (by rw [hpid']; exact hid), hpid', getDataOffset_eq hinv hk hid,
    getMaxDataLen_eq hinv hk hid, hblock, hpart, hsame.sizes_eq]
  exact ⟨rfl, rfl⟩

/-- Two generic partitions and a web audio one; the sessions `5` and `7` share the memory with the
web audio player `5`. -/
theorem partitions_isolated_three : ∃ b₀ b,
    create ⟨true, true, true, true⟩ 2 1 = some b₀ ∧
      Run step NonNegId b₀ [.mapPartition .generic 5, .mapPartition .webAudio 5,
        .mapPartition .generic 7] b ∧
      Isolated b ∧ getDataOffset b .generic 7 .audio = some 15728640 ∧
        getDataOffset b .webAudio 5 .audio = some 16777216 := by
  have hcreate : create ⟨true, true, true, true⟩ 2 1 = some
      ⟨[⟨-1, 1048576, 7340032⟩, ⟨-1, 1048576, 7340032⟩], [⟨-1, 10240, 0⟩], 16787456⟩ := by decide
  have hrun : Run step NonNegId
      ⟨[⟨-1, 1048576, 7340032⟩, ⟨-1, 1048576, 7340032⟩], [⟨-1, 10240, 0⟩], 16787456⟩
      [.mapPartition .generic 5, .mapPartition .webAudio 5, .mapPartition .generic 7]
      ⟨[⟨5, 1048576, 7340032⟩, ⟨7, 1048576, 7340032⟩], [⟨5, 10240, 0⟩], 16787456⟩ :=
    Run.of_runsIf (by decide)
  exact ⟨_, _, hcreate, hrun, (partitions_isolated (by decide) hcreate hrun).1, by decide,
    by decide⟩

end Rialto.Shm.Isolation

import Rialto.Shm.Isolation

/-! # The size of the shared memory and the offsets into it

`calculateBufferSize` adds the lengths of the partitions with an `int` and `getSize` returns 32 bits
of the sum; `getDataOffset` walks over the partitions with a pointer.

* `Exact`: both are what a sum without overflow gives.
* `sizes_exact_iff`: they are, in every state that calls of `mapPartition` and `unmapPartition`
  reach, exactly when the partitions asked for take less than `2 ^ 32` bytes. -/

namespace Rialto.Shm.Sizes

open Rialto.Lib.Layout Rialto.Lib.Runs Rialto.Lib.Word Rialto.Shm.Buffer Rialto.Shm.Isolation
  Rialto.Shm.Mapping

/-- The sizes are the sum of all lengths, and the offset of a source of a mapped partition is the
sum of the lengths before it. -/
structure Exact (b : SharedMemoryBuffer) : Prop where
  bufferSize : calculateBufferSize b.genericPartitions b.webAudioPartitions = (sizes b).sum
  size : getSize b = (sizes b).sum
  offset : ∀ t k p, (partitions b t)[k]? = some p → p.id ≠ noIdAssigned →
    ∀ s offset, getDataOffset b t p.id s = some offset →
      ∃ x, part p s = some x ∧ offset = start (sizes b) (block b t k) + x.1

/-- No two partitions of a type are mapped to one id. -/
def MappedOnce (b : SharedMemoryBuffer) : Prop :=
  ∀ t, DistinctOn (· ≠ noIdAssigned) (partitions b t)

section states

variable {b b' : SharedMemoryBuffer}

theorem MappedOnce.reassign (h : MappedOnce b) {t : MediaPlaybackType} {it : ℕ} {id : ℤ}
    (hid : id ≠ noIdAssigned → ∀ p ∈ partitions b t, p.id ≠ id) :
    MappedOnce (reassign b t it id) := by
  intro t'
  rw [partitions_reassign]
  split_ifs with ht
  · exact (h t).assign hid
  · exact h t'

/-- What a call keeps, whatever the id. -/
theorem step_keeps_layout (h : MappedOnce b) {op : Op} (hstep : step b op = some b') :
    MappedOnce b' ∧ SameLayout b b' := by
  cases op with
  | mapPartition t id =>
    cases hstep
    obtain ⟨-, heq⟩ | ⟨it, p, hnew, -, -, heq⟩ | ⟨-, heq⟩ := mapPartition_cases b t id
    · rw [heq]
      exact ⟨h, SameLayout.refl b⟩
    · rw [heq]
      exact ⟨h.reassign fun _ => hnew, sameLayout_reassign b t it id⟩
    · rw [heq]
      exact ⟨h, SameLayout.refl b⟩
  | unmapPartition t id =>
    cases hstep
    obtain ⟨-, heq⟩ | ⟨it, p, -, -, heq⟩ := unmapPartition_cases b t id
    · rw [heq]
      exact ⟨h, SameLayout.refl b⟩
    · rw [heq]
      exact ⟨h.reassign fun hne => absurd rfl hne, sameLayout_reassign b t it noIdAssigned⟩

theorem run_keeps_layout {ops : List Op} (h : MappedOnce b)
    (hrun : Run step (fun _ _ => True) b ops b') : MappedOnce b' ∧ SameLayout b b' := by
  refine hrun.invariant (fun b' => MappedOnce b' ∧ SameLayout b b') ?_ ⟨h, SameLayout.refl b⟩
  intro c op c' hc _ hstep
  obtain ⟨hmapped, hsame⟩ := step_keeps_layout hc.1 hstep
  exact ⟨hmapped, hc.2.trans hsame⟩

theorem SameLayout.fullLen_eq (h : SameLayout b b') :
    b'.genericPartitions.map fullLen = b.genericPartitions.map fullLen ∧
      b'.webAudioPartitions.map fullLen = b.webAudioPartitions.map fullLen := by
  have hcomp : ∀ ps : List Partition, ps.map fullLen = (ps.map lens).map fun x => x.1 + x.2 := by
    intro ps
    rw [List.map_map]
    rfl
  have hg : b'.genericPartitions.map lens = b.genericPartitions.map lens := h.lens .generic
  have hw : b'.webAudioPartitions.map lens = b.webAudioPartitions.map lens := h.lens .webAudio
  rw [hcomp, hcomp, hcomp, hcomp, hg, hw]
  exact ⟨rfl, rfl⟩

theorem SameLayout.calculateBufferSize_eq (h : SameLayout b b') :
    calculateBufferSize b'.genericPartitions b'.webAudioPartitions =
      calculateBufferSize b.genericPartitions b.webAudioPartitions := by
  obtain ⟨hg, hw⟩ := SameLayout.fullLen_eq h
  unfold calculateBufferSize
  rw [accumulate_eq, accumulate_eq, accumulate_eq, accumulate_eq, hg, hw]

/-- The offsets are exact when everything fits. -/
theorem exact_offset (hmapped : MappedOnce b) (hfits : (sizes b).sum < w32)
    {t : MediaPlaybackType} {k : ℕ} {p : Partition} (hk : (partitions b t)[k]? = some p)
    (hid : p.id ≠ noIdAssigned) {s : Media.Segment.MediaSourceType} {offset : ℕ}
    (hoffset : getDataOffset b t p.id s = some offset) :
    ∃ x, part p s = some x ∧ offset = start (sizes b) (block b t k) + x.1 := by
  rw [getDataOffset_of_find hfits hk ((hmapped t).findId hk hid)] at hoffset
  obtain ⟨x, hx, rfl⟩ := Option.map_eq_some_iff.mp hoffset
  exact ⟨x, hx, rfl⟩

end states

/-- **Exact sizes**: a buffer that is constructed has exact sizes and offsets, whatever is mapped
and unmapped, exactly when all partitions together take less than `2 ^ 32` bytes. -/
theorem sizes_exact_iff {sys : Sys} {numOfPlaybacks numOfWebAudioPlayers : ℕ}
    {b₀ : SharedMemoryBuffer} (hn : numOfPlaybacks < w32) (hm : numOfWebAudioPlayers < w32)
    (hcreate : create sys numOfPlaybacks numOfWebAudioPlayers = some b₀) :
    (∀ ops b, Run step (fun _ _ => True) b₀ ops b → Exact b) ↔
      totalSize numOfPlaybacks numOfWebAudioPlayers < w32 := by
  obtain ⟨hsum, hlen, hoff, hfree⟩ := create_eq hn hm hcreate
  rw [← hsum]
  constructor
  · intro hall
    have hsize := (hall [] b₀ (Run.nil b₀)).size
    rw [sum_sizes] at hsize
    rw [← hsize]
    show b₀.dataBufferLen < w32
    rw [hlen]
    exact Nat.mod_lt _ (by decide)
  · intro hfit ops b hrun
    have hmapped : MappedOnce b₀ := fun t i j p q hi _ _ hid =>
      absurd (hfree t p (List.mem_of_getElem? hi)) hid
    obtain ⟨hmapped, hsame⟩ := run_keeps_layout hmapped hrun
    have htotal : (sizes b).sum =
        (b₀.genericPartitions.map fullLen).sum + (b₀.webAudioPartitions.map fullLen).sum := by
      rw [hsame.sizes_eq, sum_sizes]
    have hbuffer := calculateBufferSize_eq hfit hoff
    refine ⟨?_, ?_, fun t k p hk hid s offset hoffset => ?_⟩
    · rw [SameLayout.calculateBufferSize_eq hsame, htotal, hbuffer]
    · show b.dataBufferLen = _
      rw [hsame.dataBufferLen, hlen, htotal, hbuffer, Nat.mod_eq_of_lt hfit]
    · exact exact_offset hmapped (by rw [htotal]; exact hfit) hk hid hoffset

/-- Two generic partitions and a web audio one. -/
theorem sizes_exact_three : ∃ b₀, create ⟨true, true, true, true⟩ 2 1 = some b₀ ∧
    b₀.dataBufferLen = 16787456 ∧ ∀ ops b, Run step (fun _ _ => True) b₀ ops b → Exact b := by
  have hcreate : create ⟨true, true, true, true⟩ 2 1 = some
      ⟨[⟨-1, 1048576, 7340032⟩, ⟨-1, 1048576, 7340032⟩], [⟨-1, 10240, 0⟩], 16787456⟩ := by decide
  exact ⟨_, hcreate, rfl, (sizes_exact_iff (by decide) (by decide) hcreate).mpr (by decide)⟩

/-- The 512 generic partitions take `2 ^ 32` bytes, which the `int` has as `0`: the memory has room
for the web audio partition only. -/
theorem size_of_512_playbacks : ¬∀ (sys : Sys) (numOfPlaybacks numOfWebAudioPlayers : ℕ) b₀,
    numOfPlaybacks < w32 → numOfWebAudioPlayers < w32 →
      create sys numOfPlaybacks numOfWebAudioPlayers = some b₀ →
        ∀ ops b, Run step (fun _ _ => True) b₀ ops b → Exact b := by
  intro hall
  have hcreate : (create ⟨true, true, true, true⟩ 512 1).map getSize = some 10240 := by
    decide +kernel
  obtain ⟨b₀, hcreate, hsize⟩ := Option.map_eq_some_iff.mp hcreate
  have hexact := hall ⟨true, true, true, true⟩ 512 1 b₀ (by decide) (by decide) hcreate [] b₀
    (Run.nil b₀)
  have hsum := (create_eq (by decide) (by decide) hcreate).1
  rw [← sum_sizes, ← hexact.size, hsize] at hsum
  revert hsum
  decide

end Rialto.Shm.Sizes

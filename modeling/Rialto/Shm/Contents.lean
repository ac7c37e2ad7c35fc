import Rialto.Lib.Memory
import Rialto.Shm.Isolation

/-! # What the sessions hold in the shared memory

A session writes into the regions that its sources have in the shared memory, and the server clears
one of them (`clearData`) before it asks for new data. All sessions have the same memory.

* `clearData_eq`: what `clearData` clears, and when it returns `true`.
* `contents_step`: what a step does to the contents of a region.
* `region_is_private`: in every run the contents of a region come from the steps of its own session
  and source alone, as if it were a memory of its own. -/

namespace Rialto.Shm.Contents

open Rialto.Lib.Runs Rialto.Lib.Memory Rialto.Lib.Layout Rialto.Media.Segment Rialto.Shm.Buffer
  Rialto.Shm.Mapping Rialto.Shm.Isolation

/-! ## `clearData` -/

def clearData (b : SharedMemoryBuffer) (memory : Mem UInt8) (playbackType : MediaPlaybackType)
    (id : ℤ) (mediaSourceType : MediaSourceType) : Bool × Mem UInt8 :=
  match getPlaybackTypePartition b playbackType with
  | none => (false, memory)
  | some partitions =>
    match partitions[findId partitions id]? with
    | none => (false, memory)
    | some partition =>
      match getDataPtrForPartition b playbackType id with
      | none => (false, memory)
      | some partitionDataPtr =>
        match mediaSourceType with
        | .audio =>
          (true, fill memory (partitionDataPtr + partition.dataBufferVideoLen) 0
            partition.dataBufferAudioLen)
        | .video => (true, fill memory partitionDataPtr 0 partition.dataBufferVideoLen)
        | .unknown => (false, memory)

/-- The start of a region; one that `getDataOffset` throws for is empty. -/
def offset (b : SharedMemoryBuffer) (t : MediaPlaybackType) (id : ℤ) (s : MediaSourceType) : ℕ :=
  (getDataOffset b t id s).getD 0

section ClearData

variable {b : SharedMemoryBuffer} {t : MediaPlaybackType} {id : ℤ} {k : ℕ}

/-- **`clearData` of a session that has a partition** clears the region of the source. -/
theorem clearData_eq (hinv : Inv b) (hid : 0 ≤ id) (howns : OwnsAt b t k id) (memory : Mem UInt8)
    (s : MediaSourceType) : clearData b memory t id s =
      (decide (s ≠ .unknown), fill memory (offset b t id s) 0 (getMaxDataLen b t id s)) := by
  obtain ⟨p, hk, rfl⟩ := howns
  have hfind := findId_of_getElem (hinv.distinct t) hk hid
  unfold clearData offset
  rw [getPlaybackTypePartition_eq hk, getDataOffset_eq hinv hk hid, getMaxDataLen_eq hinv hk hid]
  dsimp only
  rw [hfind, hk]
  dsimp only
  rw [getDataPtrForPartition_eq hinv.fits hk hfind]
  cases s with
  | unknown => simp [part, fill]
  | audio => by_cases ha : p.dataBufferAudioLen = 0 <;> simp [part, ha, fill]
  | video => by_cases hv : p.dataBufferVideoLen = 0 <;> simp [part, hv, fill]

/-- Without a partition it clears nothing. -/
theorem clearData_of_notOwns (hnot : ¬Owns b t id) (memory : Mem UInt8) (s : MediaSourceType) :
    clearData b memory t id s = (false, memory) := by
  unfold clearData
  cases hps : getPlaybackTypePartition b t with
  | none => rfl
  | some ps =>
    have hnone : ps[findId ps id]? = none := by
      rw [List.getElem?_eq_none_iff]
      refine Nat.le_of_not_lt fun hlt => hnot ?_
      obtain ⟨p, hp, hpid⟩ := getElem_findId (Nat.ne_of_lt hlt)
      refine ⟨p, ?_, hpid⟩
      unfold partitions
      rw [hps]
      exact List.mem_of_getElem? hp
    dsimp only
    rw [hnone]

end ClearData

/-! ## The sessions and their memory -/

structure State where
  buffer : SharedMemoryBuffer
  memory : Mem UInt8

inductive Act
  | map (op : Op)
  | clearData (playbackType : MediaPlaybackType) (id : ℤ) (mediaSourceType : MediaSourceType)
  | write (playbackType : MediaPlaybackType) (id : ℤ) (mediaSourceType : MediaSourceType)
      (start : ℕ) (bytes : List UInt8)

instance (b : SharedMemoryBuffer) (t : MediaPlaybackType) (id : ℤ) : Decidable (Owns b t id) :=
  inferInstanceAs (Decidable (∃ p ∈ partitions b t, p.id = id))

/-- A session writes inside the region of one of its sources only. -/
def step (s : State) : Act → Option State
  | .map op => (Buffer.step s.buffer op).map fun b => { s with buffer := b }
  | .clearData t id source =>
    some { s with memory := (Contents.clearData s.buffer s.memory t id source).2 }
  | .write t id source start bytes =>
    if Owns s.buffer t id ∧ start + bytes.length ≤ getMaxDataLen s.buffer t id source then
      some { s with memory := write s.memory (offset s.buffer t id source + start) bytes }
    else none

/-- Steps with non-negative ids. -/
def Valid (_ : State) : Act → Prop
  | .map op => 0 ≤ op.id
  | .clearData _ id _ => 0 ≤ id
  | .write _ id _ _ _ => 0 ≤ id

instance : ∀ s a, Decidable (Valid s a)
  | _, .map op => inferInstanceAs (Decidable (0 ≤ op.id))
  | _, .clearData _ id _ => inferInstanceAs (Decidable (0 ≤ id))
  | _, .write _ id _ _ _ => inferInstanceAs (Decidable (0 ≤ id))

/-- What a source of a session holds. -/
def contents (s : State) (t : MediaPlaybackType) (id : ℤ) (source : MediaSourceType) : List UInt8 :=
  readRange s.memory (offset s.buffer t id source) (getMaxDataLen s.buffer t id source)

/-- The steps about a source of a session. -/
def Act.about (t : MediaPlaybackType) (id : ℤ) (source : MediaSourceType) : Act → Bool
  | .map _ => false
  | .clearData t' id' source' => decide ((t', id', source') = (t, id, source))
  | .write t' id' source' _ _ => decide ((t', id', source') = (t, id, source))

/-- What a step does to a memory that only the source has. -/
def alone (bytes : List UInt8) : Act → List UInt8
  | .map _ => bytes
  | .clearData _ _ _ => List.replicate bytes.length 0
  | .write _ _ _ start new => bytes.take start ++ new ++ bytes.drop (start + new.length)

section Steps

variable {s s' : State} {t t' : MediaPlaybackType} {id id' : ℤ} {k : ℕ}
  {source source' : MediaSourceType}

theorem length_contents (s : State) (t : MediaPlaybackType) (id : ℤ) (source : MediaSourceType) :
    (contents s t id source).length = getMaxDataLen s.buffer t id source := length_readRange ..

/-- The bytes between the offset and its end are those of the region. -/
theorem mem_region_offset (hinv : Inv s.buffer) (hid : 0 ≤ id) (howns : Owns s.buffer t id) {a : ℕ}
    (hle : offset s.buffer t id source ≤ a)
    (hlt : a < offset s.buffer t id source + getMaxDataLen s.buffer t id source) :
    a ∈ region s.buffer t id source := by
  unfold offset at hle hlt
  cases ho : getDataOffset s.buffer t id source with
  | none =>
    have hzero := ((isolated_of_inv hinv).agree t id source hid howns).mp ho
    rw [ho, hzero] at hlt
    rw [ho] at hle
    omega
  | some o =>
    rw [ho] at hle hlt
    exact ⟨o, ho, hle, hlt⟩

/-- Writing in one region changes nothing in another. -/
theorem contents_of_other (hinv : Inv s.buffer) (hid : 0 ≤ id) (hid' : 0 ≤ id')
    (howns : Owns s.buffer t id) (howns' : Owns s.buffer t' id')
    (hne : (t', id', source') ≠ (t, id, source)) {i : ℕ} {bytes : List UInt8}
    (hfits : i + bytes.length ≤ getMaxDataLen s.buffer t' id' source') :
    contents { s with memory := write s.memory (offset s.buffer t' id' source' + i) bytes }
      t id source = contents s t id source := by
  refine readRange_congr fun a hle hlt => write_of_notMem ?_
  have ha := mem_region_offset hinv hid howns hle hlt
  have hdisjoint := (isolated_of_inv hinv).disjoint t id source t' id' source' hid hid' howns howns'
    (Ne.symm hne)
  by_contra hin
  rw [not_or] at hin
  refine Set.disjoint_left.mp hdisjoint ha (mem_region_offset hinv hid' howns' ?_ ?_)
  · omega
  · omega

/-- Partitions that do not move keep their regions. -/
theorem region_stays {b b' : SharedMemoryBuffer} (hinv : Inv b) (hinv' : Inv b')
    (hsame : SameLayout b b') (hid : 0 ≤ id) (howns : OwnsAt b t k id) (howns' : OwnsAt b' t k id)
    (source : MediaSourceType) : offset b' t id source = offset b t id source ∧
      getMaxDataLen b' t id source = getMaxDataLen b t id source := by
  obtain ⟨p, hk, rfl⟩ := howns
  obtain ⟨p', hk', hpid'⟩ := howns'
  have hlens : lens p' = lens p := by
    have hmap := congrArg (fun l => l[k]?) (hsame.lens t)
    simpa [hk, hk'] using hmap
  have hblock : block b' t k = block b t k := by
    have hlen := congrArg List.length (hsame.lens .generic)
    rw [List.length_map, List.length_map] at hlen
    cases t with
    | webAudio => exact congrArg (· + k) hlen
    | generic => rfl
    | invalid => rfl
  have hpart : part p' source = part p source := by
    unfold lens at hlens
    rw [Prod.mk.injEq] at hlens
    unfold part
    rw [hlens.1, hlens.2]
  unfold offset
  rw [← hpid', getDataOffset_eq hinv' hk' (by rw [hpid']; exact hid),
    getMaxDataLen_eq hinv' hk' (by rw [hpid']; exact hid), hpid', getDataOffset_eq hinv hk hid,
    getMaxDataLen_eq hinv hk hid, hblock, hpart, hsame.sizes_eq]
  exact ⟨rfl, rfl⟩

theorem contents_clearData (hinv : Inv s.buffer) (hid : 0 ≤ id) (howns : OwnsAt s.buffer t k id) :
    contents { s with memory := (Contents.clearData s.buffer s.memory t id source).2 } t id source =
      List.replicate (contents s t id source).length 0 := by
  rw [clearData_eq hinv hid howns, length_contents]
  exact readRange_fill ..

/-- **What a step does to the contents of a region**, if it does not unmap it. -/
theorem contents_step (source : MediaSourceType) {a : Act} (hinv : Inv s.buffer) (hid : 0 ≤ id)
    (howns : OwnsAt s.buffer t k id) (hvalid : Valid s a)
    (hkeep : a ≠ .map (.unmapPartition t id)) (hstep : step s a = some s') :
    Inv s'.buffer ∧ OwnsAt s'.buffer t k id ∧ contents s' t id source =
      if a.about t id source then alone (contents s t id source) a else contents s t id source := by
  have hown : Owns s.buffer t id := owns_iff.mpr ⟨k, howns⟩
  cases a with
  | map op =>
    obtain ⟨b, hb, rfl⟩ := Option.map_eq_some_iff.mp hstep
    obtain ⟨hinv', hsame, hstays⟩ := step_keeps hinv hvalid hb
    have howns' := hstays t k id hid (fun heq => hkeep (congrArg Act.map heq)) howns
    obtain ⟨hoffset, hlen⟩ := region_stays hinv hinv' hsame hid howns howns' source
    refine ⟨hinv', howns', ?_⟩
    show readRange s.memory _ _ = readRange s.memory _ _
    rw [hoffset, hlen]
  | clearData t' id' source' =>
    cases hstep
    refine ⟨hinv, howns, ?_⟩
    unfold Act.about
    by_cases heq : (t', id', source') = (t, id, source)
    · rw [if_pos (decide_eq_true heq)]
      simp only [Prod.mk.injEq] at heq
      obtain ⟨rfl, rfl, rfl⟩ := heq
      exact contents_clearData hinv hid howns
    · rw [if_neg (by simpa using heq)]
      by_cases hown' : Owns s.buffer t' id'
      · obtain ⟨k', howns'⟩ := owns_iff.mp hown'
        rw [clearData_eq hinv hvalid howns']
        have hall : 0 + (List.replicate (getMaxDataLen s.buffer t' id' source')
            (0 : UInt8)).length ≤ getMaxDataLen s.buffer t' id' source' := by
          simp only [List.length_replicate, Nat.zero_add, Nat.le_refl]
        exact contents_of_other hinv hid hvalid hown hown' heq hall
      · rw [clearData_of_notOwns hown']
  | write t' id' source' i bytes =>
    obtain ⟨⟨hown', hfits⟩, heq⟩ := Option.ite_none_right_eq_some.mp hstep
    cases heq
    refine ⟨hinv, howns, ?_⟩
    unfold Act.about
    by_cases heq : (t', id', source') = (t, id, source)
    · rw [if_pos (decide_eq_true heq)]
      simp only [Prod.mk.injEq] at heq
      obtain ⟨rfl, rfl, rfl⟩ := heq
      exact readRange_write_inside _ _ hfits
    · rw [if_neg (by simpa using heq)]
      exact contents_of_other hinv hid hvalid hown hown' heq hfits

theorem inv_step {a : Act} (hinv : Inv s.buffer) (hvalid : Valid s a) (hstep : step s a = some s') :
    Inv s'.buffer := by
  cases a with
  | map op =>
    obtain ⟨b, hb, rfl⟩ := Option.map_eq_some_iff.mp hstep
    exact (step_keeps hinv hvalid hb).1
  | clearData t id source =>
    cases hstep
    exact hinv
  | write t id source start bytes =>
    obtain ⟨-, heq⟩ := Option.ite_none_right_eq_some.mp hstep
    cases heq
    exact hinv

end Steps

/-- **A region is private.** Whatever the other sessions and sources do to the memory that all of
them have, what a source of a session holds comes from the steps of that source alone. -/
theorem region_is_private {sys : Sys} {numOfPlaybacks numOfWebAudioPlayers : ℕ}
    {b₀ : SharedMemoryBuffer} {memory : Mem UInt8} {s s' : State} {before as : List Act}
    (hfit : totalSize numOfPlaybacks numOfWebAudioPlayers < Lib.Word.w32)
    (hcreate : create sys numOfPlaybacks numOfWebAudioPlayers = some b₀)
    (hbefore : Run step Valid ⟨b₀, memory⟩ before s) {t : MediaPlaybackType} {id : ℤ} (hid : 0 ≤ id)
    (howns : Owns s.buffer t id) (hrun : Run step Valid s as s')
    (hkeep : Act.map (.unmapPartition t id) ∉ as) (source : MediaSourceType) :
    contents s' t id source =
      (as.filter (Act.about t id source)).foldl alone (contents s t id source) := by
  have hinv : Inv s.buffer := hbefore.invariant (fun s => Inv s.buffer)
    (fun _ _ _ hs hvalid hstep => inv_step hs hvalid hstep) (create_inv hfit hcreate)
  obtain ⟨k, hownsAt⟩ := owns_iff.mp howns
  clear howns hbefore hcreate hfit
  induction hrun with
  | nil s => rfl
  | @cons s s' u a as hvalid hstep rest ih =>
    rw [List.mem_cons, not_or] at hkeep
    obtain ⟨hinv', howns', hcontents⟩ :=
      contents_step source hinv hid hownsAt hvalid (Ne.symm hkeep.1) hstep
    rw [ih hkeep.2 hinv' howns', hcontents]
    by_cases habout : a.about t id source = true
    · rw [if_pos habout, List.filter_cons_of_pos habout, List.foldl_cons]
    · rw [if_neg habout, List.filter_cons_of_neg habout]

/-- Two sessions; one writes into its video region and clears it, the other writes its own in
between. -/
def inTurn : List Act :=
  [.write .generic 5 .video 0 [1, 2, 3], .write .generic 7 .video 0 [4, 5],
    .clearData .generic 7 .audio, .clearData .generic 5 .video, .map (.unmapPartition .generic 5)]

theorem region_is_private_inTurn : ∃ b₀ s s',
    create ⟨true, true, true, true⟩ 2 0 = some b₀ ∧
    Run step Valid ⟨b₀, fun _ => 9⟩ [.map (.mapPartition .generic 5),
      .map (.mapPartition .generic 7)] s ∧
    Run step Valid s inTurn s' ∧
    contents s' .generic 7 .video = [4, 5] ++ (contents s .generic 7 .video).drop 2 := by
  have hcreate : create ⟨true, true, true, true⟩ 2 0 = some
      ⟨[⟨-1, 1048576, 7340032⟩, ⟨-1, 1048576, 7340032⟩], [], 16777216⟩ := by decide
  have hbefore : Run step Valid
      ⟨⟨[⟨-1, 1048576, 7340032⟩, ⟨-1, 1048576, 7340032⟩], [], 16777216⟩, fun _ => 9⟩
      [.map (.mapPartition .generic 5), .map (.mapPartition .generic 7)]
      ⟨⟨[⟨5, 1048576, 7340032⟩, ⟨7, 1048576, 7340032⟩], [], 16777216⟩, fun _ => 9⟩ :=
    Run.cons (by decide) rfl (Run.cons (by decide) rfl (Run.nil _))
  have hrun : Run step Valid
      ⟨⟨[⟨5, 1048576, 7340032⟩, ⟨7, 1048576, 7340032⟩], [], 16777216⟩, fun _ => 9⟩ inTurn _ :=
    Run.of_runsIf rfl
  refine ⟨_, _, _, hcreate, hbefore, hrun, ?_⟩
  have hkeep : Act.map (.unmapPartition .generic 7) ∉ inTurn := by simp [inTurn]
  have hprivate : contents _ .generic 7 .video = _ :=
    region_is_private (by decide) hcreate hbefore (by decide) (by decide) hrun hkeep .video
  rw [hprivate]
  simp [inTurn, Act.about, alone]

end Rialto.Shm.Contents

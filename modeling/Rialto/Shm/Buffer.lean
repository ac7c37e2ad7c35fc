import Rialto.Lib.Runs
import Rialto.Lib.Word
import Rialto.Media.Segment

/-! # The shared memory buffer of the session server

`SharedMemoryBuffer` cuts one shared memory into partitions: the generic ones, each with a video and
an audio part, and behind them the web audio ones. A session owns a partition by having its id in
it. Offsets are worked out at every call by walking the two vectors from the start of the buffer.

Pointers into the buffer are offsets from `m_dataBuffer`. `uint32_t` and `size_t` values are natural
numbers with the reductions written out, an `int` is an integer. -/

namespace Rialto.Shm.Buffer

open Rialto.Lib.Runs Rialto.Lib.Word Rialto.Media.Segment

/-- `ISharedMemoryBuffer::MediaPlaybackType`; `invalid` stands for the values that an `enum` can
hold besides its enumerators, for which the functions have a branch of their own. -/
inductive MediaPlaybackType
  | generic
  | webAudio
  | invalid
  deriving DecidableEq, Repr

/-- `NO_ID_ASSIGNED`. -/
def noIdAssigned : ℤ := -1

def videoRegionSize : ℕ := 7 * 1024 * 1024

def audioRegionSize : ℕ := 1 * 1024 * 1024

def webAudioRegionSize : ℕ := 10 * 1024

structure Partition where
  id : ℤ
  dataBufferAudioLen : ℕ
  dataBufferVideoLen : ℕ
  deriving DecidableEq, Repr

/-- The partition as built by `calculatePartitionSize`. -/
def emptyPartition : MediaPlaybackType → Option Partition
  | .generic => some ⟨noIdAssigned, audioRegionSize, videoRegionSize⟩
  | .webAudio => some ⟨noIdAssigned, webAudioRegionSize, 0⟩
  | .invalid => none

/-- `calculatePartitionSize`: the number comes as an `int`, and a negative one is refused by
`std::vector` (`none`). -/
def calculatePartitionSize (playbackType : MediaPlaybackType) (num : ℤ) : Option (List Partition) :=
  match emptyPartition playbackType with
  | some p => if num < 0 then none else some (List.replicate num.toNat p)
  | none => some []

structure SharedMemoryBuffer where
  genericPartitions : List Partition
  webAudioPartitions : List Partition
  dataBufferLen : ℕ
  deriving DecidableEq, Repr

/-! ## Construction -/

/-- The number of values of a `size_t`. -/
abbrev w64 : ℕ := 18446744073709551616

/-- Conversion to a 32-bit `int`. -/
def toInt (x : ℕ) : ℤ :=
  if x % w32 < 2147483648 then (x % w32 : ℕ) else ((x % w32 : ℕ) : ℤ) - w32

/-- Conversion of an `int` to `size_t`. -/
def toSize (x : ℤ) : ℕ := (x % w64).toNat

/-- One of the two sums of `calculateBufferSize`. `std::accumulate` starts from the literal `0`, so
its accumulator is an `int`, whatever the lambda takes and returns. -/
def accumulate (partitions : List Partition) : ℕ :=
  toSize (partitions.foldl (fun (sum : ℤ) p =>
    toInt ((toSize sum + p.dataBufferAudioLen + p.dataBufferVideoLen) % w64)) 0)

def calculateBufferSize (generic webAudio : List Partition) : ℕ :=
  (accumulate generic + accumulate webAudio) % w64

/-- Whether the system calls of the constructor succeed, apart from the failures that follow from
their arguments. -/
structure Sys where
  memfdCreate : Bool
  ftruncate : Bool
  addSeals : Bool
  mmap : Bool
  deriving DecidableEq, Repr

/-- The constructor; `none` when it throws. `ftruncate` refuses a length that is negative as an
`off_t`, `mmap` refuses an empty mapping. -/
def create (sys : Sys) (numOfPlaybacks numOfWebAudioPlayers : ℕ) : Option SharedMemoryBuffer := do
  let generic ← calculatePartitionSize .generic (toInt numOfPlaybacks)
  let webAudio ← calculatePartitionSize .webAudio (toInt numOfWebAudioPlayers)
  let bufferSize := calculateBufferSize generic webAudio
  if sys.memfdCreate ∧ (sys.ftruncate ∧ bufferSize < w64 / 2) ∧ sys.addSeals ∧
      (sys.mmap ∧ 0 < bufferSize) then
    some ⟨generic, webAudio, bufferSize % w32⟩
  else none

/-! ## Mapping -/

/-- `getPlaybackTypePartition`; `none` is the null pointer. -/
def getPlaybackTypePartition (b : SharedMemoryBuffer) : MediaPlaybackType → Option (List Partition)
  | .generic => some b.genericPartitions
  | .webAudio => some b.webAudioPartitions
  | .invalid => none

/-- The buffer after an assignment through the pointer of `getPlaybackTypePartition`. -/
def setPlaybackTypePartition (b : SharedMemoryBuffer) (partitions : List Partition) :
    MediaPlaybackType → SharedMemoryBuffer
  | .generic => { b with genericPartitions := partitions }
  | .webAudio => { b with webAudioPartitions := partitions }
  | .invalid => b

/-- The position `std::find_if` finds for an id; the length of the vector is `end()`. -/
def findId (partitions : List Partition) (id : ℤ) : ℕ := partitions.findIdx fun p => p.id == id

/-- The assignment `it->id = id` at a position. -/
def assign (partitions : List Partition) (it : ℕ) (id : ℤ) : List Partition :=
  partitions.modify it fun p => { p with id := id }

def mapPartition (b : SharedMemoryBuffer) (playbackType : MediaPlaybackType) (id : ℤ) :
    Bool × SharedMemoryBuffer :=
  match getPlaybackTypePartition b playbackType with
  | none => (false, b)
  | some partitions =>
    if findId partitions id ≠ partitions.length then (true, b)
    else
      let freePartition := findId partitions noIdAssigned
      if freePartition = partitions.length then (false, b)
      else
        (true, setPlaybackTypePartition b (assign partitions freePartition id) playbackType)

def unmapPartition (b : SharedMemoryBuffer) (playbackType : MediaPlaybackType) (id : ℤ) :
    Bool × SharedMemoryBuffer :=
  match getPlaybackTypePartition b playbackType with
  | none => (false, b)
  | some partitions =>
    let partition := findId partitions id
    if partition = partitions.length then (false, b)
    else
      (true, setPlaybackTypePartition b (assign partitions partition noIdAssigned) playbackType)

/-! ## Regions -/

/-- The step of the pointer over a partition, a sum of two `uint32_t`. -/
def Partition.size (p : Partition) : ℕ := add32 p.dataBufferVideoLen p.dataBufferAudioLen

/-- One of the two loops of `getDataPtrForPartition`: the pointer at which `found` holds, or the
pointer behind the last partition. -/
def walk (found : Partition → Bool) : ℕ → List Partition → ℕ ⊕ ℕ
  | result, [] => .inr result
  | result, p :: ps => if found p then .inl result else walk found (result + p.size) ps

/-- `getDataPtrForPartition`; `none` is `false`. -/
def getDataPtrForPartition (b : SharedMemoryBuffer) (playbackType : MediaPlaybackType) (id : ℤ) :
    Option ℕ :=
  match walk (fun p => playbackType == .generic && p.id == id) 0 b.genericPartitions with
  | .inl ptr => some ptr
  | .inr result =>
    match walk (fun p => playbackType == .webAudio && p.id == id) result b.webAudioPartitions with
    | .inl ptr => some ptr
    | .inr _ => none

/-- `getDataPtr`; `none` is the null pointer. -/
def getDataPtr (b : SharedMemoryBuffer) (playbackType : MediaPlaybackType) (id : ℤ)
    (mediaSourceType : MediaSourceType) : Option ℕ := do
  let partitions ← getPlaybackTypePartition b playbackType
  let partition ← partitions[findId partitions id]?
  let partitionDataPtr ← getDataPtrForPartition b playbackType id
  if mediaSourceType = .audio ∧ partition.dataBufferAudioLen ≠ 0 then
    some (partitionDataPtr + partition.dataBufferVideoLen)
  else if mediaSourceType = .video ∧ partition.dataBufferVideoLen ≠ 0 then
    some partitionDataPtr
  else none

/-- `getDataOffset`; `none` when it throws. -/
def getDataOffset (b : SharedMemoryBuffer) (playbackType : MediaPlaybackType) (id : ℤ)
    (mediaSourceType : MediaSourceType) : Option ℕ :=
  (getDataPtr b playbackType id mediaSourceType).map (· % w32)

def getMaxDataLen (b : SharedMemoryBuffer) (playbackType : MediaPlaybackType) (id : ℤ)
    (mediaSourceType : MediaSourceType) : ℕ :=
  match getPlaybackTypePartition b playbackType with
  | none => 0
  | some partitions =>
    match partitions[findId partitions id]? with
    | none => 0
    | some partition =>
      match mediaSourceType with
      | .audio => partition.dataBufferAudioLen
      | .video => partition.dataBufferVideoLen
      | .unknown => 0

def getSize (b : SharedMemoryBuffer) : ℕ := b.dataBufferLen

/-! ## Runs -/

/-- The calls that change the buffer. -/
inductive Op
  | mapPartition (playbackType : MediaPlaybackType) (id : ℤ)
  | unmapPartition (playbackType : MediaPlaybackType) (id : ℤ)
  deriving DecidableEq, Repr

/-- The id of a call. -/
def Op.id : Op → ℤ
  | .mapPartition _ id => id
  | .unmapPartition _ id => id

def step (b : SharedMemoryBuffer) : Op → Option SharedMemoryBuffer
  | .mapPartition playbackType id => some (Buffer.mapPartition b playbackType id).2
  | .unmapPartition playbackType id => some (Buffer.unmapPartition b playbackType id).2

/-- Calls with non-negative ids. -/
def NonNegId (_ : SharedMemoryBuffer) (op : Op) : Prop := 0 ≤ op.id

instance : ∀ b op, Decidable (NonNegId b op) := fun _ op => inferInstanceAs (Decidable (0 ≤ op.id))

end Rialto.Shm.Buffer

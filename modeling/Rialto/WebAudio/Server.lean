import Rialto.Lib.Memory
import Rialto.Lib.Word

/-! # The server's web audio player

`WebAudioPlayerServerInternal` keeps the audio of one client in a partition `[P, P + M)` of the
shared memory. The free part of the partition is `availableBuffer`, a main range and a wrap range;
what is stored there and not yet handed to GStreamer is its complement, worked out anew by every
function.

All functions here run on the server's main thread, one at a time. Offsets and lengths are
`uint32_t`, so sums, differences and products are taken modulo `2 ^ 32`. `IGstWebAudioPlayer` is not
part of this component: a hand-over `gstWriteBuffer` takes the number of bytes GStreamer is willing
to accept as an argument and accepts that many, or all it is offered. -/

namespace Rialto.WebAudio.Server

open Rialto.Lib.Memory Rialto.Lib.Word

/-! ## Construction -/

/-- `WebAudioPcmConfig`, the fields the player reads. -/
structure PcmConfig where
  sampleSize : ℕ
  channels : ℕ
  deriving DecidableEq, Repr

/-- The bytes of a frame, or the text of the exception the constructor throws. -/
def bytesPerFrame (audioMimeType : String) (config : Option PcmConfig) : Except String ℕ :=
  if audioMimeType = "audio/x-raw" then
    match config with
    | none => .error "Config is null for 'audio/x-raw'"
    | some pcm =>
      let size := mul32 pcm.channels (pcm.sampleSize / 8)
      if size = 0 then
        .error ("Bytes per frame cannot be 0, channels " ++ toString pcm.channels ++
          ", sampleSize " ++ toString pcm.sampleSize)
      else .ok size
  else .error ("Mimetype '" ++ audioMimeType ++ "' not supported")

/-- What the constructor fixes: a partition of the shared memory, which is at most `2 ^ 32 - 1`
bytes long, and a positive frame size. -/
structure Partition where
  partitionOffset : ℕ
  maxDataLength : ℕ
  bytesPerFrame : ℕ
  maxDataLength_pos : 0 < maxDataLength
  bytesPerFrame_pos : 0 < bytesPerFrame
  fits : partitionOffset + maxDataLength < w32

/-- `WebAudioShmInfo`: the free ranges of the partition. -/
structure WebAudioShmInfo where
  offsetMain : ℕ
  lengthMain : ℕ
  offsetWrap : ℕ
  lengthWrap : ℕ
  deriving DecidableEq, Repr

/-- The two ranges of one `IGstWebAudioPlayer::writeBuffer` call, relative to the shared memory. -/
structure Offer where
  mainPtr : ℕ
  mainLength : ℕ
  wrapPtr : ℕ
  wrapLength : ℕ
  deriving DecidableEq, Repr

/-- The addresses offered, in order. -/
def Offer.addrs (o : Offer) : List ℕ :=
  List.range' o.mainPtr o.mainLength ++ List.range' o.wrapPtr o.wrapLength

/-- A call on `IGstWebAudioPlayer`, with the bytes accepted. -/
inductive GstCall
  | writeBuffer (offer : Offer) (accepted : List UInt8)
  | setEos
  deriving DecidableEq, Repr

/-- The player. `writeDataTimer` says whether a write timer is armed. -/
structure Player where
  availableBuffer : WebAudioShmInfo
  expectWriteBuffer : Bool
  writeDataTimer : Bool
  isEosRequested : Bool
  gst : List GstCall
  deriving DecidableEq, Repr

/-- The player `initWebAudioPlayerInternal` leaves: the whole partition is free. -/
def initWebAudioPlayerInternal (p : Partition) : Player where
  availableBuffer := ⟨p.partitionOffset, p.maxDataLength, p.partitionOffset, 0⟩
  expectWriteBuffer := false
  writeDataTimer := false
  isEosRequested := false
  gst := []

/-! ## The free ranges -/

/-- `updateAvailableBuffer`: the free ranges after `bytesWrittenToShm` bytes were stored and
`bytesWrittenToGst` stored bytes were consumed. -/
def updateAvailableBuffer (p : Partition) (b : WebAudioShmInfo)
    (bytesWrittenToShm bytesWrittenToGst : ℕ) : WebAudioShmInfo :=
  if bytesWrittenToShm ≤ b.lengthMain then
    let offetRelativeToPartition := sub32 b.offsetMain p.partitionOffset
    let storedDataLengthAtEndOfShm :=
      sub32 p.maxDataLength (add32 offetRelativeToPartition b.lengthMain)
    let offsetMain := add32 b.offsetMain bytesWrittenToShm
    if bytesWrittenToGst ≤ storedDataLengthAtEndOfShm then
      { b with
        offsetMain := offsetMain
        lengthMain := add32 (sub32 b.lengthMain bytesWrittenToShm) bytesWrittenToGst }
    else
      { b with
        offsetMain := offsetMain
        lengthMain := add32 (sub32 b.lengthMain bytesWrittenToShm) storedDataLengthAtEndOfShm
        lengthWrap := add32 b.lengthWrap (sub32 bytesWrittenToGst storedDataLengthAtEndOfShm) }
  else
    let newDataLengthAtEndOfShm := b.lengthMain
    let offsetMain := add32 b.offsetWrap (sub32 bytesWrittenToShm b.lengthMain)
    let newOffetRelativeToPartition := sub32 offsetMain p.partitionOffset
    if bytesWrittenToGst ≤ b.lengthMain then
      { b with
        offsetMain := offsetMain
        lengthMain := add32 (sub32 b.lengthWrap newOffetRelativeToPartition) bytesWrittenToGst
        lengthWrap := 0 }
    else
      { b with
        offsetMain := offsetMain
        lengthMain := sub32 p.maxDataLength newOffetRelativeToPartition
        lengthWrap := sub32 bytesWrittenToGst newDataLengthAtEndOfShm }

/-- The ranges `writeStoredBuffers` offers when data is stored. -/
def storedOffer (p : Partition) (b : WebAudioShmInfo) : Offer :=
  if b.lengthWrap ≠ 0 then
    -- not wrapped: the data lies in the middle of the partition
    let startOfDataOffset := add32 b.offsetWrap b.lengthWrap
    ⟨startOfDataOffset, sub32 b.offsetMain startOfDataOffset, 0, 0⟩
  else
    -- wrapped: the data lies at the end and at the start of the partition
    let startOfDataOffset := add32 b.offsetMain b.lengthMain
    ⟨startOfDataOffset, sub32 p.maxDataLength (sub32 startOfDataOffset p.partitionOffset),
      p.partitionOffset, sub32 b.offsetMain p.partitionOffset⟩

/-- The ranges `writeBufferInternal` offers for `numberOfBytesToWrite` new bytes. -/
def newOffer (b : WebAudioShmInfo) (numberOfBytesToWrite : ℕ) : Offer :=
  if numberOfBytesToWrite ≤ b.lengthMain then
    ⟨b.offsetMain, numberOfBytesToWrite, b.offsetWrap, 0⟩
  else
    ⟨b.offsetMain, b.lengthMain, b.offsetWrap, sub32 numberOfBytesToWrite b.lengthMain⟩

/-- `getQueuedFramesInShm` -/
def getQueuedFramesInShm (p : Partition) (s : Player) : ℕ :=
  sub32 p.maxDataLength (add32 s.availableBuffer.lengthMain s.availableBuffer.lengthWrap) /
    p.bytesPerFrame

/-! ## The operations -/

/-- A hand-over to GStreamer of which it accepts `accept` bytes, at most all. -/
def gstWriteBuffer (shm : Mem UInt8) (o : Offer) (accept : ℕ) (s : Player) : ℕ × Player :=
  let n := min accept (o.mainLength + o.wrapLength)
  (n, { s with gst := s.gst ++ [.writeBuffer o ((readAt shm o.addrs).take n)] })

/-- `writeStoredBuffers`: whether all stored data could be handed over. -/
def writeStoredBuffers (p : Partition) (shm : Mem UInt8) (accept : ℕ) (s : Player) :
    Bool × Player :=
  if add32 s.availableBuffer.lengthWrap s.availableBuffer.lengthMain = p.maxDataLength then
    (true, s)
  else
    let o := storedOffer p s.availableBuffer
    let r := gstWriteBuffer shm o accept s
    let s := { r.2 with
      availableBuffer := updateAvailableBuffer p s.availableBuffer 0 r.1 }
    if r.1 = add32 o.mainLength o.wrapLength then
      if s.isEosRequested then
        (true, { s with gst := s.gst ++ [.setEos], isEosRequested := false })
      else (true, s)
    else (false, s)

/-- `writeBufferInternal`. The two counts are what GStreamer accepts of the stored data and of the
new data. -/
def writeBufferInternal (p : Partition) (shm : Mem UInt8) (numberOfFrames : ℕ)
    (acceptStored acceptNew : ℕ) (s : Player) : Bool × Player :=
  if s.expectWriteBuffer then
    let s := { s with expectWriteBuffer := false, writeDataTimer := false }
    let numberOfBytesToWrite := mul32 numberOfFrames p.bytesPerFrame
    match writeStoredBuffers p shm acceptStored s with
    | (false, s) =>
      (true, { s with
        availableBuffer := updateAvailableBuffer p s.availableBuffer numberOfBytesToWrite 0
        writeDataTimer := true })
    | (true, s) =>
      if numberOfFrames = 0 then (true, s)
      else
        let r := gstWriteBuffer shm (newOffer s.availableBuffer numberOfBytesToWrite) acceptNew s
        (true, { r.2 with
          availableBuffer := updateAvailableBuffer p s.availableBuffer numberOfBytesToWrite r.1
          writeDataTimer := s.writeDataTimer || decide (r.1 ≠ numberOfBytesToWrite) })
  else
    -- no getBufferAvailable to match with this writeBuffer call
    (false, s)

/-- The task of `getBufferAvailable`: the free frames and ranges. -/
def getBufferAvailable (p : Partition) (s : Player) : (ℕ × WebAudioShmInfo) × Player :=
  ((add32 s.availableBuffer.lengthMain s.availableBuffer.lengthWrap / p.bytesPerFrame,
    s.availableBuffer), { s with expectWriteBuffer := true })

/-- The task of `setEos`. -/
def setEos (p : Partition) (s : Player) : Player :=
  if getQueuedFramesInShm p s ≠ 0 then { s with isEosRequested := true }
  else { s with gst := s.gst ++ [.setEos] }

/-- The task `handleWriteDataTimer` posts. -/
def handleWriteDataTimer (p : Partition) (shm : Mem UInt8) (accept : ℕ) (s : Player) : Player :=
  let r := writeStoredBuffers p shm accept s
  { r.2 with writeDataTimer := !r.1 }

/-- The bytes handed to GStreamer so far. -/
def handedOver : List GstCall → List UInt8
  | [] => []
  | .writeBuffer _ bs :: cs => bs ++ handedOver cs
  | .setEos :: cs => handedOver cs

@[simp] theorem handedOver_append (cs ds : List GstCall) :
    handedOver (cs ++ ds) = handedOver cs ++ handedOver ds := by
  induction cs with
  | nil => rfl
  | cons c cs ih => cases c <;> simp [handedOver, ih]

end Rialto.WebAudio.Server

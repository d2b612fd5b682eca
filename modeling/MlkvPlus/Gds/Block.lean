import MlkvPlus.Data.Memory
import MlkvPlus.Data.Search
import MlkvPlus.Gds.BlockCache

namespace MlkvPlus.Gds

def kKeyBufferSize : Nat := 512

-- sizeof(uint32_t)
def kRestartSize : Nat := 4

-- Addresses in `data` are relative to the start of the block.
structure DecodedEntry where
  keyPtr : Nat
  shared : Nat
  nonShared : Nat
  valueLength : Nat
  deriving DecidableEq, Repr

namespace Device

-- Up to five groups of seven bits, in 32-bit arithmetic.
def getVarint32From (data : Memory) (limit : Nat) : Nat → Nat → Nat → Nat → Option (Nat × Nat)
  | 0, _, _, _ => none
  | groups + 1, shift, p, result =>
    if p < limit then
      let byte := (data p).toNat
      if byte &&& 128 ≠ 0 then
        getVarint32From data limit groups (shift + 7) (p + 1)
          (result ||| ((byte &&& 127) <<< shift) % 2 ^ 32)
      else some (p + 1, result ||| (byte <<< shift) % 2 ^ 32)
    else none

-- The address behind the number and the number.
def getVarint32Ptr (data : Memory) (p limit : Nat) : Option (Nat × Nat) :=
  if limit ≤ p then none else getVarint32From data limit 5 0 p 0

def decodeLengths (data : Memory) (p limit : Nat) : Option DecodedEntry :=
  let shared := (data p).toNat
  let nonShared := (data (p + 1)).toNat
  let valueLength := (data (p + 2)).toNat
  if shared ||| nonShared ||| valueLength < 128 then
    some { keyPtr := p + 3, shared, nonShared, valueLength }
  else do
    let (p, shared) ← getVarint32Ptr data p limit
    let (p, nonShared) ← getVarint32Ptr data p limit
    let (p, valueLength) ← getVarint32Ptr data p limit
    some { keyPtr := p, shared, nonShared, valueLength }

def decodeEntry (data : Memory) (p limit : Nat) : Option DecodedEntry :=
  if limit < p + 3 then none
  else
    match decodeLengths data p limit with
    | none => none
    | some entry =>
      if (limit - entry.keyPtr) % 2 ^ 32 < (entry.nonShared + entry.valueLength) % 2 ^ 32 then
        none
      else some entry

def decodeFixed32 (data : Memory) (ptr : Nat) : Nat :=
  Bytes.decodeFixed (data.read ptr 4)

def getRestartPoint (data : Memory) (restarts index : Nat) : Nat :=
  decodeFixed32 data (restarts + index * kRestartSize)

def compareSlices : Bytes → Bytes → Ordering
  | [], [] => .eq
  | [], _ :: _ => .lt
  | _ :: _, [] => .gt
  | a :: rest, b :: rest' =>
    if a < b then .lt else if b < a then .gt else compareSlices rest rest'

def kInternalKeyTail : Nat := 8

end Device

-- An internal key is the user key and eight bytes for the sequence number and the type.
def userKey (key : Bytes) : Bytes :=
  key.take (key.length - Device.kInternalKeyTail)

def keyTail (key : Bytes) : Nat :=
  Bytes.decodeFixed (key.drop (key.length - Device.kInternalKeyTail))

-- User keys ascending, the numbers behind them descending.
def Device.compareInternalKeys (a b : Bytes) : Ordering :=
  if a.length < kInternalKeyTail ∨ b.length < kInternalKeyTail then compareSlices a b
  else
    match compareSlices (userKey a) (userKey b) with
    | .lt => .lt
    | .gt => .gt
    | .eq =>
      if keyTail b < keyTail a then .lt
      else if keyTail a < keyTail b then .gt
      else .eq

structure DeviceBlockMetadata where
  numRestarts : Nat
  restartOffset : Nat
  indexType : Nat
  blockSize : Nat
  deriving DecidableEq, Repr

def kMaxBlockSizeSupportedByHashIndex : Nat := 2 ^ 16

-- The number of restarts and the index type. Only small blocks pack both into the footer.
def decodeFooter (blockFooter blockSize : Nat) : Nat × Nat :=
  if kMaxBlockSizeSupportedByHashIndex < blockSize then (blockFooter, 0)
  else (blockFooter % 2 ^ 31, if blockFooter.testBit 31 = true then 1 else 0)

def initializeBlockMetadata (assertions : Bool) (data : Memory) (blockSize : Nat) :
    Outcome DeviceBlockMetadata :=
  if blockSize < kRestartSize then
    .returned { numRestarts := 0, restartOffset := blockSize, indexType := 0, blockSize }
  else
    let blockFooter := Device.decodeFixed32 data (blockSize - kRestartSize)
    let (numRestarts, indexType) := decodeFooter blockFooter blockSize
    let restartOffset :=
      if 0 < numRestarts then sub64 blockSize ((1 + numRestarts) % 2 ^ 32 * kRestartSize) % 2 ^ 32
      else blockSize
    -- the failed assertion of the kernel comes back as the error of the next synchronization
    if assertions = true ∧ indexType = 1 then
      .threw ("CUDA error (710 - cudaErrorAssert): device-side assert triggered | call: " ++
        "cudaStreamSynchronize(stream_) | at ")
    else .returned { numRestarts, restartOffset, indexType, blockSize }

structure GDSDataBlockIterState where
  size : Nat
  numRestarts : Nat
  restarts : Nat
  current : Nat
  restartIndex : Nat
  errorCode : Nat

-- The pinned memory that the kernels and the host share.
structure GDSDataBlockIterDevicePinnedBuffer where
  validFlag : Bool
  keyLength : Int
  keyBuffer : Memory
  valueLength : Int
  valuePtr : Nat

structure GDSDataBlockIter extends GDSDataBlockIterState, GDSDataBlockIterDevicePinnedBuffer

def initializeIteratorState (metadata : DeviceBlockMetadata) : GDSDataBlockIterState where
  size := metadata.blockSize
  numRestarts := metadata.numRestarts
  restarts := metadata.restartOffset
  current := metadata.restartOffset
  restartIndex := 0
  errorCode := 0

-- A 32-bit number stored in an `int`.
def toInt32 (value : Nat) : Int :=
  Int.bmod value (2 ^ 32)

-- An `int` taken for a `size_t`.
def toSize (value : Int) : Nat :=
  (value % 2 ^ 64).toNat

namespace GDSDataBlockIter

def key (iter : GDSDataBlockIter) : Bytes :=
  iter.keyBuffer.read 0 (toSize iter.keyLength)

def dValue (data : Memory) (iter : GDSDataBlockIter) : Bytes :=
  data.read iter.valuePtr (toSize iter.valueLength)

def invalidate (iter : GDSDataBlockIter) (errorCode : Nat) : GDSDataBlockIter :=
  { iter with validFlag := false, errorCode := errorCode }

def accept (iter : GDSDataBlockIter) : GDSDataBlockIter :=
  { iter with validFlag := true, errorCode := 0 }

def moveTo (iter : GDSDataBlockIter) (offset : Nat) : GDSDataBlockIter :=
  { iter with current := offset }

def moveToRestart (data : Memory) (iter : GDSDataBlockIter) (index : Nat) : GDSDataBlockIter :=
  { iter with
    restartIndex := index
    current := Device.getRestartPoint data iter.restarts index
    keyLength := 0 }

-- The copy stops at `bound` bytes of the key buffer; the length does not.
def loadEntry (bound : Nat) (data : Memory) (iter : GDSDataBlockIter) (entry : DecodedEntry) :
    GDSDataBlockIter :=
  { iter with
    keyBuffer := iter.keyBuffer.store entry.shared
      (data.read entry.keyPtr (min entry.nonShared (bound - entry.shared)))
    keyLength := toInt32 ((entry.shared + entry.nonShared) % 2 ^ 32)
    valuePtr := entry.keyPtr + entry.nonShared
    valueLength := toInt32 entry.valueLength }

def nextOffset (iter : GDSDataBlockIter) : Nat :=
  ((iter.valuePtr + iter.valueLength) % 2 ^ 32).toNat

-- `sizeof(key_buffer_)` is the size of a pointer.
def kSeekBound : Nat := 8 * kKeyBufferSize

def seekToFirstKernel (data : Memory) (iter : GDSDataBlockIter) : GDSDataBlockIter :=
  let iter := iter.moveToRestart data 0
  match Device.decodeEntry data iter.current iter.restarts with
  | none => iter.invalidate 1
  | some entry =>
    if entry.shared ≠ 0 then iter.invalidate 1
    else (iter.loadEntry kSeekBound data entry).accept

def probeRestart (data : Memory) (restarts : Nat) (target : Bytes) (index : Int) :
    Option Ordering :=
  let regionOffset := Device.getRestartPoint data restarts (index % 2 ^ 32).toNat
  match Device.decodeEntry data regionOffset restarts with
  | none => none
  | some entry =>
    if entry.shared ≠ 0 then none
    else some (Device.compareInternalKeys (data.read entry.keyPtr entry.nonShared) target)

-- Whether a pass of a loop was its last.
inductive Pass where
  | stop (iter : GDSDataBlockIter)
  | more (iter : GDSDataBlockIter)

def scanEntry (data : Memory) (target : Bytes) (iter : GDSDataBlockIter) : Pass :=
  if iter.current < iter.restarts then
    match Device.decodeEntry data iter.current iter.restarts with
    | none => .stop (iter.invalidate 1)
    | some entry =>
      let iter := iter.loadEntry kSeekBound data entry
      if Device.compareInternalKeys iter.key target ≠ .lt then .stop iter.accept
      else .more (iter.moveTo iter.nextOffset)
  else .stop ((iter.moveTo iter.restarts).invalidate 0)

def scan (data : Memory) (target : Bytes) : Nat → GDSDataBlockIter → Option GDSDataBlockIter
  | 0, _ => none
  | fuel + 1, iter =>
    match scanEntry data target iter with
    | .stop iter => some iter
    | .more iter => scan data target fuel iter

-- The number of restarts is unsigned, so that its predecessor wraps.
def seekKernel (data : Memory) (target : Bytes) (fuel : Nat) (iter : GDSDataBlockIter) :
    Option GDSDataBlockIter :=
  let right : Int := ((iter.numRestarts + 2 ^ 32 - 1) % 2 ^ 32 : Nat)
  match Search.search (probeRestart data iter.restarts target) fuel (-1) right with
  | none => none
  | some none => some (iter.invalidate 1)
  | some (some left) =>
    let restartIdx := if left = -1 then 0 else (left % 2 ^ 32).toNat
    scan data target fuel (iter.moveToRestart data restartIdx)

def nextKernel (data : Memory) (iter : GDSDataBlockIter) : GDSDataBlockIter :=
  if iter.validFlag = false then iter
  else
    let iter := iter.moveTo iter.nextOffset
    if iter.restarts ≤ iter.current then iter.invalidate 0
    else
      match Device.decodeEntry data iter.current iter.restarts with
      | none => iter.invalidate 1
      | some entry => (iter.loadEntry kKeyBufferSize data entry).accept

-- The loop of SeekToLast: from entry to entry until the flag is cleared.
def nextUntilInvalid (data : Memory) : Nat → GDSDataBlockIter → Option GDSDataBlockIter
  | 0, _ => none
  | fuel + 1, iter =>
    if (iter.nextKernel data).validFlag = false then some (iter.nextKernel data)
    else nextUntilInvalid data fuel (iter.nextKernel data)

def seekToLastImpl (data : Memory) (fuel : Nat) (iter : GDSDataBlockIter) :
    Option GDSDataBlockIter :=
  if (iter.seekToFirstKernel data).validFlag = false then some (iter.seekToFirstKernel data)
  else nextUntilInvalid data fuel (iter.seekToFirstKernel data)

theorem restarts_loadEntry (bound : Nat) (data : Memory) (iter : GDSDataBlockIter)
    (entry : DecodedEntry) : (iter.loadEntry bound data entry).restarts = iter.restarts := by
  rw [loadEntry]

theorem current_loadEntry (bound : Nat) (data : Memory) (iter : GDSDataBlockIter)
    (entry : DecodedEntry) : (iter.loadEntry bound data entry).current = iter.current := by
  rw [loadEntry]

theorem current_accept (iter : GDSDataBlockIter) : iter.accept.current = iter.current := rfl

theorem restarts_accept (iter : GDSDataBlockIter) : iter.accept.restarts = iter.restarts := rfl

theorem nextOffset_accept (iter : GDSDataBlockIter) :
    iter.accept.nextOffset = iter.nextOffset := by
  rw [nextOffset, nextOffset, accept]

theorem current_moveTo (iter : GDSDataBlockIter) (offset : Nat) :
    (iter.moveTo offset).current = offset := rfl

theorem restarts_moveTo (iter : GDSDataBlockIter) (offset : Nat) :
    (iter.moveTo offset).restarts = iter.restarts := rfl

theorem restarts_seekToFirstKernel (data : Memory) (iter : GDSDataBlockIter) :
    (iter.seekToFirstKernel data).restarts = iter.restarts := by
  rw [seekToFirstKernel]
  split
  · rfl
  · split <;> rfl

end GDSDataBlockIter

end MlkvPlus.Gds

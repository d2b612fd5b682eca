import MlkvPlus.Gds.FileSystem

namespace MlkvPlus.WriteBatch

open Gds

def kWriteBatchHeader : Nat := 12

def kTypeValue : UInt8 := 0x1

-- The bytes a number takes, as the record sizes are computed.
def varintSize (value : Nat) : Nat :=
  1 + (if 2 ^ 7 ≤ value then 1 else 0) + (if 2 ^ 14 ≤ value then 1 else 0) +
    (if 2 ^ 21 ≤ value then 1 else 0) + (if 2 ^ 28 ≤ value then 1 else 0)

def putVarint32 (value : Nat) : Bytes :=
  if value < 2 ^ 7 then [UInt8.ofNat value]
  else if value < 2 ^ 14 then [UInt8.ofNat (value ||| 128), UInt8.ofNat (value >>> 7)]
  else if value < 2 ^ 21 then
    [UInt8.ofNat (value ||| 128), UInt8.ofNat ((value >>> 7) ||| 128),
      UInt8.ofNat (value >>> 14)]
  else if value < 2 ^ 28 then
    [UInt8.ofNat (value ||| 128), UInt8.ofNat ((value >>> 7) ||| 128),
      UInt8.ofNat ((value >>> 14) ||| 128), UInt8.ofNat (value >>> 21)]
  else
    [UInt8.ofNat (value ||| 128), UInt8.ofNat ((value >>> 7) ||| 128),
      UInt8.ofNat ((value >>> 14) ||| 128), UInt8.ofNat ((value >>> 21) ||| 128),
      UInt8.ofNat (value >>> 28)]

def recordSize (keySize valueSize : Nat) : Nat :=
  1 + varintSize keySize + keySize + varintSize valueSize + valueSize

-- What the thread of one pair writes at its offset. The sizes are cut to 32 bits.
def recordBytes (key value : Bytes) : Bytes :=
  kTypeValue :: putVarint32 (key.length % 2 ^ 32) ++ key ++
    putVarint32 (value.length % 2 ^ 32) ++ value

def exclusiveScan : Nat → List Nat → List Nat
  | _, [] => []
  | start, size :: rest => start :: exclusiveScan (start + size) rest

-- The record threads, each storing its record.
def storeRecords (memory : Bytes) : List (Nat × Bytes) → Bytes
  | [] => memory
  | (offset, record) :: rest => storeRecords (memory.store offset record) rest

-- `fresh` is what a new allocation of each size holds.
def generateTypedWriteBatch [Scalar K] [Scalar V] (fresh : (size : Nat) → DeviceBuffer size)
    (pairs : List (K × Vector V dim)) (sequenceNumber : Nat) : Except IOStatus Bytes :=
  if pairs.length = 0 then .error (.invalidParam "No key-value pairs to process")
  else
    let recordSizes := pairs.map fun _ => recordSize (Scalar.size K) (Scalar.size V * dim)
    let recordOffsets := exclusiveScan kWriteBatchHeader recordSizes
    let totalBatchSize := kWriteBatchHeader + recordSizes.sum
    let header := ((fresh totalBatchSize).1.store 0 (Bytes.fixed 8 sequenceNumber)).store 8
      (Bytes.fixed 4 pairs.length)
    let records := pairs.map fun (key, values) =>
      recordBytes (Scalar.toBytes key) (vectorBytes values)
    .ok (storeRecords header (recordOffsets.zip records))

structure Entry where
  key : Bytes
  value : Bytes
  deriving DecidableEq, Repr

-- rocksdb::WriteBatch::Put refuses keys and values whose sizes need more than 32 bits.
def put (batch : List Entry) (key value : Bytes) : Except String (List Entry) :=
  if 2 ^ 32 ≤ key.length then .error "key is too large"
  else if 2 ^ 32 ≤ value.length then .error "value is too large"
  else .ok (batch ++ [⟨key, value⟩])

-- The decoder of rocksdb: up to five groups of seven bits, in 32-bit arithmetic.
def getVarint32From : Nat → Nat → Nat → Bytes → Option (Nat × Bytes)
  | 0, _, _, _ => none
  | _ + 1, _, _, [] => none
  | groups + 1, shift, result, byte :: rest =>
    if byte.toNat &&& 128 ≠ 0 then
      getVarint32From groups (shift + 7)
        (result ||| (((byte.toNat &&& 127) <<< shift) % 2 ^ 32)) rest
    else some (result ||| ((byte.toNat <<< shift) % 2 ^ 32), rest)

def getVarint32 (input : Bytes) : Option (Nat × Bytes) :=
  getVarint32From 5 0 0 input

def getLengthPrefixedSlice (input : Bytes) : Option (Bytes × Bytes) :=
  match getVarint32 input with
  | none => none
  | some (length, rest) =>
    if length ≤ rest.length then some (rest.take length, rest.drop length) else none

-- One put of the default column family.
def decodeRecord : Bytes → Option (Entry × Bytes)
  | [] => none
  | tag :: input =>
    if tag = kTypeValue then
      match getLengthPrefixedSlice input with
      | none => none
      | some (key, input) =>
        match getLengthPrefixedSlice input with
        | none => none
        | some (value, input) => some (⟨key, value⟩, input)
    else none

def decodeRecords : Nat → Bytes → Option (List Entry)
  | _, [] => some []
  | 0, _ :: _ => none
  | fuel + 1, byte :: input =>
    match decodeRecord (byte :: input) with
    | none => none
    | some (entry, rest) => (decodeRecords fuel rest).map (entry :: ·)

-- The puts of a batch are read to its end, and their number is checked.
def decode (batch : Bytes) : Option (Nat × List Entry) :=
  if batch.length < kWriteBatchHeader then none
  else
    let count := Bytes.decodeFixed ((batch.drop 8).take 4)
    match decodeRecords batch.length (batch.drop kWriteBatchHeader) with
    | none => none
    | some entries =>
      if entries.length = count then some (Bytes.decodeFixed (batch.take 8), entries) else none

end MlkvPlus.WriteBatch

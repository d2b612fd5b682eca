import MlkvPlus.Data.Bytes
import MlkvPlus.Data.Framing

namespace MlkvPlus.Log

inductive RecordType where
  | kZeroType
  | kFullType
  | kFirstType
  | kMiddleType
  | kLastType
  | kRecyclableFullType
  | kRecyclableFirstType
  | kRecyclableMiddleType
  | kRecyclableLastType
  | kSetCompressionType
  | kUserDefinedTimestampSizeType
  | kRecyclableUserDefinedTimestampSizeType
  | kPredecessorWALInfoType
  | kRecyclePredecessorWALInfoType
  | kNoChecksumFullType
  | kNoChecksumFirstType
  | kNoChecksumMiddleType
  | kNoChecksumLastType
  | kRecyclableNoChecksumFullType
  | kRecyclableNoChecksumFirstType
  | kRecyclableNoChecksumMiddleType
  | kRecyclableNoChecksumLastType
  deriving DecidableEq, Repr

def RecordType.code : RecordType → UInt8
  | .kZeroType => 0
  | .kFullType => 1
  | .kFirstType => 2
  | .kMiddleType => 3
  | .kLastType => 4
  | .kRecyclableFullType => 5
  | .kRecyclableFirstType => 6
  | .kRecyclableMiddleType => 7
  | .kRecyclableLastType => 8
  | .kSetCompressionType => 9
  | .kUserDefinedTimestampSizeType => 10
  | .kRecyclableUserDefinedTimestampSizeType => 11
  | .kPredecessorWALInfoType => 130
  | .kRecyclePredecessorWALInfoType => 131
  | .kNoChecksumFullType => 140
  | .kNoChecksumFirstType => 150
  | .kNoChecksumMiddleType => 160
  | .kNoChecksumLastType => 170
  | .kRecyclableNoChecksumFullType => 181
  | .kRecyclableNoChecksumFirstType => 191
  | .kRecyclableNoChecksumMiddleType => 201
  | .kRecyclableNoChecksumLastType => 211

-- An unknown record type with this bit set is skipped without a report.
def kRecordTypeSafeIgnoreMask : UInt8 := 128

def kMaxRecordType : UInt8 := RecordType.kRecyclableNoChecksumLastType.code

def kBlockSize : Nat := 32768

-- Checksum (4 bytes), length (2 bytes), type (1 byte).
def kHeaderSize : Nat := 4 + 2 + 1

-- The recyclable header adds the log number (4 bytes).
def kRecyclableHeaderSize : Nat := 4 + 2 + 1 + 4

def format : Framing.Format where
  blockSize := kBlockSize
  headerSize := kHeaderSize
  header_pos := by decide
  header_lt := by decide

def noChecksumType : Framing.Kind → RecordType
  | .full => .kNoChecksumFullType
  | .first => .kNoChecksumFirstType
  | .middle => .kNoChecksumMiddleType
  | .last => .kNoChecksumLastType

-- A record header with a zero checksum.
def header (type : RecordType) (length : Nat) : Bytes :=
  [0, 0, 0, 0, UInt8.ofNat (length &&& 0xff), UInt8.ofNat (length >>> 8), type.code]

-- Logs without checksums, over a given content of the padding bytes.
@[reducible] def noChecksumLayout (filler : Bytes) (hfiller : kHeaderSize ≤ filler.length) :
    Framing.Layout UInt8 where
  toFormat := format
  header kind body := header (noChecksumType kind) body.length
  filler := filler
  header_length _ _ := rfl
  filler_length := hfiller

@[simp] theorem format_blockSize : format.blockSize = 32768 := rfl

@[simp] theorem format_headerSize : format.headerSize = 7 := rfl

theorem low_byte (length : Nat) : (UInt8.ofNat (length &&& 0xff)).toNat = length % 256 := by
  rw [show (0xff : Nat) = 2 ^ 8 - 1 from rfl, Nat.and_two_pow_sub_one_eq_mod]
  simp

theorem high_byte (hlt : length < 65536) : (UInt8.ofNat (length >>> 8)).toNat = length / 256 := by
  rw [Nat.shiftRight_eq_div_pow]
  simp only [UInt8.toNat_ofNat']
  omega

-- The two length bytes hold every fragment length.
theorem header_length_bytes (length : Nat) (hlt : length < 65536) :
    (UInt8.ofNat (length &&& 0xff)).toNat + 256 * (UInt8.ofNat (length >>> 8)).toNat = length := by
  rw [low_byte, high_byte hlt]
  omega

end MlkvPlus.Log

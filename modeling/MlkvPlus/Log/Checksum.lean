import MlkvPlus.Log.Reader
import MlkvPlus.Log.Writer

namespace MlkvPlus.Log

-- What is assumed of CRC32C: checksums combine, masking is undone, and a change of one
-- byte shows.
structure Crc32c.Lawful (crc : Crc32c) : Prop where
  combine_value : ∀ front back,
    crc.combine (crc.value front) (crc.value back) back.length = crc.value (front ++ back)
  mask_lt : ∀ data, crc.mask (crc.value data) < 2 ^ 32
  unmask_mask : ∀ data, crc.unmask (crc.mask (crc.value data)) = crc.value data
  value_ne : ∀ front back byte byte', byte ≠ byte' →
    crc.value (front ++ byte :: back) ≠ crc.value (front ++ byte' :: back)

-- The reader verifies checksums, with the functions the writer uses.
structure ReaderEnv.Verifies (crc : Crc32c) (env : ReaderEnv) : Prop where
  checksum : env.checksum = true
  crc32c : env.crc32c = crc.value
  unmask : env.unmask = crc.unmask

-- A checksum that meets what is assumed of CRC32C.
def Crc32c.xorSum : Crc32c where
  value data := (data.foldr (· ^^^ ·) 0).toNat
  extend start data := start ^^^ (data.foldr (· ^^^ ·) 0).toNat
  combine front back _ := front ^^^ back
  mask := id
  unmask := id

theorem foldr_xor_append (front back : Bytes) :
    (front ++ back).foldr (· ^^^ ·) 0 =
      front.foldr (· ^^^ ·) 0 ^^^ back.foldr (· ^^^ ·) 0 := by
  induction front with
  | nil => simp
  | cons byte front ih => simp [ih, UInt8.xor_assoc]

theorem Crc32c.xorSum_lawful : Crc32c.xorSum.Lawful where
  combine_value front back := by
    simp only [xorSum, foldr_xor_append, UInt8.toNat_xor]
  mask_lt data := Nat.lt_trans (UInt8.toNat_lt _) (by decide)
  unmask_mask _ := rfl
  value_ne front back byte byte' hne heq := by
    simp only [xorSum, UInt8.toNat_inj, foldr_xor_append, List.foldr_cons] at heq
    exact hne (UInt8.xor_left_inj _ |>.mp (UInt8.xor_right_inj _ |>.mp heq))

def ReaderEnv.verifying (crc : Crc32c) (logNumber : Nat) : ReaderEnv where
  checksum := true
  logNumber := logNumber
  unmask := crc.unmask
  crc32c := crc.value
  decodesCompression _ := false
  predecessorReports _ _ := []
  timestampReports _ := []

theorem ReaderEnv.verifies_verifying (crc : Crc32c) (logNumber : Nat) :
    (verifying crc logNumber).Verifies crc := ⟨rfl, rfl, rfl⟩

end MlkvPlus.Log

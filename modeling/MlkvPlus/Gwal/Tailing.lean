import Mathlib.Algebra.Order.BigOperators.Group.List
import MlkvPlus.Gwal.Replay
import MlkvPlus.Log.FragmentBufferedReader.Calls

namespace MlkvPlus.Gds.GWALWriter

open Log Log.FragmentBufferedReader

variable (assertions : Bool) (headerBuffer : DeviceBuffer kRecyclableHeaderSize)
variable (trailerBuffer : DeviceBuffer trailerBufferSize)

-- A reader follows the log while it is written, however far the writer is at each of its reads.
-- The calls return the records in order, each once and without a report, and once the reads find
-- `count` whole records, so many calls as are missing return them.
theorem readRecords_while_written (env : ReaderEnv) (mode : WALRecoveryMode)
    (payloads : List Bytes) (seen : Nat → Nat) (calls extra : Nat) :
    let sizes := format.sizes format.blockSize (payloads.map List.length)
    let bound := kBlockSize + 1 + extra
    let fuel := 2 * (payloads.map List.length).sum + 2 + extra
    ∃ w, (create [] assertions headerBuffer trailerBuffer).addRecords payloads =
        (.returned .ok, w) ∧
      ∃ results r, readRecords env mode (growing w.dest.contents seen) bound fuel calls {} =
          some (results, r) ∧
        r.reports = [] ∧ results.reduceOption <+: payloads ∧
        ∀ count ≤ payloads.length,
          (∀ read, r.reads ≤ read → count ≤ Framing.intact (seen read) sizes) →
          ∃ r', readRecords env mode (growing w.dest.contents seen) bound fuel
              (count - results.reduceOption.length) r =
            some (((payloads.take count).drop results.reduceOption.length).map some, r') ∧
            r'.reports = [] := by
  obtain ⟨w, hadd, _, hcontents⟩ := addRecords_create assertions headerBuffer trailerBuffer payloads
  refine ⟨w, hadd, ?_⟩
  rw [hcontents]
  refine readRecords_growing env mode _ (length_filler _) payloads seen (by omega) (by omega) ?_ calls
  intro payload hpayload
  have hle := List.single_le_sum (fun _ _ => Nat.zero_le _) _
    (List.mem_map_of_mem (f := List.length) hpayload)
  omega

end MlkvPlus.Gds.GWALWriter

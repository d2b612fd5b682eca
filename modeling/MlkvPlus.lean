import MlkvPlus.Data.Bytes
import MlkvPlus.Data.Numerals
import MlkvPlus.Data.Lists
import MlkvPlus.Data.Framing
import MlkvPlus.Data.Framing.Chunks
import MlkvPlus.Data.Framing.Emitter
import MlkvPlus.Data.Framing.Shifted
import MlkvPlus.Data.Framing.Tail
import MlkvPlus.Data.Transition
import MlkvPlus.Data.Memory
import MlkvPlus.Data.Ownership
import MlkvPlus.Data.Tiered
import MlkvPlus.Data.Exchange
import MlkvPlus.Data.Search
import MlkvPlus.Data.Recency
import MlkvPlus.Data.Interleaving
import MlkvPlus.Data.Slots
import MlkvPlus.Data.Ranges
import MlkvPlus.Data.Buckets
import MlkvPlus.Data.Leases
import MlkvPlus.Gds.FileSystem
import MlkvPlus.Gds.FileSystem.Runs
import MlkvPlus.Gds.FileSystem.Append
import MlkvPlus.Gds.BlockCache
import MlkvPlus.Gds.BlockCache.Contents
import MlkvPlus.Gds.BlockCache.Runs
import MlkvPlus.Gds.BlockCache.Recency
import MlkvPlus.Gds.RandomAccessFile
import MlkvPlus.Gds.RandomAccessFile.Transparency
import MlkvPlus.Gds.RandomAccessFile.Slices
import MlkvPlus.Gds.RandomAccessFile.EndOfFile
import MlkvPlus.Log.Format
import MlkvPlus.Log.Reader
import MlkvPlus.Log.Reader.Cost
import MlkvPlus.Log.Reader.Dispatch
import MlkvPlus.Log.Reader.Position
import MlkvPlus.Log.Reader.Frames
import MlkvPlus.Log.Reader.Replay
import MlkvPlus.Log.Reader.Shifted
import MlkvPlus.Log.Reader.Chunks
import MlkvPlus.Log.FragmentBufferedReader
import MlkvPlus.Log.FragmentBufferedReader.Waiting
import MlkvPlus.Log.FragmentBufferedReader.Growth
import MlkvPlus.Log.FragmentBufferedReader.Calls
import MlkvPlus.Log.FragmentBufferedReader.Faults
import MlkvPlus.Log.Writer
import MlkvPlus.Log.Checksum
import MlkvPlus.Log.Writer.Framing
import MlkvPlus.Log.Writer.RoundTrip
import MlkvPlus.Log.Writer.Protection
import MlkvPlus.Log.Writer.Retyped
import MlkvPlus.Gwal
import MlkvPlus.Gwal.Framing
import MlkvPlus.Gwal.Replay
import MlkvPlus.Gwal.Faults
import MlkvPlus.Gwal.Reopen
import MlkvPlus.Gwal.Equivalence
import MlkvPlus.Gwal.Tailing
import MlkvPlus.WriteBatch
import MlkvPlus.WriteBatch.Varint
import MlkvPlus.WriteBatch.Sizes
import MlkvPlus.Gds.Block
import MlkvPlus.Gds.Block.Entry
import MlkvPlus.Gds.Block.KeyOrder
import MlkvPlus.Gds.Block.Format
import MlkvPlus.Gds.Block.Position
import MlkvPlus.Gds.Block.Seek
import MlkvPlus.Gds.Block.RoundTrip
import MlkvPlus.Gds.Block.Malformed
import MlkvPlus.Gds.Block.KeyBuffer
import MlkvPlus.Gds.Block.Varint
import MlkvPlus.WriteBatch.RoundTrip
import MlkvPlus.WriteBatch.Threads
import MlkvPlus.MemDisk
import MlkvPlus.MemDisk.Calls
import MlkvPlus.MemDisk.Agreement
import MlkvPlus.MemDisk.Durability
import MlkvPlus.MemDisk.Atomicity
import MlkvPlus.MemDisk.Retention
import MlkvPlus.Sst
import MlkvPlus.Sst.FilePicker
import MlkvPlus.Sst.FilePicker.Calls
import MlkvPlus.Sst.Levels
import MlkvPlus.Sst.Lookup
import MlkvPlus.Sst.Snapshot
import MlkvPlus.Gds.Table
import MlkvPlus.Gds.Block.Comparator
import MlkvPlus.Gds.Table.Lookup
import MlkvPlus.Gds.Accessor
import MlkvPlus.Gds.Accessor.Undecodable
import MlkvPlus.Gds.Lookups
import MlkvPlus.Gds.Lookups.Isolation
import MlkvPlus.GpuTree.AllFound
import MlkvPlus.GpuTree.BufferPool
import MlkvPlus.Db
import MlkvPlus.Db.Storage
import MlkvPlus.Db.Tiers
import MlkvPlus.Db.Steps
import MlkvPlus.Db.Refinement
import MlkvPlus.Db.Reserved
import MlkvPlus.Db.Reads
import MlkvPlus.Db.Shown
import MlkvPlus.Db.Puts
import MlkvPlus.Db.FailedWrites
import MlkvPlus.Db.ReadBack
import MlkvPlus.Db.DeviceMemory.Pool
import MlkvPlus.Db.Lifecycle
import MlkvPlus.Db.GdsReads
import MlkvPlus.Db.BatchReads
import MlkvPlus.Db.FailedReads
import MlkvPlus.Db.Scratch
import MlkvPlus.Db.Compaction
import MlkvPlus.Db.Decoding
import MlkvPlus.Db.Decoding.Bounds
import MlkvPlus.Db.UniqueKeys
import MlkvPlus.Db.LookupBuffer
import MlkvPlus.Db.Concurrency
import MlkvPlus.Db.Concurrency.Freshness
import MlkvPlus.Db.Concurrency.Eviction
import MlkvPlus.Dist
import MlkvPlus.Dist.Lookup
import MlkvPlus.Dist.Routing
import MlkvPlus.Dist.Reads
import MlkvPlus.Dist.Select
import MlkvPlus.Dist.Select.Warps
import MlkvPlus.Dist.Select.Runs
import MlkvPlus.Dist.Select.Limits
import MlkvPlus.Dist.Reorder

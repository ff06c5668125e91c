import FieldRecording.Bits.Field
import FieldRecording.Bits.Packed
import FieldRecording.Bytes.Access
import FieldRecording.Bytes.Content
import FieldRecording.Bytes.IoError
import FieldRecording.Bytes.Order
import FieldRecording.Bytes.Range
import FieldRecording.Bytes.Source
import FieldRecording.Calendar.DateTime
import FieldRecording.Calendar.Notation
import FieldRecording.Command.Argument
import FieldRecording.Command.Info
import FieldRecording.Command.Invocation
import FieldRecording.Command.Run
import FieldRecording.Decimal.Binary64
import FieldRecording.Decimal.Shortest
import FieldRecording.Digest.Blake3
import FieldRecording.Files.Change
import FieldRecording.Files.Filing
import FieldRecording.Files.Path
import FieldRecording.Files.Store
import FieldRecording.Flac.Access
import FieldRecording.Flac.Channels
import FieldRecording.Flac.CodedNumber
import FieldRecording.Flac.Comments
import FieldRecording.Flac.Error
import FieldRecording.Flac.Frame
import FieldRecording.Flac.FrameHeader
import FieldRecording.Flac.HeaderCheck
import FieldRecording.Flac.Metadata
import FieldRecording.Flac.Scanner
import FieldRecording.Flac.StreamInfo
import FieldRecording.Main
import FieldRecording.Proofs.Bits.Field
import FieldRecording.Proofs.Bytes.Honest
import FieldRecording.Proofs.Bytes.LittleEndian
import FieldRecording.Proofs.Bytes.Overwriting
import FieldRecording.Proofs.Bytes.Slice
import FieldRecording.Proofs.Bytes.Steady
import FieldRecording.Proofs.Bytes.Writing
import FieldRecording.Proofs.Files.Copying
import FieldRecording.Proofs.Files.Leading
import FieldRecording.Proofs.Files.Moving
import FieldRecording.Proofs.Files.NewFile
import FieldRecording.Proofs.Files.Planning
import FieldRecording.Proofs.Files.ReadOnly
import FieldRecording.Proofs.Files.Running
import FieldRecording.Proofs.Files.Sparing
import FieldRecording.Proofs.Files.Tree
import FieldRecording.Proofs.Flac.BitErrors
import FieldRecording.Proofs.Flac.Chain
import FieldRecording.Proofs.Flac.CommentEditing
import FieldRecording.Proofs.Flac.Cutting
import FieldRecording.Proofs.Flac.FieldCoding
import FieldRecording.Proofs.Flac.HeaderRoundTrip
import FieldRecording.Proofs.Flac.Layout
import FieldRecording.Proofs.Flac.MetadataReading
import FieldRecording.Proofs.Flac.NumberCoding
import FieldRecording.Proofs.Flac.ScanIndependence
import FieldRecording.Proofs.Flac.ScanStart
import FieldRecording.Proofs.Flac.Searching
import FieldRecording.Proofs.Flac.Selection
import FieldRecording.Proofs.Flac.Sighting
import FieldRecording.Proofs.Flac.TailSearch
import FieldRecording.Proofs.Flac.Tracking
import FieldRecording.Proofs.Recorder.Layout
import FieldRecording.Proofs.Recorder.PlainStream
import FieldRecording.Proofs.Recorder.Tags
import FieldRecording.Proofs.Repair.Accounting
import FieldRecording.Proofs.Repair.Answers
import FieldRecording.Proofs.Repair.Applying
import FieldRecording.Proofs.Repair.Beside
import FieldRecording.Proofs.Repair.Doubling
import FieldRecording.Proofs.Repair.Edits
import FieldRecording.Proofs.Repair.Evidence
import FieldRecording.Proofs.Repair.Failing
import FieldRecording.Proofs.Repair.Following
import FieldRecording.Proofs.Repair.Keeping
import FieldRecording.Proofs.Repair.Mending
import FieldRecording.Proofs.Repair.Naming
import FieldRecording.Proofs.Repair.Planned
import FieldRecording.Proofs.Repair.Rereading
import FieldRecording.Proofs.Repair.Retouching
import FieldRecording.Proofs.Text.Decoding
import FieldRecording.Proofs.Text.Words
import FieldRecording.Proofs.Wave.Reading
import FieldRecording.Recorder.Firmware
import FieldRecording.Recorder.StartTime
import FieldRecording.Recorder.Stub
import FieldRecording.Repair.Apply
import FieldRecording.Repair.ChunkLength
import FieldRecording.Repair.Datestamp
import FieldRecording.Repair.Duration
import FieldRecording.Repair.EmptyFile
import FieldRecording.Repair.Operation
import FieldRecording.Repair.PartialFile
import FieldRecording.Repair.Problem
import FieldRecording.Repair.Result
import FieldRecording.Report.Json
import FieldRecording.Report.Record
import FieldRecording.Report.Table
import FieldRecording.Text.Ascii
import FieldRecording.Text.Blank
import FieldRecording.Text.Digit
import FieldRecording.Text.Lossy
import FieldRecording.Text.Radix
import FieldRecording.Text.Split
import FieldRecording.Text.Word
import FieldRecording.Wave.Chunk
import FieldRecording.Wave.Format
import FieldRecording.Proofs.Flac.CommentFormat
import FieldRecording.Proofs.Flac.ChainFormat
import FieldRecording.Proofs.Repair.Lengths
import FieldRecording.Proofs.Bytes.Outside
import FieldRecording.Proofs.Flac.Rewalking
import FieldRecording.Proofs.Recorder.Rewriting
import FieldRecording.Proofs.Flac.Tearing
import FieldRecording.Proofs.Recorder.Stubs
import FieldRecording.Proofs.Repair.Stamps
import FieldRecording.Proofs.Repair.PuttingAside
import FieldRecording.Proofs.Flac.Restarting
import FieldRecording.Proofs.Wave.Lookup
import FieldRecording.Proofs.Flac.StreamReaders
import FieldRecording.Proofs.Repair.EitherOrder
import FieldRecording.Proofs.Repair.Routes
import FieldRecording.Proofs.Flac.CanonicalNumber
import FieldRecording.Proofs.Flac.SampleCounting
import FieldRecording.Proofs.Bytes.Alike
import FieldRecording.Proofs.Flac.ScanAgreement
import FieldRecording.Proofs.Flac.BesideTotal
import FieldRecording.Proofs.Flac.TotalWriting
import FieldRecording.Proofs.Files.BackupNames
import FieldRecording.Proofs.Files.Backups
import FieldRecording.Proofs.Command.Pipeline
import FieldRecording.Proofs.Flac.HeaderExtent
import FieldRecording.Proofs.Flac.CheckRemainder
import FieldRecording.Proofs.Bits.Readings
import FieldRecording.Proofs.Bytes.Answers
import FieldRecording.Proofs.Bytes.Fragmentation
import FieldRecording.Proofs.Bytes.Uniform
import FieldRecording.Proofs.Flac.TwinScans
import FieldRecording.Proofs.Recorder.Allocated
import FieldRecording.Proofs.Repair.SourceOperations

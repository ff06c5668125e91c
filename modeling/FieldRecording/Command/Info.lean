import FieldRecording.Digest.Blake3
import FieldRecording.Report.Record

/-!
# What the program tells of one stream

`FileInfo.read` gathers what is told of a FLAC file: its digest, stream information, blocks,
comments and firmware. `FileInfo.lines` is how it reads as text, and `FileInfo.toJson` as JSON.
-/

namespace FieldRecording

/-- What is told of a file. -/
structure FileInfo where
  path : Path
  digest : List UInt8
  stream : StreamInfo
  blocks : List MetadataBlock
  /-- Who wrote the stream, if it has comments. -/
  vendor : Option String
  firmware : Option Firmware

namespace FileInfo

/-- Find out what is told of the file at a path. Comments and firmware may be missing
or unreadable. -/
def read (path : Path) : Filing RepairError FileInfo := do
  let (_, content) ← Filing.openFile path
  Filing.inspect path do
    let stream ← (StreamInfo.read : Access FlacError _)
    let blocks ← (MetadataChain.blocks : Access FlacError _)
    let comments ← Access.attempt Comments.read
    let firmware ← Access.attempt Firmware.read
    return {
      path
      digest := blake3 content
      stream
      blocks
      vendor := comments.toOption.map Comments.vendor
      firmware := firmware.toOption }

def toJson (info : FileInfo) : Json :=
  .object [
    ("path", .text info.path),
    ("blake3", .text (hexText info.digest)),
    ("stream_info", info.stream.toJson),
    ("blocks", .list (info.blocks.map MetadataBlock.toJson)),
    ("vendor", .ofOption .text info.vendor),
    ("firmware", .ofOption Firmware.toJson info.firmware)]

/-- A line with a label in front. -/
def line (label value : String) : String := "  " ++ padRight 15 label ++ value

/-- The line of a metadata block. -/
def blockLine (block : MetadataBlock) : String :=
  "    " ++ padRight 14 block.kind.label ++ " offset=" ++ padRight 8 (toString block.offset) ++
    " length=" ++ toString block.length ++ if block.isLast then "  (last)" else ""

/-- The firmware with its tags. -/
def firmwareText (firmware : Firmware) : String :=
  firmware.versionText ++ " (tags: " ++ joinTexts ' ' firmware.tags ++ ")"

/-- What is told, line by line. -/
def lines (info : FileInfo) : List String :=
  let stream := info.stream
  ["── FLAC ─────────────────────────────────────────────────",
    line "Path" info.path,
    line "BLAKE3" (hexText info.digest),
    line "Sample rate" (toString stream.sampleRate ++ " Hz"),
    line "Channels" (toString stream.channels),
    line "Bit depth" (toString stream.bitsPerSample),
    line "Total samples" (toString stream.totalSamples),
    line "Block size" (toString stream.minBlockSize ++ ".." ++ toString stream.maxBlockSize),
    line "Frame size"
      (toString stream.minFrameSize ++ ".." ++ toString stream.maxFrameSize ++ " B"),
    line "MD5" (hexText stream.md5),
    line "Vendor" (info.vendor.getD "-"),
    line "Firmware" ((info.firmware.map firmwareText).getD "-"),
    "  Metadata blocks (" ++ toString info.blocks.length ++ "):"] ++
    info.blocks.map blockLine

end FileInfo

end FieldRecording

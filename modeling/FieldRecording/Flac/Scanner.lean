import FieldRecording.Flac.Frame
import FieldRecording.Flac.Metadata
import FieldRecording.Flac.StreamInfo

/-!
# Finding the frames of a source

A `Scanner` is a scan under way; `Scanner.begin` starts one, and `Scanner.next` pulls the next
item of it. The audio inside a frame is not decoded, so that a frame is found by its header
alone: two bytes of sync, a header that decodes with its check byte right, and a number that
follows that of the frame before. Bytes that look like a header but fail one of these tests are
audio.

The scanner holds the bytes that it has read but not yet passed, and is in one of three stages
(`ScanStage`). `Scanner.step` is one look at the bytes at hand, and `Scanner.Follows` says what
it can lead to.

| stage     | with the bytes at hand |
|-----------|------------------------|
| seeking   | pass all bytes before the next `FF` |
| candidate | look at the byte behind it: `F8` and `F9` may start a frame |
| decoding  | decode the header; find a frame, or seek on two bytes later |

A candidate that is followed by another `FF` seeks on one byte later, since that byte
may be the true one; one that is followed by any other byte seeks on two bytes later.

When the bytes at hand do not suffice the scanner reads more behind them and passes
none, so that the frames do not depend on how the bytes are cut into reads.

The bytes at hand stand in storage that `Scanner.readMore` has grow when a chunk does not
fit behind them. `Scanner.grown?` is the rule of growth: storage doubles, and storage that
would have room for `sizeLimit` bytes or more cannot be had. A scan whose chunks are that
large fails.

`Scanner.remaining` decreases with every move (`Scanner.remaining_advance_lt`), so that
`Scanner.next` and `Scanner.collect` end.
-/

namespace FieldRecording

/-- What the scanner does next: `seekSync`, `judgeCandidate` or `decodeFrame`. -/
inductive ScanStage where
  | seeking
  | candidate
  | decoding
  deriving Repr, DecidableEq

/-- A scan under way: the source, what was found last, and the bytes at hand with the storage that
they stand in. It is moved on by `Scanner.advance`. -/
structure Scanner where
  source : ByteSource
  stream : StreamParameters
  /-- How many bytes are read at a time. -/
  chunk : Nat
  /-- The offset of the first byte not yet passed. -/
  position : Nat
  /-- The bytes from there on that have been read. -/
  pending : List UInt8 := []
  /-- How many bytes the storage has room for. -/
  capacity : Nat := pending.length
  stage : ScanStage := .seeking
  /-- The header of the frame found last. -/
  last : Option FrameHeader := none
  /-- The index of the frame found last. -/
  index : Option Nat := none
  /-- Whether reading has reached the end. -/
  atEnd : Bool := false
  finished : Bool := false

namespace Scanner

/-- The first byte of a frame, with which every search starts. -/
def syncByte : UInt8 := 0xFF

/-- Pass `count` bytes, and go to `stage`. -/
def pass (scanner : Scanner) (count : Nat) (stage : ScanStage) : Scanner :=
  { scanner with
    position := scanner.position + count
    pending := scanner.pending.drop count
    stage }

/-- What one look at the bytes at hand leads to: a frame, a place further on, or a lack of bytes
that `readMore` has to make up for. -/
inductive Step where
  | found (frame : Frame) (scanner : Scanner)
  | moved (scanner : Scanner)
  | needsBytes (scanner : Scanner)

/-- Pass all bytes before the next `syncByte`. -/
def seekSync (scanner : Scanner) : Step :=
  let before := (scanner.pending.takeWhile (· ≠ syncByte)).length
  if (scanner.pending.drop before).isEmpty then .needsBytes (scanner.pass before .seeking)
  else .moved (scanner.pass before .candidate)

/-- Look at the byte behind the sync byte: the two of them may start a frame, or a second
`syncByte` may be the true one. -/
def judgeCandidate (scanner : Scanner) : Step :=
  match scanner.pending with
  | _ :: second :: _ =>
    if second = 0xF8 ∨ second = 0xF9 then .moved { scanner with stage := .decoding }
    else if second = syncByte then .moved (scanner.pass 1 .seeking)
    else .moved (scanner.pass 2 .seeking)
  | _ => .needsBytes scanner

/-- The header that `FrameHeader.decode` finds in a window of bytes, if it may follow the frame
found last, by `checkFollows`. -/
def accept? (scanner : Scanner) (window : List UInt8) : Option (FrameHeader × Nat) :=
  match FrameHeader.decode window scanner.stream with
  | .error _ => none
  | .ok (header, length) =>
    match scanner.last with
    | none => some (header, length)
    | some last =>
      match last.checkFollows header with
      | .ok () => some (header, length)
      | .error _ => none

/-- The index of the next frame, which has the given header: its `frameNumber` for the first frame
that is found, and then one more each time. -/
def indexOf (scanner : Scanner) (header : FrameHeader) : Nat :=
  match scanner.index with
  | none => header.frameNumber.getD 0
  | some index => nextIndex index

/-- Decode the header at hand from the `maxHeaderLength` bytes that it may take. -/
def decodeFrame (scanner : Scanner) : Step :=
  let window := scanner.pending.take maxHeaderLength
  if window.length < maxHeaderLength then .needsBytes scanner
  else match scanner.accept? window with
  | none => .moved (scanner.pass 2 .seeking)
  | some (header, length) =>
    let index := scanner.indexOf header
    .found { index, offset := scanner.position, header }
      { scanner.pass length .seeking with last := some header, index := some index }

/-- One look at the bytes at hand, by the stage of the scanner. -/
def step (scanner : Scanner) : Step :=
  match scanner.stage with
  | .seeking => scanner.seekSync
  | .candidate => scanner.judgeCandidate
  | .decoding => scanner.decodeFrame

/-- What a scan yields: a frame, or the failure that ends it. -/
abbrev Item := Except FlacError Frame

/-- The room of storage once it has room for `needed` bytes. Storage that is too small
gets twice the room that it had, or more where that does not suffice, and room for 8
bytes at least. No storage has room for `sizeLimit` bytes. -/
def grown? (capacity needed : Nat) : Option Nat :=
  if needed ≤ capacity then some capacity
  else
    let room := max (max (2 * capacity) needed) 8
    if room < sizeLimit then some room else none

/-- Read more bytes behind those at hand, or finish. A failure to read is yielded
and finishes the scan, and so is a lack of room for the bytes of a whole chunk. -/
def readMore (scanner : Scanner) : Option Item × Scanner :=
  if scanner.atEnd then
    (none, { scanner with finished := true })
  else
    match grown? scanner.capacity (scanner.pending.length + scanner.chunk) with
    | none => (some (.error (.io .tooManyBytes)), { scanner with finished := true })
    | some capacity =>
      let next := scanner.position + scanner.pending.length
      match scanner.source.readAt next scanner.chunk with
      | (.error cause, source) =>
        (some (.error (.io cause)), { scanner with source, capacity, finished := true })
      | (.ok bytes, source) =>
        if bytes.isEmpty then (none, { scanner with source, capacity, atEnd := true })
        else (none, { scanner with source, capacity, pending := scanner.pending ++ bytes })

/-- Move a scan that is not finished on, to the next item perhaps: a `step`, and `readMore` where
that lacks bytes. -/
def advance (scanner : Scanner) : Option Item × Scanner :=
  match scanner.step with
  | .found frame scanner => (some (.ok frame), scanner)
  | .moved scanner => (none, scanner)
  | .needsBytes scanner => scanner.readMore

/-! ## A scan ends -/

/-- How many moves a stage may still take without passing a byte, for `remaining`. -/
def rank : ScanStage → Nat
  | .seeking => 2
  | .candidate => 1
  | .decoding => 0

/-- What is left to do: it decreases with every move (`remaining_advance_lt`). -/
def remaining (scanner : Scanner) : Nat :=
  if scanner.finished then 0
  else
    let unread := scanner.source.content.size - (scanner.position + scanner.pending.length)
    6 * (scanner.pending.length + 2 * unread) + (if scanner.atEnd then 0 else 3) +
      rank scanner.stage + 1

/-- `after` is `before` with bytes passed, or in a stage closer to passing some. -/
structure MovedOn (before after : Scanner) : Prop where
  source : after.source = before.source
  chunk : after.chunk = before.chunk
  reach : after.position + after.pending.length = before.position + before.pending.length
  atEnd : after.atEnd = before.atEnd
  finished : after.finished = before.finished
  closer : after.pending.length < before.pending.length ∨
    after.pending.length = before.pending.length ∧ rank after.stage < rank before.stage

theorem MovedOn.position_le {before after : Scanner} (moved : MovedOn before after) :
    before.position ≤ after.position := by
  have reach := moved.reach
  have := moved.closer
  omega

theorem MovedOn.remaining_lt {before after : Scanner} (moved : MovedOn before after)
    (running : before.finished = false) : after.remaining < before.remaining := by
  have stageBound : rank after.stage ≤ 2 := by cases after.stage <;> decide
  have stillRunning := moved.finished.trans running
  simp only [remaining, running, stillRunning, moved.source, moved.reach, moved.atEnd]
  have := moved.closer
  simp only [Bool.false_eq_true, if_false]
  omega

theorem length_pending_pass (scanner : Scanner) (count : Nat) (stage : ScanStage) :
    (scanner.pass count stage).pending.length = scanner.pending.length - count := by
  simp [pass]

theorem MovedOn.of_pass {scanner : Scanner} {count : Nat} {stage : ScanStage}
    (positive : 0 < count) (available : count ≤ scanner.pending.length) :
    MovedOn scanner (scanner.pass count stage) where
  source := rfl
  chunk := rfl
  reach := by
    rw [length_pending_pass]
    simp only [pass]
    omega
  atEnd := rfl
  finished := rfl
  closer := by
    rw [length_pending_pass]
    omega

theorem decode_of_accept? {scanner : Scanner} {window : List UInt8} {header : FrameHeader}
    {length : Nat} (accepted : scanner.accept? window = some (header, length)) :
    FrameHeader.decode window scanner.stream = .ok (header, length) := by
  unfold accept? at accepted
  split at accepted
  · simp at accepted
  · rename_i decodedHeader decodedLength decoded
    rw [decoded]
    split at accepted
    · simpa using accepted
    · split at accepted <;> simp_all

theorem length_takeWhile_le (pending : List UInt8) :
    (pending.takeWhile (· ≠ syncByte)).length ≤ pending.length :=
  (List.takeWhile_prefix _).length_le

/-- `after` holds the bytes that `before` held, or fewer where it has passed some, and
lacks bytes to go on with. -/
structure Waits (before after : Scanner) : Prop where
  source : after.source = before.source
  chunk : after.chunk = before.chunk
  atEnd : after.atEnd = before.atEnd
  reach : after.position + after.pending.length = before.position + before.pending.length
  fewer : after.pending.length ≤ before.pending.length
  stage : after.stage = before.stage
  finished : after.finished = before.finished

theorem Waits.position_le {before after : Scanner} (waits : Waits before after) :
    before.position ≤ after.position := by
  have reach := waits.reach
  have := waits.fewer
  omega

theorem Waits.refl (scanner : Scanner) : Waits scanner scanner :=
  ⟨rfl, rfl, rfl, rfl, Nat.le_refl _, rfl, rfl⟩

/-- The stage cannot go on with the bytes at hand, so that its `step` lacks bytes. -/
def Starved (scanner : Scanner) : Prop :=
  match scanner.stage with
  | .seeking => scanner.pending = []
  | .candidate => scanner.pending.length < 2
  | .decoding => scanner.pending.length < maxHeaderLength

/-- What a look leads to: bytes are passed, or the stage is closer to passing some
(`MovedOn`), or bytes are lacking (`Waits`). A frame is found where the scanner stands, with
all bytes at hand that its header may take. -/
inductive Follows (before : Scanner) : Step → Prop where
  | found {frame : Frame} {after : Scanner} (moved : MovedOn before after)
    (decoding : before.stage = .decoding) (here : frame.offset = before.position)
    (enough : maxHeaderLength ≤ before.pending.length) : Follows before (.found frame after)
  | moved {after : Scanner} (moved : MovedOn before after) : Follows before (.moved after)
  | needsBytes {after : Scanner} (waits : Waits before after) (starved : Starved after) :
    Follows before (.needsBytes after)

/-- What a look that lacks bytes leads to. -/
theorem Follows.of_needsBytes {before after : Scanner}
    (follows : Follows before (.needsBytes after)) : Waits before after ∧ Starved after := by
  cases follows with
  | needsBytes waits starved => exact ⟨waits, starved⟩

section Looks

variable {scanner : Scanner}

/-- A search for a sync byte stops in front of one, or passes all bytes at hand. -/
theorem follows_seekSync (seeking : scanner.stage = .seeking) :
    Follows scanner scanner.seekSync := by
  have bound := length_takeWhile_le scanner.pending
  have reach (stage : ScanStage) :
      (scanner.pass (scanner.pending.takeWhile (· ≠ syncByte)).length stage).position +
        (scanner.pass (scanner.pending.takeWhile (· ≠ syncByte)).length stage).pending.length =
        scanner.position + scanner.pending.length := by
    rw [length_pending_pass]
    simp only [pass]
    omega
  unfold seekSync
  dsimp only
  split
  case isTrue nothingLeft =>
    refine .needsBytes ⟨rfl, rfl, rfl, reach _, ?_, seeking.symm, rfl⟩
      (List.isEmpty_iff.mp nothingLeft)
    rw [length_pending_pass]
    exact Nat.sub_le _ _
  case isFalse syncLeft =>
    have closer : rank ScanStage.candidate < rank scanner.stage := by
      rw [seeking]
      exact Nat.lt_succ_self 1
    refine .moved ⟨rfl, rfl, reach _, rfl, rfl, ?_⟩
    rw [length_pending_pass]
    change _ ∨ _ ∧ rank ScanStage.candidate < rank scanner.stage
    omega

/-- A candidate is decoded where a frame may start, and passed where none does. -/
theorem follows_judgeCandidate (candidate : scanner.stage = .candidate) :
    Follows scanner scanner.judgeCandidate := by
  unfold judgeCandidate
  split
  case h_1 first second rest held =>
    have two : 2 ≤ scanner.pending.length := by
      rw [held]
      exact Nat.le_add_left 2 rest.length
    split
    case isTrue opens =>
      have closer : rank ScanStage.decoding < rank scanner.stage := by
        rw [candidate]
        exact Nat.zero_lt_one
      exact .moved ⟨rfl, rfl, rfl, rfl, rfl, .inr ⟨rfl, closer⟩⟩
    case isFalse other =>
      split
      case isTrue sync => exact .moved (.of_pass (by decide) (Nat.le_of_succ_le two))
      case isFalse noSync => exact .moved (.of_pass (by decide) two)
  case h_2 tooFew =>
    refine .needsBytes (.refl scanner) ?_
    rw [Starved, candidate]
    rcases held : scanner.pending with _ | ⟨first, _ | ⟨second, rest⟩⟩
    · exact Nat.zero_lt_two
    · exact Nat.one_lt_two
    · exact absurd held (tooFew first second rest)

/-- A header that is decoded is passed, and of one that is rejected its sync bytes are. -/
theorem follows_decodeFrame (decoding : scanner.stage = .decoding) :
    Follows scanner scanner.decodeFrame := by
  unfold decodeFrame
  dsimp only
  rw [List.length_take]
  split
  case isTrue tooFew =>
    refine .needsBytes (.refl scanner) ?_
    rw [Starved, decoding]
    exact Nat.lt_of_not_le fun enough =>
      absurd tooFew (Nat.not_lt.mpr (Nat.le_min.mpr ⟨Nat.le_refl _, enough⟩))
  case isFalse enough =>
    have held : maxHeaderLength ≤ scanner.pending.length :=
      (Nat.le_min.mp (Nat.le_of_not_lt enough)).2
    have sixteen : 16 ≤ scanner.pending.length := held
    split
    case h_1 rejected => exact .moved (.of_pass (by decide) (by omega))
    case h_2 header length accepted =>
      have bounds := FrameHeader.length_decode (decode_of_accept? accepted)
      simp only [maxHeaderLength] at bounds
      have passed : MovedOn scanner (scanner.pass length .seeking) :=
        .of_pass bounds.1 (by omega)
      exact .found ⟨rfl, rfl, passed.reach, rfl, rfl, passed.closer⟩ decoding rfl held

theorem follows_step (scanner : Scanner) : Follows scanner scanner.step := by
  unfold step
  split
  case h_1 seeking => exact follows_seekSync seeking
  case h_2 candidate => exact follows_judgeCandidate candidate
  case h_3 decoding => exact follows_decodeFrame decoding

end Looks

/-- A lack of bytes is made up for by `readMore`, or the scan is over. -/
theorem remaining_readMore_lt (scanner : Scanner) (running : scanner.finished = false) :
    scanner.readMore.2.remaining < scanner.remaining := by
  unfold readMore
  split
  case isTrue ended => simp [remaining, running]
  case isFalse notEnded =>
    split
    case h_1 noRoom => simp [remaining, running]
    case h_2 capacity room =>
      dsimp only
      split
      case h_1 cause source failed => simp [remaining, running]
      case h_2 bytes source answered =>
        have content := ByteSource.content_readAt scanner.source
          (scanner.position + scanner.pending.length) scanner.chunk
        have bound := ByteSource.length_readAt_le answered
        rw [answered] at content
        simp only at content
        split
        case isTrue noneCame => simp [remaining, running, notEnded, content]
        case isFalse someCame =>
          have positive : 0 < bytes.length :=
            List.length_pos_iff.mpr fun empty => someCame (List.isEmpty_iff.mpr empty)
          simp only [remaining, running, content, List.length_append, notEnded,
            Bool.false_eq_true, if_false]
          omega

/-- Every move with `advance` leaves less to do. -/
theorem remaining_advance_lt (scanner : Scanner) (running : scanner.finished = false) :
    scanner.advance.2.remaining < scanner.remaining := by
  have follows := follows_step scanner
  unfold advance
  generalize scanner.step = step at follows
  cases follows with
  | found moved => exact moved.remaining_lt running
  | moved moved => exact moved.remaining_lt running
  | @needsBytes after waits starved =>
    have less := after.remaining_readMore_lt (waits.finished.trans running)
    have bound : after.remaining ≤ scanner.remaining := by
      have fewer := waits.fewer
      simp only [remaining, running, waits.finished, waits.source, waits.reach, waits.atEnd,
        waits.stage, Bool.false_eq_true, if_false]
      omega
    exact Nat.lt_of_lt_of_le less bound

/-! ## The items of a scan -/

/-- The next item of a scan, and the scan after it; no item when it is finished. It is as many
moves with `advance` as that takes. -/
def next (scanner : Scanner) : Option Item × Scanner :=
  if _running : scanner.finished then
    (none, scanner)
  else
    match _moved : scanner.advance with
    | (some item, scanner) => (some item, scanner)
    | (none, scanner) => scanner.next
  termination_by scanner.remaining
  decreasing_by
    have less := remaining_advance_lt _ (by simpa using _running)
    rw [_moved] at less
    exact less

/-- The items of a scan behind those found so far, and the scan when it is finished: all that
`advance` still finds. -/
def collect (scanner : Scanner) (found : Array Item) : Array Item × Scanner :=
  if _running : scanner.finished then
    (found, scanner)
  else
    match _moved : scanner.advance with
    | (some item, scanner) => scanner.collect (found.push item)
    | (none, scanner) => scanner.collect found
  termination_by scanner.remaining
  decreasing_by
    all_goals
      have less := remaining_advance_lt _ (by simpa using _running)
      rw [_moved] at less
      exact less

/-- All items of a scan. -/
def items (scanner : Scanner) : List Item × Scanner :=
  let (found, scanner) := scanner.collect #[]
  (found.toList, scanner)

/-- The next items of a scan, at most `count` of them. -/
def nextItems (scanner : Scanner) : (count : Nat) → List Item × Scanner
  | 0 => ([], scanner)
  | count + 1 =>
    match scanner.next with
    | (none, scanner) => ([], scanner)
    | (some item, scanner) =>
      let (items, scanner) := scanner.nextItems count
      (item :: items, scanner)

/-! ## Scanning a source -/

/-- How a scan is set up. -/
structure Options where
  /-- How many bytes are read at a time; none means one. -/
  chunk : Nat := 4096
  /-- Where the scan starts; else at the first frame. -/
  start : Option Nat := none
  /-- What is left in the storage, which may have served an earlier scan. -/
  storage : List UInt8 := []
  /-- How many bytes the storage has room for behind what is left in it. -/
  spare : Nat := 0

/-- How many bytes the storage of a scan has room for when it starts. -/
def Options.capacity (options : Options) : Nat := options.storage.length + options.spare

/-- Storage without what was left in it. -/
def cleared (storage : List UInt8) : List UInt8 := storage.take 0

/-- The storage of a scan, for another to use. -/
def storage (scanner : Scanner) : List UInt8 := cleared scanner.pending

/-- Start a scan. -/
def begin (options : Options) : Access FlacError Scanner := do
  let sampleRate ← StreamField.sampleRate.read
  let bitsPerSample ← StreamField.bitDepth.read
  let start ←
    match options.start with
    | some offset => pure offset
    | none => MetadataChain.frameStart
  if (← Access.length) < start then
    throw (.framesOutOfReach start)
  if (← Access.seek start) ≠ start then
    throw (.framesOutOfReach start)
  return {
    source := ← get
    stream := { sampleRate, bitsPerSample }
    chunk := max options.chunk 1
    position := start
    pending := cleared options.storage
    capacity := options.capacity }

/-- Scan to the end, and leave the source as the scan left it. -/
def finish {ε : Type} (scanner : Scanner) : Access ε (List Item) := do
  let (items, scanner) := scanner.items
  set scanner.source
  return items

end Scanner

/-- Where a search of the tail starts: three of the largest frames before the end,
but not before the first frame. A largest frame of unknown size counts as 64 KiB. -/
def tailOffset : Access FlacError Nat := do
  let stated ← StreamField.maxFrameSize.read
  let largest := if stated = 0 then 65536 else stated
  let frameStart ← MetadataChain.frameStart
  let length ← Access.length
  return max (length - 3 * largest) frameStart

/-- Find the frames from the first one on, or only those of the tail. -/
def findFrames (full : Bool) : Access FlacError (List Frame) := do
  let start ← if full then pure none else some <$> tailOffset
  let scanner ← Scanner.begin { start }
  let items ← scanner.finish
  Access.ofExcept (items.mapM fun item => item)

/-- Count the samples of a stream whose blocks have one size. -/
def countSamples (full : Bool) : Access FlacError Nat := do
  let smallest ← StreamField.minBlockSize.read
  let largest ← StreamField.maxBlockSize.read
  if smallest ≠ largest then
    throw .blockSizeVaries
  Access.ofExcept (samplesOfFrames (← findFrames full))

end FieldRecording

import FieldRecording.Proofs.Bytes.Honest
import FieldRecording.Proofs.Flac.Sighting

/-!
# A scanner tracks its content

A scanner on an honest source holds a window of the true bytes from its position on, and
its stage says what is known of the first of them. That is `Scanner.Tracks`, and every
move keeps it.

What a scanner is still to find is a function of its position and the header found last:
`Scanner.sweep`. Moves that find nothing leave it alone, however many bytes they pass and
whatever they read, so that a pull finds what the sweep finds and stands where the sweep
stops (`pulls_next`).

A scanner asks for more bytes only while it holds fewer than a header takes
(`length_pending_of_starved`). `Scanner.ChunkFits` bounds the bytes that it reads at a time
so that its storage can then always grow (`exists_grown`); the bound does not depend on the
room that the storage has to begin with.
-/

namespace FieldRecording.Scanner

open ByteSource

/-- What a stage knows of the bytes at hand: nothing, that the first of them may open a frame, or
that the first two do. -/
def Staged : ScanStage → List UInt8 → Prop
  | .seeking, _ => True
  | .candidate, pending => pending[0]? = some syncByte
  | .decoding, pending => isSyncPair pending[0]? pending[1]? = true

/-- What is known of the first bytes stays known when more come behind them. -/
theorem staged_append {stage : ScanStage} {pending : List UInt8} (staged : Staged stage pending)
    (more : List UInt8) : Staged stage (pending ++ more) := by
  cases stage with
  | seeking => trivial
  | candidate =>
    simp only [Staged] at staged ⊢
    have one := (List.getElem?_eq_some_iff.mp staged).1
    rw [List.getElem?_append_left one, staged]
  | decoding =>
    simp only [Staged] at staged ⊢
    have two : 1 < pending.length := by
      rcases (Sighting.isSyncPair_eq_true.mp staged).2 with second | second <;>
        exact (List.getElem?_eq_some_iff.mp second).1
    rw [List.getElem?_append_left (by omega), List.getElem?_append_left two, staged]

/-- So few bytes are read at a time that storage for them can be had. It is only when the storage
has no room for a chunk behind less than a header that `readMore` has it grow, and twice what it
then has room for is below `sizeLimit`. -/
def ChunkFits (chunk : Nat) : Prop := 2 * (chunk + maxHeaderLength) ≤ sizeLimit

instance (chunk : Nat) : Decidable (ChunkFits chunk) := inferInstanceAs (Decidable (_ ≤ _))

theorem ChunkFits.lt_sizeLimit {chunk : Nat} (fits : ChunkFits chunk) : chunk < sizeLimit := by
  simp only [ChunkFits, maxHeaderLength, sizeLimit] at fits ⊢
  omega

/-- To read no bytes at a time is to read one, so that `ChunkFits` holds of one as well. -/
theorem ChunkFits.max_one {chunk : Nat} (fits : ChunkFits chunk) : ChunkFits (max chunk 1) := by
  simp only [ChunkFits, maxHeaderLength, sizeLimit] at fits ⊢
  omega

/-- Storage cannot grow, by `grown?`, where its room doubles to `sizeLimit` or beyond, and where
so many bytes are needed. -/
theorem grown?_eq_none_iff {capacity needed : Nat} :
    grown? capacity needed = none ↔
      capacity < needed ∧ (sizeLimit ≤ 2 * capacity ∨ sizeLimit ≤ needed) := by
  unfold grown?
  by_cases roomy : needed ≤ capacity
  · rw [if_pos roomy]
    refine ⟨fun isNone => ?_, fun ⟨lacks, _⟩ => absurd roomy (Nat.not_le.mpr lacks)⟩
    cases isNone
  · rw [if_neg roomy]
    dsimp only
    by_cases room : max (max (2 * capacity) needed) 8 < sizeLimit
    · rw [if_pos room]
      refine ⟨fun isNone => ?_, fun ⟨_, large⟩ => ?_⟩
      · cases isNone
      · omega
    · rw [if_neg room]
      refine ⟨fun _ => ⟨Nat.lt_of_not_le roomy, ?_⟩, fun _ => rfl⟩
      simp only [sizeLimit] at room ⊢
      omega

/-- Storage grows by `grown?` to hold a chunk behind less than a header, whatever it has room for.
This is what `ChunkFits` is for. -/
theorem exists_grown {chunk held : Nat} (fits : ChunkFits chunk) (few : held < maxHeaderLength)
    (capacity : Nat) : ∃ room, grown? capacity (held + chunk) = some room := by
  cases grown : grown? capacity (held + chunk) with
  | some room => exact ⟨room, rfl⟩
  | none =>
    obtain ⟨lacks, large⟩ := grown?_eq_none_iff.mp grown
    simp only [ChunkFits, maxHeaderLength, sizeLimit] at fits few large
    omega

/-- The scanner is on an honest source over `content`, holds the bytes that stand at its position,
and has passed to the end when it says so. What its stage knows of the bytes is `Staged`. -/
structure Tracks (scanner : Scanner) (content : Content) : Prop where
  honest : scanner.source.Honest
  bytes : scanner.source.content = content
  chunk_pos : 0 < scanner.chunk
  fits : ChunkFits scanner.chunk
  reach : scanner.position + scanner.pending.length ≤ content.size
  window : scanner.pending = content.slice scanner.position scanner.pending.length
  atEnd : scanner.atEnd = true → scanner.position + scanner.pending.length = content.size
  staged : Staged scanner.stage scanner.pending

/-- What the scanner is to find next, and where it will stand then, by `Sighting.sweep` of its
content. -/
def sweep (scanner : Scanner) (content : Content) : Option Sighting × Nat :=
  Sighting.sweep content scanner.stream scanner.last scanner.position

/-- The scanner remembers the same frames, of the same stream, whatever else it has done. -/
structure Kept (before after : Scanner) : Prop where
  stream : after.stream = before.stream
  last : after.last = before.last
  index : after.index = before.index
  finished : after.finished = before.finished

theorem Kept.refl (scanner : Scanner) : Kept scanner scanner := ⟨rfl, rfl, rfl, rfl⟩

theorem Kept.trans {before middle after : Scanner} (first : Kept before middle)
    (second : Kept middle after) : Kept before after :=
  ⟨second.stream.trans first.stream, second.last.trans first.last,
    second.index.trans first.index, second.finished.trans first.finished⟩

theorem Kept.pass (scanner : Scanner) (count : Nat) (stage : ScanStage) :
    Kept scanner (scanner.pass count stage) := ⟨rfl, rfl, rfl, rfl⟩

/-- The frame that a header stands for when the scanner finds it, with the index of `indexOf`. -/
def frameOf (scanner : Scanner) (sighting : Sighting) : Frame where
  index := scanner.indexOf sighting.header
  offset := sighting.offset
  header := sighting.header

/-- The scanner behind a header that it has found, as `decodeFrame` leaves it. -/
def taking (scanner : Scanner) (sighting : Sighting) : Scanner :=
  { scanner.pass sighting.length .seeking with
    last := some sighting.header
    index := some (scanner.indexOf sighting.header) }

namespace Tracks

variable {scanner : Scanner} {content : Content}

/-- A byte at hand is the byte of the content that stands there. -/
theorem getElem?_pending (tracks : scanner.Tracks content) (index : Nat)
    (held : index < scanner.pending.length) :
    scanner.pending[index]? = content[scanner.position + index]? := by
  rw [tracks.window, Content.getElem?_slice, if_pos held]

theorem pass (tracks : scanner.Tracks content) (stage : ScanStage) {count : Nat}
    (held : count ≤ scanner.pending.length) (staged : Staged stage (scanner.pending.drop count)) :
    (scanner.pass count stage).Tracks content where
  honest := tracks.honest
  bytes := tracks.bytes
  chunk_pos := tracks.chunk_pos
  fits := tracks.fits
  reach := by
    have := tracks.reach
    rw [length_pending_pass]
    simp only [Scanner.pass]
    omega
  window := by
    rw [length_pending_pass]
    simp only [Scanner.pass]
    rw [← Content.drop_slice, ← tracks.window]
  atEnd ended := by
    have := tracks.atEnd ended
    rw [length_pending_pass]
    simp only [Scanner.pass]
    omega
  staged := staged

theorem taking (tracks : scanner.Tracks content) {sighting : Sighting}
    (held : sighting.length ≤ scanner.pending.length) :
    (scanner.taking sighting).Tracks content := by
  have passed := tracks.pass .seeking held trivial
  exact ⟨passed.honest, passed.bytes, passed.chunk_pos, passed.fits, passed.reach,
    passed.window, passed.atEnd, trivial⟩

end Tracks

/-! ## One look at the bytes at hand -/

/-- What a look at the bytes leads to, as far as the content tells: what `step` returns, seen from
`sweep`. -/
inductive Looks (content : Content) (before : Scanner) : Step → Prop where
  | moved {after : Scanner} (tracks : after.Tracks content) (kept : Kept before after)
    (same : after.sweep content = before.sweep content) : Looks content before (.moved after)
  | needsBytes {after : Scanner} (tracks : after.Tracks content) (kept : Kept before after)
    (same : after.sweep content = before.sweep content) :
    Looks content before (.needsBytes after)
  | found {sighting : Sighting} (tracks : (before.taking sighting).Tracks content)
    (here : sighting.offset = before.position)
    (finds : before.sweep content = (some sighting, sighting.stop)) :
    Looks content before (.found (before.frameOf sighting) (before.taking sighting))

section Stages

variable {scanner : Scanner} {content : Content}

/-- The bytes that a search for a sync byte passes are none. -/
theorem ne_sync_of_lt_takeWhile {pending : List UInt8} {index : Nat}
    (below : index < (pending.takeWhile (· ≠ syncByte)).length) :
    pending[index]? ≠ some syncByte := by
  have same := (List.takeWhile_prefix (l := pending) (· ≠ syncByte)).getElem below
  have passed := List.all_eq_true.mp (List.all_takeWhile (l := pending) (p := (· ≠ syncByte)))
    _ (List.getElem_mem below)
  rw [same] at passed
  have inside := Nat.lt_of_lt_of_le below (length_takeWhile_le pending)
  rw [List.getElem?_eq_getElem inside]
  simpa using passed

/-- The byte that a search for a sync byte stops at is one. -/
theorem getElem?_drop_takeWhile (pending : List UInt8)
    (stopped : pending.drop (pending.takeWhile (· ≠ syncByte)).length ≠ []) :
    (pending.drop (pending.takeWhile (· ≠ syncByte)).length)[0]? = some syncByte := by
  have whole := List.takeWhile_append_dropWhile (l := pending) (p := (· ≠ syncByte))
  have rest : pending.drop (pending.takeWhile (· ≠ syncByte)).length =
      pending.dropWhile (· ≠ syncByte) := by
    calc pending.drop (pending.takeWhile (· ≠ syncByte)).length
      _ = (pending.takeWhile (· ≠ syncByte) ++ pending.dropWhile (· ≠ syncByte)).drop
            (pending.takeWhile (· ≠ syncByte)).length := by rw [whole]
      _ = pending.dropWhile (· ≠ syncByte) := List.drop_left
  rw [rest] at stopped ⊢
  have first := List.head?_dropWhile_not (· ≠ syncByte) pending
  cases left : pending.dropWhile (· ≠ syncByte) with
  | nil => exact absurd left stopped
  | cons byte bytes =>
    rw [left] at first
    simpa using first

theorem looks_seekSync (tracks : scanner.Tracks content) :
    Looks content scanner scanner.seekSync := by
  have bound := length_takeWhile_le scanner.pending
  have reach := tracks.reach
  have others : ∀ index, index < (scanner.pending.takeWhile (· ≠ syncByte)).length →
      content[scanner.position + index]? ≠ some syncByte := by
    intro index below
    rw [← tracks.getElem?_pending index (Nat.lt_of_lt_of_le below bound)]
    exact ne_sync_of_lt_takeWhile below
  have same : (scanner.pass (scanner.pending.takeWhile (· ≠ syncByte)).length .seeking).sweep
      content = scanner.sweep content :=
    (Sighting.sweep_of_all_ne_sync _ (by omega) others).symm
  unfold seekSync
  dsimp only
  split
  case isTrue nothingLeft =>
    exact .needsBytes (tracks.pass .seeking bound trivial) (.pass _ _ _) same
  case isFalse syncLeft =>
    refine .moved (tracks.pass .candidate bound ?_) (.pass _ _ _) same
    exact getElem?_drop_takeWhile scanner.pending (by simpa using syncLeft)

/-- The first two bytes at hand are those that stand at the position, so that `isSyncPair` may be
asked of either. -/
theorem syncPair_pending (tracks : scanner.Tracks content) (two : 2 ≤ scanner.pending.length) :
    isSyncPair content[scanner.position]? content[scanner.position + 1]? =
      isSyncPair scanner.pending[0]? scanner.pending[1]? := by
  have first := tracks.getElem?_pending 0 (by omega)
  rw [first, tracks.getElem?_pending 1 (by omega)]
  rfl

theorem looks_judgeCandidate (tracks : scanner.Tracks content)
    (stage : scanner.stage = .candidate) :
    Looks content scanner scanner.judgeCandidate := by
  have staged := tracks.staged
  have reach := tracks.reach
  rw [stage] at staged
  unfold judgeCandidate
  split
  · rename_i first second rest bytes
    have two : 2 ≤ scanner.pending.length := by rw [bytes]; simp
    have pair := syncPair_pending tracks two
    have next : content[scanner.position + 1]? = some second := by
      rw [← tracks.getElem?_pending 1 (by omega), bytes]
      rfl
    simp only [Staged, bytes, List.getElem?_cons_zero] at staged
    simp only [bytes, List.getElem?_cons_zero, List.getElem?_cons_succ] at pair
    split
    · rename_i opens
      refine .moved ?_ ⟨rfl, rfl, rfl, rfl⟩ rfl
      refine ⟨tracks.honest, tracks.bytes, tracks.chunk_pos, tracks.fits, reach,
        tracks.window, tracks.atEnd, ?_⟩
      simp only [Staged, bytes, List.getElem?_cons_zero, List.getElem?_cons_succ]
      exact Sighting.isSyncPair_eq_true.mpr ⟨staged, by simpa using opens⟩
    · rename_i other
      -- the pair opens no frame, so that the sweep goes on behind its first byte
      have passed : scanner.sweep content =
          Sighting.sweep content scanner.stream scanner.last (scanner.position + 1) := by
        apply Sighting.sweep_of_not_syncPair (by omega)
        rw [pair]
        simpa [isSyncPair] using fun _ => other
      split
      · exact .moved (tracks.pass .seeking (by omega) trivial) (.pass _ _ _) passed.symm
      · rename_i noSync
        refine .moved (tracks.pass .seeking two trivial) (.pass _ _ _) ?_
        refine (Sighting.sweep_add_two (by omega) ?_ passed).symm
        rw [next]
        simpa using noSync
  · exact .needsBytes tracks (.refl _) rfl

/-- What the scanner accepts, by `accept?`, is what may follow the header found last, by
`ofWindow?`. -/
theorem accept?_eq_ofWindow? (scanner : Scanner) (window : List UInt8) :
    scanner.accept? window = FrameHeader.ofWindow? scanner.stream scanner.last window := rfl

theorem looks_decodeFrame (tracks : scanner.Tracks content)
    (stage : scanner.stage = .decoding) :
    Looks content scanner scanner.decodeFrame := by
  have staged := tracks.staged
  have reach := tracks.reach
  rw [stage] at staged
  unfold decodeFrame
  dsimp only
  split
  · exact .needsBytes tracks (.refl _) rfl
  · rename_i enough
    have held : maxHeaderLength ≤ scanner.pending.length := by
      simp only [List.length_take] at enough
      omega
    have sixteen : 16 ≤ scanner.pending.length := held
    have pair := syncPair_pending tracks (by omega)
    simp only [Staged] at staged
    rw [staged] at pair
    have window : scanner.pending.take maxHeaderLength =
        content.slice scanner.position maxHeaderLength := by
      rw [tracks.window, Content.take_slice, Nat.min_eq_left held]
    rw [window, accept?_eq_ofWindow?]
    split
    · rename_i rejected
      refine .moved (tracks.pass .seeking (by omega) trivial) (.pass _ _ _) ?_
      refine (Sighting.sweep_add_two (by omega) ?_
        (Sighting.sweep_of_rejected pair (by omega) rejected)).symm
      rcases (Sighting.isSyncPair_eq_true.mp pair).2 with second | second <;>
        simp [second, syncByte]
    · rename_i header length accepted
      have bounds := FrameHeader.length_decode (decode_of_accept? accepted)
      exact @Looks.found _ _ ⟨scanner.position, header, length⟩
        (tracks.taking (Nat.le_trans (Nat.le_of_lt bounds.2) held)) rfl
        (Sighting.sweep_of_accepted pair (by omega) accepted)

theorem looks_step (tracks : scanner.Tracks content) : Looks content scanner scanner.step := by
  unfold step
  split
  · exact looks_seekSync tracks
  · rename_i stage
    exact looks_judgeCandidate tracks stage
  · rename_i stage
    exact looks_decodeFrame tracks stage

end Stages

/-! ## Reading on -/

/-- What a scanner comes to when its source has answered a read. -/
def answered (scanner : Scanner) (outcome : Except IoError (List UInt8)) (source : ByteSource) :
    Option Item × Scanner :=
  match outcome with
  | .error cause => (some (.error (.io cause)), { scanner with source, finished := true })
  | .ok bytes =>
    if bytes.isEmpty then (none, { scanner with source, atEnd := true })
    else (none, { scanner with source, pending := scanner.pending ++ bytes })

theorem readMore_of_atEnd {scanner : Scanner} (ended : scanner.atEnd = true) :
    scanner.readMore = (none, { scanner with finished := true }) := by
  rw [readMore, if_pos ended]

theorem readMore_of_noRoom {scanner : Scanner} (goesOn : scanner.atEnd = false)
    (noRoom : grown? scanner.capacity (scanner.pending.length + scanner.chunk) = none) :
    scanner.readMore = (some (.error (.io .tooManyBytes)), { scanner with finished := true }) := by
  rw [readMore, if_neg (Bool.eq_false_iff.mp goesOn), noRoom]

theorem readMore_of_room {scanner : Scanner} (goesOn : scanner.atEnd = false) {capacity : Nat}
    (room : grown? scanner.capacity (scanner.pending.length + scanner.chunk) = some capacity) :
    scanner.readMore =
      { scanner with capacity }.answered
        (scanner.source.readAt (scanner.position + scanner.pending.length) scanner.chunk).1
        (scanner.source.readAt (scanner.position + scanner.pending.length) scanner.chunk).2 := by
  rw [readMore, if_neg (Bool.eq_false_iff.mp goesOn), room]
  dsimp only
  rcases scanner.source.readAt (scanner.position + scanner.pending.length) scanner.chunk with
    ⟨_ | bytes, after⟩
  · rfl
  · rfl

/-! ## One move -/

/-- A move that finds nothing goes on, or ends where `sweep` comes to rest. -/
inductive Quiet (content : Content) (before : Scanner) : Scanner → Prop where
  | goes {after : Scanner} (tracks : after.Tracks content) (kept : Kept before after)
    (same : after.sweep content = before.sweep content) : Quiet content before after
  | ends {after : Scanner} (finished : after.finished = true)
    (rests : before.sweep content = (none, after.position)) : Quiet content before after

/-- What a move leads to, as far as the content tells: what `advance` returns, seen from `sweep`. -/
inductive Moves (content : Content) (before : Scanner) : Option Item × Scanner → Prop where
  | quiet {after : Scanner} (quiet : Quiet content before after) :
    Moves content before (none, after)
  | finds {sighting : Sighting} (tracks : (before.taking sighting).Tracks content)
    (here : sighting.offset = before.position)
    (finds : before.sweep content = (some sighting, sighting.stop)) :
    Moves content before (some (.ok (before.frameOf sighting)), before.taking sighting)

section Moves

variable {scanner : Scanner} {content : Content}

/-- A scanner that is `Starved`, and that has read all bytes, is where the sweep comes to rest. -/
theorem sweep_of_starved (tracks : scanner.Tracks content) (starved : Starved scanner)
    (ended : scanner.atEnd = true) : scanner.sweep content = (none, scanner.position) := by
  have reach := tracks.atEnd ended
  have staged := tracks.staged
  unfold Starved at starved
  split at starved
  · rw [starved, List.length_nil, Nat.add_zero] at reach
    exact Sighting.sweep_of_size_le (Nat.le_of_eq reach.symm)
  · rename_i stage
    rw [stage] at staged
    simp only [Staged] at staged
    have one : 0 < scanner.pending.length := (List.getElem?_eq_some_iff.mp staged).1
    rw [tracks.getElem?_pending 0 one] at staged
    exact Sighting.sweep_of_last_byte staged (by omega)
  · rename_i stage
    rw [stage] at staged
    simp only [Staged] at staged
    have two : 2 ≤ scanner.pending.length := by
      rcases (Sighting.isSyncPair_eq_true.mp staged).2 with second | second <;>
        exact (List.getElem?_eq_some_iff.mp second).1
    rw [← syncPair_pending tracks two] at staged
    exact Sighting.sweep_of_short (by omega) staged (by omega)

/-- A scanner that is `Starved` holds fewer bytes than a header takes. -/
theorem length_pending_of_starved (starved : Starved scanner) :
    scanner.pending.length < maxHeaderLength := by
  unfold Starved at starved
  split at starved
  case h_1 seeking =>
    rw [starved]
    decide
  case h_2 candidate => exact Nat.lt_trans starved (by decide)
  case h_3 decoding => exact starved

/-- Reading on gives the bytes behind those at hand. -/
theorem readAt_of_tracks (tracks : scanner.Tracks content) :
    ∃ source, scanner.source.readAt (scanner.position + scanner.pending.length) scanner.chunk =
        (.ok (content.slice (scanner.position + scanner.pending.length) scanner.chunk), source) ∧
      SameMedium scanner.source source := by
  have within : scanner.position + scanner.pending.length ≤ scanner.source.content.size := by
    rw [tracks.bytes]
    exact tracks.reach
  rcases readAt_of_honest tracks.honest within tracks.fits.lt_sizeLimit with ⟨bytes, same⟩
  rw [tracks.bytes] at bytes
  exact ⟨_, Prod.ext bytes rfl, same⟩

/-- A scanner whose bytes do not suffice reads on with `readMore`, and finds nothing by that. -/
theorem quiet_readMore (tracks : scanner.Tracks content) (starved : Starved scanner) :
    ∃ after, scanner.readMore = (none, after) ∧ Quiet content scanner after := by
  have reach := tracks.reach
  have positive := tracks.chunk_pos
  cases ended : scanner.atEnd with
  | true =>
    rw [readMore_of_atEnd ended]
    exact ⟨_, rfl, .ends rfl (sweep_of_starved tracks starved ended)⟩
  | false =>
    obtain ⟨room, grown⟩ :=
      exists_grown tracks.fits (length_pending_of_starved starved) scanner.capacity
    obtain ⟨source, read, same⟩ := readAt_of_tracks tracks
    have honest := tracks.honest.of_sameMedium same
    have bytes := same.content.trans tracks.bytes
    have behind := Content.length_slice content
      (scanner.position + scanner.pending.length) scanner.chunk
    rw [readMore_of_room ended grown, read]
    unfold answered
    dsimp only
    split
    case isTrue noneBehind =>
      rw [List.isEmpty_iff.mp noneBehind, List.length_nil] at behind
      refine ⟨_, rfl, .goes ?_ ⟨rfl, rfl, rfl, rfl⟩ rfl⟩
      exact ⟨honest, bytes, positive, tracks.fits, reach, tracks.window,
        fun _ => by dsimp only; omega, tracks.staged⟩
    case isFalse someBehind =>
      refine ⟨_, rfl, .goes ?_ ⟨rfl, rfl, rfl, rfl⟩ rfl⟩
      refine ⟨honest, bytes, positive, tracks.fits, ?_, ?_, ?_, ?_⟩
      · simp only [List.length_append]
        omega
      · simp only [List.length_append]
        rw [← Content.slice_append_slice, ← tracks.window, Content.slice_length_slice]
      · intro hasEnded
        cases ended.symm.trans hasEnded
      · exact staged_append tracks.staged _

/-- A move with `advance` keeps the scanner on its content, and leaves alone what it is to find. -/
theorem moves_advance (tracks : scanner.Tracks content) :
    Moves content scanner scanner.advance := by
  have looks := looks_step tracks
  have follows := follows_step scanner
  unfold advance
  generalize scanner.step = step at looks follows
  cases looks with
  | moved tracks kept same => exact .quiet (.goes tracks kept same)
  | found tracks here finds => exact .finds tracks here finds
  | needsBytes tracks kept same =>
    obtain ⟨waits, starved⟩ := follows.of_needsBytes
    obtain ⟨last, read, quiet⟩ := quiet_readMore tracks starved
    dsimp only
    rw [read]
    cases quiet with
    | goes tracks keptOn sameOn =>
      exact .quiet (.goes tracks (kept.trans keptOn) (sameOn.trans same))
    | ends finished rests => exact .quiet (.ends finished (same.symm.trans rests))

end Moves

/-! ## One pull -/

/-- What a pull leads to, as far as the content tells: the next header, with the scanner behind
it, or the end, as `next` returns them. -/
inductive Pulls (content : Content) (before : Scanner) : Option Item × Scanner → Prop where
  | ends {after : Scanner} (finished : after.finished = true)
    (rests : before.sweep content = (none, after.position)) :
    Pulls content before (none, after)
  | finds {sighting : Sighting} {after : Scanner} (tracks : after.Tracks content)
    (running : after.finished = false) (stream : after.stream = before.stream)
    (last : after.last = some sighting.header)
    (index : after.index = some (before.indexOf sighting.header))
    (position : after.position = sighting.stop)
    (finds : before.sweep content = (some sighting, sighting.stop)) :
    Pulls content before (some (.ok (before.frameOf sighting)), after)

section Pulls

variable {scanner : Scanner} {content : Content}

/-- A pull of a scanner that remembers the same frames leads to the same. -/
theorem Pulls.of_kept {after : Scanner} {pulled : Option Item × Scanner}
    (kept : Kept scanner after) (same : after.sweep content = scanner.sweep content)
    (pulls : Pulls content after pulled) : Pulls content scanner pulled := by
  have sameIndex : ∀ header, after.indexOf header = scanner.indexOf header := by
    intro header
    rw [indexOf, indexOf, kept.index]
  cases pulls with
  | ends finished rests => exact .ends finished (same.symm.trans rests)
  | finds tracks running stream last index position finds =>
    rw [frameOf, sameIndex]
    rw [sameIndex] at index
    exact .finds tracks running (stream.trans kept.stream) last index position
      (same.symm.trans finds)

/-- A pull with `next` of a running scanner finds what `Scanner.sweep` finds. -/
theorem pulls_next (tracks : scanner.Tracks content) (running : scanner.finished = false) :
    Pulls content scanner scanner.next := by
  fun_induction next scanner with
  | case1 scanner finished =>
    rw [running] at finished
    cases finished
  | case2 scanner _ item after moved =>
    have moves := moves_advance tracks
    rw [moved] at moves
    cases moves with
    | finds taken here finds =>
      refine .finds taken running rfl rfl rfl ?_ finds
      simp only [taking, pass, Sighting.stop, here]
  | case3 scanner _ after moved ih =>
    have moves := moves_advance tracks
    rw [moved] at moves
    cases moves with
    | quiet quiet =>
      cases quiet with
      | goes tracks kept same =>
        exact .of_kept kept same (ih tracks (kept.finished.trans running))
      | ends finished rests =>
        rw [next, dif_pos finished]
        exact .ends finished rests

end Pulls

end FieldRecording.Scanner

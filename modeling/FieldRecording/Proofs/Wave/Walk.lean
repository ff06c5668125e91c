import FieldRecording.Proofs.Bytes.Overwriting
import FieldRecording.Proofs.Wave.Reading

/-!
# The way over the chunks

A lookup goes over the chunks that stand one behind the other, each with a byte of padding if its
length is odd. `Leads` says which chunk it comes to: the first one with the name, if its header
starts before the end of the list and stands in the content. A strict lookup finds the same chunk
as a lenient one, or none, by where the chunk ends (`findFrom_eq_ok_iff`).

The way follows from the headers on it, so that it stays when other bytes are replaced:
`Leads.transfer` carries it over to such a content. With `findRiff_eq_ok_iff` and
`findForm_eq_ok_iff` for the chunk around all others, what a reader makes of a WAVE file is said
in terms of its bytes.
-/

namespace FieldRecording

open ByteSource Access

namespace Wave

/-! ## Headers -/

namespace ChunkHeader

variable {content : Content} {offset : Nat} {header : ChunkHeader}

/-- A header that stands in a content ends in it, and its payload starts behind it. -/
theorem bounds_of_stands
    (stands : ofBytes? offset (content.slice offset chunkHeaderLength) = some header) :
    header.payload.start = offset + 8 ∧ offset + 8 ≤ content.size ∧
      header.payload.start ≤ header.payload.stop := by
  obtain ⟨eight, start, ordered⟩ := start_of_ofBytes? stands
  rw [Content.length_slice] at eight
  exact ⟨start, by omega, ordered⟩

theorem stop_le_next (header : ChunkHeader) : header.payload.stop ≤ header.next :=
  Nat.le_add_right _ _

/-- The name of a header, and the length behind it. -/
theorem ofBytes?_slice (covered : offset + 8 ≤ content.size) :
    ofBytes? offset (content.slice offset chunkHeaderLength) = some {
      name := content.slice offset 4
      payload := ⟨offset + 8, offset + 8 + ofLittleEndian (content.slice (offset + 4) 4)⟩ } := by
  have eight : (content.slice offset chunkHeaderLength).length = chunkHeaderLength :=
    content.length_slice_of_le offset 8 covered
  rw [ofBytes?, if_pos eight, Content.take_slice, Content.drop_slice]
  rfl

/-- A header is read from its bytes. -/
theorem readAt_of_honest {source : ByteSource} (honest : source.Honest)
    (admitted : source.refuses offset = false) :
    (readAt source offset).1 =
        .ok (ofBytes? offset (source.content.slice offset chunkHeaderLength)) ∧
      SameMedium source (readAt source offset).2 := by
  obtain ⟨bytes, kept⟩ :=
    readOn_standingAt honest offset (by decide : chunkHeaderLength < sizeLimit)
  unfold readAt
  rw [seek_of_honest honest, admitted]
  rcases ran : (source.standingAt offset).readOn chunkHeaderLength with ⟨answer, after⟩
  rw [ran] at bytes kept
  obtain rfl : answer = _ := bytes
  simp only [Bool.false_eq_true, if_false, if_true, ran]
  exact ⟨trivial, kept⟩

/-- A header that is read stands where it is read. -/
theorem stands_of_readAt {source after : ByteSource} (honest : source.Honest)
    (read : readAt source offset = (.ok (some header), after)) :
    ofBytes? offset (source.content.slice offset chunkHeaderLength) = some header := by
  have inside := (readAt_bounds read).2.1
  have bytes := (readAt_of_honest honest (honest.admits offset (by omega))).1
  rw [read] at bytes
  exact (Except.ok.inj bytes).symm

end ChunkHeader

/-! ## The chunk that a way leads to -/

/-- From an offset on, the way over the chunks leads to this one first of those with the name.
All headers on the way start before `stop`. -/
inductive Leads (content : Content) (target : ChunkName) (stop : Nat) : Nat → ChunkHeader → Prop
  | here {offset : Nat} {header : ChunkHeader} (before : offset < stop)
    (stands : ChunkHeader.ofBytes? offset (content.slice offset chunkHeaderLength) = some header)
    (isTarget : header.name = target) : Leads content target stop offset header
  | onward {offset : Nat} {header last : ChunkHeader} (before : offset < stop)
    (stands : ChunkHeader.ofBytes? offset (content.slice offset chunkHeaderLength) = some header)
    (other : header.name ≠ target) (behind : Leads content target stop header.next last) :
    Leads content target stop offset last

namespace Leads

variable {content : Content} {target : ChunkName} {stop offset : Nat} {header : ChunkHeader}

/-- The chunk is behind the start of the way, and what follows its header starts in the
content. -/
theorem bounds (leads : Leads content target stop offset header) :
    offset + 8 ≤ header.payload.start ∧ header.payload.start ≤ content.size ∧
      header.payload.start ≤ header.payload.stop := by
  induction leads with
  | here before stands isTarget =>
    have place := ChunkHeader.bounds_of_stands stands
    omega
  | onward before stands other behind ih =>
    rename_i offset header last
    have place := ChunkHeader.bounds_of_stands stands
    have further := header.stop_le_next
    omega

/-- The header of the chunk stands before what follows it. -/
theorem stands (leads : Leads content target stop offset header) :
    header.name = target ∧ ChunkHeader.ofBytes? (header.payload.start - 8)
      (content.slice (header.payload.start - 8) chunkHeaderLength) = some header := by
  induction leads with
  | here before stands isTarget =>
    rw [(ChunkHeader.bounds_of_stands stands).1, Nat.add_sub_cancel]
    exact ⟨isTarget, stands⟩
  | onward before stands other behind ih => exact ih

/-- The way `Leads` to a chunk at the same place in every other content that has the same headers
on the way, and there a header with the name. -/
theorem transfer {other : Content} {stop' : Nat} {header' : ChunkHeader}
    (leads : Leads content target stop offset header)
    (same : ∀ index, offset ≤ index → index + 8 < header.payload.start →
      other[index]? = content[index]?)
    (there : ChunkHeader.ofBytes? (header.payload.start - 8)
      (other.slice (header.payload.start - 8) chunkHeaderLength) = some header')
    (isTarget : header'.name = target) (inside : header.payload.start ≤ stop') :
    Leads other target stop' offset header' := by
  induction leads with
  | here before stands _ =>
    have place := ChunkHeader.bounds_of_stands stands
    rw [place.1, Nat.add_sub_cancel] at there
    exact .here (by omega) there isTarget
  | onward before stands passed behind ih =>
    rename_i offset header last
    have place := ChunkHeader.bounds_of_stands stands
    have further := header.stop_le_next
    have ends := behind.bounds
    have isSame : other.slice offset chunkHeaderLength = content.slice offset chunkHeaderLength :=
      Content.slice_congr fun index above below => same index above (by
        rw [chunkHeaderLength] at below
        omega)
    rw [← isSame] at stands
    exact .onward (by omega) stands passed
      (ih (fun index above below => same index (by omega) below) there inside)

/-- A chunk that runs past the end is the last one of the way, so that every other chunk to which
the way leads ends before its header. -/
theorem next_le_of_past {target' : ChunkName} {stop' : Nat} {last : ChunkHeader}
    (leads : Leads content target stop offset header)
    (past : Leads content target' stop' offset last) (differs : target ≠ target')
    (long : content.size < last.payload.stop) : header.next + 8 ≤ last.payload.start := by
  induction leads with
  | here before stands isTarget =>
    cases past with
    | here before' stands' isTarget' =>
      obtain rfl := Option.some.inj (stands.symm.trans stands')
      exact absurd (isTarget.symm.trans isTarget') differs
    | onward before' stands' other' behind' =>
      obtain rfl := Option.some.inj (stands.symm.trans stands')
      exact behind'.bounds.1
  | onward before stands other behind ih =>
    cases past with
    | here before' stands' isTarget' =>
      -- behind a chunk that runs past the end no header stands
      have isLast := Option.some.inj (stands.symm.trans stands')
      have ends := behind.bounds
      rw [isLast] at ends
      have further := last.stop_le_next
      omega
    | onward before' stands' other' behind' =>
      obtain rfl := Option.some.inj (stands.symm.trans stands')
      exact ih behind'

end Leads

/-! ## Lookups -/

/-- What `findFrom` does with the chunk whose header stands at an offset. -/
theorem findFrom_of_stands {target : ChunkName} {bounds : Bounds} {length stop : Nat}
    {source : ByteSource} (honest : source.Honest) {offset : Nat} (before : offset < stop)
    {header : ChunkHeader} (stands : ChunkHeader.ofBytes? offset
      (source.content.slice offset chunkHeaderLength) = some header) :
    (findFrom target bounds length stop source offset).1 =
      if length < header.payload.stop ∧ bounds = .strict then .error .chunkPastEnd
      else if header.name = target then .ok header.payload
      else (findFrom target bounds length stop source header.next).1 := by
  have place := ChunkHeader.bounds_of_stands stands
  obtain ⟨read, same⟩ :=
    ChunkHeader.readAt_of_honest honest (honest.admits offset (by omega))
  rw [stands] at read
  rcases ran : ChunkHeader.readAt source offset with ⟨answer, after⟩
  rw [ran] at read same
  obtain rfl : answer = _ := read
  rw [findFrom_of_read (Nat.not_le.mpr before) ran]
  dsimp only
  split
  · rfl
  split
  · rfl
  · exact (steady_findFrom target bounds length stop honest same header.next).1.symm

/-- The lookup `findFrom` finds the chunk to which the way `Leads`; a strict one does if the chunk
ends in the source. -/
theorem findFrom_eq_ok_iff {target : ChunkName} {bounds : Bounds} {length stop : Nat}
    {source : ByteSource} (honest : source.Honest) (isLength : source.content.size = length)
    {offset : Nat} {payload : ByteRange} :
    (findFrom target bounds length stop source offset).1 = .ok payload ↔
      ∃ header, Leads source.content target stop offset header ∧ header.payload = payload ∧
        (bounds = .strict → payload.stop ≤ length) := by
  constructor
  · intro found
    fun_induction findFrom target bounds length stop source offset with
    | case1 => cases found
    | case2 => cases found
    | case3 => cases found
    | case4 => cases found
    | case5 source offset goesOn header after ran within isTarget =>
      obtain rfl := Except.ok.inj found
      have stands := ChunkHeader.stands_of_readAt honest ran
      exact ⟨header, .here (Nat.lt_of_not_le goesOn) stands isTarget, rfl,
        fun strict => Nat.le_of_not_lt fun past => within ⟨past, strict⟩⟩
    | case6 source offset goesOn header after ran within other ih =>
      have stands := ChunkHeader.stands_of_readAt honest ran
      have same := (ChunkHeader.steady_readAt offset).sameMedium honest ran
      obtain ⟨last, leads, isPayload⟩ :=
        ih (honest.of_sameMedium same) (same.content ▸ isLength) found
      rw [same.content] at leads
      exact ⟨last, .onward (Nat.lt_of_not_le goesOn) stands other leads, isPayload⟩
  · rintro ⟨header, leads, rfl, within⟩
    induction leads with
    | here before stands isTarget =>
      rw [findFrom_of_stands honest before stands, if_neg, if_pos isTarget]
      exact fun fails => Nat.not_le.mpr fails.1 (within fails.2)
    | onward before stands other behind ih =>
      rename_i offset header last
      have ends := behind.bounds
      have further := header.stop_le_next
      rw [findFrom_of_stands honest before stands, if_neg (by omega), if_neg other]
      exact ih within

/-- A list of chunks is searched by `findChunk` from its start, if a header could end at an offset
there. -/
theorem findChunk_eq_ok_iff {container : ByteRange} {target : ChunkName} {bounds : Bounds}
    {source : ByteSource} (honest : source.Honest) {payload : ByteRange} :
    ((findChunk container target bounds).runOn source).1 = .ok payload ↔
      container.start + chunkHeaderLength < offsetLimit ∧
      ∃ header, Leads source.content target container.stop container.start header ∧
        header.payload = payload ∧ (bounds = .strict → payload.stop ≤ source.content.size) := by
  have same := source.sameMedium_standingAt (source.reach source.position)
  unfold findChunk
  rw [runOn_bind_of_ok (runOn_length source)]
  dsimp only
  by_cases tooFar : offsetLimit ≤ container.start + chunkHeaderLength
  · rw [if_pos tooFar]
    constructor
    · intro found
      cases found
    · intro found
      exact absurd found.1 (Nat.not_lt.mpr tooFar)
  rw [if_neg tooFar, iff_true_intro (Nat.lt_of_not_le tooFar), true_and]
  by_cases short : source.content.size < container.start + chunkHeaderLength
  · rw [if_pos short]
    constructor
    · intro found
      cases found
    · rintro ⟨header, leads, _⟩
      have inside := leads.bounds
      rw [chunkHeaderLength] at short
      omega
  rw [if_neg short]
  exact findFrom_eq_ok_iff (honest.of_sameMedium same) (congrArg Array.size same.content)

/-- Bytes of an honest source are read as they stand there. -/
theorem runOn_readAt_of_honest {source : ByteSource} (honest : source.Honest) {offset wanted : Nat}
    (within : offset ≤ source.content.size) (fits : wanted < sizeLimit) :
    ∃ after, (liftM (Access.readAt offset wanted) : Access WaveError (List UInt8)).runOn source =
      (.ok (source.content.slice offset wanted), after) := by
  obtain ⟨after, ran, _⟩ := exists_readAt_of_honest honest within fits
  exact ⟨after, runOn_adapt_of_ok ran WaveError.io⟩

/-- The `RIFF` chunk is found by `findRiff` where its name is, with the length behind it. -/
theorem findRiff_eq_ok_iff {source : ByteSource} (honest : source.Honest) {riff : ByteRange} :
    (findRiff.runOn source).1 = .ok riff ↔
      8 ≤ source.content.size ∧ source.content.slice 0 4 = riffName ∧
        riff = ⟨8, 8 + ofLittleEndian (source.content.slice 4 4)⟩ := by
  have same := source.sameMedium_standingAt (source.reach source.position)
  unfold findRiff
  rw [runOn_bind_of_ok (runOn_length source)]
  dsimp only
  by_cases short : source.content.size < chunkHeaderLength
  · rw [if_pos short]
    constructor
    · intro found
      cases found
    · intro found
      exact absurd found.1 (Nat.not_le.mpr short)
  obtain ⟨after, read⟩ := runOn_readAt_of_honest (honest.of_sameMedium same) (Nat.zero_le _)
    (by decide : chunkHeaderLength < sizeLimit)
  rw [same.content] at read
  have eight : 8 ≤ source.content.size := Nat.le_of_not_lt short
  have whole : (source.content.slice 0 chunkHeaderLength).length = chunkHeaderLength :=
    source.content.length_slice_of_le 0 8 (by omega)
  rw [if_neg short, runOn_bind_of_ok read, if_neg (not_not_intro whole), Content.take_slice,
    Content.drop_slice, iff_true_intro eight, true_and]
  change ((if source.content.slice 0 4 ≠ riffName then _ else _ : Access _ _).runOn after).1 = _ ↔ _
  by_cases isRiff : source.content.slice 0 4 = riffName
  · rw [if_neg (not_not_intro isRiff), iff_true_intro isRiff, true_and]
    exact ⟨fun found => (Except.ok.inj found).symm, fun isRange => congrArg _ isRange.symm⟩
  · rw [if_pos isRiff]
    constructor
    · intro found
      cases found
    · intro found
      exact absurd found.1 isRiff

/-- The form is found by `findForm` where its type is. -/
theorem findForm_eq_ok_iff {source : ByteSource} (honest : source.Honest) {riff form : ByteRange}
    (within : riff.start ≤ source.content.size) :
    ((findForm riff).runOn source).1 = .ok form ↔
      4 ≤ riff.length ∧ source.content.slice riff.start 4 = formName ∧
        form = ⟨riff.start + 4, riff.stop⟩ := by
  unfold findForm
  by_cases short : riff.length < 4
  · rw [if_pos short]
    constructor
    · intro found
      cases found
    · intro found
      exact absurd found.1 (Nat.not_le.mpr short)
  obtain ⟨after, read⟩ := runOn_readAt_of_honest honest within (by decide : 4 < sizeLimit)
  rw [if_neg short, iff_true_intro (Nat.le_of_not_lt short), true_and]
  dsimp only
  rw [runOn_bind_of_ok read]
  by_cases isForm : source.content.slice riff.start 4 = formName
  · have four : (source.content.slice riff.start 4).length = 4 := isForm ▸ rfl
    rw [if_neg (not_not_intro four), if_neg (not_not_intro isForm), iff_true_intro isForm, true_and]
    exact ⟨fun found => (Except.ok.inj found).symm, fun isRange => congrArg _ isRange.symm⟩
  · constructor
    · intro found
      split at found
      · cases found
      · cases found
    · intro found
      exact absurd found.1 isForm

end Wave

/-- The format that `WaveFormat.read` returns is what the payload of its chunk holds. -/
theorem WaveFormat.read_of_found {source : ByteSource} (honest : source.Honest)
    {riff form chunk : ByteRange} (hasRiff : (Wave.findRiff.runOn source).1 = .ok riff)
    (hasForm : ((Wave.findForm riff).runOn source).1 = .ok form)
    (hasChunk : ((Wave.findChunk form Wave.formatName .strict).runOn source).1 = .ok chunk)
    (fits : chunk.length < sizeLimit) :
    (read.runOn source).1 = parse (source.content.slice chunk.start chunk.length) := by
  obtain ⟨_, header, leads, rfl, within⟩ := (Wave.findChunk_eq_ok_iff honest).mp hasChunk
  have covered : header.payload.start + header.payload.length ≤ source.content.size := by
    have inside := leads.bounds
    have ends := within rfl
    rw [ByteRange.length]
    omega
  obtain ⟨toRiff, ranRiff, same⟩ := Wave.steady_findRiff.runOn_eq honest (.refl source) hasRiff
  obtain ⟨toForm, ranForm, same⟩ := (Wave.steady_findForm riff).runOn_eq honest same hasForm
  obtain ⟨toChunk, ranChunk, same⟩ :=
    (Wave.steady_findChunk _ _ _).runOn_eq honest same hasChunk
  obtain ⟨last, ranBytes, _⟩ :=
    (Steady.readRange _).runOn_eq honest same (readRange_of_honest honest covered fits)
  have taken : (liftM (Access.readRange header.payload) : Access WaveError (List UInt8)).runOn
      toChunk = (.ok (source.content.slice header.payload.start header.payload.length), last) :=
    runOn_adapt_of_ok ranBytes WaveError.io
  unfold read
  rw [runOn_bind_of_ok ranRiff, runOn_bind_of_ok ranForm, runOn_bind_of_ok ranChunk,
    runOn_bind_of_ok taken]
  rfl

end FieldRecording

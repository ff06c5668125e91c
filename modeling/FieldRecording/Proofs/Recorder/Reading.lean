import FieldRecording.Proofs.Flac.Rewalking

/-!
# What a recorder says, and where it says it

The firmware and the start of a recording are read of streams, off their comments. On every source
the firmware is the one that the comments name (`Firmware.read_iff`), and the text that names it
stands in their block (`place_within`). The start of a recording is told by other comments of the
same block (`StartTime.read_of_comments`), and by nothing else of the source.
-/

namespace FieldRecording

open ByteSource Access

/-! ## Streams with comments -/

theorem goesBy_requireFlac : GoesBy ReadsAlike requireFlac := by
  apply GoesBy.bind (.adapt Flac.goesBy_isFlac RecorderError.flac)
  intro isFlac
  split
  · exact .throw _
  · exact .pure _

theorem Flac.reads_isFlac : Reads isFlac := goesBy_isFlac.reads

theorem reads_requireFlac : Reads requireFlac := goesBy_requireFlac.reads

theorem runOn_requireFlac {source after : ByteSource}
    (isFlac : Flac.isFlac.runOn source = (.ok true, after)) :
    requireFlac.runOn source = (.ok (), after) := by
  have asked : (liftM Flac.isFlac : Access RecorderError Bool).runOn source =
      (.ok true, after) := runOn_adapt_of_ok isFlac RecorderError.flac
  unfold requireFlac
  rw [runOn_bind_of_ok asked]
  rfl

/-- What `requireFlac` takes for a stream is one. -/
theorem of_requireFlac {source after : ByteSource}
    (required : requireFlac.runOn source = (.ok (), after)) :
    Flac.isFlac.runOn source = (.ok true, after) := by
  rcases of_runOn_bind_eq_ok required with ⟨isFlac, second, asked, required⟩
  cases isFlac with
  | true =>
    obtain rfl : second = after := (Prod.mk.inj required).2
    exact of_runOn_adapt_eq_ok asked
  | false => cases required

/-- What is made of the comments of a stream is made of those that are read of it. -/
theorem runOn_bind_comments {α : Type} {source : ByteSource}
    (isFlac : (Flac.isFlac.runOn source).1 = .ok true) {comments : Comments}
    (read : (Comments.read.runOn source).1 = .ok comments)
    (next : Comments → Access RecorderError α) :
    ∃ after, (do
      requireFlac
      let comments ← Comments.read
      next comments : Access RecorderError α).runOn source = (next comments).runOn after := by
  rcases exists_runOn_eq isFlac with ⟨second, asked⟩
  obtain ⟨block, stand⟩ := Comments.standIn_of_read read
  have standSecond := stand.of_sameMedium (Flac.reads_isFlac.sameMedium asked)
  rcases exists_runOn_eq standSecond.read_eq with ⟨third, readComments⟩
  have lifted : (liftM Comments.read : Access RecorderError Comments).runOn second =
      (.ok comments, third) := runOn_adapt_of_ok readComments RecorderError.flac
  exact ⟨third, by rw [runOn_bind_of_ok (runOn_requireFlac asked), runOn_bind_of_ok lifted]⟩

/-! ## The start -/

/-- Only streams say when they started. -/
theorem StartTime.isFlac_of_read {source : ByteSource} {start : StartTime}
    (read : (StartTime.read.runOn source).1 = .ok start) :
    (Flac.isFlac.runOn source).1 = .ok true := by
  rcases exists_runOn_eq read with ⟨last, ran⟩
  rcases of_runOn_bind_eq_ok ran with ⟨_, second, required, _⟩
  exact congrArg Prod.fst (of_requireFlac required)

/-- When a stream started, its comments say: `StartTime.read` asks them and nothing else. -/
theorem StartTime.read_of_comments {source : ByteSource}
    (isFlac : (Flac.isFlac.runOn source).1 = .ok true) {comments : Comments}
    (readComments : (Comments.read.runOn source).1 = .ok comments) :
    (read.runOn source).1 =
      match comments.get? key with
      | some comment => parse comment.value
      | none => .error (.noComment key) := by
  obtain ⟨after, ran⟩ := runOn_bind_comments isFlac readComments fun comments =>
    match comments.get? key with
    | some comment => Access.ofExcept (parse comment.value)
    | none => throw (.noComment key)
  refine (congrArg Prod.fst ran).trans ?_
  cases comments.get? key with
  | none => rfl
  | some comment => rfl

theorem StartTime.goesBy_read : GoesBy ReadsAlike StartTime.read := by
  apply GoesBy.bind goesBy_requireFlac
  intro _
  apply GoesBy.bind (.adapt Comments.goesBy_read RecorderError.flac)
  intro comments
  split
  · exact .ofExcept _
  · exact .throw _

/-! ## The firmware -/

namespace Firmware

theorem goesBy_read : GoesBy ReadsAlike Firmware.read :=
  .bind goesBy_requireFlac fun _ =>
    .bind (.adapt Comments.goesBy_read RecorderError.flac) fun _ => .ofExcept _

theorem steady_read : Steady Firmware.read := goesBy_read.steady

theorem reads_read : Reads Firmware.read := goesBy_read.reads

/-- The firmware is written by what is answered. -/
theorem goesBy_write (firmware : Firmware) : GoesBy AnswersAlike firmware.write := by
  unfold write
  dsimp only
  split
  · exact .throw_bind _ _
  · exact .adapt (.adapt (.writeAt _ _) FlacError.io) RecorderError.flac

/-- The firmware of a stream, by `Firmware.read`, is the one that its comments name. -/
theorem read_of_comments {source : ByteSource}
    (isFlac : (Flac.isFlac.runOn source).1 = .ok true) {comments : Comments}
    (readComments : (Comments.read.runOn source).1 = .ok comments) :
    (Firmware.read.runOn source).1 = ofComments comments := by
  obtain ⟨after, ran⟩ := runOn_bind_comments isFlac readComments fun comments =>
    Access.ofExcept (ofComments comments)
  exact congrArg Prod.fst ran

/-- With `Firmware.read` firmware is read of streams alone whose comments name it. -/
theorem read_iff {source : ByteSource} {firmware : Firmware} :
    (Firmware.read.runOn source).1 = .ok firmware ↔
      (Flac.isFlac.runOn source).1 = .ok true ∧
        ∃ block comments, Comments.StandIn source block comments ∧
          ofComments comments = .ok firmware := by
  constructor
  · intro found
    rcases exists_runOn_eq found with ⟨last, ran⟩
    rcases of_runOn_bind_eq_ok ran with ⟨_, second, required, ran⟩
    rcases of_runOn_bind_eq_ok ran with ⟨comments, third, readComments, named⟩
    have kept := reads_requireFlac.sameMedium required
    obtain ⟨block, stand⟩ :=
      Comments.standIn_of_read (congrArg Prod.fst (of_runOn_adapt_eq_ok readComments))
    exact ⟨congrArg Prod.fst (of_requireFlac required), block, comments,
      stand.of_sameMedium kept.symm, (Prod.mk.inj named).1⟩
  · rintro ⟨isFlac, block, comments, stand, named⟩
    exact (read_of_comments isFlac stand.read_eq).trans named

theorem place_of_parse {comment : String} {place : ByteRange} {firmware : Firmware}
    (parsed : parse comment place = .ok firmware) : firmware.place = place := by
  simp only [parse] at parsed
  split at parsed
  · cases parsed
  · obtain rfl := Except.ok.inj parsed
    rfl

/-- The first comment that has the key of the firmware's names the firmware. -/
theorem exists_entry_of_named {comments : Comments} {firmware : Firmware}
    (named : ofComments comments = .ok firmware) :
    ∃ front comment back, comments.entries = front ++ comment :: back ∧
      (comment.key == key) = true ∧ (∀ other ∈ front, (!other.key == key) = true) ∧
      parse comment.text comment.range = .ok firmware := by
  unfold ofComments at named
  split at named
  · rename_i comment found
    obtain ⟨isKey, front, back, isEntry, others⟩ := List.find?_eq_some_iff_append.mp found
    exact ⟨front, comment, back, isEntry, isKey, others, named⟩
  · cases named

/-- The `place` of a firmware lies in the block of the comments that name it. -/
theorem place_within {source : ByteSource} {block : MetadataBlock} {comments : Comments}
    (stand : Comments.StandIn source block comments) {firmware : Firmware}
    (named : ofComments comments = .ok firmware) :
    block.offset ≤ firmware.place.start ∧ firmware.place.start ≤ firmware.place.stop ∧
      firmware.place.stop ≤ block.stop := by
  obtain ⟨front, comment, back, isEntry, _, _, parsed⟩ := exists_entry_of_named named
  have member : comment ∈ comments.entries := by
    rw [isEntry]
    exact List.mem_append_right _ List.mem_cons_self
  have within := (Comments.within_of_parse stand.parsed).2 comment member
  have short := Content.length_slice source.content block.offset block.length
  rw [← place_of_parse parsed] at within
  simp only [Comments.Within] at within
  simp only [MetadataBlock.stop]
  omega

/-- A firmware that is read is that of a stream, and its comment stands inside the source. -/
theorem of_read {source : ByteSource} {firmware : Firmware}
    (read : (Firmware.read.runOn source).1 = .ok firmware) :
    (Flac.isFlac.runOn source).1 = .ok true ∧ firmware.place.start ≤ firmware.place.stop ∧
      firmware.place.stop ≤ source.content.size := by
  obtain ⟨isFlac, block, comments, stand, named⟩ := read_iff.mp read
  obtain ⟨_, ordered, stops⟩ := place_within stand named
  exact ⟨isFlac, ordered, Nat.le_trans stops stand.covered⟩

end Firmware

end FieldRecording

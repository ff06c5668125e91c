import FieldRecording.Proofs.Bytes.Answers
import FieldRecording.Wave.Format

/-!
# Reading a WAVE file goes by reads

The chunks of a RIFF file and the format of its audio are learnt of a source by its answers to
reads: `findRiff`, `findForm`, `findChunk` and `WaveFormat.read` are shown to go by them
(`GoesBy`), each piece by piece along its definition. By `GoesBy.steady` they follow from the
bytes of an honest source alone, and by `GoesBy.reads` they leave the medium of every source as it
was.
-/

namespace FieldRecording

open ByteSource Access

variable {ε : Type}

namespace Wave

theorem goesBy_findRiff : GoesBy ReadsAlike findRiff := by
  apply GoesBy.bind .length
  intro length
  dsimp only
  split
  · exact .throw_bind _ _
  apply GoesBy.bind (.adapt (.readAt _ _) WaveError.io)
  intro header
  split
  · exact .throw_bind _ _
  split
  · exact .throw_bind _ _
  · exact .pure _

theorem steady_findRiff : Steady findRiff := goesBy_findRiff.steady

theorem goesBy_findForm (riff : ByteRange) : GoesBy ReadsAlike (findForm riff) := by
  unfold findForm
  split
  · exact .throw_bind _ _
  apply GoesBy.bind (.adapt (.readAt _ _) WaveError.io)
  intro form
  dsimp only
  split
  · exact .throw_bind _ _
  split
  · exact .throw_bind _ _
  · exact .pure _

theorem steady_findForm (riff : ByteRange) : Steady (findForm riff) := (goesBy_findForm riff).steady

/-- A header is made of the bytes that are read where it has to be reached, by `readReached`. -/
theorem ChunkHeader.readAt_eq_bind (offset : Nat) :
    (ExceptT.mk fun source => readAt source offset : Access WaveError (Option ChunkHeader)) = (do
      let bytes ← readReached .chunkOutOfReach .io offset chunkHeaderLength
      return ofBytes? offset bytes) := by
  funext source
  change readAt source offset = (_ >>= _ : Access _ _).runOn source
  unfold readAt
  rw [runOn_bind, runOn_readReached _ _ (by decide : chunkHeaderLength < sizeLimit)]
  rcases source.seek offset with ⟨cause | landed, after⟩
  · rfl
  · dsimp only
    split
    · rcases after.readOn chunkHeaderLength with ⟨cause | bytes, last⟩
      · rfl
      · rfl
    · rfl

theorem ChunkHeader.goesBy_readAt (offset : Nat) :
    GoesBy ReadsAlike (ExceptT.mk fun source => readAt source offset) := by
  rw [readAt_eq_bind]
  exact .bind (.readReached _ _ _ _) fun _ => .pure _

theorem ChunkHeader.steady_readAt (offset : Nat) :
    Steady (ExceptT.mk fun source => readAt source offset) :=
  (goesBy_readAt offset).steady

/-- What `findFrom` does with the chunk that it has read. -/
theorem findFrom_of_read {target : ChunkName} {bounds : Bounds} {length stop : Nat}
    {source after : ByteSource} {offset : Nat} (goesOn : ¬ stop ≤ offset)
    {read : Except WaveError (Option ChunkHeader)}
    (ran : ChunkHeader.readAt source offset = (read, after)) :
    findFrom target bounds length stop source offset =
      match read with
      | .error fault => (.error fault, after)
      | .ok none => (.error (.noChunk (Lossy.text target)), after)
      | .ok (some header) =>
        if length < header.payload.stop ∧ bounds = .strict then (.error .chunkPastEnd, after)
        else if header.name = target then (.ok header.payload, after)
        else findFrom target bounds length stop after header.next := by
  rw [findFrom, if_neg goesOn]
  split
  all_goals
    rename_i found
    obtain ⟨rfl, rfl⟩ := Prod.mk.inj (ran.symm.trans found)
    rfl

theorem goesBy_findFrom (target : ChunkName) (bounds : Bounds) (length stop offset : Nat) :
    GoesBy ReadsAlike
      (ExceptT.mk fun source => findFrom target bounds length stop source offset) := by
  intro related reads left right isRelated
  change (findFrom target bounds length stop right offset).1 =
      (findFrom target bounds length stop left offset).1 ∧
    related (findFrom target bounds length stop left offset).2
      (findFrom target bounds length stop right offset).2
  -- each header is read alike, so that both searches go the same way
  have readAlike (offset : Nat) := ChunkHeader.goesBy_readAt offset related reads
  fun_induction findFrom target bounds length stop left offset generalizing right with
  | case1 left offset ended =>
    rw [findFrom, if_pos ended]
    exact ⟨rfl, isRelated⟩
  | case2 left offset goesOn fault after ran =>
    obtain ⟨afterRight, ranRight, later⟩ := (readAlike offset).runOn_eq isRelated ran
    rw [findFrom_of_read goesOn ranRight]
    exact ⟨rfl, later⟩
  | case3 left offset goesOn after ran =>
    obtain ⟨afterRight, ranRight, later⟩ := (readAlike offset).runOn_eq isRelated ran
    rw [findFrom_of_read goesOn ranRight]
    exact ⟨rfl, later⟩
  | case4 left offset goesOn header after ran past =>
    obtain ⟨afterRight, ranRight, later⟩ := (readAlike offset).runOn_eq isRelated ran
    rw [findFrom_of_read goesOn ranRight]
    dsimp only
    rw [if_pos past]
    exact ⟨rfl, later⟩
  | case5 left offset goesOn header after ran within isTarget =>
    obtain ⟨afterRight, ranRight, later⟩ := (readAlike offset).runOn_eq isRelated ran
    rw [findFrom_of_read goesOn ranRight]
    dsimp only
    rw [if_neg within, if_pos isTarget]
    exact ⟨rfl, later⟩
  | case6 left offset goesOn header after ran within other ih =>
    obtain ⟨afterRight, ranRight, later⟩ := (readAlike offset).runOn_eq isRelated ran
    rw [findFrom_of_read goesOn ranRight]
    dsimp only
    rw [if_neg within, if_neg other]
    exact ih _ later

theorem steady_findFrom (target : ChunkName) (bounds : Bounds) (length stop : Nat)
    {left right : ByteSource} (honest : left.Honest) (same : SameMedium left right)
    (offset : Nat) :
    (findFrom target bounds length stop left offset).1 =
        (findFrom target bounds length stop right offset).1 ∧
      SameMedium left (findFrom target bounds length stop left offset).2 :=
  (goesBy_findFrom target bounds length stop offset).steady left right honest same

theorem goesBy_findChunk (container : ByteRange) (target : ChunkName) (bounds : Bounds) :
    GoesBy ReadsAlike (findChunk container target bounds) := by
  apply GoesBy.bind .length
  intro length
  dsimp only
  split
  · exact .throw_bind _ _
  split
  · exact .throw_bind _ _
  · exact goesBy_findFrom target bounds length container.stop container.start

theorem steady_findChunk (container : ByteRange) (target : ChunkName) (bounds : Bounds) :
    Steady (findChunk container target bounds) :=
  (goesBy_findChunk container target bounds).steady

theorem goesBy_isWave : GoesBy ReadsAlike (isWave : Access ε Bool) :=
  .bind (.attempt (.bind goesBy_findRiff goesBy_findForm)) fun _ => .pure _

end Wave

theorem WaveFormat.goesBy_read : GoesBy ReadsAlike WaveFormat.read :=
  .bind Wave.goesBy_findRiff fun riff =>
    .bind (Wave.goesBy_findForm riff) fun form =>
      .bind (Wave.goesBy_findChunk form _ _) fun chunk =>
        .bind (.adapt (.readRange chunk) WaveError.io) fun _ => .ofExcept _

theorem WaveFormat.goesBy_readIsPcm : GoesBy ReadsAlike WaveFormat.readIsPcm :=
  .bind goesBy_read fun _ => .pure _

theorem WaveFormat.steady_readIsPcm : Steady WaveFormat.readIsPcm := goesBy_readIsPcm.steady

end FieldRecording

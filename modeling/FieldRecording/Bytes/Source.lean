import FieldRecording.Bytes.Content
import FieldRecording.Bytes.IoError
import FieldRecording.Bytes.Range

/-!
# Positional access to bytes

A `ByteSource` holds content and a position; reading moves the position past the bytes read.

The medium below a source answers one read at a time, and may cut a read short or interrupt it
first. Each of its answers is a `ReadTurn`: finitely many interruptions, then at least one byte
while bytes are left. `ByteSource.readOnce` is one read of the medium; `ByteSource.fill` loops
over the turns until it has what was asked for or reaches the end, so that neither habit shows in
a result. Three faults do show: bytes that cannot be read (`ReadFault`), positions that cannot be
reached (`seekCap`), and positions that are refused (`refusedFrom`), as those past the limit of a
file are.

`ByteSource.readAt` goes to an offset and reads on from there, or gives nothing if it has not come
there. No read changes the content (`content_readAt`), or gives more bytes than there are
(`length_readAt_le`).
-/

namespace FieldRecording

/-- How the medium answers one read: after some interruptions, and with so many bytes at most. -/
structure ReadTurn where
  /-- How often the read is interrupted before it succeeds. -/
  interruptions : Nat
  /-- The most bytes that the read then gives. -/
  most : Nat
  most_pos : 0 < most := by decide
  deriving Repr

/-- A read that is not interrupted and gives all that was asked for. -/
def ReadTurn.whole : ReadTurn := { interruptions := 0, most := offsetLimit }

/-- A place that reads of the medium fail to go past, for the `Answer` of `readOnce`. -/
structure ReadFault where
  offset : Nat
  /-- What the medium says of it. -/
  reason : String
  deriving Repr

/-- Bytes, a position among them, and the habits of the medium they are on. `ofContent` and
`ofFile` make sources without any. -/
structure ByteSource where
  content : Content
  position : Nat := 0
  /-- How the medium answers its reads, in order. -/
  turns : Nat → ReadTurn := fun _ => .whole
  /-- How many reads the medium has answered. -/
  turn : Nat := 0
  /-- How many interruptions of the current turn have passed. -/
  interrupted : Nat := 0
  /-- Where reads fail, if they do. -/
  fault : Option ReadFault := none
  /-- Positions beyond this one cannot be reached; asking for one leads here. -/
  seekCap : Option Nat := none
  /-- Positions from this one on are refused, and asking for one leads nowhere. -/
  refusedFrom : Option Nat := none

namespace ByteSource

/-- A source over `content`, without faults. -/
def ofContent (content : Content) : ByteSource := { content }

/-- A source over the content of a file. -/
def ofFile (content : Content) : ByteSource := { content, refusedFrom := some sizeLimit }

/-! ## One read of the medium -/

/-- What the medium says to one read, `readOnce`. An interrupted one is asked again by `fill`. -/
inductive Answer where
  | interrupted
  | failed (reason : String)
  | bytes (got : List UInt8)

/-- The fault that a read of `count` bytes meets, if it meets one. -/
def faultOf (source : ByteSource) (count : Nat) : Option ReadFault :=
  source.fault.filter fun fault => 0 < count && fault.offset < source.position + count

/-- One read of the medium, of at most `wanted` bytes. -/
def readOnce (source : ByteSource) (wanted : Nat) : Answer × ByteSource :=
  let turn := source.turns source.turn
  if source.interrupted < turn.interruptions then
    (.interrupted, { source with interrupted := source.interrupted + 1 })
  else
    let source := { source with turn := source.turn + 1, interrupted := 0 }
    let count := min wanted turn.most
    match source.faultOf count with
    | some fault => (.failed fault.reason, source)
    | none =>
      let got := source.content.slice source.position count
      (.bytes got, { source with position := source.position + got.length })

/-- How many interruptions precede the next success. -/
def interruptionsLeft (source : ByteSource) : Nat :=
  (source.turns source.turn).interruptions - source.interrupted

theorem interruptionsLeft_readOnce {source after : ByteSource} {wanted : Nat}
    (interrupted : source.readOnce wanted = (.interrupted, after)) :
    after.interruptionsLeft < source.interruptionsLeft := by
  unfold readOnce at interrupted
  dsimp only at interrupted
  split at interrupted
  · simp only [Prod.mk.injEq, true_and] at interrupted
    subst interrupted
    simp only [interruptionsLeft]
    omega
  · split at interrupted <;> simp at interrupted

/-! ## Reading and going to a position -/

/-- Read until `wanted` more bytes are there or the end is reached, behind the
bytes `got` so far. -/
def fill (source : ByteSource) (wanted : Nat) (got : Array UInt8) :
    Except IoError (Array UInt8) × ByteSource :=
  if wanted = 0 then
    (.ok got, source)
  else
    match _answered : source.readOnce wanted with
    | (.interrupted, source) => fill source wanted got
    | (.failed reason, source) => (.error (.unreadable reason), source)
    | (.bytes more, source) =>
      if more.isEmpty then (.ok got, source)
      else fill source (wanted - more.length) (got ++ more.toArray)
  termination_by (wanted, source.interruptionsLeft)
  decreasing_by
    · exact Prod.Lex.right _ (interruptionsLeft_readOnce _answered)
    · rename_i notEmpty
      apply Prod.Lex.left
      have : 0 < more.length := by
        cases more with
        | nil => simp at notEmpty
        | cons => simp
      omega

/-- The position that asking for `offset` leads to. -/
def reach (source : ByteSource) (offset : Nat) : Nat :=
  match source.seekCap with
  | none => offset
  | some cap => min offset cap

/-- Whether a position is refused, as it is `refusedFrom` a limit on. -/
def refuses (source : ByteSource) (offset : Nat) : Bool :=
  source.refusedFrom.any (· ≤ offset)

/-- Go to `offset`; the position actually reached. -/
def seek (source : ByteSource) (offset : Nat) : Except IoError Nat × ByteSource :=
  if source.refuses offset then (.error .invalidArgument, source)
  else (.ok (source.reach offset), { source with position := source.reach offset })

/-- Read on from the position, up to `wanted` bytes; fewer mean the end. -/
def readOn (source : ByteSource) (wanted : Nat) : Except IoError (List UInt8) × ByteSource :=
  if sizeLimit ≤ wanted then (.error .tooManyBytes, source)
  else
    let (result, source) := source.fill wanted #[]
    (result.map Array.toList, source)

/-- Read up to `wanted` bytes from `offset` on; none if it cannot be reached. -/
def readAt (source : ByteSource) (offset wanted : Nat) :
    Except IoError (List UInt8) × ByteSource :=
  if sizeLimit ≤ wanted then (.error .tooManyBytes, source)
  else
    match source.seek offset with
    | (.error cause, source) => (.error cause, source)
    | (.ok landed, source) => if landed = offset then source.readOn wanted else (.ok [], source)

/-! ## Reading leaves the content alone -/

theorem content_readOnce (source : ByteSource) (wanted : Nat) :
    (source.readOnce wanted).2.content = source.content := by
  unfold readOnce
  dsimp only
  split
  · rfl
  · split <;> rfl

theorem content_fill (source : ByteSource) (wanted : Nat) (got : Array UInt8) :
    (source.fill wanted got).2.content = source.content := by
  fun_induction fill source wanted got with
  | case1 => rfl
  | case2 source wanted got _ after answered ih =>
    rw [ih, ← content_readOnce source wanted, answered]
  | case3 source wanted got _ reason after answered =>
    rw [← content_readOnce source wanted, answered]
  | case4 source wanted got _ more after answered =>
    rw [← content_readOnce source wanted, answered]
  | case5 source wanted got _ more after answered _ ih =>
    rw [ih, ← content_readOnce source wanted, answered]

theorem content_readOn (source : ByteSource) (wanted : Nat) :
    (source.readOn wanted).2.content = source.content := by
  unfold readOn
  split
  · rfl
  · exact content_fill source wanted #[]

theorem content_seek (source : ByteSource) (offset : Nat) :
    (source.seek offset).2.content = source.content := by
  unfold seek
  split <;> rfl

theorem position_seek {source after : ByteSource} {offset landed : Nat}
    (went : source.seek offset = (.ok landed, after)) : after.position = landed := by
  unfold seek at went
  split at went
  · simp at went
  · simp only [Prod.mk.injEq, Except.ok.injEq] at went
    rw [← went.1, ← went.2]

theorem content_readAt (source : ByteSource) (offset wanted : Nat) :
    (source.readAt offset wanted).2.content = source.content := by
  have content := content_seek source offset
  unfold readAt
  split
  · rfl
  · split
    · rename_i went
      rw [went] at content
      exact content
    · rename_i went
      rw [went] at content
      split
      · rw [content_readOn]
        exact content
      · exact content

/-! ## No bytes but those of the content are read -/

theorem length_slice_le (content : Content) (offset count : Nat) :
    (content.slice offset count).length ≤ content.size - offset := by
  simp only [Content.slice, Array.length_toList, Array.size_extract]
  omega

theorem length_readOnce_le {source after : ByteSource} {wanted : Nat} {more : List UInt8}
    (answered : source.readOnce wanted = (.bytes more, after)) :
    more.length ≤ source.content.size - source.position ∧
      after.position = source.position + more.length := by
  unfold readOnce at answered
  dsimp only at answered
  split at answered
  · simp at answered
  · split at answered
    · simp at answered
    · simp only [Prod.mk.injEq, Answer.bytes.injEq] at answered
      obtain ⟨rfl, rfl⟩ := answered
      exact ⟨length_slice_le _ _ _, rfl⟩

theorem position_readOnce_interrupted {source after : ByteSource} {wanted : Nat}
    (answered : source.readOnce wanted = (.interrupted, after)) :
    after.position = source.position := by
  unfold readOnce at answered
  dsimp only at answered
  split at answered
  · simp only [Prod.mk.injEq, true_and] at answered
    rw [← answered]
  · split at answered <;> simp at answered

theorem size_fill_le {source after : ByteSource} {wanted : Nat} {got bytes : Array UInt8}
    (filled : source.fill wanted got = (.ok bytes, after)) :
    bytes.size ≤ got.size + (source.content.size - source.position) := by
  fun_induction fill source wanted got with
  | case1 => simp_all
  | case2 source wanted got _ next answered ih =>
    have content := content_readOnce source wanted
    have position := position_readOnce_interrupted answered
    rw [answered] at content
    have := ih filled
    rw [← content, ← position]
    exact this
  | case3 => simp at filled
  | case4 =>
    simp only [Prod.mk.injEq, Except.ok.injEq] at filled
    rw [filled.1]
    omega
  | case5 source wanted got _ more next answered _ ih =>
    have content := content_readOnce source wanted
    obtain ⟨bound, position⟩ := length_readOnce_le answered
    rw [answered] at content
    have step := ih filled
    simp only [Array.size_append, List.size_toArray] at step
    simp only at content
    rw [content, position] at step
    omega

theorem length_readOn_le {source after : ByteSource} {wanted : Nat} {bytes : List UInt8}
    (read : source.readOn wanted = (.ok bytes, after)) :
    bytes.length ≤ source.content.size - source.position := by
  unfold readOn at read
  split at read
  · simp at read
  · cases filled : source.fill wanted #[] with
    | mk result next =>
      cases result with
      | error => simp [filled, Except.map] at read
      | ok array =>
        simp only [filled, Except.map, Prod.mk.injEq, Except.ok.injEq] at read
        have bound := size_fill_le filled
        rw [← read.1, Array.length_toList]
        simpa using bound

theorem length_readAt_le {source after : ByteSource} {offset wanted : Nat}
    {bytes : List UInt8} (read : source.readAt offset wanted = (.ok bytes, after)) :
    bytes.length ≤ source.content.size - offset := by
  have content := content_seek source offset
  unfold readAt at read
  split at read
  · simp at read
  · split at read
    · simp at read
    · rename_i landed next went
      rw [went] at content
      have position := position_seek went
      split at read
      · rename_i reached
        have bound := length_readOn_le read
        rw [position, reached, content] at bound
        exact bound
      · simp only [Prod.mk.injEq, Except.ok.injEq] at read
        rw [← read.1]
        simp

end ByteSource

end FieldRecording

import FieldRecording.Proofs.Bytes.LittleEndian
import FieldRecording.Proofs.Flac.CommentEditing
import FieldRecording.Proofs.Text.Words

/-!
# The format of comments

Bytes hold comments when they start with them as they are `written`: the vendor behind its length,
the number of the comments, and every text behind its length. `Comments.Holds` says so. What is
read of such bytes is what was written, at the place where it stands (`parse_of_holds`), and
nothing else is read (`holds_of_parse`): bytes that hold no comments are refused. Each length
takes four bytes, so that it may be far beyond what follows.

`AreRead` lists what is known of comments that were read, and `parse_exact` states both directions
with it.
-/

namespace FieldRecording

/-- What a comment makes of the characters of its text, which `Lossy.decode` finds in its bytes:
what stands before the first `=` is the key, and what follows is the value. Without one, all of it
is the key. -/
def Comment.Reads (comment : Comment) (text : List Char) : Prop :=
  (∃ key value, text = key ++ '=' :: value ∧ '=' ∉ key ∧
    comment.key = String.ofList key ∧ comment.value = String.ofList value) ∨
  '=' ∉ text ∧ comment.key = String.ofList text ∧ comment.value = ""

theorem Comment.reads_ofBytes (bytes : List UInt8) (range : ByteRange) :
    (ofBytes bytes range).Reads (Lossy.decode bytes) := by
  unfold ofBytes
  generalize Lossy.decode bytes = text
  by_cases cut : '=' ∈ text
  · obtain ⟨key, value, rfl, plain⟩ := List.eq_append_cons_of_mem cut
    rw [splitAtFirst_append_cons plain]
    exact .inl ⟨key, value, rfl, plain, rfl, rfl⟩
  · rw [splitAtFirst_of_plain cut]
    exact .inr ⟨cut, rfl, rfl⟩

namespace Comments

/-! ## What is written -/

/-- One more than the largest number that four bytes hold. -/
def numberLimit : Nat := 0x100000000

/-- A number as it is written. -/
def number (value : Nat) : List UInt8 := toLittleEndian 4 value

/-- Bytes behind their length. -/
def framed (bytes : List UInt8) : List UInt8 := number bytes.length ++ bytes

/-- Comments as they are written. -/
def written (vendor : List UInt8) (texts : List (List UInt8)) : List UInt8 :=
  framed vendor ++ (number texts.length ++ texts.flatMap framed)

/-- The bytes start with these comments; what follows them does not matter. -/
structure Holds (bytes vendor : List UInt8) (texts : List (List UInt8)) : Prop where
  vendorFits : vendor.length < numberLimit
  countFits : texts.length < numberLimit
  textsFit : ∀ text ∈ texts, text.length < numberLimit
  starts : written vendor texts <+: bytes

/-- Where one of the texts stands: behind its own length and all that is written before it. -/
def textOffset (vendor : List UInt8) (texts : List (List UInt8)) (index : Nat) : Nat :=
  (framed vendor).length + (number texts.length).length +
    ((texts.take index).flatMap framed).length + 4

theorem length_number (value : Nat) : (number value).length = 4 := length_toLittleEndian 4 value

theorem length_framed (bytes : List UInt8) : (framed bytes).length = 4 + bytes.length := by
  rw [framed, List.length_append, length_number]

/-! ## Numbers and framed bytes -/

/-- A number is taken off the front by `takeNumber` just when it is written there. -/
theorem takeNumber_eq_ok_iff {bytes rest : List UInt8} {value : Nat} :
    takeNumber bytes = .ok (value, rest) ↔ bytes = number value ++ rest ∧ value < numberLimit := by
  rw [takeNumber_eq_ok]
  constructor
  · rintro ⟨digits, rfl, four, rfl⟩
    have below := ofLittleEndian_lt digits
    have same := toLittleEndian_ofLittleEndian digits
    rw [four] at below same
    exact ⟨by rw [number, same], below⟩
  · rintro ⟨rfl, fits⟩
    exact ⟨number value, rfl, length_number value, (ofLittleEndian_toLittleEndian fits).symm⟩

/-! ## The texts -/

/-- The comments of texts that stand one behind the other, from an offset on. -/
def placed (offset : Nat) : List (List UInt8) → List Comment
  | [] => []
  | text :: texts =>
    Comment.ofBytes text ⟨offset + 4, offset + 4 + text.length⟩ ::
      placed (offset + 4 + text.length) texts

theorem length_placed (offset : Nat) (texts : List (List UInt8)) :
    (placed offset texts).length = texts.length := by
  induction texts generalizing offset with
  | nil => rfl
  | cons text texts ih => rw [placed, List.length_cons, List.length_cons, ih]

/-- Every text stands behind those before it. -/
theorem getElem?_placed (offset : Nat) (texts : List (List UInt8)) (index : Nat) :
    (placed offset texts)[index]? = texts[index]?.map fun text =>
      let start := offset + ((texts.take index).flatMap framed).length + 4
      Comment.ofBytes text ⟨start, start + text.length⟩ := by
  induction texts generalizing offset index with
  | nil => rfl
  | cons text texts ih =>
    cases index with
    | zero => rfl
    | succ index =>
      have behind : offset + 4 + text.length + ((texts.take index).flatMap framed).length =
          offset + (((text :: texts).take (index + 1)).flatMap framed).length := by
        rw [List.take_succ_cons, List.flatMap_cons, List.length_append, length_framed]
        omega
      rw [placed, List.getElem?_cons_succ, List.getElem?_cons_succ, ih]
      simp only [behind]

/-- The comments stand within the bytes of their texts. -/
theorem within_placed (offset : Nat) (texts : List (List UInt8)) :
    ∀ comment ∈ placed offset texts,
      offset + 4 ≤ comment.range.start ∧ comment.range.start ≤ comment.range.stop ∧
        comment.range.stop ≤ offset + (texts.flatMap framed).length := by
  induction texts generalizing offset with
  | nil =>
    intro comment isPlaced
    cases isPlaced
  | cons text texts ih =>
    intro comment isPlaced
    rw [List.flatMap_cons, List.length_append, length_framed]
    rcases List.mem_cons.mp isPlaced with rfl | later
    · simp only [Comment.ofBytes]
      omega
    · have there := ih _ comment later
      omega

/-- Every comment ends before the length of the next. -/
theorem pairwise_placed (offset : Nat) (texts : List (List UInt8)) :
    (placed offset texts).Pairwise fun earlier later =>
      earlier.range.stop + 4 ≤ later.range.start := by
  induction texts generalizing offset with
  | nil => exact .nil
  | cons text texts ih =>
    exact List.pairwise_cons.mpr
      ⟨fun later isLater => (within_placed _ texts later isLater).1, ih _⟩

/-- Texts that are written are taken off the front by `takeEntries`, if the last of them ends at
an offset. -/
theorem takeEntries_written {offset : Nat} {texts : List (List UInt8)}
    (textsFit : ∀ text ∈ texts, text.length < numberLimit)
    (below : offset + (texts.flatMap framed).length < offsetLimit) (rest : List UInt8) :
    takeEntries offset texts.length (texts.flatMap framed ++ rest) =
      .ok (placed offset texts) := by
  induction texts generalizing offset with
  | nil => rfl
  | cons text texts ih =>
    have fits := textsFit text List.mem_cons_self
    rw [List.flatMap_cons, List.length_append, length_framed] at below
    have isPlace : ByteRange.place? (offset + 4) text.length =
        some ⟨offset + 4, offset + 4 + text.length⟩ := by
      rw [ByteRange.place?, if_pos (by omega)]
    apply takeEntries_succ_eq_ok.mpr
    refine ⟨number text.length, text, texts.flatMap framed ++ rest, _, placed _ texts, ?_,
      length_number _, (ofLittleEndian_toLittleEndian fits).symm, isPlace, ?_, rfl⟩
    · rw [List.flatMap_cons, framed, List.append_assoc, List.append_assoc]
    · exact ih (fun other isOther => textsFit other (List.mem_cons_of_mem text isOther)) (by omega)

/-- Nothing else is taken off. -/
theorem of_takeEntries {offset count : Nat} {bytes : List UInt8} {entries : List Comment}
    (taken : takeEntries offset count bytes = .ok entries) :
    ∃ texts, texts.length = count ∧ (∀ text ∈ texts, text.length < numberLimit) ∧
      texts.flatMap framed <+: bytes ∧ entries = placed offset texts := by
  induction count generalizing offset bytes entries with
  | zero =>
    obtain rfl := Except.ok.inj taken
    exact ⟨[], rfl, fun _ isText => absurd isText List.not_mem_nil, List.nil_prefix, rfl⟩
  | succ count ih =>
    obtain ⟨digits, text, rest, range, others, rfl, four, long, isPlace, later, rfl⟩ :=
      takeEntries_succ_eq_ok.mp taken
    obtain ⟨texts, rfl, textsFit, starts, rfl⟩ := ih later
    have below := ofLittleEndian_lt digits
    have same := toLittleEndian_ofLittleEndian digits
    rw [four, ← long] at below same
    have isRange : range = ⟨offset + 4, offset + 4 + text.length⟩ := by
      unfold ByteRange.place? at isPlace
      split at isPlace
      · exact (Option.some.inj isPlace).symm
      · cases isPlace
    refine ⟨text :: texts, rfl, ?_, ?_, by rw [isRange, placed]⟩
    · intro other isText
      rcases List.mem_cons.mp isText with rfl | isOther
      · exact below
      · exact textsFit other isOther
    · rw [List.flatMap_cons, framed, number, same, List.append_assoc, List.prefix_append_right_inj,
        List.prefix_append_right_inj]
      exact starts

/-! ## What is refused -/

theorem eq_of_takeBytes_eq_error {fault found : CommentFault} {count : Nat} {bytes : List UInt8}
    (failed : takeBytes fault count bytes = .error found) : found = fault := by
  unfold takeBytes at failed
  dsimp only at failed
  split at failed
  · exact (Except.error.inj failed).symm
  · cases failed

theorem eq_of_takeNumber_eq_error {found : CommentFault} {bytes : List UInt8}
    (failed : takeNumber bytes = .error found) : found = .numberOverruns := by
  rcases of_bind_eq_error failed with front | ⟨cut, front, isNumber⟩
  · exact eq_of_takeBytes_eq_error front
  · cases isNumber

/-- Texts that end at an offset are not refused for where they stand. -/
theorem ne_rangeOverflow_of_takeEntries {offset count : Nat} {bytes : List UInt8}
    (below : offset + bytes.length < offsetLimit) {fault : CommentFault}
    (failed : takeEntries offset count bytes = .error fault) : fault ≠ .rangeOverflow := by
  induction count generalizing offset bytes with
  | zero => cases failed
  | succ count ih =>
    rw [takeEntries] at failed
    rcases of_bind_eq_error failed with cut | ⟨⟨length, behind⟩, number, onward⟩
    · rw [eq_of_takeNumber_eq_error cut]
      exact CommentFault.noConfusion
    obtain ⟨digits, rfl, four, -⟩ := takeNumber_eq_ok.mp number
    rcases of_bind_eq_error onward with cut | ⟨⟨text, rest⟩, front, placing⟩
    · rw [eq_of_takeBytes_eq_error cut]
      exact CommentFault.noConfusion
    obtain ⟨rfl, rfl⟩ := takeBytes_eq_ok.mp front
    rw [List.length_append, List.length_append, four] at below
    have isPlace : ByteRange.place? (offset + 4) text.length =
        some ⟨offset + 4, offset + 4 + text.length⟩ := by
      rw [ByteRange.place?, if_pos (by omega)]
    dsimp only at placing
    rw [isPlace] at placing
    rcases of_bind_eq_error placing with later | ⟨entries, -, isEntries⟩
    · exact ih (by omega) later
    · cases isEntries

/-! ## Reading what is written -/

theorem length_written (vendor : List UInt8) (texts : List (List UInt8)) :
    (written vendor texts).length =
      4 + vendor.length + 4 + (texts.flatMap framed).length := by
  simp only [written, List.length_append, length_framed, length_number]
  omega

/-- Comments that are written are read by `Comments.parse`, whatever follows them. -/
theorem parse_of_holds {bytes vendor : List UInt8} {texts : List (List UInt8)} {offset : Nat}
    (holds : Holds bytes vendor texts) (below : offset + bytes.length < offsetLimit) :
    parse bytes offset = .ok {
      vendor := Lossy.text vendor
      entries := placed (offset + 4 + vendor.length + 4) texts } := by
  obtain ⟨rest, rfl⟩ := holds.starts
  rw [List.length_append, length_written] at below
  have small : offset + 4 + vendor.length + 4 + (texts.flatMap framed).length < offsetLimit := by
    omega
  have entries := takeEntries_written holds.textsFit small rest
  simp only [parse, written, framed, List.append_assoc, bind, Except.bind,
    takeNumber_eq_ok_iff.mpr ⟨rfl, holds.vendorFits⟩, takeBytes_eq_ok.mpr ⟨rfl, rfl⟩,
    takeNumber_eq_ok_iff.mpr ⟨rfl, holds.countFits⟩, entries]
  rfl

/-- Only comments that are written are read: bytes that `Comments.parse` accepts are such that it
`Holds`. -/
theorem holds_of_parse {bytes : List UInt8} {offset : Nat} {comments : Comments}
    (parsed : parse bytes offset = .ok comments) : ∃ vendor texts, Holds bytes vendor texts := by
  unfold parse at parsed
  rcases of_bind_eq_ok parsed with ⟨⟨vendorLength, behindLength⟩, first, parsed⟩
  rcases of_bind_eq_ok parsed with ⟨⟨vendor, behindVendor⟩, name, parsed⟩
  rcases of_bind_eq_ok parsed with ⟨⟨count, rest⟩, second, parsed⟩
  rcases of_bind_eq_ok parsed with ⟨entries, all, -⟩
  obtain ⟨rfl, vendorFits⟩ := takeNumber_eq_ok_iff.mp first
  obtain ⟨rfl, rfl⟩ := takeBytes_eq_ok.mp name
  obtain ⟨rfl, countFits⟩ := takeNumber_eq_ok_iff.mp second
  obtain ⟨texts, rfl, textsFit, ⟨trailing, rfl⟩, -⟩ := of_takeEntries all
  refine ⟨vendor, texts, vendorFits, countFits, textsFit, trailing, ?_⟩
  simp only [written, framed, List.append_assoc]

/-- Bytes that end at an offset are not refused for where they stand. -/
theorem ne_rangeOverflow_of_parse {bytes : List UInt8} {offset : Nat}
    (below : offset + bytes.length < offsetLimit) {fault : CommentFault}
    (failed : parse bytes offset = .error fault) : fault ≠ .rangeOverflow := by
  unfold parse at failed
  rcases of_bind_eq_error failed with cut | ⟨⟨vendorLength, behindLength⟩, first, onward⟩
  · rw [eq_of_takeNumber_eq_error cut]
    exact CommentFault.noConfusion
  rcases of_bind_eq_error onward with cut | ⟨⟨vendor, behindVendor⟩, name, counting⟩
  · rw [eq_of_takeBytes_eq_error cut]
    exact CommentFault.noConfusion
  rcases of_bind_eq_error counting with cut | ⟨⟨count, rest⟩, second, reading⟩
  · rw [eq_of_takeNumber_eq_error cut]
    exact CommentFault.noConfusion
  obtain ⟨digits, rfl, four, -⟩ := takeNumber_eq_ok.mp first
  obtain ⟨rfl, rfl⟩ := takeBytes_eq_ok.mp name
  obtain ⟨countDigits, rfl, countFour, -⟩ := takeNumber_eq_ok.mp second
  simp only [List.length_append, four, countFour] at below
  rcases of_bind_eq_error reading with later | ⟨entries, -, isComments⟩
  · exact ne_rangeOverflow_of_takeEntries (by omega) later
  · cases isComments

/-! ## The format -/

/-- What is read of comments: who wrote the stream, and every text as it stands in its place, in
their order and one behind the other. -/
structure AreRead (comments : Comments) (bytes : List UInt8) (offset : Nat) (vendor : List UInt8)
    (texts : List (List UInt8)) : Prop where
  isVendor : comments.vendor = Lossy.text vendor
  count : comments.entries.length = texts.length
  entries : ∀ index text, texts[index]? = some text →
    ∃ comment start, comments.entries[index]? = some comment ∧
      comment.Reads (Lossy.decode text) ∧
      start = textOffset vendor texts index ∧ (bytes.drop start).take text.length = text ∧
      comment.range = ⟨offset + start, offset + start + text.length⟩
  ascending : comments.entries.Pairwise fun earlier later =>
    earlier.range.start < later.range.start ∧ earlier.range.stop < later.range.start
  within : ∀ comment ∈ comments.entries, offset ≤ comment.range.start ∧
    comment.range.start ≤ comment.range.stop ∧ comment.range.stop ≤ offset + bytes.length

/-- What is written of the texts from one of them on. -/
theorem flatMap_framed_of_getElem? {texts : List (List UInt8)} {index : Nat} {text : List UInt8}
    (isText : texts[index]? = some text) :
    texts.flatMap framed = (texts.take index).flatMap framed ++
      (number text.length ++ (text ++ (texts.drop (index + 1)).flatMap framed)) := by
  obtain ⟨inside, rfl⟩ := List.getElem?_eq_some_iff.mp isText
  have cut : texts = texts.take index ++ texts[index] :: texts.drop (index + 1) := by
    rw [← List.drop_eq_getElem_cons inside, List.take_append_drop]
  have whole := congrArg (List.flatMap framed) cut
  rw [List.flatMap_append, List.flatMap_cons, framed, List.append_assoc] at whole
  exact whole

/-- The bytes at the place of a text are the text. -/
theorem take_drop_of_holds {bytes vendor text : List UInt8} {texts : List (List UInt8)}
    {index : Nat} (holds : Holds bytes vendor texts) (isText : texts[index]? = some text) :
    (bytes.drop (textOffset vendor texts index)).take text.length = text := by
  obtain ⟨rest, rfl⟩ := holds.starts
  let before := framed vendor ++ (number texts.length ++
    ((texts.take index).flatMap framed ++ number text.length))
  have place : textOffset vendor texts index = before.length := by
    simp only [before, textOffset, List.length_append, length_number]
    omega
  have whole : written vendor texts ++ rest =
      before ++ (text ++ ((texts.drop (index + 1)).flatMap framed ++ rest)) := by
    rw [written, flatMap_framed_of_getElem? isText]
    simp only [before, List.append_assoc]
  rw [whole, place, List.drop_left, List.take_left]

/-- The comments of texts are what is read of them. -/
theorem areRead_placed {bytes vendor : List UInt8} {texts : List (List UInt8)}
    (holds : Holds bytes vendor texts) (offset : Nat) :
    AreRead ⟨Lossy.text vendor, placed (offset + 4 + vendor.length + 4) texts⟩ bytes offset vendor
      texts := by
  have long := holds.starts.length_le
  rw [length_written] at long
  refine ⟨rfl, length_placed _ texts, ?_, ?_, ?_⟩
  · intro index text isText
    refine ⟨Comment.ofBytes text _, _, ?_, Comment.reads_ofBytes text _, rfl,
      take_drop_of_holds holds isText, rfl⟩
    simp only [getElem?_placed, isText, Option.map_some, textOffset, length_framed, length_number,
      Nat.add_assoc]
  · refine (pairwise_placed _ texts).imp_of_mem ?_
    intro earlier later isEarlier _ behind
    have place := within_placed _ texts earlier isEarlier
    omega
  · intro comment isPlaced
    have place := within_placed _ texts comment isPlaced
    omega

/-- Bytes that stand below the largest offset are read by `Comments.parse` just when they hold
comments (`Holds`). What is read are those comments (`AreRead`), and bytes that hold none are
refused for what they hold. -/
theorem parse_exact {bytes : List UInt8} {offset : Nat}
    (below : offset + bytes.length < offsetLimit) :
    ((∃ comments, parse bytes offset = .ok comments) ↔
      ∃ vendor texts, Holds bytes vendor texts) ∧
    (∀ comments, parse bytes offset = .ok comments →
      ∀ vendor texts, Holds bytes vendor texts → comments.AreRead bytes offset vendor texts) ∧
    ((¬ ∃ vendor texts, Holds bytes vendor texts) →
      ∃ fault, parse bytes offset = .error fault ∧ fault ≠ .rangeOverflow) := by
  refine ⟨⟨?_, ?_⟩, ?_, ?_⟩
  · rintro ⟨comments, parsed⟩
    exact holds_of_parse parsed
  · rintro ⟨vendor, texts, holds⟩
    exact ⟨_, parse_of_holds holds below⟩
  · intro comments parsed vendor texts holds
    obtain rfl := Except.ok.inj ((parse_of_holds holds below).symm.trans parsed)
    exact areRead_placed holds offset
  · intro nothing
    cases parsed : parse bytes offset with
    | ok comments => exact absurd (holds_of_parse parsed) nothing
    | error fault => exact ⟨fault, rfl, ne_rangeOverflow_of_parse below parsed⟩

/-- `K=v` and `x` behind the vendor `ab`, with a byte that does not matter: both are read in their
places, the second one as a key. -/
theorem parse_exact_two :
    let bytes : List UInt8 := [2, 0, 0, 0, 0x61, 0x62, 2, 0, 0, 0, 3, 0, 0, 0, 0x4B, 0x3D, 0x76,
      1, 0, 0, 0, 0x78, 0xFF]
    12 + bytes.length < offsetLimit ∧
      ∃ comments, parse bytes 12 = .ok comments ∧
        comments.AreRead bytes 12 [0x61, 0x62] [[0x4B, 0x3D, 0x76], [0x78]] ∧
        comments = { vendor := "ab", entries := [⟨"K", "v", ⟨26, 29⟩⟩, ⟨"x", "", ⟨33, 34⟩⟩] } := by
  intro bytes
  have below : 12 + bytes.length < offsetLimit := by decide
  have holds : Holds bytes [0x61, 0x62] [[0x4B, 0x3D, 0x76], [0x78]] :=
    ⟨by decide, by decide, by decide, [0xFF], rfl⟩
  obtain ⟨comments, parsed⟩ := (parse_exact below).1.mpr ⟨_, _, holds⟩
  refine ⟨below, comments, parsed, (parse_exact below).2.1 comments parsed _ _ holds, ?_⟩
  exact (Except.ok.inj (rfl.symm.trans parsed)).symm

end Comments

end FieldRecording

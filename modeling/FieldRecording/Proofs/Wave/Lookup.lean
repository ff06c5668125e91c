import FieldRecording.Proofs.Bytes.LittleEndian
import FieldRecording.Proofs.Wave.Walk

/-!
# What a lookup returns

`Wave.findChunk` comes to an end on every list of chunks: it returns the chunk to which the way
`Leads`, and says that there is none where the way leads to none. A strict lookup returns what a
lenient one does, if that ends in the source (`findChunk_strict_iff`).

A `WrittenChunk` is written with a byte of padding behind a payload of odd length. From chunks
that are written so, behind anything and before anything, every lookup returns the first one with
the name: `leads_of_written` goes over them by induction on those in front. `findChunk_exact` says
all of this of one lookup.
-/

namespace FieldRecording.Wave

open ByteSource Access

/-! ## Where the way ends -/

section Nowhere

variable {source : ByteSource} {target : ChunkName} {stop length : Nat}

/-- Behind the end of a content the way goes on, to `next`, by no more than four gigabytes. -/
theorem ChunkHeader.next_le_of_stands {content : Content} {offset : Nat} {header : ChunkHeader}
    (stands : ofBytes? offset (content.slice offset chunkHeaderLength) = some header) :
    header.next ≤ content.size + 0x100000000 := by
  have covered := (bounds_of_stands stands).2.1
  rw [ofBytes?_slice covered] at stands
  have long : (content.slice (offset + 4) 4).length = 4 :=
    content.length_slice_of_le (offset + 4) 4 (by omega)
  have bound := ofLittleEndian_lt (content.slice (offset + 4) 4)
  rw [long] at bound
  rw [← Option.some.inj stands]
  simp only [next, ByteRange.length]
  omega

/-- Where no header stands `findFrom` finds nothing. -/
theorem findFrom_of_not_stands {bounds : Bounds} (honest : source.Honest) {offset : Nat}
    (lands : source.refuses offset = false)
    (nothing : ChunkHeader.ofBytes? offset (source.content.slice offset chunkHeaderLength) = none) :
    (findFrom target bounds length stop source offset).1 =
      .error (.noChunk (Lossy.text target)) := by
  by_cases ended : stop ≤ offset
  · rw [findFrom, if_pos ended]
  · obtain ⟨read, -⟩ := ChunkHeader.readAt_of_honest honest lands
    obtain ⟨after, ran⟩ : ∃ after, ChunkHeader.readAt source offset = (.ok none, after) :=
      ⟨_, Prod.ext (read.trans (congrArg Except.ok nothing)) rfl⟩
    rw [findFrom_of_read ended ran]

/-- Where the way `Leads` to no chunk a lenient lookup finds nothing, if all places are admitted
that it may come to. -/
theorem findFrom_of_not_leads (honest : source.Honest)
    (lands : ∀ place < stop, place ≤ source.content.size + 0x100000000 →
      source.refuses place = false)
    {offset : Nat} (near : offset ≤ source.content.size + 0x100000000)
    (nowhere : ∀ header, ¬ Leads source.content target stop offset header) :
    (findFrom target .lenient length stop source offset).1 =
      .error (.noChunk (Lossy.text target)) := by
  by_cases ended : stop ≤ offset
  · rw [findFrom, if_pos ended]
  · have before : offset < stop := Nat.lt_of_not_le ended
    cases stands : ChunkHeader.ofBytes? offset
        (source.content.slice offset chunkHeaderLength) with
    | none => exact findFrom_of_not_stands honest (lands offset before near) stands
    | some header =>
      have other : header.name ≠ target :=
        fun isTarget => nowhere header (.here before stands isTarget)
      have place := ChunkHeader.bounds_of_stands stands
      have further := header.stop_le_next
      have lenient : ¬ (length < header.payload.stop ∧ Bounds.lenient = .strict) := by
        rintro ⟨_, isStrict⟩
        cases isStrict
      rw [findFrom_of_stands honest before stands, if_neg lenient, if_neg other]
      exact findFrom_of_not_leads honest lands (ChunkHeader.next_le_of_stands stands)
        fun last leads => nowhere last (.onward before stands other leads)
  termination_by source.content.size - offset

end Nowhere

/-! ## Chunks that are written -/

/-- A chunk as it is written: its name and payload, and the byte behind a payload of odd length.
That byte may have any value, as no lookup reads it. -/
structure WrittenChunk where
  name : ChunkName
  payload : List UInt8
  padding : UInt8 := 0
  named : name.length = 4
  fits : payload.length < 0x100000000

namespace WrittenChunk

/-- The chunk with its header. -/
def encode (chunk : WrittenChunk) : List UInt8 :=
  chunk.name ++ (toLittleEndian 4 chunk.payload.length ++
    (chunk.payload ++ if chunk.payload.length % 2 = 1 then [chunk.padding] else []))

/-- Where the payload is when the chunk is written at an offset. -/
def payloadAt (chunk : WrittenChunk) (offset : Nat) : ByteRange :=
  ⟨offset + 8, offset + 8 + chunk.payload.length⟩

/-- The header of the chunk that is written at an offset, as `ChunkHeader.ofBytes?` reads it. -/
def placed (chunk : WrittenChunk) (offset : Nat) : ChunkHeader where
  name := chunk.name
  payload := chunk.payloadAt offset

/-- The next chunk is written where the way goes on. -/
theorem next_placed (chunk : WrittenChunk) (offset : Nat) :
    (chunk.placed offset).next = offset + chunk.encode.length := by
  have named := chunk.named
  simp only [ChunkHeader.next, placed, payloadAt, ByteRange.length, encode, List.length_append,
    length_toLittleEndian, named]
  split
  · rw [List.length_singleton]
    omega
  · rw [List.length_nil]
    omega

/-- The header of a chunk is read from the front of what `encode` writes of it. -/
theorem stands_of_encode (chunk : WrittenChunk) {content : Content} {before after : List UInt8}
    (isContent : content.toList = before ++ (chunk.encode ++ after)) :
    ChunkHeader.ofBytes? before.length (content.slice before.length chunkHeaderLength) =
      some (chunk.placed before.length) := by
  have four := length_toLittleEndian 4 chunk.payload.length
  have whole : (chunk.name ++ toLittleEndian 4 chunk.payload.length).length =
      chunkHeaderLength := by
    rw [List.length_append, chunk.named, four, chunkHeaderLength]
  have header : content.slice before.length chunkHeaderLength =
      chunk.name ++ toLittleEndian 4 chunk.payload.length := by
    rw [Content.slice_eq_take_drop, isContent, List.drop_left, encode, ← List.append_assoc,
      List.append_assoc, List.take_left' whole]
  rw [header, ChunkHeader.ofBytes?, if_pos whole, List.take_left' chunk.named,
    List.drop_left' chunk.named, ofLittleEndian_toLittleEndian chunk.fits]
  rfl

end WrittenChunk

/-- Over chunks that are written, the way `Leads` to the first one with the name. -/
theorem leads_of_written {content : Content} {before after : List UInt8}
    {front : List WrittenChunk} {chunk : WrittenChunk}
    (isContent : content.toList =
      before ++ (front.flatMap WrittenChunk.encode ++ (chunk.encode ++ after)))
    {target : ChunkName} (isTarget : chunk.name = target)
    (first : ∀ earlier ∈ front, earlier.name ≠ target) {stop : Nat}
    (inside : before.length + (front.flatMap WrittenChunk.encode).length < stop) :
    Leads content target stop before.length
      (chunk.placed (before.length + (front.flatMap WrittenChunk.encode).length)) := by
  induction front generalizing before with
  | nil =>
    rw [List.flatMap_nil, List.nil_append] at isContent
    exact .here inside (chunk.stands_of_encode isContent) isTarget
  | cons earlier front ih =>
    obtain ⟨other, later⟩ := List.forall_mem_cons.mp first
    rw [List.flatMap_cons, List.append_assoc] at isContent
    rw [List.flatMap_cons, List.length_append, ← Nat.add_assoc] at inside ⊢
    refine .onward (by omega) (earlier.stands_of_encode isContent) other ?_
    rw [earlier.next_placed, ← List.length_append] at *
    exact ih (isContent.trans (List.append_assoc ..).symm) later inside

/-! ## Lookups -/

section Lookups

variable {source : ByteSource} {container : ByteRange} {target : ChunkName}

/-- The two lookups of `findChunk` differ by where the chunk ends. -/
theorem findChunk_strict_iff (honest : source.Honest) (payload : ByteRange) :
    ((findChunk container target .strict).runOn source).1 = .ok payload ↔
      ((findChunk container target .lenient).runOn source).1 = .ok payload ∧
        payload.stop ≤ source.content.size := by
  rw [findChunk_eq_ok_iff honest, findChunk_eq_ok_iff honest]
  constructor
  · rintro ⟨near, header, leads, isPayload, ends⟩
    exact ⟨⟨near, header, leads, isPayload, fun lenient => nomatch lenient⟩, ends rfl⟩
  · rintro ⟨⟨near, header, leads, isPayload, _⟩, ends⟩
    exact ⟨near, header, leads, isPayload, fun _ => ends⟩

/-- A lookup returns the chunk to which the way `Leads`, a strict one if that ends in the source. -/
theorem findChunk_of_leads (honest : source.Honest)
    (bounded : source.content.size < offsetLimit) {header : ChunkHeader}
    (leads : Leads source.content target container.stop container.start header) {bounds : Bounds}
    (ends : bounds = .strict → header.payload.stop ≤ source.content.size) :
    ((findChunk container target bounds).runOn source).1 = .ok header.payload := by
  have inside := leads.bounds
  refine (findChunk_eq_ok_iff honest).mpr ⟨?_, header, leads, rfl, ends⟩
  rw [chunkHeaderLength]
  omega

/-- With room for a header in the source, `findChunk` goes over the chunks with `findFrom`. -/
theorem outcome_findChunk {bounds : Bounds} (bounded : source.content.size < offsetLimit)
    (enough : container.start + chunkHeaderLength ≤ source.content.size) :
    ((findChunk container target bounds).runOn source).1 =
      (findFrom target bounds source.content.size container.stop
        (source.standingAt (source.reach source.position)) container.start).1 := by
  unfold findChunk
  rw [runOn_bind_of_ok (runOn_length source)]
  dsimp only
  rw [if_neg (by omega), if_neg (by omega)]
  rfl

/-- Both lookups find the first of the chunks `WrittenChunk` which has the name. -/
theorem findChunk_of_written (honest : source.Honest)
    (bounded : source.content.size < offsetLimit) {before after : List UInt8}
    {front rest : List WrittenChunk} {chunk : WrittenChunk}
    (isContent : source.content.toList =
      before ++ ((front ++ chunk :: rest).flatMap WrittenChunk.encode ++ after))
    (starts : container.start = before.length) (isTarget : chunk.name = target)
    (first : ∀ earlier ∈ front, earlier.name ≠ target)
    (inside : before.length + (front.flatMap WrittenChunk.encode).length < container.stop)
    (bounds : Bounds) :
    ((findChunk container target bounds).runOn source).1 =
      .ok (chunk.payloadAt (before.length + (front.flatMap WrittenChunk.encode).length)) := by
  rw [List.flatMap_append, List.flatMap_cons] at isContent
  simp only [List.append_assoc] at isContent
  have leads := leads_of_written isContent isTarget first inside
  have whole := congrArg List.length isContent
  simp only [Array.length_toList, List.length_append] at whole
  refine findChunk_of_leads honest bounded (by rwa [starts]) fun _ => ?_
  have ends := (chunk.placed (before.length +
    (front.flatMap WrittenChunk.encode).length)).stop_le_next
  rw [chunk.next_placed] at ends
  omega

/-- A strict lookup with `findChunk` returns what a lenient one returns, if that ends in the
source. With room for a header in the source, a lenient one returns the payload of the chunk to
which the way `Leads`, or says that there is none. So it is for every honest source, wherever the
list of chunks starts and ends; a lookup asks for no place further than four gigabytes behind the
end, and what it says of none holds of sources that admit all of these. From chunks that are
written with their padding (`WrittenChunk`), both return the payload of the first one with the
name. -/
theorem findChunk_exact (honest : source.Honest) (bounded : source.content.size < offsetLimit)
    (container : ByteRange) (target : ChunkName) :
    (∀ payload, ((findChunk container target .strict).runOn source).1 = .ok payload ↔
      ((findChunk container target .lenient).runOn source).1 = .ok payload ∧
        payload.stop ≤ source.content.size) ∧
    (container.start + chunkHeaderLength ≤ source.content.size →
      (∀ header, Leads source.content target container.stop container.start header →
        ((findChunk container target .lenient).runOn source).1 = .ok header.payload) ∧
      ((∀ header, ¬ Leads source.content target container.stop container.start header) →
        (∀ place < container.stop, place ≤ source.content.size + 0x100000000 →
          source.refuses place = false) →
        ((findChunk container target .lenient).runOn source).1 =
          .error (.noChunk (Lossy.text target)))) ∧
    ∀ (before after : List UInt8) (front rest : List WrittenChunk) (chunk : WrittenChunk),
      source.content.toList =
        before ++ ((front ++ chunk :: rest).flatMap WrittenChunk.encode ++ after) →
      container.start = before.length → chunk.name = target →
      (∀ earlier ∈ front, earlier.name ≠ target) →
      before.length + (front.flatMap WrittenChunk.encode).length < container.stop →
      ∀ bounds, ((findChunk container target bounds).runOn source).1 =
        .ok (chunk.payloadAt
          (before.length + (front.flatMap WrittenChunk.encode).length)) := by
  refine ⟨findChunk_strict_iff honest, fun enough => ⟨fun header leads => ?_, ?_⟩, ?_⟩
  · exact findChunk_of_leads honest bounded leads fun lenient => nomatch lenient
  · intro nowhere lands
    have there := source.sameMedium_standingAt (source.reach source.position)
    have near : container.start ≤ source.content.size + 0x100000000 := by omega
    rw [outcome_findChunk bounded enough]
    exact findFrom_of_not_leads (honest.of_sameMedium there) lands near nowhere
  · intro before after front rest chunk isContent starts isTarget first inside
    exact findChunk_of_written honest bounded isContent starts isTarget first inside

/-- Both lookups find the chunk behind one of three bytes and its padding. -/
theorem findChunk_exact_of_padded :
    let source := ofFile #[0x4C, 0x49, 0x53, 0x54, 3, 0, 0, 0, 0x61, 0x62, 0x63, 0,
      0x64, 0x61, 0x74, 0x61, 2, 0, 0, 0, 7, 9]
    ∀ bounds, ((findChunk ⟨0, 22⟩ dataName bounds).runOn source).1 = .ok ⟨20, 22⟩ := by
  intro source bounds
  have honest : source.Honest := honest_ofFile (by decide)
  let list : WrittenChunk := ⟨[0x4C, 0x49, 0x53, 0x54], [0x61, 0x62, 0x63], 0, rfl, by decide⟩
  let data : WrittenChunk := ⟨dataName, [7, 9], 0, rfl, by decide⟩
  have found := (findChunk_exact honest (by decide) ⟨0, 22⟩ dataName).2.2 [] [] [list] [] data
    (by decide +kernel) rfl rfl (by decide) (by decide) bounds
  exact found.trans (congrArg Except.ok (by decide +kernel))

end Lookups

end FieldRecording.Wave

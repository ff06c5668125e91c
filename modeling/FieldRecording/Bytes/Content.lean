/-!
# What a file holds

A `Content` is the bytes of a file, by offset. Bytes past the end do not exist: `Content.slice`
gives as many as there are. `Content.overwrite` fills the gap with zeros where it writes past the
end. No content, and no storage, has room for `sizeLimit` bytes.
-/

namespace FieldRecording

/-- The bytes of a file. -/
abbrev Content := Array UInt8

/-- One more than the most bytes that can be held at once, and than the largest
position in a file. -/
def sizeLimit : Nat := 0x8000000000000000

namespace Content

/-- The bytes from `offset` on, as many as exist up to `count`. -/
def slice (content : Content) (offset count : Nat) : List UInt8 :=
  (content.extract offset (offset + count)).toList

/-- Replace the bytes from `offset` on by `bytes`. Content that ends earlier
grows, over a gap of zeros if need be; writing no bytes does nothing. -/
def overwrite (content : Content) (offset : Nat) (bytes : List UInt8) : Content :=
  if bytes.isEmpty then
    content
  else
    content.extract 0 offset ++ Array.replicate (offset - content.size) 0 ++ bytes.toArray ++
      content.extract (offset + bytes.length) content.size

end Content

end FieldRecording

import ClientPatch.Text

/-!
# The UTF-8 form of a text

What is written to a file and read back is the same text. Bytes that are no UTF-8 form of any
text, such as overlong ones and those of surrogates, cannot be read.
-/

namespace ClientPatch

/-- The contents of a file. -/
abbrev Bytes := List UInt8

namespace Text

/-- The UTF-8 form. -/
def encode (t : Text) : Bytes := (String.ofList t).toByteArray.data.toList

/-- The text that has these bytes as its UTF-8 form, if there is one. -/
def decode? (bytes : Bytes) : Option Text :=
  (ByteArray.mk bytes.toArray).utf8Decode?.map (·.toList)

/-- Reading back gives what was written. -/
@[simp] theorem decode?_encode (t : Text) : decode? (encode t) = some t := by
  have h : (ByteArray.mk (encode t).toArray) = t.utf8Encode := by
    simp [encode]
  simp [decode?, h]

/-- The bytes that can be read are the written ones. -/
theorem decode?_eq_some_iff {bytes : Bytes} {t : Text} :
    decode? bytes = some t ↔ bytes = encode t := by
  refine ⟨fun h => ?_, fun h => h ▸ decode?_encode t⟩
  obtain ⟨cs, hcs, rfl⟩ := Option.map_eq_some_iff.1 h
  have hvalid : (ByteArray.mk bytes.toArray).utf8Decode?.isSome := by
    rw [hcs]
    rfl
  obtain ⟨m, hm⟩ := ByteArray.isSome_utf8Decode?_iff.1 hvalid
  rw [hm, List.utf8Decode?_utf8Encode] at hcs
  obtain rfl := Option.some.inj hcs
  have hbytes : bytes = m.utf8Encode.data.toList := by
    rw [← hm]
  simpa [encode] using hbytes

end Text

end ClientPatch

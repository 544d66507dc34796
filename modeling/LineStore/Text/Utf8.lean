import LineStore.Bytes

/-!
Text as octets. `Utf8.decode?` reads exactly what `Utf8.encode` writes, so an octet string stands for
at most one text.
-/

namespace LineStore.Utf8

def encode (text : String) : Bytes :=
  text.toByteArray.data.toList

/-- The text of an octet string, if it is well formed. -/
def decode? (bytes : Bytes) : Option String :=
  String.fromUTF8? ⟨bytes.toArray⟩

@[simp] theorem decode?_encode (text : String) : decode? (encode text) = some text := by
  simp only [decode?, encode, Array.toArray_toList]
  rw [String.fromUTF8?, dif_pos text.isValidUTF8]
  rfl

theorem eq_encode_of_decode?_eq_some {bytes : Bytes} {text : String}
    (h : decode? bytes = some text) : bytes = encode text := by
  rw [decode?, String.fromUTF8?] at h
  split at h
  · cases h
    simp [encode, String.fromUTF8]
  · cases h

@[simp] theorem encode_append (s t : String) : encode (s ++ t) = encode s ++ encode t := by
  simp [encode, ByteArray.data_append]

@[simp] theorem length_encode (text : String) : (encode text).length = text.utf8ByteSize := by
  simp [encode, ← String.size_toByteArray]

end LineStore.Utf8

import LineStore.Text.Utf8

/-!
An ASCII octet in the octets of a text stands for the ASCII character, and for nothing else: in the
encoding of every other character the highest bit of each octet is set.
-/

namespace LineStore.Utf8

theorem encode_eq_flatMap (text : String) :
    encode text = text.toList.flatMap String.utf8EncodeChar := by
  rw [encode, ← String.utf8Encode_toList, List.utf8Encode, List.data_toByteArray]

theorem toNat_eq_of_mem_utf8EncodeChar {octet : UInt8} {c : Char} (hascii : octet.toNat < 0x80)
    (h : octet ∈ String.utf8EncodeChar c) : c.toNat = octet.toNat := by
  simp only [String.utf8EncodeChar] at h
  split at h
  · rename_i hc
    rw [List.mem_singleton.1 h, UInt8.toNat_ofNat']
    exact (Nat.mod_eq_of_lt (Nat.lt_of_le_of_lt hc (by decide))).symm
  · split at h
    · simp only [List.mem_cons, List.not_mem_nil, or_false] at h
      rcases h with rfl | rfl <;> rw [UInt8.toNat_ofNat'] at hascii <;> omega
    · split at h
      · simp only [List.mem_cons, List.not_mem_nil, or_false] at h
        rcases h with rfl | rfl | rfl <;> rw [UInt8.toNat_ofNat'] at hascii <;> omega
      · simp only [List.mem_cons, List.not_mem_nil, or_false] at h
        rcases h with rfl | rfl | rfl | rfl <;> rw [UInt8.toNat_ofNat'] at hascii <;> omega

/-- A text holds an ASCII character just when its octets hold the octet of it. -/
theorem mem_encode_iff {octet : UInt8} {text : String} (hascii : octet.toNat < 0x80) :
    octet ∈ encode text ↔ Char.ofNat octet.toNat ∈ text.toList := by
  rw [encode_eq_flatMap, List.mem_flatMap]
  constructor
  · rintro ⟨c, hc, hoctet⟩
    rwa [← toNat_eq_of_mem_utf8EncodeChar hascii hoctet, Char.ofNat_toNat]
  · intro hc
    refine ⟨_, hc, ?_⟩
    have hval : (Char.ofNat octet.toNat).toNat = octet.toNat := by
      rw [Char.ofNat, dif_pos (.inl (Nat.lt_trans hascii (by decide)))]
      rfl
    have hle : (Char.ofNat octet.toNat).val.toNat ≤ 0x7f := by
      rw [← Char.toNat_val] at hval
      omega
    rw [String.utf8EncodeChar, if_pos hle]
    simp [hval]

theorem lineFeed_mem_encode {text : String} : lineFeed ∈ encode text ↔ '\n' ∈ text.toList :=
  mem_encode_iff (by decide)

theorem carriageReturn_mem_encode {text : String} :
    carriageReturn ∈ encode text ↔ '\r' ∈ text.toList :=
  mem_encode_iff (by decide)

end LineStore.Utf8

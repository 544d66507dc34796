import LineStore.Wire.Frame

/-!
How the lines of a string of octets, and so the frames of a stream, depend on its first line and on
what is still to come.
-/

namespace LineStore

namespace Bytes

/-! ### The first line -/

theorem cutLine?_append_of_eq_some {bytes line rest : Bytes} (more : Bytes)
    (h : bytes.cutLine? = some (line, rest)) :
    (bytes ++ more).cutLine? = some (line, rest ++ more) := by
  induction bytes generalizing line rest with
  | nil => cases h
  | cons b bytes ih =>
    rw [cutLine?] at h
    rw [List.cons_append, cutLine?]
    split at h
    · rename_i hb
      cases h
      rw [if_pos hb]
    · rename_i hb
      obtain ⟨⟨line', rest'⟩, hcut, heq⟩ := Option.map_eq_some_iff.1 h
      cases heq
      rw [if_neg hb, ih hcut]
      rfl

theorem cutLine?_append_of_eq_none {bytes : Bytes} (more : Bytes) (h : bytes.cutLine? = none) :
    (bytes ++ more).cutLine? = more.cutLine?.map fun cut => (bytes ++ cut.1, cut.2) := by
  induction bytes with
  | nil => simp
  | cons b bytes ih =>
    rw [cutLine?] at h
    split at h
    · cases h
    · rename_i hb
      have hnone : cutLine? bytes = none := Option.map_eq_none_iff.1 h
      rw [List.cons_append, cutLine?, if_neg hb, ih hnone, Option.map_map]
      rfl

theorem cutLine?_append_lineFeed {body : Bytes} (rest : Bytes) (h : lineFeed ∉ body) :
    (body ++ lineFeed :: rest).cutLine? = some (body ++ [lineFeed], rest) := by
  rw [cutLine?_append_of_eq_none _ (cutLine?_eq_none_iff.2 h)]
  rfl

/-- A line is what stands before its only line feed, and the line feed. -/
theorem exists_body_of_cutLine?_eq_some {bytes line rest : Bytes}
    (h : bytes.cutLine? = some (line, rest)) :
    ∃ body, line = body ++ [lineFeed] ∧ lineFeed ∉ body := by
  induction bytes generalizing line rest with
  | nil => cases h
  | cons b bytes ih =>
    rw [cutLine?] at h
    split at h
    · rename_i hb
      cases h
      exact ⟨[], by rw [hb]; rfl, List.not_mem_nil⟩
    · rename_i hb
      obtain ⟨⟨line', rest'⟩, hcut, heq⟩ := Option.map_eq_some_iff.1 h
      cases heq
      obtain ⟨body, rfl, hbody⟩ := ih hcut
      exact ⟨b :: body, rfl, by simp [Ne.symm hb, hbody]⟩

/-! ### All lines -/

theorem lines_of_cutLine?_eq_some {bytes line rest : Bytes}
    (h : bytes.cutLine? = some (line, rest)) : bytes.lines = (line :: rest.lines.1, rest.lines.2) := by
  induction bytes generalizing line rest with
  | nil => cases h
  | cons b bytes ih =>
    rw [cutLine?] at h
    split at h
    · rename_i hb
      cases h
      simp only [lines, hb, ↓reduceIte]
    · rename_i hb
      obtain ⟨⟨line', rest'⟩, hcut, heq⟩ := Option.map_eq_some_iff.1 h
      cases heq
      simp only [lines, hb, ↓reduceIte, ih hcut]

theorem lines_of_cutLine?_eq_none {bytes : Bytes} (h : bytes.cutLine? = none) :
    bytes.lines = ([], bytes) := by
  induction bytes with
  | nil => rfl
  | cons b bytes ih =>
    rw [cutLine?] at h
    split at h
    · cases h
    · rename_i hb
      simp only [lines, hb, ↓reduceIte, ih (Option.map_eq_none_iff.1 h)]

theorem lines_fst_eq_nil_iff {bytes : Bytes} : bytes.lines.1 = [] ↔ lineFeed ∉ bytes := by
  rw [← cutLine?_eq_none_iff]
  cases hcut : bytes.cutLine? with
  | none => simp [lines_of_cutLine?_eq_none hcut]
  | some parts => simp [lines_of_cutLine?_eq_some hcut]

end Bytes

namespace Frame

/-! ### Frames -/

theorem ofStream_of_cutLine?_eq_some {bytes line rest : Bytes}
    (h : bytes.cutLine? = some (line, rest)) : ofStream bytes = ofLine line :: ofStream rest := by
  simp only [ofStream, Bytes.lines_of_cutLine?_eq_some h]
  rfl

/-- A stream without a whole line has a frame only if the line is too long already. -/
theorem ofStream_of_cutLine?_eq_none {bytes : Bytes} (h : bytes.cutLine? = none) :
    ofStream bytes = (ofTail? bytes).toList := by
  simp only [ofStream, Bytes.lines_of_cutLine?_eq_none h]
  rfl

@[simp] theorem ofStream_nil : ofStream [] = [] := rfl

theorem ofLine_of_length_le {line : Bytes} (h : line.length ≤ maxLineBytes) :
    ofLine line = .line line :=
  if_pos h

theorem ofLine_of_lt_length {line : Bytes} (h : maxLineBytes < line.length) :
    ofLine line = .overlong :=
  if_neg (Nat.not_le.2 h)

theorem ofStream_line_append {body : Bytes} (more : Bytes) (hfeed : lineFeed ∉ body)
    (hlength : (body ++ [lineFeed]).length ≤ maxLineBytes) :
    ofStream (body ++ [lineFeed] ++ more) = .line (body ++ [lineFeed]) :: ofStream more := by
  rw [List.append_assoc, List.singleton_append,
    ofStream_of_cutLine?_eq_some (Bytes.cutLine?_append_lineFeed more hfeed),
    ofLine_of_length_le hlength]

/-- Octets that are too many for a line make one frame together with the rest of their line, whether
its line feed has arrived or not. -/
theorem ofStream_append_of_overlong {bytes : Bytes} (more : Bytes) (h : bytes.cutLine? = none)
    (hlong : maxLineBytes ≤ bytes.length) :
    ofStream (bytes ++ more) =
      .overlong :: match more.cutLine? with
        | some (_, rest) => ofStream rest
        | none => [] := by
  have hcut := Bytes.cutLine?_append_of_eq_none more h
  cases hmore : more.cutLine? with
  | some cut =>
    obtain ⟨line, rest⟩ := cut
    rw [hmore] at hcut
    have hpos := Bytes.length_pos_of_cutLine?_eq_some hmore
    have hlt : maxLineBytes < (bytes ++ line).length := by
      rw [List.length_append]
      omega
    rw [ofStream_of_cutLine?_eq_some hcut, ofLine_of_lt_length hlt]
  | none =>
    rw [hmore] at hcut
    have hle : ¬ (bytes ++ more).length < maxLineBytes := by
      rw [List.length_append]
      omega
    rw [ofStream_of_cutLine?_eq_none hcut, ofTail?, if_neg hle]
    rfl

end Frame

end LineStore

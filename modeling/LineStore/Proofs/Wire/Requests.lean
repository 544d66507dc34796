import LineStore.Proofs.Wire.Reading
import Mathlib.Data.List.TakeWhile

/-!
A text from which a request is read spells this request.

So what the grammar says of a spelling holds of everything that is read from a connection: its key and its
value are words, with room for them in one line.
-/

namespace LineStore

namespace Request

/-! ### Words -/

theorem words_space_cons (text : List Char) : words (' ' :: text) = words text :=
  words_append_space [] text

/-- Whether a text begins where a word could end. -/
def Parted (text : List Char) : Prop :=
  text = [] ∨ ∃ after, text = ' ' :: after

theorem IsWord.words_append {word rest : List Char} (h : IsWord word) (hparted : Parted rest) :
    words (word ++ rest) = word :: words rest := by
  rcases hparted with rfl | ⟨after, rfl⟩
  · rw [List.append_nil, h.words_eq]
    rfl
  · rw [words_append_space, h.words_eq, words_space_cons]
    rfl

theorem exists_word {c : Char} (hc : c ≠ ' ') (text : List Char) :
    ∃ word rest, IsWord word ∧ Parted rest ∧ c :: text = word ++ rest := by
  have hsplit := List.takeWhile_append_dropWhile (p := (· ≠ ' ')) (l := text)
  refine ⟨c :: text.takeWhile (· ≠ ' '), text.dropWhile (· ≠ ' '), ⟨by simp, ?_⟩, ?_, ?_⟩
  · intro hmem
    rcases List.mem_cons.1 hmem with hspace | hspace
    · exact hc hspace.symm
    · simpa using List.mem_takeWhile_imp hspace
  · cases hdrop : text.dropWhile (· ≠ ' ') with
    | nil => exact .inl rfl
    | cons d after =>
      have hhead := List.head?_dropWhile_not (· ≠ ' ') text
      rw [hdrop] at hhead
      simp at hhead
      exact .inr ⟨after, by rw [hhead]⟩
  · rw [List.cons_append, hsplit]

theorem of_words_eq_nil {text : List Char} (h : words text = []) : ∃ n, text = spaces n := by
  induction text with
  | nil => exact ⟨0, rfl⟩
  | cons c text ih =>
    by_cases hc : c = ' '
    · subst hc
      obtain ⟨n, rfl⟩ := ih (words_space_cons text ▸ h)
      exact ⟨n + 1, rfl⟩
    · obtain ⟨word, rest, hword, hparted, heq⟩ := exists_word hc text
      rw [heq, hword.words_append hparted] at h
      cases h

theorem of_words_eq_cons {text word : List Char} {more : List (List Char)}
    (h : words text = word :: more) :
    IsWord word ∧ ∃ n rest, text = spaces n ++ word ++ rest ∧ Parted rest ∧ words rest = more := by
  induction text with
  | nil => cases h
  | cons c text ih =>
    by_cases hc : c = ' '
    · subst hc
      obtain ⟨hword, n, rest, rfl, hrest⟩ := ih (words_space_cons text ▸ h)
      exact ⟨hword, n + 1, rest, rfl, hrest⟩
    · obtain ⟨first, rest, hfirst, hparted, heq⟩ := exists_word hc text
      rw [heq, hfirst.words_append hparted] at h
      obtain ⟨rfl, rfl⟩ := List.cons.inj h
      exact ⟨hfirst, 0, rest, heq, hparted, rfl⟩

/-- Between two words there is a space. -/
theorem Parted.of_words_eq_cons {text word : List Char} {more : List (List Char)}
    (hparted : Parted text) (h : words text = word :: more) :
    IsWord word ∧ ∃ n rest, text = spaces (n + 1) ++ word ++ rest ∧ Parted rest ∧ words rest = more := by
  rcases hparted with rfl | ⟨after, rfl⟩
  · cases h
  · rw [words_space_cons] at h
    obtain ⟨hword, n, rest, rfl, hrest⟩ := Request.of_words_eq_cons h
    exact ⟨hword, n, rest, rfl, hrest⟩

/-! ### Spellings -/

theorem spells_of_ofWords?_words {request : Request} {text : List Char}
    (h : ofWords? (words text) = some request) : request.Spells text := by
  cases hwords : words text with
  | nil => rw [hwords] at h; cases h
  | cons name more =>
    cases more with
    | nil => rw [hwords] at h; cases h
    | cons key more =>
      -- the words are taken off the text one after another, each with the spaces in front of it
      obtain ⟨-, before, rest, rfl, hparted, hmore⟩ := of_words_eq_cons hwords
      obtain ⟨hkey, between, rest, rfl, hparted, rfl⟩ := hparted.of_words_eq_cons hmore
      rw [hwords, ofWords?] at h
      cases hcommand : Command.ofWord? name with
      | none => simp [hcommand] at h
      | some command =>
        have hname := Command.ofWord?_eq_some_iff.1 hcommand
        by_cases hfits : KeyFits (String.ofList key)
        · simp only [hcommand, hfits, ↓reduceIte] at h
          split at h
          · rename_i value hvalue hlast
            obtain ⟨hword, between', rest, rfl, -, hnil⟩ := hparted.of_words_eq_cons hlast
            obtain ⟨after, rfl⟩ := of_words_eq_nil hnil
            cases h
            have hspells := Spells.valued before between between' after hname hvalue hkey hfits hword
            simpa only [List.append_assoc] using hspells
          · rename_i hvalue hlast
            obtain ⟨after, rfl⟩ := of_words_eq_nil hlast
            cases h
            have hspells := Spells.bare before between after hname hvalue hkey hfits
            simpa only [List.append_assoc] using hspells
          · cases h
        · simp [hcommand, hfits] at h

end Request

namespace Utf8

theorem length_le_utf8ByteSize (text : List Char) : text.length ≤ (String.ofList text).utf8ByteSize := by
  rw [← length_encode, encode_eq_flatMap, String.toList_ofList, List.length_flatMap]
  induction text with
  | nil => rfl
  | cons c text ih =>
    have hpos := c.utf8Size_pos
    simp only [List.map_cons, List.sum_cons, List.length_cons, String.length_utf8EncodeChar] at ih ⊢
    omega

end Utf8

namespace Request.Spells

variable {request : Request} {text : List Char}

theorem key_isWord (h : request.Spells text) : IsWord request.key.toList := by
  cases h with
  | bare _ _ _ _ _ hkey | valued _ _ _ _ _ _ hkey => rwa [String.toList_ofList]

theorem key_fits (h : request.Spells text) : KeyFits request.key := by
  cases h with
  | bare _ _ _ _ _ _ hfits | valued _ _ _ _ _ _ _ hfits => exact hfits

theorem key_mem (h : request.Spells text) {c : Char} (hc : c ∈ request.key.toList) : c ∈ text := by
  cases h with
  | bare | valued =>
    rw [String.toList_ofList] at hc
    simp [hc]

theorem isSome_value? (h : request.Spells text) : request.value?.isSome = request.command.takesValue := by
  cases h with
  | bare _ _ _ _ hvalue | valued _ _ _ _ _ hvalue => exact hvalue.symm

variable {value : String}

theorem value_isWord (h : request.Spells text) (hvalue : request.value? = some value) :
    IsWord value.toList := by
  cases h with
  | bare => cases hvalue
  | valued _ _ _ _ _ _ _ _ hword =>
    cases hvalue
    rwa [String.toList_ofList]

theorem value_mem (h : request.Spells text) (hvalue : request.value? = some value) {c : Char}
    (hc : c ∈ value.toList) : c ∈ text := by
  cases h with
  | bare => cases hvalue
  | valued =>
    cases hvalue
    rw [String.toList_ofList] at hc
    simp [hc]

/-- A value stands in its line with a command of six letters, a key and two spaces. -/
theorem value_length (h : request.Spells text) (hvalue : request.value? = some value) :
    value.utf8ByteSize + 9 ≤ (String.ofList text).utf8ByteSize := by
  cases h with
  | bare => cases hvalue
  | @valued command name key value before between between' after hname htakes hkey =>
    cases hvalue
    have hsix : name.length = 6 := by
      rw [← List.length_map (f := Char.toUpper), hname]
      cases command with
      | create | update => rfl
      | read | delete => cases htakes
    have hletters := Utf8.length_le_utf8ByteSize name
    have hspaces := Utf8.length_le_utf8ByteSize (spaces (between + 1))
    have hspaces' := Utf8.length_le_utf8ByteSize (spaces (between' + 1))
    have hone := Utf8.length_le_utf8ByteSize key
    have hkeylength := List.length_pos_iff.2 hkey.1
    simp only [spaces, List.length_replicate] at hspaces hspaces'
    simp only [String.ofList_append, String.utf8ByteSize_append, spaces]
    omega

end Request.Spells

/-! ### Lines -/

namespace Bytes

theorem mem_of_mem_dropReturn {bytes : Bytes} {b : UInt8} (h : b ∈ bytes.dropReturn) : b ∈ bytes := by
  rw [dropReturn] at h
  split at h
  · exact List.dropLast_subset bytes h
  · exact h

theorem length_dropReturn_le (bytes : Bytes) : bytes.dropReturn.length ≤ bytes.length := by
  rw [dropReturn]
  split
  · exact List.length_dropLast ▸ Nat.sub_le ..
  · exact Nat.le_refl _

end Bytes

/-- A text that is one word of one line, of no more octets than the limit. -/
structure Storable (limit : Nat) (text : String) : Prop where
  decode_eq : Utf8.decode? (Utf8.encode text) = some text
  length_pos : 0 < (Utf8.encode text).length
  length_le : (Utf8.encode text).length ≤ limit
  no_space : ' ' ∉ text.toList
  no_lineFeed : '\n' ∉ text.toList

theorem Storable.isWord {limit : Nat} {text : String} (h : Storable limit text) :
    Request.IsWord text.toList := by
  refine ⟨fun hnil => ?_, h.no_space⟩
  have hpos := h.length_pos
  rw [Utf8.encode_eq_flatMap, hnil] at hpos
  cases hpos

theorem Request.IsWord.storable {limit : Nat} {text : String} (h : IsWord text.toList)
    (hfeed : '\n' ∉ text.toList) (hlength : text.utf8ByteSize ≤ limit) : Storable limit text where
  decode_eq := Utf8.decode?_encode text
  length_pos := by
    have hle := Utf8.length_le_utf8ByteSize text.toList
    rw [String.ofList_toList] at hle
    rw [Utf8.length_encode]
    exact Nat.lt_of_lt_of_le (List.length_pos_iff.2 h.1) hle
  length_le := Utf8.length_encode text ▸ hlength
  no_space := h.2
  no_lineFeed := hfeed

namespace Request

variable {request : Request} {body : Bytes}

theorem exists_spells_of_readBody (h : readBody body = .request request) :
    ∃ text : String, Utf8.encode text = body.dropReturn ∧ request.Spells text.toList := by
  rw [readBody] at h
  split at h
  · rename_i hbody
    cases h
    rw [ofBody?] at hbody
    split at hbody
    · rename_i text htext
      exact ⟨text, (Utf8.eq_encode_of_decode?_eq_some htext).symm, spells_of_ofWords?_words hbody⟩
    · cases hbody
  · cases h

theorem exists_readBody_of_read {buffer : Bytes} (h : read buffer = .request request) :
    ∃ body, readBody body = .request request := by
  rw [read] at h
  split at h
  · cases h
  · split at h
    · split at h
      · exact ⟨_, h⟩
      · cases h
    · split at h
      · exact ⟨_, h⟩
      · cases h

/-- The key and the value of a request that is read from a line could be read from it again. -/
theorem storable_of_read (hfeed : lineFeed ∉ body)
    (hlength : (body ++ [lineFeed]).length ≤ maxLineBytes)
    (h : read (body ++ [lineFeed]) = .request request) :
    Storable maxKeyBytes request.key ∧
      ∀ value, request.value? = some value → Storable (maxLineBytes - 10) value := by
  rw [read_append_lineFeed hfeed hlength] at h
  obtain ⟨text, htext, hspells⟩ := exists_spells_of_readBody h
  have hbreak : '\n' ∉ text.toList := by
    rw [← Utf8.lineFeed_mem_encode, htext]
    exact fun hmem => hfeed (Bytes.mem_of_mem_dropReturn hmem)
  refine ⟨hspells.key_isWord.storable (fun hmem => hbreak (hspells.key_mem hmem)) hspells.key_fits,
    fun value hvalue => (hspells.value_isWord hvalue).storable
      (fun hmem => hbreak (hspells.value_mem hvalue hmem)) ?_⟩
  -- of the line, nine octets are not the value's, and the line feed is the tenth
  have hroom := hspells.value_length hvalue
  have hshort := Bytes.length_dropReturn_le body
  rw [String.ofList_toList] at hroom
  rw [← htext, Utf8.length_encode] at hshort
  rw [List.length_append, List.length_singleton] at hlength
  omega

end Request

end LineStore

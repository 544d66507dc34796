import LineStore.Proofs.Text.Fields
import LineStore.Proofs.Wire.Requests
import LineStore.Wire.Spelling

/-!
A line is read as the request of which it holds a spelling, and as no request if it holds none.

A text has one spelling at most: where a run of spaces ends and a word begins is seen from the text alone.
-/

namespace LineStore.Request

/-! ### Spaces and words -/

theorem spaces_append_inj {n n' : Nat} {word word' rest rest' : List Char} (hword : IsWord word)
    (hword' : IsWord word') (h : spaces n ++ (word ++ rest) = spaces n' ++ (word' ++ rest')) :
    n = n' ∧ word ++ rest = word' ++ rest' := by
  have hspaces : ∀ n, ∀ c ∈ spaces n, (c == ' ') = true := fun n c hc => by
    simp [List.eq_of_mem_replicate hc]
  have hhead : ∀ {word rest : List Char}, IsWord word →
      ∀ c ∈ (word ++ rest).head?, (c == ' ') = false := by
    intro word rest hword c hc
    obtain ⟨first, more, rfl⟩ := List.exists_cons_of_ne_nil hword.1
    cases hc
    have hne : c ≠ ' ' := fun hspace => hword.2 (hspace ▸ List.mem_cons_self)
    simpa using hne
  obtain ⟨hsame, hrest⟩ :=
    Text.append_inj_of_head? (· == ' ') (hspaces n) (hspaces n') (hhead hword) (hhead hword') h
  exact ⟨by simpa [spaces] using congrArg List.length hsame, hrest⟩

theorem IsWord.append_inj {word word' rest rest' : List Char} (hword : IsWord word)
    (hword' : IsWord word') (hrest : Parted rest) (hrest' : Parted rest')
    (h : word ++ rest = word' ++ rest') : word = word' ∧ rest = rest' := by
  have hno : ∀ {word : List Char}, IsWord word → ∀ c ∈ word, (c != ' ') = true := by
    intro word hword c hc
    have hne : c ≠ ' ' := fun hspace => hword.2 (hspace ▸ hc)
    simpa using hne
  have hhead : ∀ {rest : List Char}, Parted rest → ∀ c ∈ rest.head?, (c != ' ') = false := by
    rintro rest (rfl | ⟨after, rfl⟩) c hc
    · cases hc
    · cases hc
      rfl
  exact Text.append_inj_of_head? (· != ' ') (hno hword) (hno hword') (hhead hrest) (hhead hrest') h

theorem parted_spaces (n : Nat) : Parted (spaces n) := by
  cases n with
  | zero => exact .inl rfl
  | succ n => exact .inr ⟨spaces n, rfl⟩

theorem parted_spaces_append {n : Nat} (hn : 0 < n) (rest : List Char) : Parted (spaces n ++ rest) := by
  cases n with
  | zero => cases hn
  | succ n => exact .inr ⟨spaces n ++ rest, rfl⟩

/-! ### Spellings -/

namespace Spelling

variable {spelling other : Spelling} {request otherRequest : Request}

/-- A text stands for a request just when it has a spelling of it. -/
theorem spells_iff {text : List Char} :
    request.Spells text ↔ ∃ spelling : Spelling, spelling.Writes request ∧ spelling.text = text := by
  constructor
  · intro h
    cases h with
    | @bare command name key before between after hname hvalue hkey hfits =>
      refine ⟨⟨before, name, between + 1, key, none, after⟩,
        ⟨hname, Nat.succ_pos _, hkey, rfl, hfits, rfl, fun part hpart => ?_, hvalue⟩, ?_⟩
      · cases hpart
      · simp only [Spelling.text, tail, List.append_assoc]
    | @valued command name key value before between between' after hname hvalue hkey hfits hword =>
      refine ⟨⟨before, name, between + 1, key, some (between' + 1, value), after⟩,
        ⟨hname, Nat.succ_pos _, hkey, rfl, hfits, rfl, fun part hpart => ?_, hvalue⟩, ?_⟩
      · cases hpart
        exact ⟨Nat.succ_pos _, hword⟩
      · simp only [Spelling.text, tail, List.append_assoc]
  · rintro ⟨⟨before, name, between, key, value?, after⟩, h, rfl⟩
    obtain ⟨command, requestKey, requestValue?⟩ := request
    obtain ⟨hname, hbetween, hkey, rfl, hfits, rfl, hvalue, htakes⟩ := h
    obtain ⟨between, rfl⟩ := Nat.exists_eq_add_of_lt hbetween
    cases value? with
    | none =>
      have hspells := Spells.bare before between after hname htakes hkey hfits
      simpa only [Spelling.text, tail, List.append_assoc, Nat.zero_add, Option.map_none] using hspells
    | some part =>
      obtain ⟨between', value⟩ := part
      obtain ⟨hbetween', hword⟩ := hvalue _ rfl
      obtain ⟨between', rfl⟩ := Nat.exists_eq_add_of_lt hbetween'
      have hspells := Spells.valued before between between' after hname htakes hkey hfits hword
      simpa only [Spelling.text, tail, List.append_assoc, Nat.zero_add, Option.map_some] using hspells

theorem Writes.parted_tail (h : spelling.Writes request) : Parted spelling.tail := by
  rw [tail]
  split
  · exact parted_spaces _
  · rename_i hvalue
    exact parted_spaces_append (h.value_isWord _ hvalue).1 _

theorem spaces_ne_append_word {n between : Nat} {word rest : List Char} (hword : IsWord word) :
    spaces n ≠ spaces between ++ (word ++ rest) := by
  intro h
  obtain ⟨c, hc⟩ := List.exists_mem_of_ne_nil word hword.1
  have hspace : c ∈ spaces n := by
    rw [h]
    exact List.mem_append_right _ (List.mem_append_left _ hc)
  exact hword.2 (List.eq_of_mem_replicate hspace ▸ hc)

theorem Writes.tail_inj (h : spelling.Writes request) (hother : other.Writes otherRequest)
    (heq : spelling.tail = other.tail) :
    spelling.value? = other.value? ∧ spelling.after = other.after := by
  have hlength : ∀ {n n' : Nat}, spaces n = spaces n' → n = n' := fun hspaces => by
    simpa [spaces] using congrArg List.length hspaces
  obtain ⟨before, name, between, key, value?, after⟩ := spelling
  obtain ⟨before', name', between', key', value?', after'⟩ := other
  cases value? with
  | none =>
    cases value?' with
    | none => exact ⟨rfl, hlength heq⟩
    | some part' => exact absurd heq (spaces_ne_append_word (hother.value_isWord _ rfl).2)
  | some part =>
    cases value?' with
    | none => exact absurd heq.symm (spaces_ne_append_word (h.value_isWord _ rfl).2)
    | some part' =>
      obtain ⟨gap, value⟩ := part
      obtain ⟨gap', value'⟩ := part'
      have hword : IsWord value := (h.value_isWord _ rfl).2
      have hword' : IsWord value' := (hother.value_isWord _ rfl).2
      obtain ⟨rfl, hrest⟩ := spaces_append_inj hword hword' heq
      obtain ⟨rfl, hspaces⟩ := hword.append_inj hword' (parted_spaces _) (parted_spaces _) hrest
      exact ⟨rfl, hlength hspaces⟩

/-- A text has one spelling at most, whatever it is a spelling of. -/
theorem Writes.text_inj (h : spelling.Writes request) (hother : other.Writes otherRequest)
    (heq : spelling.text = other.text) : spelling = other := by
  have hname := isWord_of_map_toUpper h.name
  have hname' := isWord_of_map_toUpper hother.name
  -- the text is taken off from the left, a run of spaces or a word at a time
  obtain ⟨hbefore, heq⟩ := spaces_append_inj hname hname' heq
  obtain ⟨hnames, heq⟩ := hname.append_inj hname' (parted_spaces_append h.between _)
    (parted_spaces_append hother.between _) heq
  obtain ⟨hbetween, heq⟩ := spaces_append_inj h.key_isWord hother.key_isWord heq
  obtain ⟨hkey, heq⟩ := h.key_isWord.append_inj hother.key_isWord h.parted_tail hother.parted_tail heq
  obtain ⟨hvalue, hafter⟩ := h.tail_inj hother heq
  obtain ⟨before, name, between, key, value?, after⟩ := spelling
  simp_all

end Spelling

/-! ### Lines -/

/-- What stands before the line feed of a line has a spelling of the request that is read from it. -/
theorem readBody_eq_iff {body : Bytes} {request : Request} :
    readBody body = .request request ↔ ∃ spelling : Spelling, spelling.Writes request ∧
      Utf8.decode? body.dropReturn = some (String.ofList spelling.text) := by
  constructor
  · intro h
    obtain ⟨text, htext, hspells⟩ := exists_spells_of_readBody h
    obtain ⟨spelling, hwrites, heq⟩ := Spelling.spells_iff.1 hspells
    exact ⟨spelling, hwrites, by rw [← htext, Utf8.decode?_encode, heq, String.ofList_toList]⟩
  · rintro ⟨spelling, hwrites, htext⟩
    have hspells : request.Spells (String.ofList spelling.text).toList := by
      rw [String.toList_ofList]
      exact Spelling.spells_iff.2 ⟨spelling, hwrites, rfl⟩
    rw [readBody, ofBody?, htext]
    simp only [hspells.ofWords?_words]

/-- Of the lines that end in time, those that spell a request are read as this request, and all others are
refused. The body of a line is what stands before its line feed, without one carriage return at the end. It has
to be a text, and is spelled in one way only. -/
theorem read_eq_request_iff {body : Bytes} (hfeed : lineFeed ∉ body)
    (hlength : (body ++ [lineFeed]).length ≤ maxLineBytes) :
    (∀ request, read (body ++ [lineFeed]) = .request request ↔
      ∃ spelling : Spelling, spelling.Writes request ∧
        Utf8.decode? body.dropReturn = some (String.ofList spelling.text)) ∧
      (∀ (spelling other : Spelling) (request otherRequest : Request),
        spelling.Writes request → other.Writes otherRequest →
          Utf8.decode? body.dropReturn = some (String.ofList spelling.text) →
            Utf8.decode? body.dropReturn = some (String.ofList other.text) → spelling = other) ∧
      ((∀ (spelling : Spelling) (request : Request), spelling.Writes request →
        Utf8.decode? body.dropReturn ≠ some (String.ofList spelling.text)) →
          read (body ++ [lineFeed]) = .invalid) ∧
      read (body ++ [lineFeed]) ≠ .incomplete := by
  have hline := read_append_lineFeed hfeed hlength
  have hwhole := read_ne_incomplete hfeed hlength
  refine ⟨fun request => ?_, ?_, fun hnone => ?_, hwhole⟩
  · rw [hline, readBody_eq_iff]
  · intro spelling other request otherRequest hwrites hother htext htext'
    rw [htext, Option.some.injEq, String.ofList_inj] at htext'
    exact hwrites.text_inj hother htext'
  · cases hread : read (body ++ [lineFeed]) with
    | invalid => rfl
    | incomplete => exact absurd hread hwhole
    | request request =>
      rw [hline] at hread
      obtain ⟨spelling, hwrites, htext⟩ := readBody_eq_iff.1 hread
      exact absurd htext (hnone spelling request hwrites)

/-- A line that ends with two carriage returns, of which one is not read, and has another in its key. -/
theorem read_eq_request_iff_returns :
    read (Utf8.encode "  cReaTe k\r   v\r\r" ++ [lineFeed]) =
        .request { command := .create, key := "k\r", value? := some "v\r" } ∧
      ∀ (spelling : Spelling) (request : Request), spelling.Writes request →
        Utf8.decode? (Utf8.encode "  cReaTe k\r   v\r\r").dropReturn =
            some (String.ofList spelling.text) →
          ⟨2, "cReaTe".toList, 1, "k\r".toList, some (3, "v\r".toList), 0⟩ = spelling := by
  obtain ⟨hread, hone, -⟩ :=
    @read_eq_request_iff (Utf8.encode "  cReaTe k\r   v\r\r") (by decide) (by decide)
  have hwrites : Spelling.Writes ⟨2, "cReaTe".toList, 1, "k\r".toList, some (3, "v\r".toList), 0⟩
      { command := .create, key := "k\r", value? := some "v\r" } :=
    { name := by decide
      between := Nat.one_pos
      key_isWord := ⟨by decide, by decide⟩
      key_eq := by decide
      key_fits := by decide
      value_eq := by decide
      value_isWord := fun part hpart => by
        cases hpart
        exact ⟨by decide, by decide, by decide⟩
      takesValue := rfl }
  have htext : Utf8.decode? (Utf8.encode "  cReaTe k\r   v\r\r").dropReturn = some _ :=
    Utf8.decode?_encode "  cReaTe k\r   v\r"
  exact ⟨(hread _).2 ⟨_, hwrites, htext⟩, fun spelling request hother =>
    hone _ spelling _ request hwrites hother htext⟩

end LineStore.Request

import LineStore.Proofs.Text.Ascii
import LineStore.Proofs.Wire.Lines
import LineStore.Wire.Grammar

/-!
The request that a line spells is the one that is read from it.

Everything about the words of a text follows from one equation: a space cuts the words before it off
from those after it.
-/

namespace LineStore.Request

/-! ### Words -/

theorem words_append_space (before after : List Char) :
    words (before ++ ' ' :: after) = words before ++ words after := by
  unfold words
  rw [List.splitOn_append_cons_self, List.filter_append]

theorem words_spaces_append (n : Nat) (text : List Char) : words (spaces n ++ text) = words text := by
  induction n with
  | zero => rfl
  | succ n ih =>
    rw [spaces, List.replicate_succ, List.cons_append]
    exact (words_append_space [] _).trans ih

theorem words_append_spaces (n : Nat) (text : List Char) : words (text ++ spaces n) = words text := by
  cases n with
  | zero => rw [spaces, List.replicate_zero, List.append_nil]
  | succ n =>
    have hspaces : words (spaces n) = [] := by
      have h := words_spaces_append n []
      rwa [List.append_nil] at h
    rw [spaces, List.replicate_succ, words_append_space]
    exact (congrArg (words text ++ ·) hspaces).trans (List.append_nil _)

theorem words_append_spaces_append (n : Nat) (before after : List Char) :
    words (before ++ spaces (n + 1) ++ after) = words before ++ words after := by
  rw [spaces, List.replicate_succ, List.append_assoc, List.cons_append, words_append_space]
  exact congrArg (words before ++ ·) (words_spaces_append n after)

theorem IsWord.words_eq {word : List Char} (h : IsWord word) : words word = [word] := by
  obtain ⟨hne, hspace⟩ := h
  rw [words, List.splitOn_eq_singleton hspace]
  simp [hne]

theorem isWord_of_map_toUpper {name : List Char} {command : Command}
    (h : name.map Char.toUpper = command.name.toList) : IsWord name := by
  constructor
  · intro hnil
    rw [hnil] at h
    cases command <;> exact absurd h (by decide)
  · intro hspace
    have hmem : ' ' ∈ command.name.toList := by
      rw [← h]
      exact List.mem_map.2 ⟨' ', hspace, by decide⟩
    cases command <;> exact absurd hmem (by decide)

/-! ### Requests -/

/-- The words of a text that spells a request are those of this request. -/
theorem Spells.ofWords?_words {request : Request} {text : List Char} (h : request.Spells text) :
    ofWords? (words text) = some request := by
  cases h with
  | bare before between after hname hvalue hkey hfits =>
    have hwords := (isWord_of_map_toUpper hname).words_eq
    rw [words_append_spaces, words_append_spaces_append, words_spaces_append, hwords, hkey.words_eq]
    simp [ofWords?, Command.ofWord?_eq_some_iff.2 hname, hfits, hvalue]
  | valued before between between' after hname hvalue hkey hfits hword =>
    have hwords := (isWord_of_map_toUpper hname).words_eq
    rw [words_append_spaces, words_append_spaces_append, words_append_spaces_append,
      words_spaces_append, hwords, hkey.words_eq, hword.words_eq]
    simp [ofWords?, Command.ofWord?_eq_some_iff.2 hname, hfits, hvalue]

/-! ### Lines -/

theorem dropReturn_encode {text : String} (h : '\r' ∉ text.toList) :
    (Utf8.encode text).dropReturn = Utf8.encode text := by
  rw [Bytes.dropReturn, if_neg]
  intro hlast
  exact h (Utf8.carriageReturn_mem_encode.1 (List.mem_of_getLast? hlast))

/-- A line that ends in time is read by what stands before its line feed. -/
theorem read_append_lineFeed {body : Bytes} (hfeed : lineFeed ∉ body)
    (hlength : (body ++ [lineFeed]).length ≤ maxLineBytes) :
    read (body ++ [lineFeed]) = readBody body := by
  rw [read, if_neg (Nat.not_lt.2 hlength)]
  split
  · rw [List.getLast?_concat, if_pos rfl, List.dropLast_concat]
  · rw [Bytes.cutLine?_append_lineFeed [] hfeed]
    exact congrArg readBody List.dropLast_concat

/-- A whole line is never taken for the beginning of one. -/
theorem read_ne_incomplete {body : Bytes} (hfeed : lineFeed ∉ body)
    (hlength : (body ++ [lineFeed]).length ≤ maxLineBytes) :
    read (body ++ [lineFeed]) ≠ .incomplete := by
  rw [read_append_lineFeed hfeed hlength, readBody]
  cases ofBody? body <;> simp

/-- A line by which a client asks to be disconnected is no request. -/
theorem read_of_isBareLine {line : Bytes} (h : line.IsBareLine) : read line = .invalid := by
  have hbody : ∀ body : Bytes, body.dropReturn = Utf8.encode "" → readBody body = .invalid := by
    intro body hdrop
    rw [readBody, ofBody?, hdrop, Utf8.decode?_encode]
    rfl
  rcases h with rfl | rfl
  · exact (@read_append_lineFeed [] (by decide) (by decide)).trans (hbody _ rfl)
  · exact (@read_append_lineFeed [carriageReturn] (by decide) (by decide)).trans (hbody _ rfl)

theorem Spells.readBody_eq {request : Request} {text : String} (h : request.Spells text.toList)
    (hreturn : '\r' ∉ text.toList) : readBody (Utf8.encode text) = .request request := by
  have hbody : ofBody? (Utf8.encode text) = some request := by
    rw [ofBody?, dropReturn_encode hreturn, Utf8.decode?_encode]
    exact h.ofWords?_words
  rw [readBody, hbody]

/-- A line that spells a request, and is not too long, is read as this request. -/
theorem Spells.read_eq {request : Request} {text : String} (h : request.Spells text.toList)
    (hfeed : '\n' ∉ text.toList) (hreturn : '\r' ∉ text.toList)
    (hlength : (Utf8.encode text ++ [lineFeed]).length ≤ maxLineBytes) :
    read (Utf8.encode text ++ [lineFeed]) = .request request := by
  rw [read_append_lineFeed (fun hmem => hfeed (Utf8.lineFeed_mem_encode.1 hmem)) hlength]
  exact h.readBody_eq hreturn

end LineStore.Request

import LineStore.Wire.Grammar
import LineStore.Wire.Reply

/-!
A reply that may answer a command is decoded as it was meant. What the statuses have and a stored value
has not is a space.
-/

namespace LineStore.Reply

theorem decode_of_mem_statuses {command : Command} {reply : Reply} (h : reply ∈ statuses command) :
    decode command reply.text = .ok reply := by
  have hfind : ∀ command, ∀ reply ∈ statuses command,
      (statuses command).find? (·.text = reply.text) = some reply := by
    intro command
    cases command <;> decide
  rw [decode, hfind command reply h]

theorem space_mem_text : ∀ reply ∈ statuses .read, ' ' ∈ reply.text.toList := by
  decide

theorem no_break_text {command : Command} :
    ∀ reply ∈ statuses command, '\n' ∉ reply.text.toList ∧ '\r' ∉ reply.text.toList := by
  cases command <;> decide

theorem text_of_decode {command : Command} {line : String} {reply : Reply}
    (h : decode command line = .ok reply) : reply.text = line := by
  rw [decode] at h
  split at h
  · rename_i status hfind
    cases h
    simpa using List.find?_some hfind
  · split at h
    · cases h
      rfl
    · cases h

theorem decode_eq_error_iff {command : Command} {line : String} {fault : Fault} :
    decode command line = .error fault ↔
      fault = .unexpectedResponse ∧ command ≠ .read ∧ line ∉ (statuses command).map text := by
  have hmem : line ∈ (statuses command).map text ↔
      ((statuses command).find? (·.text = line)).isSome := by
    simp only [List.mem_map, List.find?_isSome, decide_eq_true_eq]
  rw [decode, hmem]
  cases (statuses command).find? (·.text = line) with
  | some status => simp
  | none =>
    by_cases hread : command = .read
    · simp [hread]
    · simp [hread, eq_comm]

/-- No status of a read is mistaken for a text without a space, nor such a text for a status. -/
theorem decode_read_of_no_space {value : String} (h : ' ' ∉ value.toList) :
    decode .read value = .ok (.value value) := by
  have hnone : (statuses .read).find? (·.text = value) = none := by
    refine List.find?_eq_none.2 fun reply hreply htext => h ?_
    rw [← of_decide_eq_true htext]
    exact space_mem_text reply hreply
  rw [decode, hnone, if_pos rfl]

theorem decode_read_of_isWord {value : String} (h : Request.IsWord value.toList) :
    decode .read value = .ok (.value value) :=
  decode_read_of_no_space h.2

end LineStore.Reply

import LineStore.Client.Link
import LineStore.Proofs.Text.Ascii
import LineStore.Proofs.Wire.Lines
import LineStore.Proofs.Wire.Replies
import Mathlib.Data.List.DropRight

/-!
What a client reads of a stream.

A line is read without the whole run of line feeds and carriage returns at its end, and a last line that has
not ended is read like any other.
-/

namespace LineStore.Client

/-! ### The end of a line -/

theorem toList_trimLineEnd (text : String) :
    (trimLineEnd text).toList = text.toList.rdropWhile fun c => c = '\n' ∨ c = '\r' :=
  String.toList_ofList

theorem trimLineEnd_append_lineFeed (text : String) : trimLineEnd (text ++ "\n") = trimLineEnd text := by
  rw [← String.toList_inj, toList_trimLineEnd, toList_trimLineEnd, String.toList_append]
  exact List.rdropWhile_concat_pos _ _ _ (by decide)

theorem mem_of_mem_trimLineEnd {text : String} {c : Char} (h : c ∈ (trimLineEnd text).toList) :
    c ∈ text.toList := by
  rw [toList_trimLineEnd] at h
  exact (List.rdropWhile_prefix _ _).subset h

/-- A line is read as it is just when it does not end with a carriage return. -/
theorem trimLineEnd_eq_self_iff {text : String} (hfeed : '\n' ∉ text.toList) :
    trimLineEnd text = text ↔ text.toList.getLast? ≠ some '\r' := by
  rw [← String.toList_inj, toList_trimLineEnd, List.rdropWhile_eq_self_iff]
  constructor
  · intro h hlast
    have hne := List.ne_nil_of_mem (List.mem_of_getLast? hlast)
    rw [List.getLast?_eq_some_getLast hne, Option.some.injEq] at hlast
    exact h hne (by rw [hlast]; decide)
  · intro h hne hbreak
    rcases of_decide_eq_true hbreak with hlast | hlast
    · exact hfeed (hlast ▸ List.getLast_mem hne)
    · exact h (hlast ▸ List.getLast?_eq_some_getLast hne)

theorem trimLineEnd_eq_self {text : String} (hfeed : '\n' ∉ text.toList)
    (hreturn : '\r' ∉ text.toList) : trimLineEnd text = text :=
  (trimLineEnd_eq_self_iff hfeed).2 fun h => hreturn (List.mem_of_getLast? h)

/-! ### One line -/

/-- What octets come to that are read as one line. -/
def textOf (octets : Bytes) : Except Failure String :=
  if octets = [] then .error .closed
  else
    match Utf8.decode? octets with
    | some text => .ok (trimLineEnd text)
    | none => .error (.network .malformedText)

theorem readLine_eq (stream : Bytes) :
    readLine stream =
      let cut := stream.cutLine?.getD (stream, [])
      (textOf cut.1, cut.2) := by
  rw [readLine]
  obtain ⟨line, rest⟩ := stream.cutLine?.getD (stream, [])
  simp only [textOf]
  split
  · rfl
  · cases Utf8.decode? line <;> rfl

theorem readLine_of_unfinished {stream : Bytes} (h : lineFeed ∉ stream) :
    readLine stream = (textOf stream, []) := by
  rw [readLine_eq, Bytes.cutLine?_eq_none_iff.2 h]
  rfl

theorem textOf_eq_ok_iff {octets : Bytes} {line : String} :
    textOf octets = .ok line ↔
      ∃ text, text ≠ "" ∧ octets = Utf8.encode text ∧ trimLineEnd text = line := by
  have hempty : Utf8.encode "" = [] := rfl
  constructor
  · intro h
    rw [textOf] at h
    split at h
    · cases h
    · rename_i hne
      split at h
      · rename_i text htext
        have heq := Utf8.eq_encode_of_decode?_eq_some htext
        exact ⟨text, fun hnil => hne (by rw [heq, hnil, hempty]), heq, Except.ok.inj h⟩
      · cases h
  · rintro ⟨text, htext, rfl, rfl⟩
    have hne : Utf8.encode text ≠ [] := fun hnil =>
      htext (Option.some.inj ((Utf8.decode?_encode text).symm.trans (hnil ▸ Utf8.decode?_encode "")))
    rw [textOf, if_neg hne, Utf8.decode?_encode]

/-- A line that holds a text is read up to its line feed. -/
theorem readLine_append_lineFeed {text : String} (rest : Bytes) (hfeed : '\n' ∉ text.toList) :
    readLine (Utf8.encode text ++ lineFeed :: rest) = (.ok (trimLineEnd text), rest) := by
  have hcut := Bytes.cutLine?_append_lineFeed rest fun hmem => hfeed (Utf8.lineFeed_mem_encode.1 hmem)
  have hencode : Utf8.encode text ++ [lineFeed] = Utf8.encode (text ++ "\n") := by
    rw [Utf8.encode_append]
    rfl
  have hne : text ++ "\n" ≠ "" := by
    rw [Ne, ← String.toList_inj, String.toList_append]
    exact List.append_ne_nil_of_right_ne_nil _ (by decide)
  simp only [readLine_eq, hcut, Option.getD_some]
  rw [hencode, textOf_eq_ok_iff.2 ⟨_, hne, rfl, trimLineEnd_append_lineFeed text⟩]

/-- A read that is answered with a text without a space takes it for a value. -/
theorem Call.interpret_read_trimLineEnd (key : String) {text : String} (h : ' ' ∉ text.toList) :
    (Call.read key).interpret (trimLineEnd text) = .ok (.reply (.value (trimLineEnd text))) := by
  have hspace : ' ' ∉ (trimLineEnd text).toList := fun hmem => h (mem_of_mem_trimLineEnd hmem)
  simp only [Call.interpret, Call.command?, Reply.decode_read_of_no_space hspace]
  rfl

/-! ### One call -/

section

variable {σ : Type} {peer : Peer σ} {link : Link σ} {call : Call}

theorem Link.call_of_error {failure : Failure} (h : call.line = .error failure) :
    link.call peer call = (.error failure, link) := by
  rw [Link.call, h]

/-- A call that passes its checks takes one line, of what it finds and what it is answered. -/
theorem Link.call_of_sent {line : String} {octets : Bytes} {state : σ} (h : call.line = .ok line)
    (hpeer : peer (Utf8.encode line ++ [lineFeed]) link.peer = (octets, state)) :
    link.call peer call =
      let read := readLine (link.unread ++ octets)
      (read.1.bind call.interpret, { peer := state, unread := read.2 }) := by
  simp only [Link.call, h, Link.send, hpeer]

theorem Link.call_of_ok {line text : String} {octets rest : Bytes} {state : σ}
    (h : call.line = .ok line)
    (hpeer : peer (Utf8.encode line ++ [lineFeed]) link.peer = (octets, state))
    (hread : readLine (link.unread ++ octets) = (.ok text, rest)) :
    link.call peer call = (call.interpret text, { peer := state, unread := rest }) := by
  rw [Link.call_of_sent h hpeer, hread]
  rfl

end

end LineStore.Client

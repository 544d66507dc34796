import LineStore.Client.Company
import LineStore.Proofs.Responder
import LineStore.Proofs.Wire.Reading

/-!
The line that a call sends spells the request for the operation that the call is meant to be.
-/

namespace LineStore

/-! ### Operations as calls -/

namespace Store.Operation

def call : Operation → Client.Call
  | insert key value => .create key value
  | search key => .read key
  | update key value => .update key value
  | delete key => .delete key

theorem command?_call (operation : Operation) :
    operation.call.command? = some operation.request.command := by
  cases operation <;> rfl

theorem eq_call_of_operation?_eq_some {call : Client.Call} {operation : Operation}
    (h : call.operation? = some operation) : call = operation.call := by
  cases call <;> cases h <;> rfl

end Store.Operation

/-! ### How a request is written -/

namespace Request.Spells

variable {command : Command} {key value : String}

theorem map_toUpper_name (command : Command) :
    command.name.toList.map Char.toUpper = command.name.toList := by
  cases command <;> decide

theorem of_bare (hvalue : command.takesValue = false) (hkey : IsWord key.toList)
    (hfits : KeyFits key) :
    Spells { command, key, value? := none } s!"{command.name} {key}".toList := by
  have htext : s!"{command.name} {key}".toList =
      spaces 0 ++ command.name.toList ++ spaces (0 + 1) ++ key.toList ++ spaces 0 := by
    simp [spaces, toString]
  rw [← String.ofList_toList (s := key)] at hfits
  have h := bare 0 0 0 (map_toUpper_name command) hvalue hkey hfits
  rw [htext]
  rwa [String.ofList_toList] at h

theorem of_valued (hvalue : command.takesValue = true) (hkey : IsWord key.toList)
    (hfits : KeyFits key) (hword : IsWord value.toList) :
    Spells { command, key, value? := some value } s!"{command.name} {key} {value}".toList := by
  have htext : s!"{command.name} {key} {value}".toList =
      spaces 0 ++ command.name.toList ++ spaces (0 + 1) ++ key.toList ++ spaces (0 + 1) ++
        value.toList ++ spaces 0 := by
    simp [spaces, toString]
  rw [← String.ofList_toList (s := key)] at hfits
  have h := valued 0 0 0 0 (map_toUpper_name command) hvalue hkey hfits hword
  rw [htext]
  rwa [String.ofList_toList, String.ofList_toList] at h

end Request.Spells

namespace Client

/-! ### What is checked -/

/-- A text that is one word of one line, however the line is ended. -/
structure IsToken (text : String) : Prop where
  word : Request.IsWord text.toList
  no_lineFeed : '\n' ∉ text.toList
  no_return : '\r' ∉ text.toList

theorem checkWord_eq_ok_iff {part : Part} {text : String} :
    checkWord part text = .ok () ↔ IsToken text := by
  have hempty : text.isEmpty = true ↔ text.toList = [] := by
    rw [String.isEmpty_iff, String.toList_eq_nil_iff]
  have hblank : (text.toList.any fun c => c = ' ' ∨ c = '\n' ∨ c = '\r') = true ↔
      ' ' ∈ text.toList ∨ '\n' ∈ text.toList ∨ '\r' ∈ text.toList := by
    simp only [List.any_eq_true, decide_eq_true_eq, and_or_left, exists_or, exists_eq_right]
  rw [checkWord]
  constructor
  · intro h
    split at h
    · cases h
    · split at h
      · cases h
      · rename_i hnonempty hclean
        rw [hempty] at hnonempty
        rw [hblank, not_or, not_or] at hclean
        exact ⟨⟨hnonempty, hclean.1⟩, hclean.2.1, hclean.2.2⟩
  · intro h
    rw [if_neg fun hnil => h.word.1 (hempty.1 hnil), if_neg]
    rw [hblank, not_or, not_or]
    exact ⟨h.word.2, h.no_lineFeed, h.no_return⟩

theorem checkKey_eq_ok_iff {key : String} : checkKey key = .ok () ↔ IsToken key ∧ KeyFits key := by
  rw [← @checkWord_eq_ok_iff .key key, checkKey]
  cases checkWord .key key with
  | error failure =>
    constructor
    · intro h
      cases h
    · rintro ⟨h, -⟩
      cases h
  | ok _ =>
    by_cases hfits : KeyFits key
    · exact ⟨fun _ => ⟨rfl, hfits⟩, fun _ => if_pos hfits⟩
    · exact ⟨fun h => absurd ((if_neg hfits).symm.trans h) (by intro h; cases h),
        fun h => absurd h.2 hfits⟩

/-! ### What is sent -/

/-- A line that carries a request: it spells the request and is one line. -/
structure Carries (request : Request) (line : String) : Prop where
  spells : request.Spells line.toList
  no_lineFeed : '\n' ∉ line.toList
  no_return : '\r' ∉ line.toList

theorem Carries.read_eq {request : Request} {line : String} (h : Carries request line)
    (hlength : (Utf8.encode line ++ [lineFeed]).length ≤ maxLineBytes) :
    Request.read (Utf8.encode line ++ [lineFeed]) = .request request :=
  h.spells.read_eq h.no_lineFeed h.no_return hlength

section

variable {command : Command} {key value : String}

theorem no_break_name (command : Command) :
    '\n' ∉ command.name.toList ∧ '\r' ∉ command.name.toList := by
  cases command <;> decide

theorem carries_bare (hvalue : command.takesValue = false) (hkey : IsToken key)
    (hfits : KeyFits key) :
    Carries { command, key, value? := none } s!"{command.name} {key}" := by
  have hname := no_break_name command
  refine ⟨.of_bare hvalue hkey.word hfits, ?_, ?_⟩
  · simp [toString, hname.1, hkey.no_lineFeed]
  · simp [toString, hname.2, hkey.no_return]

theorem carries_valued (hvalue : command.takesValue = true) (hkey : IsToken key)
    (hfits : KeyFits key) (htoken : IsToken value) :
    Carries { command, key, value? := some value } s!"{command.name} {key} {value}" := by
  have hname := no_break_name command
  refine ⟨.of_valued hvalue hkey.word hfits htoken.word, ?_, ?_⟩
  · simp [toString, hname.1, hkey.no_lineFeed, htoken.no_lineFeed]
  · simp [toString, hname.2, hkey.no_return, htoken.no_return]

end

theorem exists_of_bind_eq_ok {ε α β : Type} {first : Except ε α} {next : α → Except ε β} {result : β}
    (h : first >>= next = .ok result) : ∃ a, first = .ok a ∧ next a = .ok result := by
  cases first with
  | error e => cases h
  | ok a => exact ⟨a, rfl, h⟩

/-- A call that passes its checks sends a line that carries its request. -/
theorem carries_of_line_eq_ok {operation : Store.Operation} {line : String}
    (h : operation.call.line = .ok line) :
    Carries operation.request line ∧ ∀ value, operation.request.value? = some value → IsToken value := by
  cases operation with
  | insert key value | update key value =>
    obtain ⟨_, hkey, h⟩ := exists_of_bind_eq_ok h
    obtain ⟨_, hvalue, h⟩ := exists_of_bind_eq_ok h
    obtain ⟨hkey, hfits⟩ := checkKey_eq_ok_iff.1 hkey
    have hvalue := checkWord_eq_ok_iff.1 hvalue
    cases h
    refine ⟨carries_valued rfl hkey hfits hvalue, fun value' hvalue' => ?_⟩
    cases hvalue'
    exact hvalue
  | search key | delete key =>
    obtain ⟨_, hkey, h⟩ := exists_of_bind_eq_ok h
    obtain ⟨hkey, hfits⟩ := checkKey_eq_ok_iff.1 hkey
    cases h
    refine ⟨carries_bare rfl hkey hfits, fun value' hvalue' => ?_⟩
    cases hvalue'

end Client

end LineStore

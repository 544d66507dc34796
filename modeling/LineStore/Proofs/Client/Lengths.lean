import LineStore.Proofs.Client.Lines
import LineStore.Proofs.Wire.Framing

/-!
How long the line of a call may be.

The checks of a call look at each argument, not at the line that they make. A line that is too long is sent
all the same, and refused.
-/

namespace LineStore

namespace Responder

variable {σ : Type}

/-- A request for an operation is not refused as none, whatever the engine does. -/
theorem serveFrame_ne_invalidCommand (engine : Store.Engine σ) (latency : Span)
    (responder : Responder σ) {frame : Frame} {operation : Store.Operation}
    (h : readFrame frame = .request operation.request) :
    (responder.serveFrame engine latency frame).1 ≠ some .invalidCommand := by
  rw [serveFrame, answer, h]
  simp only [react, execute, operation.operation?_request]
  rcases engine operation responder.state with ⟨verdict, state⟩
  cases verdict with
  | done outcome =>
    have htold : Reply.ofOutcome outcome ≠ .invalidCommand := by
      intro hreply
      have hfine := Reply.isError_ofOutcome outcome
      rw [hreply] at hfine
      cases hfine
    simpa using htold
  | refused fault => simp
  | broken => simp

theorem serveFrame_of_invalid (engine : Store.Engine σ) (latency : Span) (responder : Responder σ)
    {frame : Frame} (h : readFrame frame = .invalid) :
    (responder.serveFrame engine latency frame).1 = some .invalidCommand := by
  rw [serveFrame, answer, h]
  rfl

end Responder

namespace Client

variable {operation : Store.Operation} {line : String}

/-! ### The length of a line -/

theorem length_of_line_eq_ok (h : operation.call.line = .ok line) :
    KeyFits operation.key ∧
      (Utf8.encode line ++ [lineFeed]).length =
        match operation.request.value? with
        | none => operation.request.command.name.utf8ByteSize + operation.key.utf8ByteSize + 2
        | some value =>
          operation.request.command.name.utf8ByteSize + operation.key.utf8ByteSize +
            value.utf8ByteSize + 3 := by
  have hspace : " ".utf8ByteSize = 1 := by decide
  rw [List.length_append, List.length_singleton, Utf8.length_encode]
  cases operation with
  | insert key value | update key value =>
    obtain ⟨_, hkey, h⟩ := exists_of_bind_eq_ok h
    obtain ⟨_, -, h⟩ := exists_of_bind_eq_ok h
    cases h
    refine ⟨(checkKey_eq_ok_iff.1 hkey).2, ?_⟩
    simp only [toString, String.utf8ByteSize_append, hspace, Store.Operation.request, Store.Operation.key]
    omega
  | search key | delete key =>
    obtain ⟨_, hkey, h⟩ := exists_of_bind_eq_ok h
    cases h
    refine ⟨(checkKey_eq_ok_iff.1 hkey).2, ?_⟩
    simp only [toString, String.utf8ByteSize_append, hspace, Store.Operation.request, Store.Operation.key]
    omega

/-- A line has room for a value of which the octets, with those of the key, leave nine for the rest. -/
theorem length_le_iff_of_line_eq_ok (h : operation.call.line = .ok line) :
    (Utf8.encode line ++ [lineFeed]).length ≤ maxLineBytes ↔
      ∀ value, operation.request.value? = some value →
        operation.key.utf8ByteSize + value.utf8ByteSize + 9 ≤ maxLineBytes := by
  obtain ⟨hfits, hlength⟩ := length_of_line_eq_ok h
  rw [hlength]
  rw [KeyFits] at hfits
  cases operation with
  | insert key value | update key value =>
    have hname : Command.create.name.utf8ByteSize = 6 ∧ Command.update.name.utf8ByteSize = 6 := by decide
    simp only [Store.Operation.request, Option.some.injEq, forall_eq', hname]
    omega
  | search key | delete key =>
    have hname : Command.read.name.utf8ByteSize = 4 ∧ Command.delete.name.utf8ByteSize = 6 := by decide
    simp only [Store.Operation.request, hname, reduceCtorEq, false_implies, implies_true, iff_true]
    exact Nat.le_trans (Nat.add_le_add_right (Nat.add_le_add_left hfits _) 2) (by decide)

/-! ### What the server makes of a line -/

theorem frames_of_line_eq_ok (h : operation.call.line = .ok line) :
    (Framer.push {} (Utf8.encode line ++ [lineFeed])).drain.1 =
      [.ofLine (Utf8.encode line ++ [lineFeed])] := by
  have hcut : (Utf8.encode line ++ [lineFeed]).cutLine? = some (Utf8.encode line ++ [lineFeed], []) :=
    Bytes.cutLine?_append_lineFeed [] fun hmem =>
      (carries_of_line_eq_ok h).1.no_lineFeed (Utf8.lineFeed_mem_encode.1 hmem)
  rw [(Framer.push _ _).drain_spec.1, Framer.rested_empty, Frame.ofStream_of_cutLine?_eq_some hcut]
  rfl

theorem line_read_iff (h : operation.call.line = .ok line) :
    (Framer.push {} (Utf8.encode line ++ [lineFeed])).drain.1 = [.line (Utf8.encode line ++ [lineFeed])] ∧
      Request.read (Utf8.encode line ++ [lineFeed]) = .request operation.request ↔
    (Utf8.encode line ++ [lineFeed]).length ≤ maxLineBytes := by
  rw [frames_of_line_eq_ok h]
  constructor
  · rintro ⟨hline, -⟩
    rw [List.singleton_inj, Frame.ofLine] at hline
    split at hline
    · assumption
    · cases hline
  · intro hlength
    exact ⟨by rw [Frame.ofLine_of_length_le hlength], (carries_of_line_eq_ok h).1.read_eq hlength⟩

theorem line_refused_iff {σ : Type} (engine : Store.Engine σ) (latency : Span)
    (responder : Responder σ) (h : operation.call.line = .ok line) :
    (responder.serveFrame engine latency (.ofLine (Utf8.encode line ++ [lineFeed]))).1 =
        some .invalidCommand ↔
      maxLineBytes < (Utf8.encode line ++ [lineFeed]).length := by
  rcases Nat.lt_or_ge maxLineBytes (Utf8.encode line ++ [lineFeed]).length with hlong | hlength
  · rw [Frame.ofLine_of_lt_length hlong]
    exact ⟨fun _ => hlong, fun _ => Responder.serveFrame_of_invalid engine latency responder rfl⟩
  · have hread : Responder.readFrame (.line (Utf8.encode line ++ [lineFeed])) =
        .request operation.request := (carries_of_line_eq_ok h).1.read_eq hlength
    rw [Frame.ofLine_of_length_le hlength]
    refine ⟨fun hrefused => absurd hrefused ?_, fun hlong => absurd hlength (Nat.not_le.2 hlong)⟩
    exact Responder.serveFrame_ne_invalidCommand engine latency responder hread

/-- The line of a call that passes its checks is one frame, and is read as the request of the call, just when
it is not too long. For a call without a value this is always so; otherwise it depends on the octets of the key
and the value together, which no check looks at. A line that is too long is the only one that is refused as no
request. -/
theorem line_read_iff_length_le (h : operation.call.line = .ok line) :
    let octets := Utf8.encode line ++ [lineFeed]
    let frames := (Framer.push {} octets).drain.1
    (frames = [.line octets] ∧ Request.read octets = .request operation.request ↔
      octets.length ≤ maxLineBytes) ∧
    (octets.length ≤ maxLineBytes ↔ ∀ value, operation.request.value? = some value →
      operation.key.utf8ByteSize + value.utf8ByteSize + 9 ≤ maxLineBytes) ∧
    ∃ frame, frames = [frame] ∧
      ∀ (σ : Type) (engine : Store.Engine σ) (latency : Span) (responder : Responder σ),
        (responder.serveFrame engine latency frame).1 = some .invalidCommand ↔
          maxLineBytes < octets.length :=
  ⟨line_read_iff h, length_le_iff_of_line_eq_ok h, _, frames_of_line_eq_ok h,
    fun _ engine latency responder => line_refused_iff engine latency responder h⟩

/-! ### The longest value -/

theorem isToken_letters {n : Nat} (hn : 0 < n) : IsToken (String.ofList (List.replicate n 'v')) where
  word := ⟨by simp [Nat.ne_of_gt hn], by simp⟩
  no_lineFeed := by simp
  no_return := by simp

theorem utf8ByteSize_letters (n : Nat) : (String.ofList (List.replicate n 'v')).utf8ByteSize = n := by
  induction n with
  | zero => rfl
  | succ n ih =>
    rw [List.replicate_succ', String.ofList_append, String.utf8ByteSize_append, ih]
    rfl

theorem line_insert_letters {key : String} (hkey : IsToken key) (hfits : KeyFits key) {n : Nat}
    (hn : 0 < n) :
    ∃ line, (Store.Operation.insert key (String.ofList (List.replicate n 'v'))).call.line = .ok line := by
  rw [Store.Operation.call, Call.line, checkKey_eq_ok_iff.2 ⟨hkey, hfits⟩,
    checkWord_eq_ok_iff.2 (isToken_letters hn)]
  exact ⟨_, rfl⟩

/-- The longest value that can be stored under a key of one letter. -/
theorem line_read_iff_length_le_longest :
    ∃ line, (Store.Operation.insert "k" (String.ofList (List.replicate 4086 'v'))).call.line = .ok line ∧
      Request.read (Utf8.encode line ++ [lineFeed]) =
        .request (Store.Operation.insert "k" (String.ofList (List.replicate 4086 'v'))).request := by
  have hkey : IsToken "k" := ⟨⟨by decide, by decide⟩, by decide, by decide⟩
  obtain ⟨line, hline⟩ := line_insert_letters hkey (by decide) (n := 4086) (by decide)
  obtain ⟨hread, hroom, -⟩ := line_read_iff_length_le hline
  refine ⟨line, hline, (hread.2 (hroom.2 fun value hvalue => ?_)).2⟩
  rw [← Option.some.inj hvalue, utf8ByteSize_letters]
  decide

/-- A value of one octet more passes the checks, and the line is lost on its way. -/
theorem not_line_read_overlong :
    ∃ line, (Store.Operation.insert "k" (String.ofList (List.replicate 4087 'v'))).call.line = .ok line ∧
      (Framer.push {} (Utf8.encode line ++ [lineFeed])).drain.1 = [.overlong] ∧
      ∀ responder : Responder Store,
        (responder.serveFrame Store.engine {} .overlong).1 = some .invalidCommand := by
  have hkey : IsToken "k" := ⟨⟨by decide, by decide⟩, by decide, by decide⟩
  obtain ⟨line, hline⟩ := line_insert_letters hkey (by decide) (n := 4087) (by decide)
  have hlong : maxLineBytes < (Utf8.encode line ++ [lineFeed]).length := by
    refine Nat.not_le.1 fun hlength => ?_
    have hroom := (length_le_iff_of_line_eq_ok hline).1 hlength _ rfl
    rw [utf8ByteSize_letters] at hroom
    exact absurd hroom (by decide)
  refine ⟨line, hline, ?_, fun responder => ?_⟩
  · rw [frames_of_line_eq_ok hline, Frame.ofLine_of_lt_length hlong]
  · exact Responder.serveFrame_of_invalid Store.engine {} responder rfl

end Client

end LineStore

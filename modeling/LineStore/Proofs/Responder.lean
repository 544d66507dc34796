import LineStore.Proofs.Wire.Requests
import LineStore.Responder
import LineStore.Store.Contents

/-!
A responder answers the request for an operation with what the operation comes to.
-/

namespace LineStore

namespace Store

/-! ### Operations as requests -/

def Operation.request : Operation → Request
  | insert key value => { command := .create, key, value? := some value }
  | search key => { command := .read, key, value? := none }
  | update key value => { command := .update, key, value? := some value }
  | delete key => { command := .delete, key, value? := none }

theorem Operation.operation?_request (operation : Operation) :
    operation.request.operation? = .ok operation := by
  cases operation <;> rfl

theorem Operation.key_request (operation : Operation) : operation.request.key = operation.key := by
  cases operation <;> rfl

theorem Operation.isSome_value?_request (operation : Operation) :
    operation.request.value?.isSome = operation.request.command.takesValue := by
  cases operation <;> rfl

/-- A request that has a value just when its command takes one is a request for an operation. -/
theorem exists_eq_request {request : Request}
    (h : request.value?.isSome = request.command.takesValue) :
    ∃ operation : Operation, request = operation.request := by
  obtain ⟨command, key, value?⟩ := request
  cases value? with
  | none =>
    cases command with
    | read => exact ⟨.search key, rfl⟩
    | delete => exact ⟨.delete key, rfl⟩
    | create | update => cases h
  | some value =>
    cases command with
    | create => exact ⟨.insert key value, rfl⟩
    | update => exact ⟨.update key value, rfl⟩
    | read | delete => cases h

namespace Contents

variable (contents : Contents) (operation : Operation)

/-- An operation leaves contents as they are, or gives its key the value of its request. -/
theorem perform_cases :
    (contents.perform operation).2 = contents ∨
      (contents.perform operation).2 = contents.set operation.key operation.request.value? := by
  cases operation with
  | search key => exact .inl rfl
  | insert key value =>
    cases hkey : contents key with
    | none => exact .inr (by simp only [perform, hkey]; rfl)
    | some old => exact .inl (by simp only [perform, hkey])
  | update key value | delete key =>
    cases hkey : contents key with
    | none => exact .inl (by simp only [perform, hkey])
    | some old => exact .inr (by simp only [perform, hkey]; rfl)

/-- A key has a value afterwards only if it had it before or the operation brought the two. -/
theorem eq_some_or_key_of_perform {key value : String}
    (h : (contents.perform operation).2 key = some value) :
    contents key = some value ∨ key = operation.key ∧ operation.request.value? = some value := by
  rcases contents.perform_cases operation with hsame | hset
  · rw [hsame] at h
    exact .inl h
  · rw [hset, set] at h
    split at h
    · rename_i hkey
      exact .inr ⟨hkey, h⟩
    · exact .inl h

theorem eq_some_or_of_perform {key value : String}
    (h : (contents.perform operation).2 key = some value) :
    contents key = some value ∨ operation.request.value? = some value :=
  (contents.eq_some_or_key_of_perform operation h).imp_right And.right

/-- The reply tells a status that the command can receive, or the value of the key that was read. -/
theorem ofOutcome_perform_cases :
    Reply.ofOutcome (contents.perform operation).1 ∈ Reply.statuses operation.request.command ∨
      operation.request.command = .read ∧ ∃ value, contents operation.key = some value ∧
        Reply.ofOutcome (contents.perform operation).1 = .value value := by
  cases operation with
  | search key =>
    cases hkey : contents key with
    | none =>
      exact .inl (by simp [perform, hkey, Reply.ofOutcome, Operation.request, Reply.statuses])
    | some value => exact .inr ⟨rfl, value, hkey, by simp [perform, hkey, Reply.ofOutcome]⟩
  | insert key value | update key value | delete key =>
    refine .inl ?_
    cases hkey : contents key <;>
      simp [perform, hkey, Reply.ofOutcome, Operation.request, Reply.statuses]

end Contents

end Store

/-- A request that is read from a buffer is one for an operation. -/
theorem Request.exists_operation_of_read {buffer : Bytes} {request : Request}
    (h : read buffer = .request request) : ∃ operation : Store.Operation, request = operation.request := by
  obtain ⟨body, hbody⟩ := exists_readBody_of_read h
  obtain ⟨text, -, hspells⟩ := exists_spells_of_readBody hbody
  exact Store.exists_eq_request hspells.isSome_value?

theorem Reply.isError_ofOutcome (outcome : Store.Outcome) : (ofOutcome outcome).isError = false := by
  cases outcome with
  | search value? => cases value? <;> rfl
  | insert told | update told | delete told => cases told <;> rfl

/-! ### Statuses -/

/-- What can come to a request of a command, apart from the values: that it is refused, that the engine had a
fault, or what an operation that is asked for by this command answers on some contents. -/
inductive Reply.MayAnswer (command : Command) : Reply → Prop where
  | refused : MayAnswer command .invalidCommand
  | failed : MayAnswer command .internalError
  | told {status : Reply} (contents : Store.Contents) (operation : Store.Operation) :
      operation.request.command = command → ofOutcome (contents.perform operation).1 = status →
      (∀ text, status ≠ .value text) → MayAnswer command status

theorem Reply.mem_statuses_iff {command : Command} {status : Reply} :
    status ∈ statuses command ↔ MayAnswer command status := by
  constructor
  · intro h
    cases command with
    | create =>
      simp only [statuses, List.mem_cons, List.not_mem_nil, or_false] at h
      rcases h with rfl | rfl | rfl | rfl
      · exact .refused
      · exact .failed
      · exact .told .empty (.insert "" "") rfl rfl (by simp)
      · exact .told (fun _ => some "") (.insert "" "") rfl rfl (by simp)
    | read =>
      simp only [statuses, List.mem_cons, List.not_mem_nil, or_false] at h
      rcases h with rfl | rfl | rfl
      · exact .refused
      · exact .failed
      · exact .told .empty (.search "") rfl rfl (by simp)
    | update =>
      simp only [statuses, List.mem_cons, List.not_mem_nil, or_false] at h
      rcases h with rfl | rfl | rfl | rfl
      · exact .refused
      · exact .failed
      · exact .told .empty (.update "" "") rfl rfl (by simp)
      · exact .told (fun _ => some "") (.update "" "") rfl rfl (by simp)
    | delete =>
      simp only [statuses, List.mem_cons, List.not_mem_nil, or_false] at h
      rcases h with rfl | rfl | rfl | rfl
      · exact .refused
      · exact .failed
      · exact .told .empty (.delete "") rfl rfl (by simp)
      · exact .told (fun _ => some "") (.delete "") rfl rfl (by simp)
  · intro h
    cases h with
    | refused | failed => cases command <;> simp [statuses]
    | told contents operation hcommand hreply hstatus =>
      subst hcommand hreply
      rcases contents.ofOutcome_perform_cases operation with hmem | ⟨-, value, -, hvalue⟩
      · exact hmem
      · exact absurd hvalue (hstatus value)

namespace Responder

/-- What is replied to a frame over a reaction. -/
def replyOf : Reaction → Option Reply
  | .reply reply => some reply
  | .wait => some .invalidCommand
  | .breakdown => none

theorem serveFrame_eq {σ : Type} (engine : Store.Engine σ) (latency : Span) (frame : Frame)
    (responder : Responder σ) :
    responder.serveFrame engine latency frame =
      let reacted := react engine (readFrame frame) responder.state
      (replyOf reacted.1,
        { state := reacted.2
          counters := (events latency reacted.1).foldl .record responder.counters }) := by
  rw [serveFrame, answer]
  cases react engine (readFrame frame) responder.state with
  | mk reaction state => cases reaction <;> rfl

/-- The store behind a responder carries out what a frame asks for, and the reply tells the outcome. -/
theorem serveFrame_of_readFrame {frame : Frame} {operation : Store.Operation} (latency : Span)
    (responder : Responder Store) (h : readFrame frame = .request operation.request) :
    responder.serveFrame Store.engine latency frame =
      let reply := Reply.ofOutcome (responder.state.perform operation).1
      (some reply,
        { state := (responder.state.perform operation).2
          counters := (events latency (.reply reply)).foldl .record responder.counters }) := by
  rw [serveFrame, answer, h]
  simp only [react, execute, operation.operation?_request, Store.engine]

theorem exists_operation_of_readFrame {frame : Frame} {request : Request}
    (h : readFrame frame = .request request) :
    ∃ operation : Store.Operation, request = operation.request := by
  cases frame with
  | overlong => cases h
  | line bytes => exact Request.exists_operation_of_read h

/-- A frame asks for an operation, or it is refused whatever is stored. -/
theorem serveFrame_cases (frame : Frame) :
    (∃ operation : Store.Operation, readFrame frame = .request operation.request ∧
        ∀ (latency : Span) (responder : Responder Store), ∃ counters,
          responder.serveFrame Store.engine latency frame =
            (some (.ofOutcome (responder.state.perform operation).1),
              { state := (responder.state.perform operation).2, counters })) ∨
      (∀ request, readFrame frame ≠ .request request) ∧
        ∀ (latency : Span) (responder : Responder Store), ∃ counters,
          responder.serveFrame Store.engine latency frame =
            (some .invalidCommand, { state := responder.state, counters }) := by
  cases hread : readFrame frame with
  | request request =>
    obtain ⟨operation, rfl⟩ := exists_operation_of_readFrame hread
    exact .inl ⟨operation, rfl, fun latency responder =>
      ⟨_, serveFrame_of_readFrame latency responder hread⟩⟩
  | incomplete | invalid =>
    refine .inr ⟨fun request => by simp, fun latency responder => ?_⟩
    rw [serveFrame, answer, hread]
    exact ⟨_, rfl⟩

end Responder

end LineStore

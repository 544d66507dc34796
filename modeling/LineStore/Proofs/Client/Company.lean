import LineStore.Proofs.Client.Answers
import LineStore.Proofs.Store.Refinement

/-!
Clients of one server see one map from keys to values.

Between two calls the server is at rest, nothing is left to read, and every stored value is one that a
client may send. A call keeps this, and answers what the map answers.
-/

namespace LineStore

namespace Store.Contents

/-- What contents answer to a client that asks for an operation. The client may refuse to ask. -/
def answer (contents : Contents) (operation : Operation) :
    Except Client.Failure Client.Answer × Contents :=
  match operation.call.line with
  | .error failure => (.error failure, contents)
  | .ok _ =>
    let (outcome, contents) := contents.perform operation
    (.ok (.reply (.ofOutcome outcome)), contents)

/-- The answers to clients that ask for one operation after another, and the contents after them. -/
def answerAll (contents : Contents) :
    List Operation → List (Except Client.Failure Client.Answer) × Contents
  | [] => ([], contents)
  | operation :: rest =>
    let (answer, contents) := contents.answer operation
    let (answers, contents) := contents.answerAll rest
    (answer :: answers, contents)

end Store.Contents

namespace Client

namespace Company

variable {company : Company Store} {next : Visit} {operation : Store.Operation}

def contents (company : Company Store) : Store.Contents :=
  company.gathering.responder.state.contents

/-- What holds between two calls. -/
structure Settled (company : Company Store) : Prop where
  atRest : company.gathering.AtRest
  unread : ∀ octets ∈ company.unread, octets = []
  sound : company.gathering.responder.state.Sound
  tokens : ∀ key value, company.contents key = some value → IsToken value

theorem Settled.unread_eq (h : company.Settled) (client : Nat) :
    company.unread[client]?.getD [] = [] := by
  cases hclient : company.unread[client]? with
  | none => rfl
  | some octets => exact h.unread octets (List.mem_of_getElem? hclient)

theorem Settled.unread_set (h : company.Settled) (client : Nat) :
    ∀ octets ∈ company.unread.set client [], octets = [] := by
  intro octets hmem
  rcases List.mem_or_eq_of_mem_set hmem with hold | hnew
  · exact h.unread octets hold
  · exact hnew

theorem Settled.visit_of_error (h : company.Settled) (latency : Span) {failure : Failure}
    (hline : next.call.line = .error failure) :
    company.visit Store.engine latency next =
      (.error failure, { company with unread := company.unread.set next.client [] }) := by
  simp only [Company.visit, Link.call_of_error hline, h.unread_eq]

theorem Settled.visit_of_ok (h : company.Settled) (latency : Span) {line : String}
    (hclient : next.client < company.gathering.guests.length) (hwhole : next.Whole)
    (hcall : next.call = operation.call) (hline : next.call.line = .ok line)
    (hlength : (Utf8.encode line ++ [lineFeed]).length ≤ maxLineBytes) :
    ∃ after : Server.Gathering Store,
      company.visit Store.engine latency next =
        (.ok (.reply (.ofOutcome (company.contents.perform operation).1)),
          { gathering := after, unread := company.unread.set next.client [] }) ∧
      after.responder.state = (company.gathering.responder.state.perform operation).2 ∧
      after.guests.length = company.gathering.guests.length ∧ after.AtRest := by
  have hcarries := (carries_of_line_eq_ok (hcall ▸ hline)).1
  obtain ⟨after, hpeer, hafter⟩ :=
    serverPeer_of_carries latency h.atRest hclient hwhole hcarries hlength
  obtain ⟨hread, hinterpret⟩ := reads_ofOutcome company.contents operation fun value => h.tokens _ value
  rw [(h.sound.perform operation).1] at hpeer
  refine ⟨after, ?_, hafter⟩
  simp only [Company.visit, h.unread_eq]
  rw [Link.call_of_ok hline hpeer hread, hcall, hinterpret]

/-- One call: the answer is that of the map, the store follows the map, and all is settled again. -/
theorem Settled.visit (h : company.Settled) (latency : Span)
    (hclient : next.client < company.gathering.guests.length) (hwhole : next.Whole)
    (hcall : next.call = operation.call)
    (hlength : ∀ line, next.call.line = .ok line →
      (Utf8.encode line ++ [lineFeed]).length ≤ maxLineBytes) :
    ∃ after : Company Store,
      company.visit Store.engine latency next = ((company.contents.answer operation).1, after) ∧
      after.contents = (company.contents.answer operation).2 ∧
      after.gathering.guests.length = company.gathering.guests.length ∧ after.Settled := by
  cases hline : next.call.line with
  | error failure =>
    rw [Store.Contents.answer, ← hcall, hline]
    refine ⟨_, h.visit_of_error latency hline, rfl, rfl, ?_⟩
    exact { h with unread := h.unread_set next.client }
  | ok line =>
    obtain ⟨after, hvisit, hstate, hsize, hrest⟩ :=
      h.visit_of_ok latency hclient hwhole hcall hline (hlength line hline)
    obtain ⟨-, hcontents, hsound⟩ := h.sound.perform operation
    have hvalues := (carries_of_line_eq_ok (hcall ▸ hline)).2
    rw [Store.Contents.answer, ← hcall, hline]
    have hafter : after.responder.state.contents = (company.contents.perform operation).2 := by
      rw [hstate]
      exact hcontents
    refine ⟨_, hvisit, hafter, hsize, hrest, h.unread_set next.client, hstate ▸ hsound, ?_⟩
    intro key value hvalue
    have hperform : (company.contents.perform operation).2 key = some value := hafter ▸ hvalue
    rcases Store.Contents.eq_some_or_of_perform _ _ hperform with hold | hnew
    · exact h.tokens key value hold
    · exact hvalues value hnew

/-! ### Runs -/

theorem Settled.visitAll (h : company.Settled) (latency : Span) {visits : List Visit}
    {operations : List Store.Operation}
    (hcalls : visits.map (·.call.operation?) = operations.map some)
    (hclients : ∀ visit ∈ visits, visit.client < company.gathering.guests.length)
    (hwhole : ∀ visit ∈ visits, visit.Whole)
    (hlength : ∀ visit ∈ visits, ∀ line, visit.call.line = .ok line →
      (Utf8.encode line ++ [lineFeed]).length ≤ maxLineBytes) :
    let result := company.visitAll Store.engine latency visits
    result.1 = (company.contents.answerAll operations).1 ∧
      result.2.contents = (company.contents.answerAll operations).2 := by
  induction visits generalizing company operations with
  | nil =>
    cases operations with
    | nil => exact ⟨rfl, rfl⟩
    | cons operation operations => cases hcalls
  | cons next visits ih =>
    cases operations with
    | nil => cases hcalls
    | cons operation operations =>
      rw [List.map_cons, List.map_cons, List.cons.injEq] at hcalls
      have hcall := Store.Operation.eq_call_of_operation?_eq_some hcalls.1
      obtain ⟨hclient, hclients⟩ := List.forall_mem_cons.1 hclients
      obtain ⟨hnext, hwhole⟩ := List.forall_mem_cons.1 hwhole
      obtain ⟨hfits, hlength⟩ := List.forall_mem_cons.1 hlength
      obtain ⟨middle, hvisit, hmiddle, hsize, hsettled⟩ := h.visit latency hclient hnext hcall hfits
      rw [← hsize] at hclients
      have hrest := ih hsettled hcalls.2 hclients hwhole hlength
      rw [hmiddle] at hrest
      simp only [Company.visitAll, Store.Contents.answerAll, hvisit]
      exact ⟨congrArg _ hrest.1, hrest.2⟩

end Company

end Client

end LineStore

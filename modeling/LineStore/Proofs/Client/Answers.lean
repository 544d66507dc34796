import LineStore.Proofs.Client.Lines
import LineStore.Proofs.Client.Reading
import LineStore.Proofs.Server.Arrivals
import LineStore.Proofs.Wire.Replies

/-!
What a call of a client reads back from the server is the reply that the server wrote.
-/

namespace LineStore.Client

/-! ### One reply -/

/-- The reply to an operation comes back as one line, and means to the client what it means, if the
values in the store are tokens. -/
theorem reads_ofOutcome (contents : Store.Contents) (operation : Store.Operation)
    (htokens : ∀ value, contents operation.key = some value → IsToken value) :
    let reply := Reply.ofOutcome (contents.perform operation).1
    readLine reply.encode = (.ok reply.text, []) ∧
      operation.call.interpret reply.text = .ok (.reply reply) := by
  intro reply
  suffices h : ('\n' ∉ reply.text.toList ∧ '\r' ∉ reply.text.toList) ∧
      Reply.decode operation.request.command reply.text = .ok reply by
    obtain ⟨⟨hfeed, hreturn⟩, hdecode⟩ := h
    refine ⟨?_, ?_⟩
    · rw [Reply.encode, readLine_append_lineFeed [] hfeed, trimLineEnd_eq_self hfeed hreturn]
    simp only [Call.interpret, operation.command?_call, hdecode]
    rfl
  rcases contents.ofOutcome_perform_cases operation with hstatus | ⟨hread, value, hvalue, hreply⟩
  · exact ⟨Reply.no_break_text _ hstatus, Reply.decode_of_mem_statuses hstatus⟩
  · have htoken := htokens value hvalue
    have heq : reply = .value value := hreply
    rw [heq, hread]
    exact ⟨⟨htoken.no_lineFeed, htoken.no_return⟩, Reply.decode_read_of_isWord htoken.word⟩

/-! ### One exchange -/

section

variable {gathering : Server.Gathering Store} {number : Nat} {guest : Server.Guest}
  {cut : Bytes → List Bytes} {operation : Store.Operation} {line : String} (latency : Span)
  (hguest : gathering.guests[number]? = some guest) (hcut : ∀ octets, (cut octets).flatten = octets)
  (hline : Carries operation.request line)
  (hlength : (Utf8.encode line ++ [lineFeed]).length ≤ maxLineBytes)
include hguest hcut hline hlength

/-- The line of an operation that reaches a server, in whatever pieces, is carried out and answered at once, if
nothing else is on its way on this connection. -/
theorem serverPeer_of_open (hopen : guest.ending? = none) (hrested : guest.framer.Rested) :
    let reply := Reply.ofOutcome (gathering.responder.state.perform operation).1
    ∃ (framer : Framer) (responder : Responder Store), framer.Rested ∧
      responder.state = (gathering.responder.state.perform operation).2 ∧
      serverPeer Store.engine latency number cut (Utf8.encode line ++ [lineFeed]) gathering =
        (reply.encode, gathering.record number guest framer { written := reply.encode, responder }) := by
  have hread := hline.read_eq hlength
  have hstays : ¬ (Frame.line (Utf8.encode line ++ [lineFeed])).AsksToClose := by
    intro hbare
    rw [Request.read_of_isBareLine hbare] at hread
    cases hread
  obtain ⟨responder, hserve, hstate⟩ : ∃ responder : Responder Store,
      gathering.responder.serveFrame Store.engine latency (.line (Utf8.encode line ++ [lineFeed])) =
        (some (.ofOutcome (gathering.responder.state.perform operation).1), responder) ∧
      responder.state = (gathering.responder.state.perform operation).2 :=
    ⟨_, Responder.serveFrame_of_readFrame latency gathering.responder hread, rfl⟩
  obtain ⟨framer, hframer, hafter⟩ := Server.Gathering.receiveAll_line hguest (hcut _)
    (fun hmem => hline.no_lineFeed (Utf8.lineFeed_mem_encode.1 hmem)) hlength hstays hserve hopen hrested
  have hbefore : gathering.heard number = guest.heard := by
    rw [Server.Gathering.heard, hguest]
    rfl
  refine ⟨framer, responder, hframer, hstate, ?_⟩
  simp only [serverPeer, hafter, Server.Gathering.heard_record hguest, hbefore, List.drop_left]

end

theorem serverPeer_of_carries {gathering : Server.Gathering Store} {number : Nat}
    {cut : Bytes → List Bytes} {operation : Store.Operation} {line : String} (latency : Span)
    (h : gathering.AtRest) (hnumber : number < gathering.guests.length)
    (hcut : ∀ octets, (cut octets).flatten = octets) (hline : Carries operation.request line)
    (hlength : (Utf8.encode line ++ [lineFeed]).length ≤ maxLineBytes) :
    ∃ after : Server.Gathering Store,
      serverPeer Store.engine latency number cut (Utf8.encode line ++ [lineFeed]) gathering =
        ((Reply.ofOutcome (gathering.responder.state.perform operation).1).encode, after) ∧
      after.responder.state = (gathering.responder.state.perform operation).2 ∧
      after.guests.length = gathering.guests.length ∧ after.AtRest := by
  have hguest := List.getElem?_eq_getElem hnumber
  obtain ⟨hopen, hrested⟩ := h _ (List.getElem_mem hnumber)
  obtain ⟨framer, responder, hframer, hstate, hpeer⟩ :=
    serverPeer_of_open latency hguest hcut hline hlength hopen hrested
  exact ⟨_, hpeer, hstate, List.length_set, h.record number _ hframer rfl⟩

end LineStore.Client

import LineStore.Proofs.Server.Crews
import LineStore.Proofs.Server.Keeping

/-!
What a responder has in hand against frames that are no lines, and against requests that are no operations, is
never needed.

Framers and the reading of requests look for the end of a line in ways of their own. They agree on every frame
that is cut, so each of them is counted as a request, and a store has an answer to each.
-/

namespace LineStore

namespace Framer

theorem Run.whole {stream : Bytes} {frames : List Frame} {framer : Framer} (h : Run stream frames framer) :
    ∀ frame ∈ frames, frame.Whole := by
  induction h with
  | start => exact fun _ hframe => absurd hframe List.not_mem_nil
  | push bytes _ ih => exact ih
  | next _ ih =>
    intro frame hframe
    rcases List.mem_append.1 hframe with hold | hnew
    · exact ih frame hold
    · exact whole_of_next (Option.mem_toList.1 hnew)

end Framer

/-- A text that is read as the reply that it is the text of does not stand for a fault besides. -/
theorem Reply.text_ne_of_decode {command : Command} {reply : Reply} (hreply : reply ≠ .internalError)
    (hdecode : decode command reply.text = .ok reply) : reply.text ≠ internalError.text := by
  intro htext
  have hstatus : internalError ∈ statuses command := by cases command <;> simp [statuses]
  rw [htext, decode_of_mem_statuses hstatus] at hdecode
  exact hreply (Except.ok.inj hdecode).symm

namespace Responder

variable {σ : Type} {engine : Store.Engine σ} {frame : Frame}

theorem answer_ne_wait (h : frame.Whole) (latency : Span) (responder : Responder σ) :
    (responder.answer engine latency (readFrame frame)).1 ≠ .wait := by
  have hreact : react engine (readFrame frame) responder.state ≠
      (.wait, (react engine (readFrame frame) responder.state).2) :=
    react_ne_wait (readFrame_ne_incomplete h)
  exact fun hwait => hreact (Prod.ext hwait rfl)

/-- A whole frame is counted as one request, whatever comes of it. -/
theorem requests_serveFrame (h : frame.Whole) (latency : Span) (responder : Responder σ) :
    (responder.serveFrame engine latency frame).2.counters.requests =
      responder.counters.requests + 1 := by
  have hanswer : (responder.answer engine latency (readFrame frame)).1 ≠ .wait :=
    answer_ne_wait h latency responder
  rw [answer] at hanswer
  rw [serveFrame, answer]
  cases hreact : react engine (readFrame frame) responder.state with
  | mk reaction state =>
    rw [hreact] at hanswer
    cases reaction with
    | wait => exact absurd rfl hanswer
    | breakdown => rfl
    | reply reply =>
      simp only [events]
      cases reply.isError <;> rfl

theorem ofOutcome_ne_internalError (outcome : Store.Outcome) :
    Reply.ofOutcome outcome ≠ .internalError := by
  intro hreply
  have hfine := Reply.isError_ofOutcome outcome
  rw [hreply] at hfine
  cases hfine

/-- A store has an answer to every frame. -/
theorem serveFrame_ne_internalError (responder : Responder Store) (frame : Frame) (latency : Span) :
    ∃ reply after, responder.serveFrame Store.engine latency frame = (some reply, after) ∧
      reply ≠ .internalError := by
  rcases serveFrame_cases frame with ⟨operation, -, hserve⟩ | ⟨-, hserve⟩
  · obtain ⟨counters, heq⟩ := hserve latency responder
    exact ⟨_, _, heq, ofOutcome_ne_internalError _⟩
  · obtain ⟨counters, heq⟩ := hserve latency responder
    exact ⟨_, _, heq, by simp⟩

/-- What was stored through frames is no text of a fault either. -/
theorem Tidy.serveFrame_ne_text {responder : Responder Store} (h : responder.Tidy) (hwhole : frame.Whole)
    (latency : Span) :
    ∃ reply after, responder.serveFrame Store.engine latency frame = (some reply, after) ∧
      reply.text ≠ Reply.internalError.text ∧ after.Tidy := by
  rcases serveFrame_cases frame with ⟨operation, hread, hserve⟩ | ⟨-, hserve⟩
  · obtain ⟨counters, heq⟩ := hserve latency responder
    exact ⟨_, _, heq, Reply.text_ne_of_decode (ofOutcome_ne_internalError _) (h.decode operation),
      h.perform hwhole hread counters⟩
  · obtain ⟨counters, heq⟩ := hserve latency responder
    exact ⟨_, _, heq, by decide, ⟨h.sound, h.stored⟩⟩

end Responder

namespace Server.Switchboard

/-- Every frame that a framer gives is read to its end, and what is read from it is a request for an operation or
nothing. So whoever serves it counts one request. A store, whatever is in it, answers no frame with a fault, and
if all that is in it has come in lines, no reply has the text of one. -/
theorem defences_idle :
    (∀ stream frames framer, Framer.Run stream frames framer →
      (∀ bytes, .line bytes ∈ frames → Request.read bytes ≠ .incomplete ∧
        ∀ request, Request.read bytes = .request request →
          request.value?.isSome = request.command.takesValue ∧
            ∃ operation, request.operation? = .ok operation) ∧
      ∀ frame ∈ frames, ∀ (σ : Type) (engine : Store.Engine σ) (latency : Span) (responder : Responder σ),
        (responder.answer engine latency (Responder.readFrame frame)).1 ≠ .wait ∧
          (responder.serveFrame engine latency frame).2.counters.requests =
            responder.counters.requests + 1) ∧
      (∀ (responder : Responder Store) (count : Nat) (signals : List Signal),
        ∀ exchange ∈ ((start responder count).actAll Store.engine signals).served,
          ∃ reply, exchange.2 = some reply ∧ reply ≠ .internalError) ∧
      ∀ (buckets : Nat) (hbuckets : 0 < buckets) (count : Nat) (signals : List Signal),
        ∀ exchange ∈
          ((start { state := Store.empty buckets hbuckets } count).actAll Store.engine signals).served,
          ∃ reply, exchange.2 = some reply ∧ reply.text ≠ Reply.internalError.text := by
  refine ⟨fun stream frames framer hrun => ⟨fun bytes hline => ⟨?_, fun request hread => ?_⟩, ?_⟩, ?_, ?_⟩
  · exact Responder.readFrame_ne_incomplete (hrun.whole _ hline)
  · obtain ⟨operation, rfl⟩ := Request.exists_operation_of_read hread
    exact ⟨operation.isSome_value?_request, operation, operation.operation?_request⟩
  · intro frame hframe σ engine latency responder
    have hwhole := hrun.whole frame hframe
    exact ⟨Responder.answer_ne_wait hwhole latency responder,
      Responder.requests_serveFrame hwhole latency responder⟩
  · intro responder count signals
    have hserve (responder : Responder Store) (frame : Frame) (latency : Span) :
        True → frame.Whole → ∃ reply after,
          responder.serveFrame Store.engine latency frame = (some reply, after) ∧
            reply ≠ .internalError ∧ True := by
      obtain ⟨reply, after, heq, hreply⟩ := responder.serveFrame_ne_internalError frame latency
      exact fun _ _ => ⟨reply, after, heq, hreply, trivial⟩
    exact (actAll_served _ _ hserve trivial (fun _ h => absurd h List.not_mem_nil) signals).2
  · intro buckets hbuckets count signals
    exact (actAll_served Responder.Tidy (fun reply => reply.text ≠ Reply.internalError.text)
      (fun _ _ latency htidy hwhole => htidy.serveFrame_ne_text hwhole latency)
      (Responder.tidy_empty hbuckets) (fun _ h => absurd h List.not_mem_nil) signals).2

/-- A line that is as long as a line may be, and one that asks for an operation. -/
theorem defences_idle_longest :
    ∃ full : Bytes, full.length = maxLineBytes ∧
      Framer.Run (full ++ Utf8.encode "CREATE k v\n") [.line full, .line (Utf8.encode "CREATE k v\n")] {} ∧
      Request.read full ≠ .incomplete ∧
      Request.read (Utf8.encode "CREATE k v\n") =
        .request { command := .create, key := "k", value? := some "v" } ∧
      (some "v").isSome = Command.create.takesValue ∧
      ∀ responder : Responder Store,
        (responder.serveFrame Store.engine {} (.line full)).2.counters.requests =
          responder.counters.requests + 1 := by
  obtain ⟨body, hlength, hbody⟩ : ∃ body : Bytes, body.length = maxLineBytes - 1 ∧ lineFeed ∉ body :=
    ⟨List.replicate (maxLineBytes - 1) 120, List.length_replicate, by simp [lineFeed]⟩
  have hfull : (body ++ [lineFeed]).length = maxLineBytes := by
    rw [List.length_append, hlength]
    rfl
  have hfirst : ({ pending := body ++ lineFeed :: Utf8.encode "CREATE k v\n" } : Framer).next =
      (some (.line (body ++ [lineFeed])), { pending := Utf8.encode "CREATE k v\n" }) := by
    simp [Framer.next, Framer.cut_of_cutLine?_eq_some (Bytes.cutLine?_append_lineFeed _ hbody),
      Frame.ofLine_of_length_le (Nat.le_of_eq hfull)]
  have hsecond : ({ pending := Utf8.encode "CREATE k v\n" } : Framer).next =
      (some (.line (Utf8.encode "CREATE k v\n")), {}) := by decide
  have hrun := Framer.Run.next (.next (.push (body ++ [lineFeed] ++ Utf8.encode "CREATE k v\n") .start))
  simp only [List.nil_append, Framer.push, List.append_assoc, List.singleton_append, hfirst, hsecond,
    Option.toList_some] at hrun
  obtain ⟨hlines, hframes⟩ := defences_idle.1 _ _ _ hrun
  have hread : Request.read (Utf8.encode "CREATE k v\n") =
      .request { command := .create, key := "k", value? := some "v" } := rfl
  refine ⟨body ++ [lineFeed], hfull, ?_, (hlines _ List.mem_cons_self).1, hread,
    ((hlines (Utf8.encode "CREATE k v\n") (by simp)).2 _ hread).1, fun responder => ?_⟩
  · rw [List.append_assoc]
    exact hrun
  · exact (hframes _ List.mem_cons_self Store Store.engine {} responder).2

end Server.Switchboard

end LineStore

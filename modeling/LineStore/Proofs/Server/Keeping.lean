import LineStore.Proofs.Responder
import LineStore.Proofs.Store.Census
import LineStore.Proofs.Wire.Framing
import LineStore.Proofs.Wire.Replies
import LineStore.Server.Switchboard

/-!
What is stored through framers was a word of a line once, and fits into the line of a reply.

The store checks nothing of this, and a reply is written as it stands. That every reply is one line, and is
read as what it is, rests on the frames and on how requests are read.
-/

namespace LineStore

/-! ### Replies -/

namespace Reply

/-- Whether a reply is written as one line that is not too long. -/
structure OneLine (reply : Reply) : Prop where
  count_eq : reply.encode.count lineFeed = 1
  last_eq : reply.encode.getLast? = some lineFeed
  length_le : reply.encode.length ≤ maxLineBytes

theorem oneLine_of_text {reply : Reply} (hfeed : '\n' ∉ reply.text.toList)
    (hlength : reply.text.utf8ByteSize < maxLineBytes) : reply.OneLine where
  count_eq := by
    rw [encode, List.count_append, List.count_eq_zero.2 fun hmem => hfeed (Utf8.lineFeed_mem_encode.1 hmem)]
    rfl
  last_eq := by rw [encode, List.getLast?_concat]
  length_le := by
    rw [encode, List.length_append, Utf8.length_encode]
    exact hlength

theorem oneLine_of_mem_statuses {command : Command} {reply : Reply} (h : reply ∈ statuses command) :
    reply.OneLine := by
  have hlength : ∀ command, ∀ reply ∈ statuses command, reply.text.utf8ByteSize < maxLineBytes := by
    intro command
    cases command <;> decide
  exact oneLine_of_text (no_break_text reply h).1 (hlength command reply h)

end Reply

/-- A value that has come in one line goes out in one. -/
theorem Storable.oneLine {value : String} (h : Storable (maxLineBytes - 10) value) :
    (Reply.value value).OneLine := by
  have hlength := h.length_le
  rw [Utf8.length_encode] at hlength
  exact Reply.oneLine_of_text h.no_lineFeed (Nat.lt_of_le_of_lt hlength (by decide))

namespace Responder

variable {frame : Frame} {responder : Responder Store}

/-- Whether everything that is stored could stand in a line. -/
structure Tidy (responder : Responder Store) : Prop where
  sound : responder.state.Sound
  stored : ∀ key value, responder.state.contents key = some value →
    Storable maxKeyBytes key ∧ Storable (maxLineBytes - 10) value

theorem tidy_empty {buckets : Nat} (hbuckets : 0 < buckets) :
    Tidy { state := Store.empty buckets hbuckets } := by
  refine ⟨Store.sound_empty hbuckets, fun key value h => ?_⟩
  rw [Store.contents_empty] at h
  cases h

theorem storable_of_readFrame (hwhole : frame.Whole) {request : Request}
    (h : readFrame frame = .request request) :
    Storable maxKeyBytes request.key ∧
      ∀ value, request.value? = some value → Storable (maxLineBytes - 10) value := by
  cases frame with
  | overlong => cases h
  | line bytes =>
    obtain ⟨body, rfl, hfeed, hlength⟩ := hwhole
    exact Request.storable_of_read hfeed hlength h

namespace Tidy

/-- A reply to a request is a status that its command can receive, or a value that was stored. -/
theorem reply_cases (h : responder.Tidy) (operation : Store.Operation) :
    Reply.ofOutcome (responder.state.perform operation).1 ∈ Reply.statuses operation.request.command ∨
      operation.request.command = .read ∧ ∃ value, Storable (maxLineBytes - 10) value ∧
        Reply.ofOutcome (responder.state.perform operation).1 = .value value := by
  rw [(h.sound.perform operation).1]
  rcases responder.state.contents.ofOutcome_perform_cases operation with hstatus | hvalue
  · exact .inl hstatus
  · obtain ⟨hread, value, hstored, hreply⟩ := hvalue
    exact .inr ⟨hread, value, (h.stored _ value hstored).2, hreply⟩

theorem oneLine (h : responder.Tidy) (operation : Store.Operation) :
    (Reply.ofOutcome (responder.state.perform operation).1).OneLine := by
  rcases h.reply_cases operation with hstatus | ⟨-, value, hvalue, hreply⟩
  · exact Reply.oneLine_of_mem_statuses hstatus
  · rw [hreply]
    exact hvalue.oneLine

theorem decode (h : responder.Tidy) (operation : Store.Operation) :
    let reply := Reply.ofOutcome (responder.state.perform operation).1
    Reply.decode operation.request.command reply.text = .ok reply := by
  rcases h.reply_cases operation with hstatus | ⟨hread, value, hvalue, hreply⟩
  · exact Reply.decode_of_mem_statuses hstatus
  · rw [hread, hreply]
    exact Reply.decode_read_of_isWord hvalue.isWord

theorem perform (h : responder.Tidy) (hwhole : frame.Whole) {operation : Store.Operation}
    (hread : readFrame frame = .request operation.request) (counters : Telemetry.Counters) :
    Tidy { state := (responder.state.perform operation).2, counters } := by
  obtain ⟨hkey, hvalue⟩ := storable_of_readFrame hwhole hread
  obtain ⟨-, hcontents, hsound⟩ := h.sound.perform operation
  refine ⟨hsound, fun key value hstored => ?_⟩
  rw [hcontents] at hstored
  rcases Store.Contents.eq_some_or_key_of_perform _ _ hstored with hold | ⟨rfl, hnew⟩
  · exact h.stored key value hold
  · exact ⟨operation.key_request ▸ hkey, hvalue value hnew⟩

/-- A whole frame is answered with one line, and leaves a store that is tidy. -/
theorem serveFrame (h : responder.Tidy) (hwhole : frame.Whole) (latency : Span) :
    ∃ reply after, responder.serveFrame Store.engine latency frame = (some reply, after) ∧
      reply.OneLine ∧ after.Tidy := by
  rcases serveFrame_cases frame with ⟨operation, hread, hserve⟩ | ⟨-, hserve⟩
  · obtain ⟨counters, heq⟩ := hserve latency responder
    exact ⟨_, _, heq, h.oneLine operation, h.perform hwhole hread counters⟩
  · obtain ⟨counters, heq⟩ := hserve latency responder
    have hline : Reply.invalidCommand.OneLine :=
      Reply.oneLine_of_mem_statuses (show .invalidCommand ∈ Reply.statuses .read from List.mem_cons_self)
    exact ⟨_, _, heq, hline, ⟨h.sound, h.stored⟩⟩

end Tidy

end Responder

namespace Server.Switchboard

/-- If serving a whole frame keeps something of a responder and gives a good reply, so do all signals. -/
theorem actAll_served {σ : Type} {engine : Store.Engine σ} (kept : Responder σ → Prop)
    (good : Reply → Prop)
    (hserve : ∀ (responder : Responder σ) (frame : Frame) (latency : Span),
      kept responder → frame.Whole →
        ∃ reply after, responder.serveFrame engine latency frame = (some reply, after) ∧
          good reply ∧ kept after)
    {board : Switchboard σ} (hkept : kept board.responder)
    (hgood : ∀ exchange ∈ board.served, ∃ reply, exchange.2 = some reply ∧ good reply)
    (signals : List Signal) :
    kept (board.actAll engine signals).responder ∧
      ∀ exchange ∈ (board.actAll engine signals).served,
        ∃ reply, exchange.2 = some reply ∧ good reply := by
  induction signals generalizing board with
  | nil => exact ⟨hkept, hgood⟩
  | cons signal signals ih =>
    suffices hact : kept (board.act engine signal).responder ∧
        ∀ exchange ∈ (board.act engine signal).served, ∃ reply, exchange.2 = some reply ∧ good reply from
      ih hact.1 hact.2
    cases signal with
    | arrive number bytes => exact ⟨hkept, hgood⟩
    | serve number latency =>
      rw [act]
      split
      · exact ⟨hkept, hgood⟩
      · rename_i framer _
        split
        · exact ⟨hkept, hgood⟩
        · rename_i frame framer' hnext
          -- whatever the framer has taken in, the frame that it gives is whole
          have hwhole := Framer.whole_of_next (congrArg Prod.fst hnext)
          obtain ⟨reply, after, heq, hreply, hafter⟩ := hserve _ frame latency hkept hwhole
          rw [heq]
          refine ⟨hafter, fun exchange hexchange => ?_⟩
          rcases List.mem_append.1 hexchange with hold | hnew
          · exact hgood exchange hold
          · cases List.mem_singleton.1 hnew
            exact ⟨reply, rfl, hreply⟩

variable {board : Switchboard Store}

/-- Whether everything that is stored could stand in a line, and every reply was written as one. -/
structure WellFormed (board : Switchboard Store) : Prop where
  keys : ∀ entry ∈ board.responder.state.entries, Storable maxKeyBytes entry.key
  values : ∀ entry ∈ board.responder.state.entries, Storable (maxLineBytes - 10) entry.value
  replies : ∀ exchange ∈ board.served, ∃ reply, exchange.2 = some reply ∧ reply.OneLine

structure Tidy (board : Switchboard Store) : Prop where
  responder : board.responder.Tidy
  served : ∀ exchange ∈ board.served, ∃ reply, exchange.2 = some reply ∧ reply.OneLine

theorem Tidy.actAll (h : board.Tidy) (signals : List Signal) :
    (board.actAll Store.engine signals).Tidy := by
  obtain ⟨hresponder, hserved⟩ := actAll_served Responder.Tidy Reply.OneLine
    (fun _ _ latency htidy hwhole => htidy.serveFrame hwhole latency) h.responder h.served signals
  exact ⟨hresponder, hserved⟩

theorem tidy_start {buckets : Nat} (hbuckets : 0 < buckets) (count : Nat) :
    (start { state := Store.empty buckets hbuckets } count).Tidy :=
  ⟨Responder.tidy_empty hbuckets, fun _ h => absurd h List.not_mem_nil⟩

/-- Whatever octets arrive at any number of framers, in whatever order these are served, everything that is
stored is a word of one line, short enough to have come in one and to go out in one, and every frame has
been answered with one line. -/
theorem wellFormed_actAll {buckets : Nat} (hbuckets : 0 < buckets) (count : Nat)
    (signals : List Signal) :
    ((start { state := Store.empty buckets hbuckets } count).actAll Store.engine signals).WellFormed := by
  obtain ⟨⟨hsound, hstored⟩, hserved⟩ := (tidy_start hbuckets count).actAll signals
  refine ⟨fun entry hentry => ?_, fun entry hentry => ?_, hserved⟩
  · exact (hstored _ _ (hsound.contents_eq_some_iff.2 hentry)).1
  · exact (hstored _ _ (hsound.contents_eq_some_iff.2 hentry)).2

/-- A line that is served late, one that is served early, and a line with nothing on it, which is served like
any other. -/
theorem wellFormed_actAll_split :
    ∃ board : Switchboard Store,
      (start { state := Store.empty 1 Nat.one_pos } 2).actAll Store.engine
        [.arrive 0 (Utf8.encode "CREATE k v"), .arrive 1 (Utf8.encode "READ  k\r\n"), .serve 0 {},
          .arrive 0 (Utf8.encode "\n\n"), .serve 0 {}, .serve 1 {}, .serve 0 {}] = board ∧
      board.responder.state.entries = [{ key := "k", value := "v" }] ∧
      board.served.map Prod.snd = [some .created, some (.value "v"), some .invalidCommand] ∧
      board.WellFormed :=
  ⟨_, rfl, by decide, by decide, wellFormed_actAll Nat.one_pos 2 _⟩

/-- Decoding undoes encoding. What is decoded has the text that it was decoded from, and a text is not decoded
just when the command is no read and cannot be answered so. The reply to a request is decoded as itself,
whatever has been stored through any number of framers. -/
theorem decode_actAll {buckets : Nat} (hbuckets : 0 < buckets) (count : Nat) (signals : List Signal) :
    let board := (start { state := Store.empty buckets hbuckets } count).actAll Store.engine signals
    (∀ command line reply, Reply.decode command line = .ok reply → reply.text = line) ∧
      (∀ command line fault, Reply.decode command line = .error fault ↔
        fault = .unexpectedResponse ∧ command ≠ .read ∧
          ∀ status, Reply.MayAnswer command status → status.text ≠ line) ∧
      ∀ (frame : Frame) (request : Request) (latency : Span),
        Responder.readFrame frame = .request request →
          ∃ reply after, board.responder.serveFrame Store.engine latency frame = (some reply, after) ∧
            Reply.decode request.command reply.text = .ok reply := by
  intro board
  refine ⟨fun _ _ _ => Reply.text_of_decode, fun command line fault => ?_,
    fun frame request latency hread => ?_⟩
  · simp only [Reply.decode_eq_error_iff, ← Reply.mem_statuses_iff, List.mem_map, not_exists, not_and,
      ne_eq]
  · have htidy : board.responder.Tidy := ((tidy_start hbuckets count).actAll signals).responder
    obtain ⟨operation, rfl⟩ := Responder.exists_operation_of_readFrame hread
    exact ⟨_, _, Responder.serveFrame_of_readFrame latency _ hread, htidy.decode operation⟩

/-- A value that reads as a status of another command. -/
theorem decode_actAll_collision :
    ∃ after, ((start { state := Store.empty 1 Nat.one_pos } 2).actAll Store.engine
        [.arrive 0 (Utf8.encode "CREATE k COLLISION\n"), .serve 0 {}]).responder.serveFrame Store.engine {}
          (.line (Utf8.encode "READ k\n")) = (some (.value "COLLISION"), after) ∧
      Reply.decode .read "COLLISION" = .ok (.value "COLLISION") ∧
      Reply.decode .create "COLLISION" = .ok .collision := by
  obtain ⟨-, -, hserve⟩ := decode_actAll Nat.one_pos 2
    [.arrive 0 (Utf8.encode "CREATE k COLLISION\n"), .serve 0 {}]
  obtain ⟨reply, after, hreply, hdecode⟩ := hserve (.line (Utf8.encode "READ k\n"))
    { command := .read, key := "k", value? := none } {} rfl
  obtain rfl : reply = .value "COLLISION" := Option.some.inj (congrArg Prod.fst hreply).symm
  exact ⟨after, hreply, hdecode, rfl⟩

end Server.Switchboard

end LineStore

import LineStore.Proofs.Client.Answers
import LineStore.Proofs.Client.Lengths
import LineStore.Proofs.Server.Keeping

/-!
What a client reads of what any peer has stored.

Of the carriage returns at the end of a line one is not read, and the others belong to the value. They are
written as they are stored, and a client takes them for the end of the line.
-/

namespace LineStore.Client

variable {gathering : Server.Gathering Store} {guest : Server.Guest} {number : Nat}
  {cut : Bytes → List Bytes} {key value : String}

theorem line_read_of_checkKey (h : checkKey key = .ok ()) :
    (Call.read key).line = .ok s!"{Command.read.name} {key}" := by
  rw [Call.line, h]
  rfl

/-- A stored value comes back without the carriage returns at its end. -/
theorem Link.call_read_of_stored (latency : Span) (hguest : gathering.guests[number]? = some guest)
    (hopen : guest.ending? = none) (hrested : guest.framer.Rested)
    (hcut : ∀ octets, (cut octets).flatten = octets) (hkey : checkKey key = .ok ())
    (hstored : gathering.responder.state.search key = some value) {limit : Nat}
    (hvalue : Storable limit value) :
    (Link.call (serverPeer Store.engine latency number cut) (.read key) { peer := gathering }).1 =
      .ok (.reply (.value (trimLineEnd value))) := by
  have hline : (Store.Operation.search key).call.line = _ := line_read_of_checkKey hkey
  have hcarries := (carries_of_line_eq_ok hline).1
  have hlength := (length_le_iff_of_line_eq_ok hline).2 fun value hvalue => by cases hvalue
  obtain ⟨framer, responder, -, -, hpeer⟩ :=
    serverPeer_of_open latency hguest hcut hcarries hlength hopen hrested
  have hreply : Reply.ofOutcome (gathering.responder.state.perform (.search key)).1 = .value value := by
    rw [Store.perform, hstored]
    rfl
  rw [hreply] at hpeer
  have hread : readLine ([] ++ (Reply.value value).encode) = (.ok (trimLineEnd value), []) :=
    readLine_append_lineFeed [] hvalue.no_lineFeed
  rw [Link.call_of_ok (line_read_of_checkKey hkey) hpeer hread,
    Call.interpret_read_trimLineEnd key hvalue.no_space]

/-- Whatever octets any peers have sent, a client that reads a key gets the value that is stored under it
without the carriage returns at its end, and so the value itself just when it does not end with one. -/
theorem read_stored_iff {buckets : Nat} (hbuckets : 0 < buckets) (count : Nat)
    (signals : List Server.Signal) (latency : Span)
    (hstate : gathering.responder.state = ((Server.Switchboard.start
      { state := Store.empty buckets hbuckets } count).actAll Store.engine signals).responder.state)
    (hguest : gathering.guests[number]? = some guest) (hopen : guest.ending? = none)
    (hrested : guest.framer.Rested) (hcut : ∀ octets, (cut octets).flatten = octets)
    (hkey : checkKey key = .ok ()) (hstored : gathering.responder.state.search key = some value) :
    let result :=
      (Link.call (serverPeer Store.engine latency number cut) (.read key) { peer := gathering }).1
    result = .ok (.reply (.value (trimLineEnd value))) ∧
      (result = .ok (.reply (.value value)) ↔ value.toList.getLast? ≠ some '\r') := by
  intro result
  have htidy := ((Server.Switchboard.tidy_start hbuckets count).actAll signals).responder
  have hvalue := (htidy.stored key value (hstate ▸ hstored)).2
  have hresult : result = .ok (.reply (.value (trimLineEnd value))) :=
    Link.call_read_of_stored latency hguest hopen hrested hcut hkey hstored hvalue
  refine ⟨hresult, ?_⟩
  rw [hresult, ← trimLineEnd_eq_self_iff hvalue.no_lineFeed]
  simp

/-- A value whose line was ended with one carriage return, read in a line that arrives octet by octet. -/
theorem read_stored_iff_one_return :
    ∃ board : Server.Switchboard Store,
      (Server.Switchboard.start { state := Store.empty 1 Nat.one_pos } 1).actAll Store.engine
        [.arrive 0 (Utf8.encode "create k v\r\n"), .serve 0 {}] = board ∧
      board.responder.state.search "k" = some "v" ∧
      (Link.call (serverPeer Store.engine {} 1 (List.map fun octet => [octet])) (.read "k")
        { peer := .start board.responder 2 }).1 = .ok (.reply (.value "v")) := by
  have hstored : ((Server.Switchboard.start { state := Store.empty 1 Nat.one_pos } 1).actAll Store.engine
      [.arrive 0 (Utf8.encode "create k v\r\n"), .serve 0 {}]).responder.state.search "k" = some "v" := rfl
  have hwhole : ∀ octets : Bytes, (octets.map fun octet => [octet]).flatten = octets := fun octets => by
    rw [← List.flatMap_def, List.flatMap_singleton']
  generalize hboard : (Server.Switchboard.start _ _).actAll _ _ = board at hstored ⊢
  have hstate := congrArg (fun board : Server.Switchboard Store => board.responder.state) hboard.symm
  have hread : (Link.call (serverPeer Store.engine {} 1 (List.map fun octet => [octet])) (.read "k")
      { peer := .start board.responder 2 }).1 = .ok (.reply (.value "v")) ↔
        "v".toList.getLast? ≠ some '\r' :=
    (read_stored_iff Nat.one_pos 1 _ {} hstate rfl rfl Framer.rested_empty hwhole rfl hstored).2
  exact ⟨board, rfl, hstored, hread.2 (by decide)⟩

/-- A value whose line was ended with two carriage returns is stored with one of them, and read without. -/
theorem not_read_stored_two_returns :
    ∃ board : Server.Switchboard Store,
      (Server.Switchboard.start { state := Store.empty 1 Nat.one_pos } 1).actAll Store.engine
        [.arrive 0 (Utf8.encode "CREATE k v\r\r\n"), .serve 0 {}] = board ∧
      board.responder.state.search "k" = some "v\r" ∧
      (Link.call (serverPeer Store.engine {} 0 fun octets => [octets]) (.read "k")
        { peer := .start board.responder 1 }).1 = .ok (.reply (.value "v")) := by
  have hstored : ((Server.Switchboard.start { state := Store.empty 1 Nat.one_pos } 1).actAll Store.engine
      [.arrive 0 (Utf8.encode "CREATE k v\r\r\n"), .serve 0 {}]).responder.state.search "k" = some "v\r" := rfl
  have hvalue : Storable 2 "v\r" :=
    Request.IsWord.storable ⟨by decide, by decide⟩ (by decide) (by decide)
  generalize (Server.Switchboard.start _ _).actAll _ _ = board at hstored ⊢
  have hread : (Link.call (serverPeer Store.engine {} 0 fun octets => [octets]) (.read "k")
      { peer := .start board.responder 1 }).1 = .ok (.reply (.value (trimLineEnd "v\r"))) :=
    Link.call_read_of_stored {} rfl rfl Framer.rested_empty List.append_nil rfl hstored hvalue
  exact ⟨board, rfl, hstored, hread⟩

end LineStore.Client

import LineStore.Proofs.Responder
import LineStore.Proofs.Server.Transcripts
import LineStore.Proofs.Store.Keywise
import LineStore.Proofs.Store.Upkeep

/-!
Connections that ask for different keys do not notice each other.

Two gatherings are compared, one that all pieces reach and one that only the pieces of one connection reach.
What a guest of a gathering still has to ask for follows from the octets that are still to come, so that
the keys of a whole stream bound those of every piece.
-/

namespace LineStore.Server

/-- The keys that frames ask for. -/
def keysOf (frames : List Frame) : Set String :=
  {key | ∃ frame ∈ frames, ∃ request, Responder.readFrame frame = .request request ∧ request.key = key}

theorem keysOf_mono {frames more : List Frame} (h : frames ⊆ more) : keysOf frames ⊆ keysOf more := by
  rintro key ⟨frame, hframe, hrequest⟩
  exact ⟨frame, h hframe, hrequest⟩

namespace Transcript

variable {frame : Frame} {frames : List Frame} {store other : Store} {keys : Set String}

theorem answerFrame_of_serveFrame {reply : Reply} {responder : Responder Store}
    (h : ({ state := store } : Responder Store).serveFrame Store.engine {} frame = (some reply, responder)) :
    answerFrame frame store = (reply, responder.state) := by
  obtain ⟨counters, hserve⟩ := serveFrame_engine {} frame { state := store }
  rw [h] at hserve
  cases hserve
  rfl

/-- A frame asks for an operation, or it is refused whatever is stored. -/
theorem answerFrame_cases (frame : Frame) :
    (∃ operation : Store.Operation, operation.key ∈ keysOf [frame] ∧ ∀ store : Store,
        answerFrame frame store = (.ofOutcome (store.perform operation).1, (store.perform operation).2)) ∨
      ∀ store, answerFrame frame store = (.invalidCommand, store) := by
  rcases Responder.serveFrame_cases frame with ⟨operation, hread, hserve⟩ | ⟨-, hserve⟩
  · have hkey : operation.key ∈ keysOf [frame] :=
      ⟨frame, List.mem_singleton_self _, _, hread, operation.key_request⟩
    refine .inl ⟨operation, hkey, fun store => ?_⟩
    obtain ⟨counters, hcounters⟩ := hserve {} { state := store }
    exact answerFrame_of_serveFrame hcounters
  · refine .inr fun store => ?_
    obtain ⟨counters, hcounters⟩ := hserve {} { state := store }
    exact answerFrame_of_serveFrame hcounters

theorem ofFrames_agree (h : Store.Agree keys store other) (hkeys : keysOf frames ⊆ keys) :
    (ofFrames frames store).replies = (ofFrames frames other).replies ∧
      Store.Agree keys (ofFrames frames store).store (ofFrames frames other).store := by
  induction frames generalizing store other with
  | nil => exact ⟨rfl, h⟩
  | cons frame frames ih =>
    have hrest := (keysOf_mono (List.subset_cons_self frame frames)).trans hkeys
    rcases answerFrame_cases frame with ⟨operation, hkey, hanswer⟩ | hanswer
    · have hmem := hkeys (keysOf_mono (by simp) hkey)
      obtain ⟨houtcome, hagree⟩ := h.perform hmem
      obtain ⟨hreplies, hstore⟩ := ih hagree hrest
      simp only [ofFrames, hanswer, houtcome, hreplies]
      exact ⟨trivial, hstore⟩
    · obtain ⟨hreplies, hstore⟩ := ih h hrest
      simp only [ofFrames, hanswer, hreplies]
      exact ⟨trivial, hstore⟩

theorem ofFrames_apart (h : Store.Agree keys store other) (hkeys : ∀ key ∈ keysOf frames, key ∉ keys) :
    Store.Agree keys (ofFrames frames store).store other := by
  induction frames generalizing store with
  | nil => exact h
  | cons frame frames ih =>
    have hrest := fun key hkey => hkeys key (keysOf_mono (List.subset_cons_self frame frames) hkey)
    rcases answerFrame_cases frame with ⟨operation, hkey, hanswer⟩ | hanswer
    · have hnotMem := hkeys _ (keysOf_mono (by simp) hkey)
      simp only [ofFrames, hanswer]
      exact ih (h.perform_left hnotMem) hrest
    · simp only [ofFrames, hanswer]
      exact ih h hrest

end Transcript

/-! ### One guest -/

namespace Guest

/-- The frames of a guest that are answered when these octets arrive. -/
def hears (guest : Guest) (octets : Bytes) : List Frame :=
  if guest.ending? = none then
    (guest.framer.push octets).owed.takeWhile fun frame => ¬ frame.AsksToClose
  else []

/-- A guest that has been sent the replies to the frames that it heard. -/
def told (guest : Guest) (octets : Bytes) (replies : List Reply) : Guest :=
  if guest.ending? = none then
    { framer := (guest.framer.push octets).drain.2
      heard := guest.heard ++ replies.flatMap Reply.encode
      ending? :=
        if ∃ frame ∈ (guest.framer.push octets).owed, frame.AsksToClose then some .dismissed else none }
  else guest

theorem hears_append (guest : Guest) (octets more : Bytes) (replies : List Reply) :
    guest.hears (octets ++ more) = guest.hears octets ++ (guest.told octets replies).hears more := by
  by_cases hopen : guest.ending? = none
  · have howed := (guest.framer.push octets).drain_spec.2 more
    rw [hears, hears, told, if_pos hopen, if_pos hopen, if_pos hopen, Framer.push_append, howed,
      takeWhile_stays_append, hears]
    -- after a bare line the guest has ended, and hears nothing of what follows
    by_cases hcloses : ∃ frame ∈ (guest.framer.push octets).owed, frame.AsksToClose
    · simp only [hcloses, ↓reduceIte, reduceCtorEq]
    · simp only [hcloses, ↓reduceIte]
  · simp only [hears, told, hopen, ↓reduceIte, List.append_nil]

/-- No frame is left over. -/
theorem hears_told_nil (guest : Guest) (octets : Bytes) (replies : List Reply) :
    (guest.told octets replies).hears [] = [] := by
  have happend := guest.hears_append octets [] replies
  rwa [List.append_nil, List.self_eq_append_right] at happend

theorem heard_told (guest : Guest) (octets : Bytes) (store : Store) :
    let replies := (Transcript.ofFrames (guest.hears octets) store).replies
    (guest.told octets replies).heard = guest.heard ++ replies.flatMap Reply.encode := by
  intro replies
  by_cases hopen : guest.ending? = none
  · rw [told, if_pos hopen]
  · have hnil : replies = [] := by
      simp only [replies, hears, hopen, ↓reduceIte, Transcript.ofFrames]
    rw [told, if_neg hopen, hnil, List.flatMap_nil, List.append_nil]

end Guest

namespace Gathering

variable {gathering : Gathering Store} {number other : Nat} {guest : Guest}

theorem receive_of_none {σ : Type} {engine : Store.Engine σ} {latency : Span} {gathering : Gathering σ}
    (h : gathering.guests[number]? = none) (chunk : Bytes) :
    gathering.receive engine latency number chunk = gathering := by
  rw [receive, h]

/-- What a piece does to the store and to its guest. -/
theorem receive_engine (latency : Span) (hguest : gathering.guests[number]? = some guest)
    (chunk : Bytes) :
    let after := gathering.receive Store.engine latency number chunk
    let answers := Transcript.ofFrames (guest.hears chunk) gathering.responder.state
    after.responder.state = answers.store ∧
      after.guests = gathering.guests.set number (guest.told chunk answers.replies) := by
  by_cases hopen : guest.ending? = none
  · obtain ⟨hwritten, hstate, hending⟩ := Transcript.answerFrames_engine latency
      (guest.framer.push chunk).owed gathering.responder
    simp only [receive_of_open hguest hopen, record, Guest.record, Guest.told, Guest.hears, hopen,
      ↓reduceIte, hwritten, hstate, hending]
    exact ⟨trivial, trivial⟩
  · obtain ⟨hlt, hget⟩ := List.getElem?_eq_some_iff.1 hguest
    have hset : gathering.guests.set number guest = gathering.guests := by
      rw [← hget, List.set_getElem_self]
    simp only [receive, hguest, hopen, ↓reduceIte, Guest.told, Guest.hears, hset]
    exact ⟨rfl, trivial⟩

theorem getElem?_receive_of_ne {σ : Type} {engine : Store.Engine σ} {latency : Span}
    {gathering : Gathering σ} (h : other ≠ number) (chunk : Bytes) :
    (gathering.receive engine latency other chunk).guests[number]? = gathering.guests[number]? := by
  rw [receive]
  split
  · split
    · exact List.getElem?_set_ne h
    · rfl
  · rfl

/-! ### One guest alone -/

theorem streamOf_cons_self (number : Nat) (chunk : Bytes) (arrivals : List (Nat × Bytes)) :
    streamOf number ((number, chunk) :: arrivals) = chunk ++ streamOf number arrivals := by
  simp [streamOf, piecesOf]

theorem streamOf_cons_of_ne (h : other ≠ number) (chunk : Bytes) (arrivals : List (Nat × Bytes)) :
    streamOf number ((other, chunk) :: arrivals) = streamOf number arrivals := by
  simp [streamOf, piecesOf, h]

theorem receiveAll_of_guest (latency : Span) {arrivals : List (Nat × Bytes)}
    (harrivals : ∀ arrival ∈ arrivals, arrival.1 = number)
    (hguest : gathering.guests[number]? = some guest) (hdry : guest.hears [] = []) :
    let after := gathering.receiveAll Store.engine latency arrivals
    let answers := Transcript.ofFrames (guest.hears (streamOf number arrivals)) gathering.responder.state
    after.heard number = guest.heard ++ answers.replies.flatMap Reply.encode ∧
      after.responder.state = answers.store := by
  induction arrivals generalizing gathering guest with
  | nil =>
    rw [show streamOf number [] = [] from rfl, hdry]
    simp [receiveAll, heard, hguest, Transcript.ofFrames]
  | cons arrival arrivals ih =>
    obtain ⟨other, chunk⟩ := arrival
    obtain ⟨rfl, hrest⟩ := List.forall_mem_cons.1 harrivals
    obtain ⟨hstate, hguests⟩ := receive_engine latency hguest chunk
    have hlt := (List.getElem?_eq_some_iff.1 hguest).1
    have hnext := hguests ▸ List.getElem?_set_self hlt
    obtain ⟨hheard, hstore⟩ := ih hrest hnext (guest.hears_told_nil chunk _)
    rw [hstate, guest.heard_told] at hheard
    rw [hstate] at hstore
    rw [streamOf_cons_self, guest.hears_append chunk _ _, Transcript.ofFrames_append]
    simp only [List.flatMap_append, ← List.append_assoc]
    exact ⟨hheard, hstore⟩

/-- A connection that is served alone is sent the replies of its transcript. -/
theorem receiveAll_alone (responder : Responder Store) {count : Nat} (hnumber : number < count)
    (latency : Span) {arrivals : List (Nat × Bytes)}
    (harrivals : ∀ arrival ∈ arrivals, arrival.1 = number) :
    let after := (start responder count).receiveAll Store.engine latency arrivals
    let expected := Transcript.ofStream (streamOf number arrivals) responder.state
    after.heard number = expected.replies.flatMap Reply.encode ∧
      after.responder.state = expected.store := by
  have hguest : (start responder count).guests[number]? = some {} :=
    (List.getElem?_replicate ..).trans (if_pos hnumber)
  intro after expected
  have h := receiveAll_of_guest latency harrivals hguest rfl
  have hexpected : expected =
      Transcript.ofFrames (({} : Guest).hears (streamOf number arrivals)) responder.state :=
    Transcript.ofStream_eq ..
  rw [hexpected]
  exact h

/-! ### What is still to be answered -/

/-- The frames of a guest that are answered when all these pieces have arrived. -/
def toCome (gathering : Gathering Store) (number : Nat) (arrivals : List (Nat × Bytes)) : List Frame :=
  match gathering.guests[number]? with
  | some guest => guest.hears (streamOf number arrivals)
  | none => []

theorem hears_prefix_toCome (hguest : gathering.guests[number]? = some guest) (chunk : Bytes)
    (arrivals : List (Nat × Bytes)) :
    guest.hears chunk <+: gathering.toCome number ((number, chunk) :: arrivals) := by
  rw [toCome, hguest, streamOf_cons_self]
  exact ⟨_, (guest.hears_append chunk _ []).symm⟩

/-- A piece takes away from what is still to be answered and adds nothing. -/
theorem toCome_receive (gathering : Gathering Store) (number : Nat) (latency : Span)
    (arrival : Nat × Bytes) (arrivals : List (Nat × Bytes)) :
    (gathering.receive Store.engine latency arrival.1 arrival.2).toCome number arrivals <:+
      gathering.toCome number (arrival :: arrivals) := by
  obtain ⟨other, chunk⟩ := arrival
  by_cases hsame : other = number
  · subst hsame
    cases hguest : gathering.guests[other]? with
    | none => simp [receive_of_none hguest, toCome, hguest]
    | some guest =>
      obtain ⟨-, hguests⟩ := receive_engine latency hguest chunk
      have hlt := (List.getElem?_eq_some_iff.1 hguest).1
      simp only [toCome, hguests, hguest, List.getElem?_set_self hlt, streamOf_cons_self]
      exact ⟨_, (guest.hears_append chunk _ _).symm⟩
  · rw [toCome, getElem?_receive_of_ne hsame, toCome, streamOf_cons_of_ne hsame]

theorem keysOf_toCome_start (responder : Responder Store) (count number : Nat)
    (arrivals : List (Nat × Bytes)) :
    keysOf ((start responder count).toCome number arrivals) ⊆
      {key | ∃ request ∈ requestsOf (streamOf number arrivals), request.key = key} := by
  rw [toCome]
  split
  · rename_i guest hguest
    obtain rfl : guest = {} := List.eq_of_mem_replicate (List.mem_of_getElem? hguest)
    rintro key ⟨frame, hframe, request, hread, hkey⟩
    refine ⟨request, List.mem_filterMap.2 ⟨frame, hframe, ?_⟩, hkey⟩
    rw [hread]
  · rintro key ⟨frame, hframe, -⟩
    cases hframe

/-! ### Two gatherings -/

/-- Whether a guest has met with the same in two gatherings, and would go on so with these keys. -/
structure Alike (keys : Set String) (number : Nat) (joint alone : Gathering Store) : Prop where
  guest : joint.guests[number]? = alone.guests[number]?
  agree : Store.Agree keys joint.responder.state alone.responder.state

namespace Alike

variable {keys : Set String} {joint alone : Gathering Store} {chunk : Bytes}
  {arrivals : List (Nat × Bytes)}

theorem receive (h : Alike keys number joint alone) (latency : Span)
    (hkeys : keysOf (joint.toCome number ((number, chunk) :: arrivals)) ⊆ keys) :
    Alike keys number (joint.receive Store.engine latency number chunk)
      (alone.receive Store.engine latency number chunk) := by
  cases hguest : joint.guests[number]? with
  | none => rwa [receive_of_none hguest, receive_of_none (h.guest ▸ hguest)]
  | some guest =>
    have hguest' : alone.guests[number]? = some guest := h.guest ▸ hguest
    obtain ⟨hstate, hguests⟩ := receive_engine latency hguest chunk
    obtain ⟨hstate', hguests'⟩ := receive_engine latency hguest' chunk
    have hheard := (keysOf_mono (hears_prefix_toCome hguest chunk arrivals).subset).trans hkeys
    obtain ⟨hreplies, hagree⟩ := Transcript.ofFrames_agree h.agree hheard
    have hlt := (List.getElem?_eq_some_iff.1 hguest).1
    have hlt' := (List.getElem?_eq_some_iff.1 hguest').1
    refine ⟨?_, by rwa [hstate, hstate']⟩
    rw [hguests, hguests', List.getElem?_set_self hlt, List.getElem?_set_self hlt', hreplies]

theorem receive_left (h : Alike keys number joint alone) (latency : Span) (hne : other ≠ number)
    (hkeys : ∀ key ∈ keysOf (joint.toCome other ((other, chunk) :: arrivals)), key ∉ keys) :
    Alike keys number (joint.receive Store.engine latency other chunk) alone := by
  refine ⟨(getElem?_receive_of_ne hne chunk).trans h.guest, ?_⟩
  cases hguest : joint.guests[other]? with
  | none =>
    rw [receive_of_none hguest]
    exact h.agree
  | some guest =>
    rw [(receive_engine latency hguest chunk).1]
    refine Transcript.ofFrames_apart h.agree fun key hkey => hkeys key ?_
    exact keysOf_mono (hears_prefix_toCome hguest chunk arrivals).subset hkey

theorem receiveAll (h : Alike keys number joint alone) (latency : Span)
    (hown : keysOf (joint.toCome number arrivals) ⊆ keys)
    (hothers : ∀ other ≠ number, ∀ key ∈ keysOf (joint.toCome other arrivals), key ∉ keys) :
    Alike keys number (joint.receiveAll Store.engine latency arrivals)
      (alone.receiveAll Store.engine latency (arrivals.filter (·.1 = number))) := by
  induction arrivals generalizing joint alone with
  | nil => exact h
  | cons arrival arrivals ih =>
    -- what is to come gets less with every piece, for the guest and for the others
    have hless (other : Nat) := keysOf_mono (toCome_receive joint other latency arrival arrivals).subset
    have hown' := (hless number).trans hown
    have hothers' := fun other hother key hkey => hothers other hother key (hless other hkey)
    obtain ⟨other, chunk⟩ := arrival
    by_cases hsame : other = number
    · subst hsame
      rw [List.filter_cons_of_pos (by simp)]
      exact ih (h.receive latency hown) hown' hothers'
    · rw [List.filter_cons_of_neg (by simpa using hsame)]
      exact ih (h.receive_left latency hsame (hothers other hsame)) hown' hothers'

end Alike

/-- A connection whose keys no other connection asks for is sent the same octets, and leaves the same entries
for its keys, as if the others had sent nothing. They may send anything for other keys, and end as they
like, and the pieces may arrive in any order. -/
theorem undisturbed {buckets : Nat} {last? : Option Store.Dump} (responder : Responder Store)
    (hstore : Store.Reachable buckets last? responder.state) (count : Nat) (latency : Span)
    (arrivals : List (Nat × Bytes)) (number : Nat)
    (hapart : ∀ other ≠ number, ∀ request ∈ requestsOf (streamOf number arrivals),
      ∀ foreign ∈ requestsOf (streamOf other arrivals), foreign.key ≠ request.key) :
    let joint := (start responder count).receiveAll Store.engine latency arrivals
    let alone := (start responder count).receiveAll Store.engine latency
      (arrivals.filter (·.1 = number))
    joint.heard number = alone.heard number ∧
      ∀ request ∈ requestsOf (streamOf number arrivals),
        joint.responder.state.entries.filter (·.key = request.key) =
          alone.responder.state.entries.filter (·.key = request.key) := by
  let keys : Set String := {key | ∃ request ∈ requestsOf (streamOf number arrivals), request.key = key}
  have hstart : Alike keys number (start responder count) (start responder count) :=
    ⟨rfl, .refl hstore.sound.1⟩
  have hothers : ∀ other ≠ number, ∀ key ∈ keysOf ((start responder count).toCome other arrivals),
      key ∉ keys := by
    rintro other hother key hkey ⟨request, hrequest, hsame⟩
    obtain ⟨foreign, hforeign, hsame'⟩ := keysOf_toCome_start responder count other arrivals hkey
    exact hapart other hother request hrequest foreign hforeign (hsame'.trans hsame.symm)
  have h := hstart.receiveAll latency (keysOf_toCome_start responder count number arrivals) hothers
  refine ⟨?_, fun request hrequest => h.agree.filter_key_eq ⟨request, hrequest, rfl⟩⟩
  rw [heard, heard, h.guest]

/-- Entries of one bucket. The other connection ends before its last line, which asks for the key of the
first. -/
theorem undisturbed_shared_bucket :
    ∃ joint : Gathering Store,
      (start { state := ((Store.empty 1 Nat.one_pos).insert "a" "0").2 } 2).receiveAll Store.engine {}
        [(0, Utf8.encode "UPDATE a 1\nREAD"), (1, Utf8.encode "CREATE b 2\n\nDELETE a\n"),
          (0, Utf8.encode " a\n")] = joint ∧
      joint.heard 0 = Utf8.encode "UPDATE OK\n1\n" ∧
      joint.responder.state.entries.filter (·.key = "a") = [{ key := "a", value := "1" }] := by
  have hstore : Store.Reachable 1 none ((Store.empty 1 Nat.one_pos).insert "a" "0").2 :=
    .perform (.insert "a" "0") (.opened (show Store.open? 1 { ringCapacity := 1 } = .ok _ from rfl))
  obtain ⟨hheard, hentries⟩ := undisturbed { state := ((Store.empty 1 Nat.one_pos).insert "a" "0").2 }
    hstore 2 {}
    [(0, Utf8.encode "UPDATE a 1\nREAD"), (1, Utf8.encode "CREATE b 2\n\nDELETE a\n"),
      (0, Utf8.encode " a\n")] 0 (by
        intro other hother
        match other with
        | 1 => decide
        | n + 2 => simp [streamOf, piecesOf, show requestsOf [] = [] from rfl])
  obtain ⟨hheard', hstate'⟩ := receiveAll_alone { state := ((Store.empty 1 Nat.one_pos).insert "a" "0").2 }
    (show 0 < 2 by decide) {} (show ∀ arrival ∈
      [(0, Utf8.encode "UPDATE a 1\nREAD"), (0, Utf8.encode " a\n")], arrival.1 = 0 by decide)
  refine ⟨_, rfl, hheard.trans (hheard'.trans (by decide)), ?_⟩
  refine (hentries { command := .update, key := "a", value? := some "1" } (by decide)).trans ?_
  exact (congrArg (fun store : Store => store.entries.filter (·.key = "a")) hstate').trans rfl

end Gathering

end LineStore.Server

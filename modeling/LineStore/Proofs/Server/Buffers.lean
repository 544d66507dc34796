import LineStore.Proofs.Server.Keeping

/-!
Requests that are read from a buffer which no framer has cut.

What is read is the first line of the buffer, whatever follows it. A buffer that is as long as a line may be
is no exception unless it holds several lines: it has to end with a line feed, and nothing looks for another
one before.
-/

namespace LineStore

/-! ### First lines -/

namespace Bytes

/-- A buffer that is as long as a line may be and ends with a line feed, which is not its first one. -/
def IsCrammed (buffer : Bytes) : Prop :=
  buffer.length = maxLineBytes ∧ buffer.getLast? = some lineFeed ∧ lineFeed ∈ buffer.dropLast

variable {buffer line rest : Bytes}

theorem length_le_of_cutLine? (hcut : buffer.cutLine? = some (line, rest)) :
    line.length ≤ buffer.length := by
  rw [← append_of_cutLine?_eq_some hcut, List.length_append]
  exact Nat.le_add_right ..

theorem cutLine?_line_append (more : Bytes) (hline : line.cutLine? = some (line, [])) :
    (line ++ more).cutLine? = some (line, more) :=
  cutLine?_append_of_eq_some more hline

theorem rest_eq_nil_of_cutLine? (hcut : buffer.cutLine? = some (line, rest))
    (hone : lineFeed ∉ buffer.dropLast) : rest = [] := by
  by_contra hrest
  obtain ⟨body, rfl, -⟩ := exists_body_of_cutLine?_eq_some hcut
  rw [← append_of_cutLine?_eq_some hcut, List.dropLast_append_of_ne_nil hrest] at hone
  exact hone (by simp)

end Bytes

namespace Request

variable {buffer line rest : Bytes} {request : Request}

theorem read_of_length_lt (hcut : buffer.cutLine? = some (line, rest))
    (hlength : buffer.length < maxLineBytes) : read buffer = read line := by
  have hshort := Nat.le_trans (Bytes.length_le_of_cutLine? hcut) (Nat.le_of_lt hlength)
  obtain ⟨body, rfl, hfeed⟩ := Bytes.exists_body_of_cutLine?_eq_some hcut
  rw [read_append_lineFeed hfeed hshort, read, if_neg (Nat.not_lt.2 (Nat.le_of_lt hlength)),
    if_neg (Nat.ne_of_lt hlength), hcut]
  exact congrArg readBody List.dropLast_concat

theorem read_of_not_ended (hlength : buffer.length = maxLineBytes)
    (hlast : buffer.getLast? ≠ some lineFeed) : read buffer = .invalid := by
  rw [read, if_neg (Nat.not_lt.2 (Nat.le_of_eq hlength)), if_pos hlength, if_neg hlast]

/-- In a buffer that is as long as a line may be, only the last octet is looked at for a line feed. -/
theorem read_of_ended {body : Bytes} (hlength : (body ++ [lineFeed]).length = maxLineBytes) :
    read (body ++ [lineFeed]) = readBody body := by
  rw [read, if_neg (Nat.not_lt.2 (Nat.le_of_eq hlength)), if_pos hlength, List.getLast?_concat, if_pos rfl,
    List.dropLast_concat]

/-- A line feed that is not taken for the end of a line belongs to the value. -/
theorem readBody_broken (n : Nat) :
    readBody (Utf8.encode "CREATE k a\n" ++ List.replicate n 98) =
      .request
        { command := .create
          key := "k"
          value? := some (String.ofList ('a' :: '\n' :: List.replicate n 'b')) } := by
  have htext : Utf8.encode (String.ofList ("CREATE k a\n".toList ++ List.replicate n 'b')) =
      Utf8.encode "CREATE k a\n" ++ List.replicate n 98 := by
    have hletters : (List.replicate n 'b').flatMap String.utf8EncodeChar = List.replicate n 98 := by
      rw [List.flatMap_replicate]
      exact List.flatten_replicate_singleton
    rw [Utf8.encode_eq_flatMap, String.toList_ofList, List.flatMap_append, hletters,
      Utf8.encode_eq_flatMap]
  have hspells : Spells
      { command := .create
        key := String.ofList ['k']
        value? := some (String.ofList ('a' :: '\n' :: List.replicate n 'b')) }
      (spaces 0 ++ "CREATE".toList ++ spaces 1 ++ ['k'] ++ spaces 1 ++ 'a' :: '\n' :: List.replicate n 'b'
        ++ spaces 0) :=
    .valued 0 0 0 0 (by decide) rfl ⟨by decide, by decide⟩ (by decide) ⟨by simp, by simp⟩
  rw [← htext]
  refine Spells.readBody_eq ?_ ?_
  · rw [String.toList_ofList]
    simpa [spaces] using hspells
  · simp

theorem read_of_cutLine?_eq_none (hcut : buffer.cutLine? = none) : read buffer ≠ .request request := by
  have hfeed := Bytes.cutLine?_eq_none_iff.1 hcut
  rw [read]
  split
  · simp
  · split
    · rw [if_neg fun hlast => hfeed (List.mem_of_getLast? hlast)]
      simp
    · rw [hcut]
      simp

/-- The reading of a buffer that is not longer than a line may be and has a first line. -/
theorem read_of_cutLine? (hcut : buffer.cutLine? = some (line, rest))
    (hlength : buffer.length ≤ maxLineBytes) (hone : ¬ buffer.IsCrammed) :
    read buffer =
      if buffer.length = maxLineBytes ∧ buffer.getLast? ≠ some lineFeed then .invalid else read line := by
  by_cases hfull : buffer.length = maxLineBytes
  · by_cases hlast : buffer.getLast? = some lineFeed
    · have hrest := Bytes.rest_eq_nil_of_cutLine? hcut fun hmem => hone ⟨hfull, hlast, hmem⟩
      have hline := Bytes.append_of_cutLine?_eq_some hcut
      rw [hrest, List.append_nil] at hline
      rw [if_neg fun h => h.2 hlast, hline]
    · rw [if_pos ⟨hfull, hlast⟩, read_of_not_ended hfull hlast]
  · rw [if_neg fun h => hfull h.1, read_of_length_lt hcut (Nat.lt_of_le_of_ne hlength hfull)]

/-- What is read from a buffer could be read from a line. -/
theorem storable_of_read_buffer (hone : ¬ buffer.IsCrammed) (h : read buffer = .request request) :
    Storable maxKeyBytes request.key ∧
      ∀ value, request.value? = some value → Storable (maxLineBytes - 10) value := by
  cases hcut : buffer.cutLine? with
  | none => exact absurd h (read_of_cutLine?_eq_none hcut)
  | some parts =>
    obtain ⟨line, rest⟩ := parts
    have hlength : buffer.length ≤ maxLineBytes := by
      by_contra hlong
      rw [read, if_pos (Nat.not_le.1 hlong)] at h
      cases h
    rw [read_of_cutLine? hcut hlength hone] at h
    split at h
    · cases h
    · have hshort := Nat.le_trans (Bytes.length_le_of_cutLine? hcut) hlength
      obtain ⟨body, rfl, hfeed⟩ := Bytes.exists_body_of_cutLine?_eq_some hcut
      exact storable_of_read hfeed hshort h

end Request

/-! ### Serving buffers -/

namespace Responder

/-- The responder after one buffer after another, each answered in its own time. -/
def serveAll {σ : Type} (engine : Store.Engine σ) (responder : Responder σ)
    (buffers : List (Span × Bytes)) : Responder σ :=
  buffers.foldl (fun responder served => (responder.serve engine served.1 served.2).2) responder

variable {responder : Responder Store} {buffer : Bytes}

theorem serve_cases (responder : Responder Store) (latency : Span) (buffer : Bytes) :
    (responder.serve Store.engine latency buffer).2.state = responder.state ∨
      ∃ operation : Store.Operation, Request.read buffer = .request operation.request ∧
        (responder.serve Store.engine latency buffer).2.state =
          (responder.state.perform operation).2 := by
  rw [serve]
  cases hread : Request.read buffer with
  | incomplete | invalid => exact .inl rfl
  | request request =>
    obtain ⟨operation, rfl⟩ := Request.exists_operation_of_read hread
    refine .inr ⟨operation, rfl, ?_⟩
    simp only [answer, react, execute, operation.operation?_request, Store.engine]

theorem serve_stored (latency : Span) (hsound : responder.state.Sound) (hone : ¬ buffer.IsCrammed) :
    (responder.serve Store.engine latency buffer).2.state.Sound ∧
      ∀ key value, (responder.serve Store.engine latency buffer).2.state.search key = some value →
        responder.state.search key = some value ∨ (Reply.value value).OneLine := by
  rcases responder.serve_cases latency buffer with hsame | ⟨operation, hread, hstate⟩
  · rw [hsame]
    exact ⟨hsound, fun key value => .inl⟩
  · obtain ⟨-, hcontents, hafter⟩ := hsound.perform operation
    rw [hstate]
    refine ⟨hafter, fun key value hstored => ?_⟩
    have hvalue : (responder.state.contents.perform operation).2 key = some value :=
      hcontents ▸ hstored
    refine (Store.Contents.eq_some_or_of_perform _ _ hvalue).imp_right fun hnew => ?_
    exact ((Request.storable_of_read_buffer hone hread).2 value hnew).oneLine

theorem serveAll_stored (hsound : responder.state.Sound) (buffers : List (Span × Bytes))
    (hone : ∀ served ∈ buffers, ¬ served.2.IsCrammed) (key value : String)
    (hstored : (responder.serveAll Store.engine buffers).state.search key = some value) :
    responder.state.search key = some value ∨ (Reply.value value).OneLine := by
  induction buffers generalizing responder with
  | nil => exact .inl hstored
  | cons served buffers ih =>
    obtain ⟨hafter, hnew⟩ := serve_stored served.1 hsound (hone served List.mem_cons_self)
    rcases ih hafter (fun other hother => hone other (List.mem_cons_of_mem _ hother)) hstored with
      hearlier | hline
    · exact hnew key value hearlier
    · exact .inr hline

/-- A buffer that is not crammed is read by its first line alone, or refused if it is as long as a line may be
and does not end with one. So the keys and values that are read from such buffers hold no line feed, and every
value that is stored by them is told in one line. -/
theorem reads_first_line :
    (∀ buffer line rest : Bytes, buffer.cutLine? = some (line, rest) → buffer.length ≤ maxLineBytes →
      ¬ buffer.IsCrammed →
        Request.read buffer =
          if buffer.length = maxLineBytes ∧ buffer.getLast? ≠ some lineFeed then .invalid
          else Request.read line) ∧
      (∀ (buffer : Bytes) (request : Request), ¬ buffer.IsCrammed →
        Request.read buffer = .request request →
          '\n' ∉ request.key.toList ∧ ∀ value, request.value? = some value → '\n' ∉ value.toList) ∧
      ∀ (responder : Responder Store) (buffers : List (Span × Bytes)), responder.state.Sound →
        (∀ served ∈ buffers, ¬ served.2.IsCrammed) →
          ∀ key value, (responder.serveAll Store.engine buffers).state.search key = some value →
            responder.state.search key = some value ∨ (Reply.value value).OneLine := by
  refine ⟨fun _ _ _ => Request.read_of_cutLine?, fun buffer request hone hread => ?_,
    fun responder buffers hsound => serveAll_stored hsound buffers⟩
  obtain ⟨hkey, hvalue⟩ := Request.storable_of_read_buffer hone hread
  exact ⟨hkey.no_lineFeed, fun value hsome => (hvalue value hsome).no_lineFeed⟩

/-- A buffer with two lines, of which the second one is left alone. -/
theorem reads_first_line_of_two :
    Request.read (Utf8.encode "CREATE k v\r\nUPDATE k w\n") =
        .request { command := .create, key := "k", value? := some "v" } ∧
      ∃ responder : Responder Store,
        serveAll Store.engine { state := Store.empty 1 Nat.one_pos }
          [({}, Utf8.encode "CREATE k v\r\nUPDATE k w\n")] = responder ∧
        responder.state.search "k" = some "v" ∧ (Reply.value "v").OneLine := by
  obtain ⟨hread, -, hserve⟩ := reads_first_line
  have hone : ¬ (Utf8.encode "CREATE k v\r\nUPDATE k w\n").IsCrammed := fun h => absurd h.1 (by decide)
  have hall : ∀ served ∈ [(({} : Span), Utf8.encode "CREATE k v\r\nUPDATE k w\n")],
      ¬ served.2.IsCrammed := by
    intro served hmem
    rwa [List.mem_singleton.1 hmem]
  refine ⟨(hread _ (Utf8.encode "CREATE k v\r\n") _ rfl (by decide) hone).trans rfl, _, rfl, rfl, ?_⟩
  refine (hserve { state := Store.empty 1 Nat.one_pos } _ (Store.sound_empty Nat.one_pos) hall "k" "v"
    rfl).resolve_left ?_
  decide

/-- Two buffers that are as long as a line may be and begin with a whole line, which is not what is read. The
first one does not end with a line feed. From the second one a value of two lines is read. -/
theorem not_reads_first_line :
    ((Utf8.encode "READ k\n" ++ List.replicate 4089 120).length = maxLineBytes ∧
        (Utf8.encode "READ k\n" ++ List.replicate 4089 120).cutLine? =
          some (Utf8.encode "READ k\n", List.replicate 4089 120) ∧
        Request.read (Utf8.encode "READ k\n" ++ List.replicate 4089 120) = .invalid ∧
        Request.read (Utf8.encode "READ k\n") =
          .request { command := .read, key := "k", value? := none }) ∧
      (Utf8.encode "CREATE k a\n" ++ (List.replicate 4084 98 ++ [lineFeed])).length = maxLineBytes ∧
        (Utf8.encode "CREATE k a\n" ++ (List.replicate 4084 98 ++ [lineFeed])).cutLine? =
          some (Utf8.encode "CREATE k a\n", List.replicate 4084 98 ++ [lineFeed]) ∧
        Request.read (Utf8.encode "CREATE k a\n" ++ (List.replicate 4084 98 ++ [lineFeed])) =
          .request
            { command := .create
              key := "k"
              value? := some (String.ofList ('a' :: '\n' :: List.replicate 4084 'b')) } ∧
        Request.read (Utf8.encode "CREATE k a\n") =
          .request { command := .create, key := "k", value? := some "a" } := by
  have hfirst : (Utf8.encode "READ k\n" ++ List.replicate 4089 120).length = maxLineBytes := by
    rw [List.length_append, List.length_replicate]
    rfl
  have hlast : (Utf8.encode "READ k\n" ++ List.replicate 4089 120).getLast? ≠ some lineFeed := by
    rw [List.replicate_succ', ← List.append_assoc, List.getLast?_concat]
    decide
  have hsecond : (Utf8.encode "CREATE k a\n" ++ (List.replicate 4084 98 ++ [lineFeed])).length =
      maxLineBytes := by
    rw [List.length_append, List.length_append, List.length_replicate]
    rfl
  refine ⟨⟨hfirst, Bytes.cutLine?_line_append _ rfl, Request.read_of_not_ended hfirst hlast, rfl⟩,
    hsecond, Bytes.cutLine?_line_append _ rfl, ?_, rfl⟩
  rw [← List.append_assoc] at hsecond ⊢
  rw [Request.read_of_ended hsecond, Request.readBody_broken]

end Responder

end LineStore

import LineStore.Proofs.Client.Unfinished
import LineStore.Proofs.Counting
import Mathlib.Data.List.Forall2

/-!
Calls in step with the lines that answer them.

A call that fails its checks neither sends nor reads. Every other call sends one line and takes one line of
the stream, whatever it makes of it, so that what goes wrong with a call does not shift the answers of the
calls after it.
-/

namespace LineStore

namespace Bytes

/-- The lines of a stream that has ended. Octets after the last line feed are a line too. -/
def segments (stream : Bytes) : List Bytes :=
  stream.lines.1 ++ if stream.lines.2 = [] then [] else [stream.lines.2]

theorem flatten_lines (stream : Bytes) : stream.lines.1.flatten ++ stream.lines.2 = stream := by
  induction stream with
  | nil => rfl
  | cons b stream ih =>
    rw [lines]
    cases hlines : lines stream with
    | mk ls tail =>
      rw [hlines] at ih
      simp only
      split
      · rw [List.flatten_cons, List.append_assoc, ih]
        rfl
      · cases ls with
        | nil => exact congrArg (b :: ·) ih
        | cons l ls => exact congrArg (b :: ·) ih

theorem ne_nil_of_mem_lines {stream line : Bytes} (h : line ∈ stream.lines.1) : line ≠ [] := by
  induction stream generalizing line with
  | nil => cases h
  | cons b stream ih =>
    rw [lines] at h
    cases hlines : lines stream with
    | mk ls tail =>
      rw [hlines] at h ih
      simp only at h
      split at h
      · rcases List.mem_cons.1 h with rfl | hmem
        · exact List.cons_ne_nil b []
        · exact ih hmem
      · cases ls with
        | nil => cases h
        | cons l ls =>
          rcases List.mem_cons.1 h with rfl | hmem
          · exact List.cons_ne_nil b l
          · exact ih (List.mem_cons_of_mem l hmem)

/-- The segments of a stream are all of it. -/
theorem flatten_segments (stream : Bytes) : stream.segments.flatten = stream := by
  rw [segments, List.flatten_append]
  split
  · rename_i htail
    have h := flatten_lines stream
    rwa [htail] at h
  · rw [List.flatten_singleton, flatten_lines]

theorem ne_nil_of_mem_segments {stream segment : Bytes} (h : segment ∈ stream.segments) :
    segment ≠ [] := by
  rcases List.mem_append.1 h with hline | htail
  · exact ne_nil_of_mem_lines hline
  · split at htail
    · cases htail
    · rename_i hne
      rwa [List.mem_singleton.1 htail]

theorem segments_of_cutLine?_eq_some {stream line rest : Bytes}
    (h : stream.cutLine? = some (line, rest)) : stream.segments = line :: rest.segments := by
  simp only [segments, lines_of_cutLine?_eq_some h, List.cons_append]

theorem segments_of_cutLine?_eq_none {stream : Bytes} (h : stream.cutLine? = none) :
    stream.segments = if stream = [] then [] else [stream] := by
  simp only [segments, lines_of_cutLine?_eq_none h, List.nil_append]

/-- What is taken off a stream as its first line is its first segment. -/
theorem cutLine?_getD_eq (stream : Bytes) :
    stream.cutLine?.getD (stream, []) = (stream.segments.head?.getD [], stream.segments.tail.flatten) := by
  cases hcut : stream.cutLine? with
  | some parts =>
    rw [segments_of_cutLine?_eq_some hcut, List.tail_cons, flatten_segments]
    rfl
  | none =>
    rw [segments_of_cutLine?_eq_none hcut]
    by_cases hnil : stream = []
    · subst hnil
      rfl
    · rw [if_neg hnil]
      rfl

theorem segments_tail_flatten (stream : Bytes) :
    segments stream.segments.tail.flatten = stream.segments.tail := by
  cases hcut : stream.cutLine? with
  | some parts => rw [segments_of_cutLine?_eq_some hcut, List.tail_cons, flatten_segments]
  | none =>
    rw [segments_of_cutLine?_eq_none hcut]
    split <;> rfl

end Bytes

namespace Client

/-- A peer that keeps what it is sent, and does not answer it. -/
def recorder : Peer (List Bytes) := fun octets seen => ([], seen ++ [octets])

/-- A connection on which the peer writes a stream, whatever it is sent, and ends its side. -/
def Link.recording (stream : Bytes) : Link (List Bytes) where
  peer := []
  unread := stream

/-- The octets that a call sends, if it sends any. -/
def Call.octets? (call : Call) : Option Bytes :=
  call.line.toOption.map fun line => Utf8.encode line ++ [lineFeed]

/-- Whether a failure tells of an argument that cannot be sent. -/
def Failure.IsLocal : Failure → Prop
  | .argument _ => True
  | .protocol fault => fault = .keyTooLong
  | _ => False

/-! ### What is sent -/

theorem checkWord_eq_error {part : Part} {text : String} {failure : Failure}
    (h : checkWord part text = .error failure) : failure.IsLocal := by
  rw [checkWord] at h
  split at h
  · cases h
    trivial
  · split at h
    · cases h
      trivial
    · cases h

theorem of_bind_eq_error {ε α β : Type} {first : Except ε α} {next : α → Except ε β} {cause : ε}
    (h : first >>= next = .error cause) :
    first = .error cause ∨ ∃ a, first = .ok a ∧ next a = .error cause := by
  cases first with
  | error e =>
    cases h
    exact .inl rfl
  | ok a => exact .inr ⟨a, rfl, h⟩

theorem checkKey_eq_error {key : String} {failure : Failure} (h : checkKey key = .error failure) :
    failure.IsLocal := by
  rcases of_bind_eq_error h with hword | ⟨_, -, hfits⟩
  · exact checkWord_eq_error hword
  · by_cases hkey : KeyFits key
    · cases (if_pos hkey).symm.trans hfits
    · cases (if_neg hkey).symm.trans hfits
      rfl

theorem Call.isLocal_of_line {call : Call} {failure : Failure} (h : call.line = .error failure) :
    failure.IsLocal := by
  cases call with
  | create key value | update key value =>
    rcases of_bind_eq_error h with hkey | ⟨_, -, hrest⟩
    · exact checkKey_eq_error hkey
    · rcases of_bind_eq_error hrest with hvalue | ⟨_, -, hline⟩
      · exact checkWord_eq_error hvalue
      · cases hline
  | read key | delete key =>
    rcases of_bind_eq_error h with hkey | ⟨_, -, hline⟩
    · exact checkKey_eq_error hkey
    · cases hline
  | request line =>
    rw [Call.line] at h
    split at h
    · cases h
      trivial
    · cases h

/-- The line of a call has no line feed in it but the one at its end. -/
theorem Call.lineFeed_notMem {call : Call} {line : String} (h : call.line = .ok line) :
    lineFeed ∉ Utf8.encode line := by
  have hoperation (operation : Store.Operation) (h : operation.call.line = .ok line) :
      lineFeed ∉ Utf8.encode line := fun hmem =>
    (carries_of_line_eq_ok h).1.no_lineFeed (Utf8.lineFeed_mem_encode.1 hmem)
  cases call with
  | create key value => exact hoperation (.insert key value) h
  | read key => exact hoperation (.search key) h
  | update key value => exact hoperation (.update key value) h
  | delete key => exact hoperation (.delete key) h
  | request text =>
    rw [Call.line] at h
    split at h
    · cases h
    · rename_i hfeed
      cases h
      exact fun hmem => hfeed (Utf8.lineFeed_mem_encode.1 hmem)

/-! ### One call -/

/-- How a call can end that has been answered by a line. -/
theorem Call.ofOctets_cases (call : Call) {segment : Bytes} (h : segment ≠ []) :
    (∃ answer, call.ofOctets segment = .ok answer) ∨
      call.ofOctets segment = .error (.protocol .unexpectedResponse) ∨
      call.ofOctets segment = .error (.network .malformedText) := by
  rw [ofOctets, textOf, if_neg h]
  cases Utf8.decode? segment with
  | none => exact .inr (.inr rfl)
  | some text =>
    simp only [Except.bind, interpret]
    cases call.command? with
    | none => exact .inl ⟨_, rfl⟩
    | some command =>
      cases hdecode : Reply.decode command (trimLineEnd text) with
      | ok reply => exact .inl ⟨_, by simp only [hdecode]; rfl⟩
      | error fault =>
        obtain ⟨rfl, -⟩ := Reply.decode_eq_error_iff.1 hdecode
        exact .inr (.inl (by simp only [hdecode]; rfl))

/-- What a call does that is sent when this is the next segment of the stream, if there is a next one. -/
structure Link.Exchanges (link : Link (List Bytes)) (call : Call) (segment? : Option Bytes) : Prop where
  /-- One line is sent. -/
  sent : ∃ body, lineFeed ∉ body ∧ call.octets? = some (body ++ [lineFeed]) ∧
    (link.call recorder call).2.peer = link.peer ++ [body ++ [lineFeed]]
  /-- The segment is read, and nothing else. -/
  taken : link.unread = segment?.getD [] ++ (link.call recorder call).2.unread
  answered : ∀ segment, segment? = some segment →
    (link.call recorder call).1 = call.ofOctets segment ∧
      ((∃ answer, call.ofOctets segment = .ok answer) ∨
        call.ofOctets segment = .error (.protocol .unexpectedResponse) ∨
        call.ofOctets segment = .error (.network .malformedText))
  closed : segment? = none → (link.call recorder call).1 = .error .closed

section

variable {link : Link (List Bytes)} {call : Call} {line : String} (h : call.line = .ok line)
include h

theorem Call.octets?_of_line : call.octets? = some (Utf8.encode line ++ [lineFeed]) := by
  rw [octets?, h]
  rfl

theorem Link.call_recorder :
    link.call recorder call =
      (call.ofOctets (link.unread.segments.head?.getD []),
        { peer := link.peer ++ [Utf8.encode line ++ [lineFeed]]
          unread := link.unread.segments.tail.flatten }) := by
  have hpeer : recorder (Utf8.encode line ++ [lineFeed]) link.peer =
      ([], link.peer ++ [Utf8.encode line ++ [lineFeed]]) := rfl
  rw [Link.call_of_sent h hpeer, List.append_nil, readLine_eq, Bytes.cutLine?_getD_eq]
  rfl

theorem Link.segments_call_recorder :
    (link.call recorder call).2.unread.segments = link.unread.segments.tail := by
  rw [Link.call_recorder h]
  exact Bytes.segments_tail_flatten link.unread

theorem Link.exchanges : link.Exchanges call link.unread.segments.head? := by
  have hunread := Bytes.flatten_segments link.unread
  have hcall : link.call recorder call = _ := Link.call_recorder h
  constructor
  · refine ⟨Utf8.encode line, Call.lineFeed_notMem h, Call.octets?_of_line h, ?_⟩
    rw [hcall]
  · rw [hcall]
    refine hunread.symm.trans ?_
    cases link.unread.segments <;> rfl
  · intro segment hsegment
    rw [hcall, hsegment]
    exact ⟨rfl, Call.ofOctets_cases call (Bytes.ne_nil_of_mem_segments (List.mem_of_mem_head? hsegment))⟩
  · intro hnone
    rw [hcall, hnone]
    rfl

end

/-! ### Runs -/

section

variable {σ : Type} (peer : Peer σ)

theorem Link.callAll_append (before after : List Call) (link : Link σ) :
    Link.callAll peer (before ++ after) link =
      let first := Link.callAll peer before link
      let second := Link.callAll peer after first.2
      (first.1 ++ second.1, second.2) := by
  induction before generalizing link with
  | nil => rfl
  | cons call before ih => simp only [List.cons_append, Link.callAll, ih]

theorem Link.length_callAll (calls : List Call) (link : Link σ) :
    (Link.callAll peer calls link).1.length = calls.length := by
  induction calls generalizing link with
  | nil => rfl
  | cons call calls ih => simp only [Link.callAll, List.length_cons, ih]

/-- Calls that are not sent can be left out. -/
theorem Link.callAll_pick {calls : List Call} {marks : List Bool}
    (h : List.Forall₂ (fun call mark => call.line.isOk → mark = true) calls marks) (link : Link σ) :
    Link.callAll peer (pick marks calls) link =
      (pick marks (Link.callAll peer calls link).1, (Link.callAll peer calls link).2) := by
  induction h generalizing link with
  | nil => rfl
  | @cons call mark calls marks hmark _ ih =>
    cases mark with
    | true => simp only [pick_cons_true, Link.callAll, ih]
    | false =>
      obtain ⟨failure, hfailure⟩ := Call.exists_failure fun hsent => Bool.false_ne_true (hmark hsent)
      simp only [pick_cons_false, Link.callAll, Link.call_of_error hfailure, ih]

end

/-- What calls leave of a stream are the segments after as many as there were lines sent. -/
theorem Link.segments_callAll (calls : List Call) (link : Link (List Bytes)) :
    (Link.callAll recorder calls link).2.unread.segments =
      link.unread.segments.drop (sentCount calls) := by
  induction calls generalizing link with
  | nil => rfl
  | cons call calls ih =>
    simp only [Link.callAll, ih]
    cases hline : call.line with
    | error failure => rw [Link.call_of_error hline, sentCount_cons_of_error calls hline]
    | ok line =>
      rw [Link.segments_call_recorder hline, sentCount_cons_of_ok calls hline, List.drop_tail]

theorem Link.peer_callAll (calls : List Call) (link : Link (List Bytes)) :
    (Link.callAll recorder calls link).2.peer = link.peer ++ calls.filterMap Call.octets? := by
  induction calls generalizing link with
  | nil => exact (List.append_nil _).symm
  | cons call calls ih =>
    simp only [Link.callAll, ih]
    cases hline : call.line with
    | error failure =>
      have hnone : call.octets? = none := by
        rw [Call.octets?, hline]
        rfl
      rw [Link.call_of_error hline, List.filterMap_cons_none hnone]
    | ok line =>
      rw [Link.call_recorder hline, List.filterMap_cons_some (Call.octets?_of_line hline),
        List.append_assoc]
      rfl

/-- Calls stay in step with the lines that answer them. Those that fail their checks can be left out, whoever
the peer is: the others are answered as before, and leave the same. On a stream that has ended, each call that
is sent finds the segments after as many as there were calls sent before it. It sends one line and takes the
first of these segments, whatever comes of it, and only if there is none the connection is closed to it. -/
theorem Link.callAll_in_step (stream : Bytes) (calls : List Call) :
    (∀ marks, List.Forall₂ (fun call mark => call.line.isOk → mark = true) calls marks →
      ∀ {σ : Type} (peer : Peer σ) (link : Link σ),
        Link.callAll peer (pick marks calls) link =
          (pick marks (Link.callAll peer calls link).1, (Link.callAll peer calls link).2)) ∧
    (Link.callAll recorder calls (.recording stream)).2.peer = calls.filterMap Call.octets? ∧
    ∀ before call after, calls = before ++ call :: after →
      let link := (Link.callAll recorder before (.recording stream)).2
      link.unread = (stream.segments.drop (sentCount before)).flatten ∧
      (Link.callAll recorder calls (.recording stream)).1[before.length]? =
        some (link.call recorder call).1 ∧
      (∀ failure, call.line = .error failure →
        failure.IsLocal ∧ link.call recorder call = (.error failure, link)) ∧
      (call.line.isOk → link.Exchanges call stream.segments[sentCount before]?) := by
  refine ⟨fun marks hmarks σ peer link => Link.callAll_pick peer hmarks link,
    Link.peer_callAll calls (.recording stream), ?_⟩
  rintro before call after rfl
  intro link
  have hsegments : link.unread.segments = stream.segments.drop (sentCount before) :=
    Link.segments_callAll before (.recording stream)
  refine ⟨?_, ?_, fun failure hline => ⟨Call.isLocal_of_line hline, Link.call_of_error hline⟩,
    fun hsent => ?_⟩
  · rw [← hsegments, Bytes.flatten_segments]
  · rw [Link.callAll_append, List.getElem?_append_right (Link.length_callAll ..).le,
      Link.length_callAll, Nat.sub_self]
    rfl
  · obtain ⟨line, hline⟩ := Call.exists_line hsent
    have hexchanges : link.Exchanges call _ := Link.exchanges hline
    rwa [hsegments, List.head?_drop] at hexchanges

/-- A line that is no text and a reply to another command are taken by the calls that they answer. The next
call finds the stream ended, with or without a call before them that is not sent. -/
theorem Link.callAll_in_step_faults :
    let stream := [0xff, lineFeed] ++ Reply.created.encode
    let calls : List Call := [.create "two words" "v", .read "k", .update "k" "v", .delete "k"]
    let link := (Link.callAll recorder (calls.take 3) (.recording stream)).2
    link.Exchanges (.delete "k") none ∧
      (Link.callAll recorder (calls.drop 1) (.recording stream)).1 =
        [.error (.network .malformedText), .error (.protocol .unexpectedResponse), .error .closed] := by
  intro stream calls link
  obtain ⟨hpick, -, hcalls⟩ := callAll_in_step stream calls
  have hmarks : List.Forall₂ (fun call mark => call.line.isOk → mark = true) calls
      [false, true, true, true] :=
    .cons (fun hsent => by cases hsent) (.cons (fun _ => rfl) (.cons (fun _ => rfl) (.cons (fun _ => rfl) .nil)))
  refine ⟨(hcalls (calls.take 3) (.delete "k") [] rfl).2.2.2 rfl, ?_⟩
  exact congrArg Prod.fst (hpick _ hmarks recorder (.recording stream))

end Client

end LineStore

import LineStore.Proofs.Client.Lines
import LineStore.Proofs.Client.Reading
import LineStore.Proofs.Wire.Requests

/-!
Calls on a stream that may end anywhere.

The peer writes a stream and ends its side. The calls that are sent take the lines of the stream, one line
each, and the call that comes when there are no more takes the unfinished line as if it had ended. The first
octets of a reply can so be taken for a reply that nobody gave.
-/

namespace LineStore.Client

/-- A peer that does not look at what it is sent. -/
def silent : Peer Unit := fun _ peer => ([], peer)

/-- A connection on which the peer writes a stream and ends its side. -/
def Link.onStream (stream : Bytes) : Link Unit where
  peer := ()
  unread := stream

/-- How many of some calls pass their checks, so that their lines are sent. -/
def sentCount (calls : List Call) : Nat :=
  calls.countP fun call => call.line.isOk

/-- What a call makes of octets that it takes for a line. -/
def Call.ofOctets (call : Call) (octets : Bytes) : Except Failure Answer :=
  (textOf octets).bind call.interpret

/-! ### One call -/

theorem Call.exists_failure {call : Call} (h : ¬ call.line.isOk) :
    ∃ failure, call.line = .error failure := by
  cases hline : call.line with
  | ok line => exact absurd (by rw [hline]; rfl) h
  | error failure => exact ⟨failure, rfl⟩

theorem silent_apply (octets : Bytes) (peer : Unit) : silent octets peer = ([], peer) := rfl

section

variable {link : Link Unit} {call : Call} (h : call.line.isOk)
include h

theorem Call.exists_line : ∃ line, call.line = .ok line := by
  cases hline : call.line with
  | ok line => exact ⟨line, rfl⟩
  | error failure =>
    rw [hline] at h
    cases h

theorem Link.call_silent_of_line {line rest : Bytes} (hcut : link.unread.cutLine? = some (line, rest)) :
    link.call silent call = (call.ofOctets line, { link with unread := rest }) := by
  obtain ⟨text, htext⟩ := Call.exists_line h
  rw [Link.call_of_sent htext (silent_apply _ _), List.append_nil, readLine_eq, hcut]
  rfl

theorem Link.call_silent_of_unfinished (hfeed : lineFeed ∉ link.unread) :
    link.call silent call = (call.ofOctets link.unread, { link with unread := [] }) := by
  obtain ⟨text, htext⟩ := Call.exists_line h
  rw [Link.call_of_sent htext (silent_apply _ _), List.append_nil, readLine_of_unfinished hfeed]
  rfl

/-- What a call leaves: the lines but the first. After the last line the unfinished one is used up too. -/
theorem Link.lines_call_silent :
    (link.call silent call).2.unread.lines =
      (link.unread.lines.1.drop 1,
        if link.unread.lines.1.length = 0 then [] else link.unread.lines.2) := by
  cases hcut : link.unread.cutLine? with
  | none =>
    have hfeed := Bytes.cutLine?_eq_none_iff.1 hcut
    rw [Link.call_silent_of_unfinished h hfeed, Bytes.lines_of_cutLine?_eq_none hcut]
    rfl
  | some parts =>
    obtain ⟨line, rest⟩ := parts
    rw [Link.call_silent_of_line h hcut, Bytes.lines_of_cutLine?_eq_some hcut]
    rfl

end

/-! ### Runs -/

section

variable {call : Call} (calls : List Call)

theorem sentCount_cons_of_error {failure : Failure} (h : call.line = .error failure) :
    sentCount (call :: calls) = sentCount calls := by
  rw [sentCount, List.countP_cons, h]
  rfl

theorem sentCount_cons_of_ok {line : String} (h : call.line = .ok line) :
    sentCount (call :: calls) = sentCount calls + 1 := by
  rw [sentCount, List.countP_cons, h]
  rfl

end

/-- What calls leave of a stream depends only on how many of them are sent. -/
theorem Link.lines_callAll_silent (calls : List Call) (link : Link Unit) :
    (Link.callAll silent calls link).2.unread.lines =
      (link.unread.lines.1.drop (sentCount calls),
        if link.unread.lines.1.length < sentCount calls then [] else link.unread.lines.2) := by
  induction calls generalizing link with
  | nil => rfl
  | cons call calls ih =>
    simp only [Link.callAll, ih]
    cases hline : call.line with
    | error failure => rw [Link.call_of_error hline, sentCount_cons_of_error calls hline]
    | ok line =>
      have hsent : call.line.isOk = true := by rw [hline]; rfl
      rw [Link.lines_call_silent hsent, sentCount_cons_of_ok calls hline]
      cases link.unread.lines.1 with
      | nil => simp
      | cons line lines => simp

/-- While fewer calls are sent than the stream has lines a whole line is left, then the unfinished one, then
nothing. -/
theorem Link.unread_callAll_silent (stream : Bytes) (calls : List Call) :
    let unread := (Link.callAll silent calls (.onStream stream)).2.unread
    (lineFeed ∈ unread ↔ sentCount calls < stream.lines.1.length) ∧
      (sentCount calls = stream.lines.1.length → unread = stream.lines.2) ∧
      (stream.lines.1.length < sentCount calls → unread = []) := by
  intro unread
  have hlines : unread.lines = (stream.lines.1.drop (sentCount calls),
      if stream.lines.1.length < sentCount calls then [] else stream.lines.2) :=
    Link.lines_callAll_silent calls (.onStream stream)
  have hmem : lineFeed ∈ unread ↔ sentCount calls < stream.lines.1.length := by
    rw [← not_iff_not, ← Bytes.lines_fst_eq_nil_iff, hlines, List.drop_eq_nil_iff, Nat.not_lt]
  have hrest (hle : stream.lines.1.length ≤ sentCount calls) :
      unread = if stream.lines.1.length < sentCount calls then [] else stream.lines.2 := by
    have hfeed : lineFeed ∉ unread := fun h => Nat.not_lt.2 hle (hmem.1 h)
    rw [Bytes.lines_of_cutLine?_eq_none (Bytes.cutLine?_eq_none_iff.2 hfeed)] at hlines
    exact congrArg Prod.snd hlines
  refine ⟨hmem, fun hcount => ?_, fun hcount => ?_⟩
  · rw [hrest (Nat.le_of_eq hcount.symm), if_neg (Nat.not_lt.2 (Nat.le_of_eq hcount))]
  · rw [hrest (Nat.le_of_lt hcount), if_pos hcount]

/-! ### When a call succeeds -/

/-- Whether a call, should it succeed, has been answered by a line that has ended. -/
def Link.AnswersInFull (link : Link Unit) (call : Call) : Prop :=
  ∀ answer, (link.call silent call).1 = .ok answer →
    ∃ body, lineFeed ∉ body ∧ link.unread = body ++ lineFeed :: (link.call silent call).2.unread

theorem Link.answersInFull_iff_of_sent {link : Link Unit} {call : Call} (h : call.line.isOk) :
    link.AnswersInFull call ↔
      lineFeed ∈ link.unread ∨ ¬ ∃ answer, call.ofOctets link.unread = .ok answer := by
  rw [Link.AnswersInFull]
  cases hcut : link.unread.cutLine? with
  | none =>
    have hfeed := Bytes.cutLine?_eq_none_iff.1 hcut
    rw [Link.call_silent_of_unfinished h hfeed]
    constructor
    · rintro hwhole
      refine .inr fun ⟨answer, hanswer⟩ => ?_
      obtain ⟨body, -, hbody⟩ := hwhole answer hanswer
      exact hfeed (hbody ▸ List.mem_append_right body (List.mem_cons_self ..))
    · rintro (hmem | hfails) answer hanswer
      · exact absurd hmem hfeed
      · exact absurd ⟨answer, hanswer⟩ hfails
  | some parts =>
    obtain ⟨line, rest⟩ := parts
    obtain ⟨body, rfl, hbody⟩ := Bytes.exists_body_of_cutLine?_eq_some hcut
    have hunread : link.unread = body ++ lineFeed :: rest := by
      rw [← Bytes.append_of_cutLine?_eq_some hcut, List.append_assoc]
      rfl
    rw [Link.call_silent_of_line h hcut]
    refine ⟨fun _ => .inl ?_, fun _ _ _ => ⟨body, hbody, hunread⟩⟩
    exact hunread ▸ List.mem_append_right body (List.mem_cons_self ..)

/-- Octets that begin the reply to a read, and are not all of it, are read as the value that they spell. -/
theorem Call.ofOctets_of_cut {limit : Nat} {key value text : String} (hvalue : Storable limit value)
    (hcut : Utf8.encode text <+: Utf8.encode value) (htext : text ≠ "") :
    (Call.read key).ofOctets (Utf8.encode text) = .ok (.reply (.value (trimLineEnd text))) := by
  have hspace : ' ' ∉ text.toList := by
    intro hmem
    have hoctet := (Utf8.mem_encode_iff (by decide : (32 : UInt8).toNat < 0x80)).2 hmem
    exact hvalue.no_space ((Utf8.mem_encode_iff (by decide)).1 (hcut.subset hoctet))
  rw [Call.ofOctets, textOf_eq_ok_iff.2 ⟨text, htext, rfl, rfl⟩]
  exact Call.interpret_read_trimLineEnd key hspace

theorem Link.answersInFull_onStream (stream : Bytes) (before : List Call) (call : Call) :
    (Link.callAll silent before (.onStream stream)).2.AnswersInFull call ↔
      ¬ (call.line.isOk ∧ sentCount before = stream.lines.1.length ∧
        ∃ answer, call.ofOctets stream.lines.2 = .ok answer) := by
  by_cases hsent : call.line.isOk
  · obtain ⟨hmem, hlast, hnone⟩ := Link.unread_callAll_silent stream before
    rw [Link.answersInFull_iff_of_sent hsent, hmem]
    rcases Nat.lt_trichotomy (sentCount before) stream.lines.1.length with hlt | heq | hgt
    · exact ⟨fun _ hunfinished => Nat.ne_of_lt hlt hunfinished.2.1, fun _ => .inl hlt⟩
    · simp only [hlast heq, hsent, heq, Nat.lt_irrefl, false_or, true_and]
    · refine ⟨fun _ hunfinished => Nat.ne_of_gt hgt hunfinished.2.1, fun _ => .inr ?_⟩
      rintro ⟨answer, hanswer⟩
      rw [hnone hgt] at hanswer
      cases hanswer
  · obtain ⟨failure, hfailure⟩ := Call.exists_failure hsent
    rw [Link.AnswersInFull, Link.call_of_error hfailure]
    exact ⟨fun _ hunfinished => hsent hunfinished.1, fun _ _ hanswer => by cases hanswer⟩

theorem Link.call_read_of_cut {link : Link Unit} {limit : Nat} {key value : String}
    (hsent : (Call.read key).line.isOk) (hvalue : Storable limit value)
    (hcut : link.unread <+: (Reply.value value).encode)
    (hproper : link.unread ≠ (Reply.value value).encode) :
    (∀ text, (link.call silent (.read key)).1 ≠ .ok (.reply (.value text))) ↔
      ∀ text, text ≠ "" → link.unread ≠ Utf8.encode text := by
  have hbegins : link.unread <+: Utf8.encode value :=
    (List.prefix_concat_iff.1 hcut).resolve_left hproper
  have hfeed : lineFeed ∉ link.unread := fun hmem =>
    hvalue.no_lineFeed (Utf8.lineFeed_mem_encode.1 (hbegins.subset hmem))
  rw [Link.call_silent_of_unfinished hsent hfeed]
  constructor
  · intro hfails text htext heq
    rw [heq] at hfails hbegins
    exact hfails _ (Call.ofOctets_of_cut hvalue hbegins htext)
  · intro hspells text hanswer
    obtain ⟨line, hread, -⟩ := exists_of_bind_eq_ok hanswer
    obtain ⟨spelled, hne, heq, -⟩ := textOf_eq_ok_iff.1 hread
    exact hspells spelled hne heq

/-- A call that succeeds has been answered by a line that has ended, unless it took an unfinished one for it:
it was sent after as many calls as the stream has lines, and could make something of the octets after these.
A read of a value of which the reply is cut off succeeds whenever an octet has arrived and the cut does not
go through a character. -/
theorem Link.answersInFull_iff (stream : Bytes) (before : List Call) (call : Call) :
    let link := (Link.callAll silent before (.onStream stream)).2
    (link.AnswersInFull call ↔
      ¬ (call.line.isOk ∧ sentCount before = stream.lines.1.length ∧
        ∃ answer, call.ofOctets stream.lines.2 = .ok answer)) ∧
    ∀ limit key value, call = .read key → call.line.isOk → Storable limit value →
      link.unread <+: (Reply.value value).encode → link.unread ≠ (Reply.value value).encode →
      ((∀ text, (link.call silent call).1 ≠ .ok (.reply (.value text))) ↔
        ∀ text, text ≠ "" → link.unread ≠ Utf8.encode text) := by
  refine ⟨Link.answersInFull_onStream stream before call, ?_⟩
  rintro limit key value rfl hsent hvalue hcut hproper
  exact Link.call_read_of_cut hsent hvalue hcut hproper

/-- A reply that is cut off in the middle of a letter is not taken for a value. -/
theorem Link.answersInFull_iff_letter :
    let link := (Link.callAll silent [.create "k" "é"]
      (.onStream (Reply.created.encode ++ (Reply.value "é").encode.take 1))).2
    link.AnswersInFull (.read "k") ∧
      ∀ text, (link.call silent (.read "k")).1 ≠ .ok (.reply (.value text)) := by
  have hspells : ∀ text, (Reply.value "é").encode.take 1 ≠ Utf8.encode text := by
    intro text heq
    have hnone : Utf8.decode? ((Reply.value "é").encode.take 1) = none := by rfl
    rw [heq, Utf8.decode?_encode] at hnone
    cases hnone
  have hlink : (Link.callAll silent [.create "k" "é"]
      (.onStream (Reply.created.encode ++ (Reply.value "é").encode.take 1))).2 =
        .onStream ((Reply.value "é").encode.take 1) := rfl
  have hvalue : Storable 2 "é" :=
    Request.IsWord.storable ⟨by decide, by decide⟩ (by decide) (by decide)
  obtain ⟨hfull, hread⟩ := answersInFull_iff
    (Reply.created.encode ++ (Reply.value "é").encode.take 1) [.create "k" "é"] (.read "k")
  rw [hlink] at hfull hread ⊢
  refine ⟨hfull.2 fun ⟨_, _, answer, hanswer⟩ => ?_, (hread 2 "k" "é" rfl rfl hvalue
    (List.take_prefix 1 _) (by decide)).2 fun text _ => hspells text⟩
  obtain ⟨line, htext, -⟩ := exists_of_bind_eq_ok hanswer
  obtain ⟨text, -, heq, -⟩ := textOf_eq_ok_iff.1 htext
  exact hspells text heq

/-- The first three letters of a value are taken for the value. -/
theorem Link.not_answersInFull_letters :
    let link := Link.onStream ((Reply.value "hello").encode.take 3)
    (link.call silent (.read "k")).1 = .ok (.reply (.value "hel")) ∧ ¬ link.AnswersInFull (.read "k") := by
  have hresult : (Link.onStream ((Reply.value "hello").encode.take 3)).call silent (.read "k") =
      (.ok (.reply (.value "hel")), .onStream []) := rfl
  refine ⟨congrArg Prod.fst hresult, fun hfull => ?_⟩
  obtain ⟨body, -, hbody⟩ := hfull _ (congrArg Prod.fst hresult)
  have hmem : lineFeed ∈ (Link.onStream ((Reply.value "hello").encode.take 3)).unread :=
    hbody ▸ List.mem_append_right body (List.mem_cons_self ..)
  exact absurd hmem (by decide)

end LineStore.Client

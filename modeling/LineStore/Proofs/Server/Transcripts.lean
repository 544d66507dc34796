import LineStore.Proofs.Server.Arrivals
import LineStore.Server.Transcript
import Mathlib.Data.List.TakeWhile

/-!
The frames that a connection answers are the lines of a transcript.
-/

namespace LineStore.Server

theorem asksToClose_ofLine {line : Bytes} : (Frame.ofLine line).AsksToClose ↔ line.IsBareLine := by
  rw [Frame.ofLine]
  split
  · rfl
  · rename_i hlong
    refine ⟨False.elim, fun hbare => hlong ?_⟩
    rcases hbare with rfl | rfl <;> decide

theorem takeWhile_stays_append (frames more : List Frame) :
    (frames ++ more).takeWhile (fun frame => ¬ frame.AsksToClose) =
      frames.takeWhile (fun frame => ¬ frame.AsksToClose) ++
        if ∃ frame ∈ frames, frame.AsksToClose then []
        else more.takeWhile fun frame => ¬ frame.AsksToClose := by
  induction frames with
  | nil => simp
  | cons frame frames ih =>
    by_cases hclose : frame.AsksToClose
    · simp [hclose]
    · simpa [hclose] using ih

namespace Transcript

/-! ### Frames -/

/-- What a frame is answered, and the store after it. -/
def answerFrame : Frame → Store → Reply × Store
  | .line bytes, store => answerLine bytes store
  | .overlong, store => (.invalidCommand, store)

def ofFrames : List Frame → Store → Transcript
  | [], store => { replies := [], store }
  | frame :: rest, store =>
    let (reply, store) := answerFrame frame store
    let later := ofFrames rest store
    { later with replies := reply :: later.replies }

variable {frames : List Frame} {store : Store}

theorem ofFrames_append (frames more : List Frame) (store : Store) :
    ofFrames (frames ++ more) store =
      { replies := (ofFrames frames store).replies ++ (ofFrames more (ofFrames frames store).store).replies
        store := (ofFrames more (ofFrames frames store).store).store } := by
  induction frames generalizing store with
  | nil => rfl
  | cons frame frames ih =>
    simp only [List.cons_append, ofFrames, ih]

theorem ofFrames_concat {replies : List Reply} {last : Store}
    (h : ofFrames frames store = { replies, store := last }) (frame : Frame) :
    ofFrames (frames ++ [frame]) store =
      { replies := replies ++ [(answerFrame frame last).1], store := (answerFrame frame last).2 } := by
  rw [ofFrames_append, h]
  rfl

theorem length_ofFrames (frames : List Frame) (store : Store) :
    (ofFrames frames store).replies.length = frames.length := by
  induction frames generalizing store with
  | nil => rfl
  | cons frame frames ih => simp only [ofFrames, List.length_cons, ih]

theorem answerFrame_ofLine (line : Bytes) (store : Store) :
    answerFrame (.ofLine line) store = answerLine line store := by
  by_cases hlength : line.length ≤ maxLineBytes
  · rw [Frame.ofLine_of_length_le hlength, answerFrame]
  · rw [Frame.ofLine_of_lt_length (Nat.lt_of_not_le hlength), answerFrame, answerLine, if_neg hlength]

theorem ofFrames_map_ofLine (lines : List Bytes) (store : Store) :
    ofFrames (lines.map .ofLine) store = ofLines lines store := by
  induction lines generalizing store with
  | nil => rfl
  | cons line lines ih => simp only [List.map_cons, ofFrames, ofLines, answerFrame_ofLine, ih]

/-! ### The frames of a stream -/

theorem not_closes_iff {stream : Bytes} : ¬ Closes stream ↔ heard stream = stream.lines.1 := by
  rw [heard, List.takeWhile_eq_self_iff, Closes]
  simp only [not_exists, not_and, decide_eq_true_eq]

theorem heard_eq (stream : Bytes) :
    Connection.heard stream =
      (heard stream).map .ofLine ++ if Closes stream then [] else (Frame.ofTail? stream.lines.2).toList := by
  have hlines : (stream.lines.1.map Frame.ofLine).takeWhile (fun frame => ¬ frame.AsksToClose) =
      (heard stream).map .ofLine := by
    rw [List.takeWhile_map, heard]
    congr 2
    funext line
    exact decide_eq_decide.2 (not_congr asksToClose_ofLine)
  have htail : (Frame.ofTail? stream.lines.2).toList.takeWhile (fun frame => ¬ frame.AsksToClose) =
      (Frame.ofTail? stream.lines.2).toList := by
    rw [Frame.ofTail?]
    split <;> rfl
  have hcloses : (∃ frame ∈ stream.lines.1.map Frame.ofLine, frame.AsksToClose) ↔ Closes stream := by
    simp only [List.mem_map, exists_exists_and_eq_and, asksToClose_ofLine, Closes]
  simp only [Connection.heard, Frame.ofStream, takeWhile_stays_append, hlines, htail, hcloses]

/-- A transcript is what comes of answering the frames that are heard. -/
theorem ofStream_eq (stream : Bytes) (store : Store) :
    ofStream stream store = ofFrames (Connection.heard stream) store := by
  rw [heard_eq, ofFrames_append, ofFrames_map_ofLine, ofStream]
  by_cases hcloses : Closes stream
  · simp [hcloses, ofFrames]
  · by_cases hlength : maxLineBytes ≤ stream.lines.2.length
    · simp [hcloses, hlength, Frame.ofTail?, if_neg (Nat.not_lt.2 hlength), ofFrames, answerFrame]
    · simp [hcloses, hlength, Frame.ofTail?, if_pos (Nat.lt_of_not_le hlength), ofFrames]

/-! ### After a bare line -/

theorem lines_prefix (stream later : Bytes) : stream.lines.1 <+: (stream ++ later).lines.1 := by
  induction stream with
  | nil => exact List.nil_prefix
  | cons b stream ih =>
    obtain ⟨more, hmore⟩ := ih
    simp only [List.cons_append, Bytes.lines, ← hmore]
    cases Bytes.lines stream with
    | mk lines tail =>
      cases lines with
      | nil => split <;> simp
      | cons line lines => split <;> simp

/-- What follows the line by which a client asks to be disconnected does not count. -/
theorem ofStream_append_of_closes {stream : Bytes} (h : Closes stream) (later : Bytes) (store : Store) :
    ofStream (stream ++ later) store = ofStream stream store := by
  obtain ⟨more, hmore⟩ := lines_prefix stream later
  have hcloses : Closes (stream ++ later) := by
    obtain ⟨line, hline, hbare⟩ := h
    exact ⟨line, hmore ▸ List.mem_append_left more hline, hbare⟩
  have hheard : heard (stream ++ later) = heard stream := by
    rw [heard, ← hmore, List.takeWhile_append, if_neg]
    · rfl
    · intro hlength
      refine not_closes_iff.2 ?_ h
      exact (List.takeWhile_prefix _).eq_of_length hlength
  simp only [ofStream, hheard, hcloses, h, not_true_eq_false, false_and, if_false]

/-! ### Responders -/

/-- A responder over a store gives the answers of a transcript. -/
theorem serveFrame_engine (latency : Span) (frame : Frame) (responder : Responder Store) :
    ∃ counters, responder.serveFrame Store.engine latency frame =
      (some (answerFrame frame responder.state).1,
        { state := (answerFrame frame responder.state).2, counters }) := by
  cases frame with
  | overlong => exact ⟨_, rfl⟩
  | line bytes =>
    rw [answerFrame, answerLine, Responder.serveFrame, Responder.answer, Responder.readFrame]
    by_cases hlength : bytes.length ≤ maxLineBytes
    · rw [if_pos hlength]
      cases Request.read bytes with
      | incomplete => exact ⟨_, rfl⟩
      | invalid => exact ⟨_, rfl⟩
      | request request =>
        simp only [Responder.react, Responder.execute, carryOut]
        cases request.operation? with
        | error fault => exact ⟨_, rfl⟩
        | ok operation => exact ⟨_, rfl⟩
    · rw [if_neg hlength, Request.read, if_pos (Nat.lt_of_not_le hlength)]
      exact ⟨_, rfl⟩

theorem exists_asksToClose_iff {stream : Bytes} :
    (∃ frame ∈ Frame.ofStream stream, frame.AsksToClose) ↔ Closes stream := by
  constructor
  · rintro ⟨frame, hframe, hclose⟩
    rcases List.mem_append.1 hframe with hline | htail
    · obtain ⟨line, hmem, rfl⟩ := List.mem_map.1 hline
      exact ⟨line, hmem, asksToClose_ofLine.1 hclose⟩
    · rw [Option.mem_toList, Frame.ofTail?] at htail
      split at htail <;> cases htail
      cases hclose
  · rintro ⟨line, hline, hbare⟩
    exact ⟨_, List.mem_append_left _ (List.mem_map_of_mem hline), asksToClose_ofLine.2 hbare⟩

theorem answerFrames_engine (latency : Span) (frames : List Frame) (responder : Responder Store) :
    let answered := Connection.answerFrames Store.engine latency frames responder
    let expected := ofFrames (frames.takeWhile fun frame => ¬ frame.AsksToClose) responder.state
    answered.written = expected.replies.flatMap Reply.encode ∧
      answered.responder.state = expected.store ∧
      answered.ending? = if ∃ frame ∈ frames, frame.AsksToClose then some .dismissed else none := by
  induction frames generalizing responder with
  | nil => exact ⟨rfl, rfl, rfl⟩
  | cons frame frames ih =>
    rw [Connection.answerFrames]
    by_cases hclose : frame.AsksToClose
    · simp [hclose, ofFrames]
    · obtain ⟨counters, hserve⟩ := serveFrame_engine latency frame responder
      obtain ⟨hwritten, hstate, hending⟩ := ih { state := (answerFrame frame responder.state).2, counters }
      simp only [List.mem_cons, exists_eq_or_imp, hclose, false_or, if_false, hserve,
        List.takeWhile_cons, not_false_eq_true, decide_true, if_true, ofFrames, List.flatMap_cons]
      exact ⟨congrArg _ hwritten, hstate, hending⟩

/-- A connection that reads a stream in pieces writes the replies of the transcript. -/
theorem receiveAll_engine (latency : Span) (chunks : List Bytes) (responder : Responder Store) :
    let answered := Connection.receiveAll Store.engine latency chunks {} responder
    let expected := ofStream chunks.flatten responder.state
    answered.written = expected.replies.flatMap Reply.encode ∧
      answered.responder.state = expected.store ∧
      answered.ending? = if Closes chunks.flatten then some .dismissed else none := by
  have hanswer := answerFrames_engine latency (Frame.ofStream chunks.flatten) responder
  simp only [exists_asksToClose_iff] at hanswer
  rw [Connection.receiveAll_eq _ _ Framer.rested_empty.owed_eq, Framer.rested_empty, ofStream_eq]
  exact hanswer

end Transcript

end LineStore.Server

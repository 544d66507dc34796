import LineStore.Proofs.Wire.Framing
import LineStore.Server.Gathering

/-!
A connection answers the frames of what it has received, in whatever pieces that arrives.
-/

namespace LineStore.Server

variable {σ : Type} (engine : Store.Engine σ) (latency : Span)

namespace Connection

/-! ### Frames after frames -/

/-- What comes of going on after some frames, unless the connection has ended. -/
def Answered.andThen (answered : Answered σ) (more : Responder σ → Answered σ) : Answered σ :=
  match answered.ending? with
  | some _ => answered
  | none =>
    let later := more answered.responder
    { later with written := answered.written ++ later.written }

section

variable {answered : Answered σ} {more : Responder σ → Answered σ} (h : answered.ending? = none)
include h

theorem Answered.written_andThen :
    (answered.andThen more).written = answered.written ++ (more answered.responder).written := by
  rw [andThen, h]

theorem Answered.responder_andThen :
    (answered.andThen more).responder = (more answered.responder).responder := by
  rw [andThen, h]

theorem Answered.ending?_andThen :
    (answered.andThen more).ending? = (more answered.responder).ending? := by
  rw [andThen, h]

end

theorem Answered.ending?_eq_none_of_andThen {answered : Answered σ}
    {more : Responder σ → Answered σ} (h : (answered.andThen more).ending? = none) :
    answered.ending? = none := by
  cases hending : answered.ending? with
  | none => rfl
  | some ending =>
    rw [andThen, hending] at h
    exact absurd (hending.symm.trans h) (Option.some_ne_none ending)

theorem answerFrames_append (frames more : List Frame) (responder : Responder σ) :
    answerFrames engine latency (frames ++ more) responder =
      (answerFrames engine latency frames responder).andThen (answerFrames engine latency more) := by
  induction frames generalizing responder with
  | nil => rfl
  | cons frame frames ih =>
    rw [List.cons_append, answerFrames, answerFrames]
    by_cases hclose : frame.AsksToClose
    · rw [if_pos hclose, if_pos hclose]
      rfl
    · rw [if_neg hclose, if_neg hclose]
      cases hserve : responder.serveFrame engine latency frame with
      | mk reply? served =>
        cases reply? with
        | none => rfl
        | some reply =>
          simp only [ih, Answered.andThen]
          obtain ⟨written, after, ending?⟩ := answerFrames engine latency frames served
          cases ending? with
          | none => simp only [List.append_assoc]
          | some ending => rfl

/-! ### Pieces after pieces -/

theorem receive_eq (chunk : Bytes) (framer : Framer) (responder : Responder σ) :
    receive engine latency chunk framer responder =
      (answerFrames engine latency (framer.push chunk).owed responder,
        (framer.push chunk).drain.2) := by
  rw [receive, (framer.push chunk).drain_spec.1.symm]

theorem receiveAll_cons (chunk : Bytes) (rest : List Bytes) (framer : Framer)
    (responder : Responder σ) :
    receiveAll engine latency (chunk :: rest) framer responder =
      (answerFrames engine latency (framer.push chunk).owed responder).andThen
        (receiveAll engine latency rest (framer.push chunk).drain.2) := by
  rw [receiveAll, receive_eq]
  rfl

/-- How the octets are cut into pieces does not matter. -/
theorem receiveAll_eq {framer : Framer} (hdry : framer.owed = []) (chunks : List Bytes)
    (responder : Responder σ) :
    receiveAll engine latency chunks framer responder =
      answerFrames engine latency (framer.push chunks.flatten).owed responder := by
  induction chunks generalizing framer responder with
  | nil =>
    rw [List.flatten_nil, Framer.push_nil, hdry]
    rfl
  | cons chunk rest ih =>
    have hrest : receiveAll engine latency rest (framer.push chunk).drain.2 =
        answerFrames engine latency (((framer.push chunk).drain.2.push rest.flatten).owed) :=
      funext fun responder => ih (Framer.owed_drain _) responder
    rw [receiveAll_cons, hrest, ← answerFrames_append, List.flatten_cons, Framer.push_append,
      (framer.push chunk).drain_spec.2]

end Connection

def Guest.record (guest : Guest) (framer : Framer) (answered : Connection.Answered σ) : Guest where
  framer
  heard := guest.heard ++ answered.written
  ending? := answered.ending?

namespace Gathering

open Connection

variable {engine latency} {gathering : Gathering σ} {number : Nat} {guest : Guest}

/-! ### One guest among many -/

/-- A gathering in which some frames of one guest have been answered. -/
def record (gathering : Gathering σ) (number : Nat) (guest : Guest) (framer : Framer)
    (answered : Answered σ) : Gathering σ where
  responder := answered.responder
  guests := gathering.guests.set number (guest.record framer answered)

theorem record_nil (hguest : gathering.guests[number]? = some guest) (hopen : guest.ending? = none) :
    gathering.record number guest guest.framer { written := [], responder := gathering.responder } =
      gathering := by
  obtain ⟨responder, guests⟩ := gathering
  obtain ⟨framer, heard, ending?⟩ := guest
  obtain ⟨hlt, hget⟩ := List.getElem?_eq_some_iff.1 hguest
  cases hopen
  simp only [record, Guest.record, List.append_nil, ← hget, List.set_getElem_self]

theorem record_record {answered : Answered σ} {more : Responder σ → Answered σ}
    (h : answered.ending? = none) (framer framer' : Framer) :
    (gathering.record number guest framer answered).record number (guest.record framer answered)
        framer' (more answered.responder) =
      gathering.record number guest framer' (answered.andThen more) := by
  simp only [record, Guest.record, Answered.written_andThen h, Answered.responder_andThen h,
    Answered.ending?_andThen h, List.set_set, List.append_assoc]

theorem receive_of_open (hguest : gathering.guests[number]? = some guest)
    (hopen : guest.ending? = none) (chunk : Bytes) :
    gathering.receive engine latency number chunk =
      gathering.record number guest (guest.framer.push chunk).drain.2
        (answerFrames engine latency (guest.framer.push chunk).owed gathering.responder) := by
  simp only [receive, hguest, hopen, ↓reduceIte, receive_eq]
  rfl

/-- Pieces that arrive at one connection, and do not end it, are taken in there as by a connection on its
own. -/
theorem receiveAll_pieces (pieces : List Bytes) (hguest : gathering.guests[number]? = some guest)
    (hopen : guest.ending? = none)
    (hgoes : (Connection.receiveAll engine latency pieces guest.framer
      gathering.responder).ending? = none) :
    gathering.receiveAll engine latency (pieces.map fun piece => (number, piece)) =
      gathering.record number guest (guest.framer.drainEach pieces)
        (Connection.receiveAll engine latency pieces guest.framer gathering.responder) := by
  induction pieces generalizing gathering guest with
  | nil => exact (record_nil hguest hopen).symm
  | cons piece rest ih =>
    rw [receiveAll_cons] at hgoes ⊢
    have hfirst := Answered.ending?_eq_none_of_andThen hgoes
    rw [Answered.ending?_andThen hfirst] at hgoes
    rw [List.map_cons, receiveAll, List.foldl_cons, receive_of_open hguest hopen]
    refine (ih (List.getElem?_set_self ?_) hfirst hgoes).trans (record_record hfirst _ _)
    exact (List.getElem?_eq_some_iff.1 hguest).1

/-! ### Whole lines -/

section

variable {pieces : List Bytes} {body : Bytes} (hguest : gathering.guests[number]? = some guest)
  (hpieces : pieces.flatten = body ++ [lineFeed]) (hfeed : lineFeed ∉ body)
  (hlength : (body ++ [lineFeed]).length ≤ maxLineBytes)
  (hstays : ¬ (Frame.line (body ++ [lineFeed])).AsksToClose) {reply : Reply} {responder : Responder σ}
  (hserve : gathering.responder.serveFrame engine latency (.line (body ++ [lineFeed])) =
    (some reply, responder))
include hguest hpieces hfeed hlength hstays hserve

/-- A line that arrives at a connection that goes on, and is not in the middle of a line, gets its answer. The
other connections are left as they are. -/
theorem receiveAll_line (hopen : guest.ending? = none) (hrested : guest.framer.Rested) :
    ∃ framer : Framer, framer.Rested ∧
      gathering.receiveAll engine latency (pieces.map fun piece => (number, piece)) =
        gathering.record number guest framer { written := reply.encode, responder } := by
  have hline (more : Bytes) : (guest.framer.push (pieces.flatten ++ more)).owed =
      .line (body ++ [lineFeed]) :: Frame.ofStream more := by
    rw [hrested, hpieces, Frame.ofStream_line_append more hfeed hlength]
  have howed : (guest.framer.push pieces.flatten).owed = [.line (body ++ [lineFeed])] := by
    have hnil := hline []
    rwa [List.append_nil, Frame.ofStream_nil] at hnil
  have hanswered : Connection.receiveAll engine latency pieces guest.framer gathering.responder =
      { written := reply.encode ++ [], responder } := by
    rw [receiveAll_eq engine latency hrested.owed_eq, howed, answerFrames, if_neg hstays, hserve]
    rfl
  have hdrained : (guest.framer.drainEach pieces).Rested := by
    intro more
    have hmore := Framer.owed_push_drainEach hrested.owed_eq pieces more
    rw [hline, howed, List.singleton_append] at hmore
    exact (List.cons.inj hmore).2.symm
  refine ⟨_, hdrained, ?_⟩
  rw [receiveAll_pieces pieces hguest hopen (by rw [hanswered]), hanswered, List.append_nil]

end

theorem heard_record (hguest : gathering.guests[number]? = some guest) (framer : Framer)
    (answered : Answered σ) :
    (gathering.record number guest framer answered).heard number = guest.heard ++ answered.written := by
  rw [heard, record, List.getElem?_set_self (List.getElem?_eq_some_iff.1 hguest).1]
  rfl

/-- Whether every connection goes on, and none is in the middle of a line. -/
def AtRest (gathering : Gathering σ) : Prop :=
  ∀ guest ∈ gathering.guests, guest.ending? = none ∧ guest.framer.Rested

theorem AtRest.record (h : gathering.AtRest) (number : Nat) (guest : Guest) {framer : Framer}
    (hrested : framer.Rested) {answered : Answered σ} (hopen : answered.ending? = none) :
    (gathering.record number guest framer answered).AtRest := by
  intro other hother
  rcases List.mem_or_eq_of_mem_set hother with hmem | rfl
  · exact h other hmem
  · exact ⟨hopen, hrested⟩

end Gathering

end LineStore.Server

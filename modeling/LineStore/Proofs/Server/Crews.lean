import LineStore.Proofs.Telemetry.Balance
import LineStore.Proofs.Wire.Framing
import LineStore.Proofs.Wire.Reading
import LineStore.Server.Crew

/-!
The counters of a crew tell what its workers have done.

To the counters a crew is some traffic: every step of a worker is a step of the traffic, or nothing to it.
So the account of the traffic is the account of the crew.
-/

namespace LineStore

namespace Responder

theorem readFrame_ne_incomplete {frame : Frame} (h : frame.Whole) : readFrame frame ≠ .incomplete := by
  cases frame with
  | overlong => simp [readFrame]
  | line bytes =>
    obtain ⟨body, rfl, hfeed, hlength⟩ := h
    exact Request.read_ne_incomplete hfeed hlength

theorem react_ne_wait {σ : Type} {engine : Store.Engine σ} {reading : Reading} {state state' : σ}
    (h : reading ≠ .incomplete) : react engine reading state ≠ (.wait, state') := by
  cases reading with
  | incomplete => exact absurd rfl h
  | invalid => simp [react]
  | request request =>
    rw [react, execute]
    split
    · simp
    · split <;> simp

end Responder

namespace Server

def Seat.duty : Seat → Telemetry.Duty
  | idle => .idle
  | serving .. => .connected
  | executing .. => .executing
  | broken => .broken

def Hand.clerk (hand : Hand) : Telemetry.Clerk where
  duty := hand.post.duty
  due := hand.due

namespace Hand

variable {hand : Hand}

theorem executes_of_inRequest_eq_false (h : hand.inRequest = false) :
    hand.post.duty.executes = false := by
  obtain ⟨post, due⟩ := hand
  cases post with
  | executing framer reading => cases h
  | _ => rfl

theorem eq_of_mem_due (h : hand.inRequest = false) {update : Telemetry.Update}
    (hdue : update ∈ hand.due) : update = .accept ∨ update = .close := by
  obtain ⟨post, due⟩ := hand
  have hany : (due.any fun update => update ≠ .accept ∧ update ≠ .close) = false := by
    cases post with
    | executing framer reading => cases h
    | _ => exact h
  have hnot := List.any_eq_false.1 hany update hdue
  rwa [decide_eq_true_eq, not_and_or, not_not, not_not] at hnot

/-- A connection is served from when its beginning has been counted until its end has been. -/
theorem attends_add (h : hand.clerk.Placed) :
    hand.post.duty.attends.toNat + hand.due.count .close =
      hand.serves.toNat + hand.due.count .accept := by
  obtain ⟨errand, old, hleads, hdue⟩ := h
  obtain ⟨post, due⟩ := hand
  have hone {update : Telemetry.Update} (h : due <:+ [update]) : due = [update] ∨ due = [] := by
    rwa [List.suffix_cons_iff, List.suffix_nil] at h
  -- the changes of a request are none of these two
  have hnone (h : ∀ update ∈ errand.events.flatMap Telemetry.Event.updates,
      update ≠ .accept ∧ update ≠ .close) : due.count .accept = 0 ∧ due.count .close = 0 :=
    ⟨List.count_eq_zero.2 fun hmem => (h _ (hdue.subset hmem)).1 rfl,
      List.count_eq_zero.2 fun hmem => (h _ (hdue.subset hmem)).2 rfl⟩
  cases post with
  | idle =>
    cases hleads
    rcases hone hdue with rfl | rfl <;> rfl
  | serving framer phase =>
    cases hleads with
    | accept => rcases hone hdue with rfl | rfl <;> rfl
    | answer isError latency =>
      obtain ⟨haccept, hclose⟩ := hnone (by
        cases isError <;> simp [Telemetry.Event.updates, Telemetry.Histogram.updates])
      have hserves : serves { post := .serving framer phase, due } = true :=
        decide_eq_true (List.count_eq_zero.1 haccept)
      rw [haccept, hclose, hserves]
      rfl
  | executing framer reading =>
    cases hleads
    obtain ⟨haccept, hclose⟩ := hnone (by simp [Telemetry.Event.updates])
    have hserves : serves { post := .executing framer reading, due } = true :=
      decide_eq_true (List.count_eq_zero.1 haccept)
    rw [haccept, hclose, hserves]
    rfl
  | broken =>
    cases hleads
    have hnil : due = [] := List.suffix_nil.1 hdue
    rw [hnil]
    rfl

theorem countP_attends_add {hands : List Hand} (h : ∀ hand ∈ hands, hand.clerk.Placed) :
    (hands.countP fun hand => hand.post.duty.attends) + (hands.flatMap due).count .close =
      hands.countP serves + (hands.flatMap due).count .accept := by
  induction hands with
  | nil => rfl
  | cons hand hands ih =>
    obtain ⟨hhand, hhands⟩ := List.forall_mem_cons.1 h
    have hone := attends_add hhand
    have hrest := ih hhands
    rw [List.flatMap_cons, List.count_append, List.count_append, List.countP_cons, List.countP_cons]
    cases hattends : hand.post.duty.attends <;> cases hserves : hand.serves <;>
      simp [hattends, hserves] at hone ⊢ <;> omega

end Hand

namespace Crew

variable {σ : Type} {engine : Store.Engine σ} {crew after : Crew σ} {worker : Nat} {turn : Turn}

/-! ### A crew as traffic -/

/-- What there is to a crew for its counters. -/
def traffic (crew : Crew σ) : Telemetry.Traffic where
  counters := crew.counters
  clerks := crew.hands.map Hand.clerk
  replies := crew.replies.map Reply.isError
  breakdowns := crew.breakdowns.length

/-- Whether what a worker did is a step of the traffic with its events, or nothing to it. -/
def Follows (worker : Nat) (after before : Crew σ) : Prop :=
  (after.traffic = before.traffic ∧ after.events = before.events) ∨
    ∃ errand, before.traffic.act worker errand = some after.traffic ∧
      after.events = before.events ++ errand.events

theorem follows_rfl : crew.Follows worker crew :=
  .inl ⟨rfl, rfl⟩

theorem clerk_of_hand {post : Seat} {due : List Telemetry.Update}
    (h : crew.hands[worker]? = some { post, due }) :
    crew.traffic.clerks[worker]? = some { duty := post.duty, due } := by
  rw [traffic, List.getElem?_map, h]
  rfl

theorem traffic_post (post : Seat) (events : List Telemetry.Event) :
    (crew.post worker post events).traffic =
      crew.traffic.assign worker post.duty (events.flatMap Telemetry.Event.updates) := by
  simp only [traffic, Crew.post, Telemetry.Traffic.assign, List.map_set, counters]
  rfl

/-- A worker that goes to another post of the same duty does nothing to the traffic. -/
theorem follows_post {old new : Seat} (h : crew.hands[worker]? = some { post := old, due := [] })
    (hduty : new.duty = old.duty) : (crew.post worker new).Follows worker crew := by
  have hclerk := clerk_of_hand h
  refine .inl ⟨?_, List.append_nil _⟩
  obtain ⟨hlt, hget⟩ := List.getElem?_eq_some_iff.1 hclerk
  rw [traffic_post, hduty, Telemetry.Traffic.assign, List.flatMap_nil, ← hget, List.set_getElem_self]

/-! ### One step -/

theorem follows_takeFrame {framer : Framer}
    (h : crew.hands[worker]? = some { post := .serving framer .framing, due := [] }) :
    (crew.takeFrame worker framer).Follows worker crew := by
  rw [takeFrame]
  split
  · exact follows_post h rfl
  · rename_i frame framer' hnext
    split
    · exact follows_post h rfl
    · split
      · rename_i hread
        have hwhole := Framer.whole_of_next (congrArg Prod.fst hnext)
        exact absurd hread (Responder.readFrame_ne_incomplete hwhole)
      · refine .inr ⟨.begin, ?_, rfl⟩
        rw [Telemetry.Traffic.act_of_leads (clerk_of_hand h) .begin, traffic_post]
        simp [Telemetry.Traffic.assign, Seat.duty]

theorem follows_execute {framer : Framer} {reading : Reading} (latency : Span)
    (h : crew.hands[worker]? = some { post := .executing framer reading, due := [] }) :
    (crew.execute engine latency worker framer reading).Follows worker crew := by
  have hclerk := clerk_of_hand h
  rw [execute]
  cases hreact : Responder.react engine reading crew.responder.state with
  | mk reaction state =>
    cases reaction with
    | reply reply =>
      refine .inr ⟨.answer reply.isError latency, ?_, rfl⟩
      rw [Telemetry.Traffic.act_of_leads hclerk (.answer reply.isError latency)]
      simp [traffic, Crew.post, Telemetry.Traffic.assign, counters, Hand.clerk, Seat.duty,
        Responder.events]
    | breakdown =>
      refine .inr ⟨.breakDown, ?_, rfl⟩
      rw [Telemetry.Traffic.act_of_leads hclerk .breakDown]
      simp [traffic, Crew.post, Telemetry.Traffic.assign, counters, Hand.clerk, Seat.duty,
        Responder.events]
    | wait => exact follows_rfl

/-- Every step of a crew is a step of its traffic, or nothing to it. -/
theorem follows_act (engine : Store.Engine σ) (crew : Crew σ) (turn : Turn) :
    (crew.act engine turn).Follows turn.worker crew := by
  unfold act
  split
  · exact follows_rfl
  · rename_i post update rest h
    refine .inr ⟨.update, ?_, (List.append_nil _).symm⟩
    rw [Telemetry.Traffic.act_update (clerk_of_hand h)]
    simp [traffic, Crew.count, Telemetry.Traffic.assign, counters, Hand.clerk]
  · rename_i h
    split
    · split
      · exact follows_rfl
      · refine .inr ⟨.accept, ?_, rfl⟩
        rw [Telemetry.Traffic.act_of_leads (clerk_of_hand h) .accept, traffic_post]
        simp [Telemetry.Traffic.assign, Seat.duty]
    · exact follows_rfl
  · rename_i h
    exact follows_takeFrame h
  · rename_i h
    refine .inr ⟨.close, ?_, rfl⟩
    rw [Telemetry.Traffic.act_of_leads (clerk_of_hand h) .close, traffic_post]
    simp [Telemetry.Traffic.assign, Seat.duty]
  · rename_i h
    exact follows_post h rfl
  · rename_i h
    exact follows_execute turn.latency h
  · exact follows_rfl

/-! ### Runs -/

theorem traffic_start (state : σ) (count : Nat) :
    (start state count).traffic = .start count := by
  simp [traffic, start, Telemetry.Traffic.start, counters, Hand.clerk, Seat.duty]

theorem balanced_act (h : crew.traffic.Balanced crew.events) (turn : Turn) :
    (crew.act engine turn).traffic.Balanced (crew.act engine turn).events := by
  rcases follows_act engine crew turn with ⟨htraffic, hevents⟩ | ⟨errand, hact, hevents⟩
  · rwa [htraffic, hevents]
  · rw [hevents]
    exact h.act hact

theorem balanced_actAll (engine : Store.Engine σ) (state : σ) (count : Nat) (turns : List Turn) :
    let crew := (start state count).actAll engine turns
    crew.traffic.Balanced crew.events := by
  suffices h : ∀ crew : Crew σ, crew.traffic.Balanced crew.events →
      (crew.actAll engine turns).traffic.Balanced (crew.actAll engine turns).events by
    refine h _ ?_
    rw [traffic_start]
    exact Telemetry.Traffic.balanced_start count
  intro crew h
  induction turns generalizing crew with
  | nil => exact h
  | cons turn turns ih => exact ih _ (balanced_act h turn)

/-! ### What the counters tell -/

/-- Whether the counters tell what has happened. -/
structure Accounted (crew : Crew σ) : Prop where
  requests : crew.counters.requests.toNat = crew.replies.length + crew.breakdowns.length
  inflight : crew.counters.inflight.toNat = crew.breakdowns.length
  samples : crew.counters.latency.samples.toNat = crew.replies.length
  buckets : (crew.counters.latency.counts.map UInt64.toNat).sum = crew.replies.length
  errors : crew.counters.errors.toNat =
    crew.replies.countP fun reply => reply = .invalidCommand ∨ reply = .internalError
  connections : crew.counters.accepted.toNat = crew.counters.closed.toNat + crew.served + crew.lost

theorem due_traffic (crew : Crew σ) : crew.traffic.due = crew.hands.flatMap Hand.due :=
  List.flatMap_map ..

theorem countP_clerks (crew : Crew σ) (p : Telemetry.Duty → Bool) :
    crew.traffic.clerks.countP (fun clerk => p clerk.duty) =
      crew.hands.countP fun hand => p hand.post.duty :=
  List.countP_map ..

theorem lost_eq (h : crew.traffic.Balanced crew.events) : crew.lost = crew.breakdowns.length := by
  refine .trans ?_ h.lost
  rw [lost, countP_clerks]
  refine List.countP_congr fun hand _ => ?_
  cases hand.post <;> simp [Seat.duty, Telemetry.Duty.fallen]

/-- The connections that workers have are those that are served, but for what has still to be counted. -/
theorem served_add (h : crew.traffic.Balanced crew.events) :
    crew.traffic.clerks.countP (·.duty.attends) + crew.traffic.due.count .close =
      crew.served + crew.traffic.due.count .accept := by
  rw [countP_clerks, due_traffic]
  exact Hand.countP_attends_add fun hand hmem => h.placed _ (List.mem_map_of_mem hmem)

theorem errors_eq (crew : Crew σ) : crew.traffic.replies.count true =
    crew.replies.countP fun reply => reply = .invalidCommand ∨ reply = .internalError := by
  rw [traffic, List.count, List.countP_map]
  refine List.countP_congr fun reply _ => ?_
  cases reply <;> simp [Reply.isError]

/-- Outside of requests nothing is due but the beginning and the end of connections. -/
theorem countP_due_eq_zero (h : ∀ hand ∈ crew.hands, hand.inRequest = false)
    {change : Telemetry.Update → Bool} (hchange : ∀ update, change update = true →
      update ≠ .accept ∧ update ≠ .close) : crew.traffic.due.countP change = 0 := by
  refine List.countP_eq_zero.2 fun update hmem htrue => ?_
  rw [due_traffic, List.mem_flatMap] at hmem
  obtain ⟨hand, hhand, hdue⟩ := hmem
  obtain ⟨haccept, hclose⟩ := hchange update htrue
  rcases Hand.eq_of_mem_due (h hand hhand) hdue with heq | heq
  · exact haccept heq
  · exact hclose heq

theorem count_due_eq_zero (h : ∀ hand ∈ crew.hands, hand.inRequest = false)
    {update : Telemetry.Update} (hupdate : update ≠ .accept ∧ update ≠ .close) :
    crew.traffic.due.count update = 0 := by
  refine countP_due_eq_zero h fun other hother => ?_
  rwa [eq_of_beq hother]

theorem countP_executes_eq_zero (h : ∀ hand ∈ crew.hands, hand.inRequest = false) :
    crew.traffic.clerks.countP (·.duty.executes) = 0 := by
  rw [countP_clerks]
  refine List.countP_eq_zero.2 fun hand hhand hexecutes => ?_
  rw [Hand.executes_of_inRequest_eq_false (h hand hhand)] at hexecutes
  cases hexecutes

theorem accounted_of_balanced (h : crew.traffic.Balanced crew.events)
    (hfew : crew.events.length < UInt64.size) (hout : ∀ hand ∈ crew.hands, hand.inRequest = false) :
    crew.Accounted := by
  have hnone := countP_executes_eq_zero hout
  have hreplies : crew.traffic.replies.length = crew.replies.length := List.length_map _
  have hbucket : crew.traffic.due.countP Telemetry.Update.isBucket = 0 :=
    countP_due_eq_zero hout fun update hupdate => by
      constructor <;> rintro rfl <;> cases hupdate
  constructor
  · have hrequests := h.requests hfew
    rwa [count_due_eq_zero hout (by simp), hnone, hreplies] at hrequests
  · have hinflight := h.inflight hfew
    rwa [count_due_eq_zero hout (by simp), count_due_eq_zero hout (by simp), hnone] at hinflight
  · have hsamples := h.samples hfew
    rwa [count_due_eq_zero hout (by simp), hreplies] at hsamples
  · have hbuckets := h.buckets hfew
    rwa [hbucket, hreplies] at hbuckets
  · have herrors := h.errors hfew
    rwa [count_due_eq_zero hout (by simp), errors_eq] at herrors
  · have hconnections := h.connections hfew
    have hserved := served_add h
    have hlost : crew.lost = crew.traffic.breakdowns := lost_eq h
    change crew.traffic.counters.accepted.toNat =
      crew.traffic.counters.closed.toNat + crew.served + crew.lost
    omega

/-- However the steps of the workers mix: whenever a request is counted out there is one in flight, and as
often as no worker is in the middle of a request the counters tell what has happened. -/
theorem accounted_actAll (engine : Store.Engine σ) (state : σ) (count : Nat) (turns : List Turn) :
    let crew := (start state count).actAll engine turns
    crew.events.length < UInt64.size →
      (∀ hand ∈ crew.hands, .leave ∈ hand.due → 0 < crew.counters.inflight.toNat) ∧
        ((∀ hand ∈ crew.hands, hand.inRequest = false) → crew.Accounted) := by
  intro crew hfew
  have h : crew.traffic.Balanced crew.events := balanced_actAll engine state count turns
  exact ⟨fun hand hhand hleave => h.inflight_pos hfew (List.mem_map_of_mem hhand) hleave,
    accounted_of_balanced h hfew⟩

/-- Two requests side by side: one is refused, and the engine breaks down over the other, before the first has
been counted out. -/
theorem accounted_actAll_breakdown :
    ∃ crew : Crew Store,
      (start (Store.empty 1 Nat.one_pos) 2).actAll (Store.troubledEngine { fatalKey? := some "x" })
        [{ worker := 0, arrival? := some true }, { worker := 1, arrival? := some true },
          { worker := 0 }, { worker := 1 }, { worker := 0 }, { worker := 1 },
          { worker := 0, weather := { read := .chunk (Utf8.encode "NO\n") } },
          { worker := 1, weather := { read := .chunk (Utf8.encode "READ x\n") } },
          { worker := 0 }, { worker := 1 }, { worker := 0 }, { worker := 1 }, { worker := 0 },
          { worker := 1 }, { worker := 0 }, { worker := 1 }, { worker := 0 }, { worker := 0 },
          { worker := 0 }, { worker := 0 }, { worker := 0 }] = crew ∧
      crew.replies = [.invalidCommand] ∧ crew.counters.requests = 2 ∧ crew.counters.inflight = 1 ∧
      crew.served = 1 ∧ crew.lost = 1 ∧ crew.Accounted := by
  refine ⟨_, rfl, by decide, by decide, by decide, by decide, by decide, ?_⟩
  exact (accounted_actAll _ _ 2 _ (by decide)).2 (by decide)

end Crew

end Server

end LineStore

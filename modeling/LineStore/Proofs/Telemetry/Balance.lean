import LineStore.Proofs.Counting
import LineStore.Proofs.Telemetry.Totals
import LineStore.Telemetry.Traffic

/-!
The counters that several workers share, and what has really happened.

In every state the changes that were made and those that are due are, in some order, the changes of the
events that have happened. How many events of each kind there were is told by the replies, the breakdowns
and the duties of the workers. From this every counter is known, in the middle of things too.
-/

namespace LineStore.Telemetry

/-! ### Events and their changes -/

def Event.ends : Event → Bool
  | requestEnd _ => true
  | _ => false

/-- If an event makes one change of some kind or none, there are as many of these changes as such events. -/
theorem countP_updates {change : Update → Bool} {kind : Event → Bool}
    (h : ∀ event, event.updates.countP change = (kind event).toNat) (events : List Event) :
    (events.flatMap Event.updates).countP change = events.countP kind := by
  induction events with
  | nil => rfl
  | cons event events ih =>
    rw [List.flatMap_cons, List.countP_append, h, ih, List.countP_cons, Nat.add_comm]
    cases kind event <;> rfl

namespace Errand

/-- What happens on an errand. -/
@[simp] def events : Errand → List Event
  | accept => [.accepted]
  | begin => [.requestStart]
  | answer isError latency => .requestEnd latency :: if isError then [.error] else []
  | close => [.closed]
  | update | breakDown => []

@[simp] def replies : Errand → List Bool
  | answer isError _ => [isError]
  | _ => []

@[simp] def breakdowns : Errand → Nat
  | breakDown => 1
  | _ => 0

end Errand

/-! ### Duties -/

namespace Duty

def executes : Duty → Bool
  | executing => true
  | _ => false

/-- Whether a worker with this duty has a connection. -/
def attends : Duty → Bool
  | connected | executing => true
  | _ => false

def fallen : Duty → Bool
  | broken => true
  | _ => false

end Duty

namespace Errand

/-- From which duty to which an errand leads. -/
inductive Leads : Errand → Duty → Duty → Prop where
  | accept : Leads .accept .idle .connected
  | begin : Leads .begin .connected .executing
  | answer (isError : Bool) (latency : Span) : Leads (.answer isError latency) .executing .connected
  | breakDown : Leads .breakDown .executing .broken
  | close : Leads .close .connected .idle

namespace Leads

variable {errand : Errand} {old new : Duty} (h : errand.Leads old new)
include h

/-- A request is executed from its beginning to its answer or its breakdown. -/
theorem count_requestStart : errand.events.count .requestStart + old.executes.toNat =
    errand.replies.length + errand.breakdowns + new.executes.toNat := by
  cases h with
  | answer isError _ => cases isError <;> rfl
  | _ => rfl

theorem countP_ends : errand.events.countP Event.ends = errand.replies.length := by
  cases h with
  | answer isError _ => cases isError <;> rfl
  | _ => rfl

theorem count_error : errand.events.count .error = errand.replies.count true := by
  cases h with
  | answer isError _ => cases isError <;> rfl
  | _ => rfl

/-- A worker has a connection from when it accepts it to when it closes it or breaks down. -/
theorem count_accepted : errand.events.count .accepted + old.attends.toNat =
    errand.events.count .closed + new.attends.toNat + errand.breakdowns := by
  cases h with
  | answer isError _ => cases isError <;> rfl
  | _ => rfl

theorem fallen : old.fallen.toNat + errand.breakdowns = new.fallen.toNat := by
  cases h <;> rfl

end Leads

end Errand

namespace Clerk

/-- Whether what is due from a worker is left from the errand that led to its duty. -/
def Placed (clerk : Clerk) : Prop :=
  ∃ errand old, Errand.Leads errand old clerk.duty ∧ clerk.due <:+ errand.events.flatMap Event.updates

theorem count_enter_le {clerk : Clerk} (h : clerk.Placed) :
    clerk.due.count .enter ≤ clerk.duty.executes.toNat := by
  obtain ⟨errand, old, hleads, hdue⟩ := h
  have hle := hdue.sublist.count_le .enter
  obtain ⟨duty, due⟩ := clerk
  cases hleads with
  | begin => exact hle
  | answer isError latency => cases isError <;> exact hle
  | accept | breakDown | close => exact hle

theorem count_enter_flatMap_le {clerks : List Clerk} (h : ∀ clerk ∈ clerks, clerk.Placed) :
    (clerks.flatMap due).count .enter ≤ clerks.countP (·.duty.executes) := by
  induction clerks with
  | nil => exact Nat.le_refl 0
  | cons clerk clerks ih =>
    obtain ⟨hclerk, hclerks⟩ := List.forall_mem_cons.1 h
    have hle := count_enter_le hclerk
    have hrest := ih hclerks
    rw [List.flatMap_cons, List.count_append, List.countP_cons]
    cases hexecutes : clerk.duty.executes <;> simp [hexecutes] at hle ⊢ <;> omega

end Clerk

namespace Traffic

variable {traffic after : Traffic} {worker : Nat} {errand : Errand} {events : List Event}

/-- A step makes one change that is due, or leads a worker from which none is due to another duty. -/
theorem act_cases (h : traffic.act worker errand = some after) :
    (∃ duty update rest, traffic.clerks[worker]? = some { duty, due := update :: rest } ∧
        errand = .update ∧
        after =
          { traffic.assign worker duty rest with counters := traffic.counters.apply update }) ∨
      ∃ old new, traffic.clerks[worker]? = some { duty := old, due := [] } ∧ errand.Leads old new ∧
        after =
          { traffic.assign worker new (errand.events.flatMap Event.updates) with
            replies := traffic.replies ++ errand.replies
            breakdowns := traffic.breakdowns + errand.breakdowns } := by
  unfold act at h
  split at h
  · rename_i duty update rest hclerk
    cases h
    exact .inl ⟨duty, update, rest, hclerk, rfl, rfl⟩
  · rename_i hclerk
    cases h
    exact .inr ⟨_, _, hclerk, .accept, by simp [assign]⟩
  · rename_i hclerk
    cases h
    exact .inr ⟨_, _, hclerk, .begin, by simp [assign]⟩
  · rename_i isError latency hclerk
    cases h
    refine .inr ⟨_, _, hclerk, .answer isError latency, ?_⟩
    cases isError <;> rfl
  · rename_i hclerk
    cases h
    exact .inr ⟨_, _, hclerk, .breakDown, by simp [assign]⟩
  · rename_i hclerk
    cases h
    exact .inr ⟨_, _, hclerk, .close, by simp [assign]⟩
  · cases h

theorem act_update {duty : Duty} {update : Update} {rest : List Update}
    (h : traffic.clerks[worker]? = some { duty, due := update :: rest }) :
    traffic.act worker .update =
      some { traffic.assign worker duty rest with counters := traffic.counters.apply update } := by
  simp only [act, h]

theorem act_of_leads {old new : Duty} (h : traffic.clerks[worker]? = some { duty := old, due := [] })
    (hleads : errand.Leads old new) :
    traffic.act worker errand =
      some
        { traffic.assign worker new (errand.events.flatMap Event.updates) with
          replies := traffic.replies ++ errand.replies
          breakdowns := traffic.breakdowns + errand.breakdowns } := by
  cases hleads with
  | answer isError latency => cases isError <;> simp [act, h, assign]
  | _ => simp [act, h, assign]

/-! ### The account -/

/-- The changes that are still to be made. -/
def due (traffic : Traffic) : List Update :=
  traffic.clerks.flatMap Clerk.due

/-- Whether these events, in some order of their changes, are what the counters hold and what is due, and
are what has really happened. -/
structure Balanced (traffic : Traffic) (events : List Event) : Prop where
  made : ∃ changes, traffic.counters = .after changes ∧
    (changes ++ traffic.due).Perm (events.flatMap Event.updates)
  placed : ∀ clerk ∈ traffic.clerks, clerk.Placed
  begun : events.count .requestStart =
    traffic.replies.length + traffic.breakdowns + traffic.clerks.countP (·.duty.executes)
  ended : events.countP Event.ends = traffic.replies.length
  failed : events.count .error = traffic.replies.count true
  arrived : events.count .accepted =
    events.count .closed + traffic.clerks.countP (·.duty.attends) + traffic.breakdowns
  lost : traffic.clerks.countP (·.duty.fallen) = traffic.breakdowns

theorem balanced_start (workers : Nat) : (start workers).Balanced [] where
  made := ⟨[], rfl, by simp [due, start]⟩
  placed clerk hclerk := by
    rw [List.eq_of_mem_replicate hclerk]
    exact ⟨.close, .connected, .close, List.nil_suffix⟩
  begun := by simp [start, List.countP_replicate, Duty.executes]
  ended := rfl
  failed := rfl
  arrived := by simp [start, List.countP_replicate, Duty.attends]
  lost := by simp [start, List.countP_replicate, Duty.fallen]

namespace Balanced

theorem placed_set (h : traffic.Balanced events) {clerk : Clerk} (hclerk : clerk.Placed) :
    ∀ other ∈ traffic.clerks.set worker clerk, other.Placed := by
  intro other hother
  rcases List.mem_or_eq_of_mem_set hother with hmem | rfl
  · exact h.placed other hmem
  · exact hclerk

/-- To make a change that was due alters nothing of what has happened. -/
theorem update (h : traffic.Balanced events) {duty : Duty} {update : Update} {rest : List Update}
    (hclerk : traffic.clerks[worker]? = some { duty, due := update :: rest }) :
    Balanced { traffic.assign worker duty rest with counters := traffic.counters.apply update }
      events := by
  have hcount (p : Clerk → Bool) (hp : p { duty, due := update :: rest } = p { duty, due := rest }) :
      (traffic.clerks.set worker { duty, due := rest }).countP p = traffic.clerks.countP p := by
    have hset := countP_set_add p { duty, due := rest } hclerk
    rw [hp] at hset
    exact Nat.add_right_cancel hset
  obtain ⟨changes, hcounters, hperm⟩ := h.made
  constructor
  · refine ⟨changes ++ [update], by rw [hcounters, Counters.after_concat], .trans ?_ hperm⟩
    have hset := flatMap_set_perm Clerk.due { duty, due := rest } hclerk
    rw [List.append_assoc]
    exact ((List.perm_append_left_iff rest).1 (List.perm_middle.trans hset)).append_left changes
  · obtain ⟨errand, old, hleads, hdue⟩ := h.placed _ (List.mem_of_getElem? hclerk)
    exact h.placed_set ⟨errand, old, hleads, (List.suffix_cons update rest).trans hdue⟩
  · exact h.begun.trans (congrArg _ (hcount (·.duty.executes) rfl).symm)
  · exact h.ended
  · exact h.failed
  · exact h.arrived.trans (congrArg (_ + · + _) (hcount (·.duty.attends) rfl).symm)
  · exact (hcount (·.duty.fallen) rfl).trans h.lost

/-- An errand brings its events, and leaves all of their changes due. -/
theorem lead (h : traffic.Balanced events) {old new : Duty}
    (hclerk : traffic.clerks[worker]? = some { duty := old, due := [] })
    (hleads : errand.Leads old new) :
    Balanced
      { traffic.assign worker new (errand.events.flatMap Event.updates) with
        replies := traffic.replies ++ errand.replies
        breakdowns := traffic.breakdowns + errand.breakdowns }
      (events ++ errand.events) := by
  have hcount (p : Clerk → Bool) :=
    countP_set_add p { duty := new, due := errand.events.flatMap Event.updates } hclerk
  obtain ⟨changes, hcounters, hperm⟩ := h.made
  constructor
  · refine ⟨changes, hcounters, ?_⟩
    have hset := flatMap_set_perm Clerk.due
      { duty := new, due := errand.events.flatMap Event.updates } hclerk
    rw [List.flatMap_append]
    refine (hset.append_left changes).trans (.trans ?_ (hperm.append_right _))
    rw [List.append_assoc]
    exact List.perm_append_comm.append_left changes
  · exact h.placed_set ⟨errand, old, hleads, List.suffix_rfl⟩
  all_goals simp only [assign, List.count_append, List.countP_append, List.length_append]
  · have hbegun := h.begun
    have hstep := hleads.count_requestStart
    have hset := hcount (·.duty.executes)
    simp only at hset
    omega
  · rw [h.ended, hleads.countP_ends]
  · rw [h.failed, hleads.count_error]
  · have harrived := h.arrived
    have hstep := hleads.count_accepted
    have hset := hcount (·.duty.attends)
    simp only at hset
    omega
  · have hlost := h.lost
    have hstep := hleads.fallen
    have hset := hcount (·.duty.fallen)
    simp only at hset
    omega

theorem act (h : traffic.Balanced events) (hact : traffic.act worker errand = some after) :
    after.Balanced (events ++ errand.events) := by
  rcases act_cases hact with ⟨duty, update, rest, hclerk, rfl, rfl⟩ | ⟨old, new, hclerk, hleads, rfl⟩
  · rw [Errand.events, List.append_nil]
    exact h.update hclerk
  · exact h.lead hclerk hleads

end Balanced

/-! ### What the counters tell -/

namespace Balanced

variable (h : traffic.Balanced events)
include h

/-- The changes of a kind that were made and those that are due. -/
theorem exists_countP_add : ∃ changes, traffic.counters = .after changes ∧
    ∀ change kind, (∀ event : Event, event.updates.countP change = (kind event).toNat) →
      changes.countP change + traffic.due.countP change = events.countP kind := by
  obtain ⟨changes, hcounters, hperm⟩ := h.made
  refine ⟨changes, hcounters, fun change kind hkind => ?_⟩
  rw [← countP_updates hkind, ← List.countP_append]
  exact hperm.countP_eq change

variable (hbound : events.length < UInt64.size)
include hbound

theorem toNat_add_count (word : Counters → UInt64) {own : Update} (kind : Event → Bool)
    (hword : ∀ changes, word (.after changes) = UInt64.ofNat (changes.count own))
    (hkind : ∀ event : Event, event.updates.count own = (kind event).toNat) :
    (word traffic.counters).toNat + traffic.due.count own = events.countP kind := by
  obtain ⟨changes, hcounters, hcount⟩ := h.exists_countP_add
  have hall := hcount (· == own) kind hkind
  have hle : events.countP kind ≤ events.length := List.countP_le_length
  have hfits : changes.count own < UInt64.size := by
    rw [List.count]
    omega
  rw [hcounters, hword, UInt64.toNat_ofNat_of_lt' hfits]
  exact hall

theorem requests : traffic.counters.requests.toNat + traffic.due.count .request =
    traffic.replies.length + traffic.breakdowns + traffic.clerks.countP (·.duty.executes) := by
  rw [← h.begun]
  refine h.toNat_add_count hbound (·.requests) (· == .requestStart) Counters.requests_after fun event => ?_
  cases event <;> rfl

theorem errors : traffic.counters.errors.toNat + traffic.due.count .error =
    traffic.replies.count true := by
  rw [← h.failed]
  refine h.toNat_add_count hbound (·.errors) (· == .error) Counters.errors_after fun event => ?_
  cases event <;> rfl

theorem samples : traffic.counters.latency.samples.toNat + traffic.due.count (.latency .sample) =
    traffic.replies.length := by
  rw [← h.ended]
  refine h.toNat_add_count hbound (·.latency.samples) Event.ends Counters.samples_after fun event => ?_
  cases event <;> rfl

theorem buckets : traffic.counters.latency.total + traffic.due.countP Update.isBucket =
    traffic.replies.length := by
  obtain ⟨changes, hcounters, hcount⟩ := h.exists_countP_add
  have hall := hcount Update.isBucket Event.ends fun event => by cases event <;> rfl
  have hle : events.countP Event.ends ≤ events.length := List.countP_le_length
  rw [hcounters, Counters.total_after _ (by omega), hall, h.ended]

/-- The connections that were accepted, but for those that have still to be counted. -/
theorem connections : traffic.counters.accepted.toNat + traffic.due.count .accept =
    traffic.counters.closed.toNat + traffic.due.count .close +
      traffic.clerks.countP (·.duty.attends) + traffic.breakdowns := by
  have haccepted := h.toNat_add_count hbound (·.accepted) (· == .accepted) Counters.accepted_after
    fun event => by cases event <;> rfl
  have hclosed := h.toNat_add_count hbound (·.closed) (· == .closed) Counters.closed_after
    fun event => by cases event <;> rfl
  rw [haccepted, hclosed]
  exact h.arrived

/-- Requests are in flight as long as they are executed, or were broken off, or have still to be counted
out. Those that have still to be counted in are executed. -/
theorem inflight : traffic.counters.inflight.toNat + traffic.due.count .enter =
    traffic.breakdowns + traffic.clerks.countP (·.duty.executes) + traffic.due.count .leave := by
  obtain ⟨changes, hcounters, hcount⟩ := h.exists_countP_add
  have hentered : changes.count .enter + traffic.due.count .enter = events.count .requestStart :=
    hcount _ (· == .requestStart) fun event => by cases event <;> rfl
  have hleft : changes.count .leave + traffic.due.count .leave = events.countP Event.ends :=
    hcount _ Event.ends fun event => by cases event <;> rfl
  have hbegun := h.begun
  have hended := h.ended
  have hdue : traffic.due.count .enter ≤ _ := Clerk.count_enter_flatMap_le h.placed
  have hle : events.count .requestStart ≤ events.length := List.count_le_length
  have hword := congrArg UInt64.toNat (Counters.inflight_after changes)
  rw [UInt64.toNat_add, UInt64.toNat_ofNat_of_lt' (by omega), UInt64.toNat_ofNat_of_lt' (by omega),
    ← hcounters] at hword
  have hword64 := traffic.counters.inflight.toNat_lt
  rw [UInt64.size] at hbound
  omega

/-- Whenever a request is counted out there is one in flight. -/
theorem inflight_pos {clerk : Clerk} (hclerk : clerk ∈ traffic.clerks)
    (hleave : .leave ∈ clerk.due) : 0 < traffic.counters.inflight.toNat := by
  have hinflight := h.inflight hbound
  have henter : traffic.due.count .enter ≤ _ := Clerk.count_enter_flatMap_le h.placed
  have hdue : 0 < traffic.due.count .leave :=
    List.count_pos_iff.2 (List.mem_flatMap.2 ⟨clerk, hclerk, hleave⟩)
  omega

end Balanced

end Traffic

end LineStore.Telemetry

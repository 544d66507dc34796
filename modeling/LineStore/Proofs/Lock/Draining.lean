import LineStore.Lock.Roster
import LineStore.Proofs.Lock.Outcome

/-!
Every lock can be emptied, and nobody is forgotten on the way.

Holders release the lock one after another, and after each release woken threads look again in any order
until each has the lock or is parked. A release takes one thread out of those that hold the lock or wait for
it, and brings nobody in. While some wait there are holders, or else a wake-up would have been lost. So
there are as many releases as there were threads, and whoever waited was granted the lock once.
-/

namespace LineStore.Lock

variable {capacity count : Nat}

namespace Stage

theorem isSome_access? {stage : Stage} :
    stage.access?.isSome = true ↔ stage.holds = true ∨ stage.waits = true := by
  cases stage <;> simp [access?, holds, waits]

theorem waits_iff {stage : Stage} :
    stage.waits = true ↔ stage.access?.isSome = true ∧ stage.holds = false := by
  cases stage <;> simp [access?, holds, waits]

end Stage

namespace Crowd

variable {crowd before after begun : Crowd} {thread other : Nat} {requests : List Action}
  {releases grants : List Nat} {kind : Stage → Bool}

/-! ### Turns -/

/-- One request and all that follows from it, whoever looks first. -/
def Turn (request : Action) (before after : Crowd) : Prop :=
  request.isRequest = true ∧ ∃ begun, before.act request = some begun ∧
    Relation.ReflTransGen Stirs begun after ∧ after.Settled

/-- The crowds that a free lock and its threads can come to by a sequence of requests. A request that is not
possible has no effect. -/
inductive Attended (capacity count : Nat) : List Action → Crowd → Prop where
  | start : Attended capacity count [] (ofSize capacity count)
  | serve {requests : List Action} {request : Action} {before after : Crowd} :
      Attended capacity count requests before → Turn request before after →
      Attended capacity count (requests ++ [request]) after
  | refuse {requests : List Action} {request : Action} {crowd : Crowd} :
      Attended capacity count requests crowd → crowd.act request = none →
      Attended capacity count (requests ++ [request]) crowd

/-- Releases by these threads, one after another, each by one that holds the lock, and all the grants that
come of them. -/
inductive Drains : Crowd → List Nat → List Nat → Crowd → Prop where
  | rest {crowd : Crowd} : Drains crowd [] [] crowd
  | release {before between after : Crowd} {thread : Nat} {releases grants : List Nat} :
      Turn (.release thread) before between → Drains between releases grants after →
      Drains before (thread :: releases) (Roster.grantedSince before between ++ grants) after

theorem Reachable.stirs (h : Reachable capacity count before)
    (hstirs : Relation.ReflTransGen Stirs before after) : Reachable capacity count after := by
  induction hstirs with
  | refl => exact h
  | tail _ hstir ih =>
    obtain ⟨thread, hact | hact⟩ := hstir
    · exact ih.step ⟨_, hact⟩
    · exact ih.step ⟨_, hact⟩

theorem Reachable.turn {request : Action} (h : Reachable capacity count before)
    (hturn : Turn request before after) : Reachable capacity count after := by
  obtain ⟨-, begun, hact, hstirs, -⟩ := hturn
  exact (h.step ⟨request, hact⟩).stirs hstirs

theorem settled_ofSize : (ofSize capacity count).Settled := by
  intro member hmem
  cases List.eq_of_mem_replicate hmem
  rfl

theorem Attended.perform {request : Action} (h : Attended capacity count requests crowd)
    (hrequest : request.isRequest = true) :
    Attended capacity count (requests ++ [request]) ((crowd.perform request).getD crowd) := by
  cases hact : crowd.act request with
  | none =>
    rw [Crowd.perform, hact]
    exact h.refuse hact
  | some begun =>
    rw [Crowd.perform, hact]
    exact h.serve ⟨hrequest, begun, hact, stirs_settle begun, settled_settle begun⟩

theorem Attended.performAll (h : Attended capacity count requests crowd) (more : List Action)
    (hmore : ∀ request ∈ more, request.isRequest = true) :
    Attended capacity count (requests ++ more)
      (more.foldl (fun crowd request => (crowd.perform request).getD crowd) crowd) := by
  induction more generalizing requests crowd with
  | nil => rwa [List.append_nil]
  | cons request more ih =>
    have hfirst := h.perform (hmore request List.mem_cons_self)
    have hrest := ih hfirst fun other hother => hmore other (List.mem_cons_of_mem _ hother)
    rwa [List.append_assoc] at hrest

theorem Attended.reachable (h : Attended capacity count requests crowd) :
    Reachable capacity count crowd ∧ crowd.Settled := by
  induction h with
  | start => exact ⟨.start, settled_ofSize⟩
  | serve _ hturn ih => exact ⟨ih.1.turn hturn, hturn.2.choose_spec.2.2⟩
  | refuse _ _ ih => exact ih

/-! ### Lists of threads -/

theorem mem_threads (haway : kind .away = false) :
    thread ∈ crowd.threads kind ↔ kind (crowd.stageOf thread) = true := by
  simp only [threads, List.mem_map, List.mem_filter, List.mem_zipIdx_iff_getElem?, Prod.exists, stageOf]
  cases hmember : crowd.members[thread]? with
  | none => simp [hmember, haway]
  | some member => simp [hmember]

theorem nodup_threads : (crowd.threads kind).Nodup := by
  have hsublist := (List.filter_sublist (p := fun numbered => kind numbered.1.stage)
    (l := crowd.members.zipIdx)).map Prod.snd
  rw [List.zipIdx_map_snd] at hsublist
  exact hsublist.nodup List.nodup_range'

theorem threads_eq_nil_iff :
    crowd.threads kind = [] ↔ ∀ member ∈ crowd.members, kind member.stage = false := by
  rw [threads, List.map_eq_nil_iff, List.filter_eq_nil_iff]
  constructor
  · intro h member hmem
    obtain ⟨i, hi⟩ := List.mem_iff_getElem?.1 hmem
    exact Bool.eq_false_iff.2 (h (member, i) (List.mem_zipIdx_iff_getElem?.2 hi))
  · intro h numbered hmem
    rw [h numbered.1 (List.mem_of_getElem? (List.mem_zipIdx_iff_getElem?.1 hmem))]
    exact Bool.false_ne_true

/-- The threads that hold the lock or wait for it. -/
def engaged (crowd : Crowd) : List Nat :=
  crowd.holders ++ crowd.waiting

theorem mem_holders : thread ∈ crowd.holders ↔ (crowd.stageOf thread).holds = true :=
  mem_threads rfl

theorem mem_waiting : thread ∈ crowd.waiting ↔ (crowd.stageOf thread).waits = true :=
  mem_threads rfl

theorem mem_engaged : thread ∈ crowd.engaged ↔ (crowd.stageOf thread).access?.isSome = true := by
  rw [engaged, List.mem_append, mem_holders, mem_waiting, Stage.isSome_access?]

theorem nodup_engaged : crowd.engaged.Nodup := by
  refine List.nodup_append.2 ⟨nodup_threads, nodup_threads, fun holder hholds waiter hwaits heq => ?_⟩
  rw [mem_holders] at hholds
  rw [mem_waiting, ← heq, Stage.waits_iff, hholds] at hwaits
  cases hwaits.2

/-! ### One release -/

theorem exists_act_release (h : thread ∈ crowd.holders) :
    ∃ begun, crowd.act (.release thread) = some begun := by
  rw [mem_holders, stageOf] at h
  cases hmember : crowd.members[thread]? with
  | none =>
    rw [hmember] at h
    cases h
  | some member =>
    rw [hmember] at h
    exact ⟨_, by simp only [act, hmember]; exact if_pos h⟩

section

variable (hword : capacity < UInt64.size)
include hword

/-- A thread that looks again goes on wanting what it wants, and nobody loses the lock by that. -/
theorem Reachable.stirs_stageOf (h : Reachable capacity count before)
    (hstirs : Relation.ReflTransGen Stirs before after) (thread : Nat) :
    (after.stageOf thread).access? = (before.stageOf thread).access? ∧
      ((before.stageOf thread).holds = true → (after.stageOf thread).holds = true) := by
  induction hstirs with
  | refl => exact ⟨rfl, id⟩
  | @tail between after hbefore hstir ih =>
    have hbetween := h.stirs hbefore
    suffices hone : (after.stageOf thread).access? = (between.stageOf thread).access? ∧
        ((between.stageOf thread).holds = true → (after.stageOf thread).holds = true) from
      ⟨hone.1.trans ih.1, fun hholds => hone.2 (ih.2 hholds)⟩
    obtain ⟨number, hact⟩ := hstir
    by_cases hother : thread = number
    · subst hother
      have hleads : (between.stageOf thread).waits = true ∧
          (after.stageOf thread).access? = (between.stageOf thread).access? := by
        rcases hact with hact | hact
        · exact act_leads (hbetween.watchful hword) hact
        · exact act_leads (hbetween.watchful hword) hact
      refine ⟨hleads.2, fun hholds => ?_⟩
      rw [Stage.holds_eq_false_of_waits hleads.1] at hholds
      cases hholds
    · have hsame : after.stageOf thread = between.stageOf thread := by
        rcases hact with hact | hact
        · exact stageOf_act_of_ne hword hbetween hact hother
        · exact stageOf_act_of_ne hword hbetween hact hother
      exact ⟨congrArg Stage.access? hsame, fun hholds => hsame ▸ hholds⟩

/-- The thread that releases the lock is away after that, and the others want what they wanted. -/
theorem Reachable.turn_release (h : Reachable capacity count before)
    (hturn : Turn (.release thread) before after) :
    (before.stageOf thread).holds = true ∧ (after.stageOf thread).access? = none ∧
      ∀ other, other ≠ thread →
        (after.stageOf other).access? = (before.stageOf other).access? ∧
          ((before.stageOf other).holds = true → (after.stageOf other).holds = true) := by
  obtain ⟨-, begun, hact, hstirs, -⟩ := hturn
  obtain ⟨hholds, haway⟩ : (before.stageOf thread).holds = true ∧ begun.stageOf thread = .away :=
    act_leads (h.watchful hword) hact
  have hbegun := h.step ⟨_, hact⟩
  refine ⟨hholds, ?_, fun other hother => ?_⟩
  · rw [(hbegun.stirs_stageOf hword hstirs thread).1, haway]
    rfl
  · rw [← stageOf_act_of_ne hword h hact hother]
    exact hbegun.stirs_stageOf hword hstirs other

theorem Reachable.engaged_perm (h : Reachable capacity count before)
    (hturn : Turn (.release thread) before after) : before.engaged.Perm (thread :: after.engaged) := by
  obtain ⟨hholds, haway, hothers⟩ := h.turn_release hword hturn
  have hnot : thread ∉ after.engaged := by
    rw [mem_engaged, haway]
    exact Bool.false_ne_true
  refine (List.perm_ext_iff_of_nodup nodup_engaged (List.nodup_cons.2 ⟨hnot, nodup_engaged⟩)).2
    fun other => ?_
  rw [List.mem_cons, mem_engaged, mem_engaged]
  by_cases hother : other = thread
  · rw [hother]
    simp only [true_or, iff_true]
    exact Stage.isSome_access?.2 (.inl hholds)
  · rw [(hothers other hother).1]
    simp only [hother, false_or]

/-- Who waited and does not wait any more was granted the lock. -/
theorem Reachable.waiting_perm (h : Reachable capacity count before)
    (hturn : Turn (.release thread) before after) :
    before.waiting.Perm (Roster.grantedSince before after ++ after.waiting) := by
  obtain ⟨hholds, haway, hothers⟩ := h.turn_release hword hturn
  have hafter : (Roster.grantedSince before after ++ after.waiting).Nodup :=
    (List.filter_sublist.append_right after.waiting).nodup nodup_engaged
  have hbefore : before.waiting.Nodup := nodup_threads
  refine (List.perm_ext_iff_of_nodup hbefore hafter).2 fun other => ?_
  rw [List.mem_append, Roster.grantedSince, List.mem_filter, mem_waiting, mem_waiting, mem_holders,
    decide_eq_true_eq, mem_holders]
  rw [Stage.waits_iff, Stage.waits_iff]
  by_cases hother : other = thread
  · have hidle : (after.stageOf thread).holds = false := by
      refine Bool.eq_false_iff.2 fun hstill => ?_
      have hwants := Stage.isSome_access?.2 (.inl hstill)
      rw [haway] at hwants
      cases hwants
    simp [hother, hholds, haway, hidle]
  · obtain ⟨haccess, hkeeps⟩ := hothers other hother
    rw [haccess, Bool.not_eq_true]
    constructor
    · rintro ⟨hwants, hbefore⟩
      cases hafter : (after.stageOf other).holds with
      | true => exact .inl ⟨rfl, hbefore⟩
      | false => exact .inr ⟨hwants, rfl⟩
    · rintro (⟨hafter, hbefore⟩ | ⟨hwants, hafter⟩)
      · exact ⟨haccess ▸ Stage.isSome_access?.2 (.inl hafter), hbefore⟩
      · refine ⟨hwants, Bool.eq_false_iff.2 fun hbefore => ?_⟩
        rw [hkeeps hbefore] at hafter
        cases hafter

/-! ### All releases -/

theorem Drains.spec (h : Reachable capacity count before) (hdrains : Drains before releases grants after) :
    Reachable capacity count after ∧ (before.Settled → after.Settled) ∧
      before.engaged.Perm (releases ++ after.engaged) ∧
      before.waiting.Perm (grants ++ after.waiting) := by
  induction hdrains with
  | rest => exact ⟨h, id, .refl _, .refl _⟩
  | release hturn _ ih =>
    obtain ⟨hafter, hsettled, hengaged, hwaiting⟩ := ih (h.turn hturn)
    refine ⟨hafter, fun _ => hsettled hturn.2.choose_spec.2.2, ?_, ?_⟩
    · exact (h.engaged_perm hword hturn).trans (hengaged.cons _)
    · rw [List.append_assoc]
      exact (h.waiting_perm hword hturn).trans (hwaiting.append_left _)

/-- Where nobody holds the lock any more, nobody waits for it and the lock is idle. -/
theorem Reachable.idle_of_holders (hpos : 0 < capacity) (h : Reachable capacity count crowd)
    (hsettled : crowd.Settled) (hnone : crowd.holders = []) :
    crowd.waiting = [] ∧ crowd.lock.occupancy = {} := by
  obtain ⟨hcapacity, hsound⟩ := h.sound hword
  rw [← hcapacity] at hpos
  have hfree : ∀ member ∈ crowd.members, member.stage.holds = false := threads_eq_nil_iff.1 hnone
  have hwaits : ∀ stage ∈ crowd.stages, stage.waits = false := fun stage hmem =>
    (h.watchful hword).waits_eq_false hsound hfree hsettled.parked hpos hmem
  have haway : ∀ stage ∈ crowd.stages, stage = .away := by
    intro stage hmem
    obtain ⟨member, hmember, rfl⟩ := mem_stages.1 hmem
    refine Stage.access?_eq_none_iff.1 (Option.not_isSome_iff_eq_none.1 fun haccess => ?_)
    rcases Stage.isSome_access?.1 haccess with hholds | hwaiting
    · rw [hfree member hmember] at hholds
      cases hholds
    · rw [hwaits _ hmem] at hwaiting
      cases hwaiting
  refine ⟨threads_eq_nil_iff.2 fun member hmember => hwaits _ (mem_stages.2 ⟨member, hmember, rfl⟩), ?_⟩
  rw [idle_of_sound hsound haway]
  rfl

/-- Each release makes the threads that hold the lock or wait for it one fewer. -/
theorem Drains.length_add (h : Reachable capacity count before)
    (hdrains : Drains before releases grants after) :
    releases.length + (after.holders.length + after.waiting.length) =
      before.holders.length + before.waiting.length := by
  obtain ⟨-, -, hengaged, -⟩ := hdrains.spec hword h
  have hlength := hengaged.length_eq
  rw [List.length_append, engaged, engaged, List.length_append, List.length_append] at hlength
  exact hlength.symm

/-- Where nobody holds the lock any more, everybody has released it and whoever waited has been granted it. -/
theorem Drains.last (hpos : 0 < capacity) (h : Reachable capacity count before)
    (hsettled : before.Settled) (hdrains : Drains before releases grants after)
    (hnone : after.holders = []) :
    releases.Perm (before.holders ++ before.waiting) ∧ grants.Perm before.waiting ∧
      after.waiting = [] ∧ after.lock.occupancy = {} := by
  obtain ⟨hafter, hrest, hengaged, hwaiting⟩ := hdrains.spec hword h
  obtain ⟨hnobody, hidle⟩ := hafter.idle_of_holders hword hpos (hrest hsettled) hnone
  rw [engaged, engaged, hnone, hnobody, List.append_nil, List.append_nil] at hengaged
  rw [hnobody, List.append_nil] at hwaiting
  exact ⟨hengaged.symm, hwaiting.symm, hnobody, hidle⟩

theorem Drains.length_eq_iff (hpos : 0 < capacity) (h : Reachable capacity count before)
    (hsettled : before.Settled) (hdrains : Drains before releases grants after) :
    releases.length = before.holders.length + before.waiting.length ↔ after.holders = [] := by
  have hlength := hdrains.length_add hword h
  constructor
  · intro hall
    exact List.length_eq_zero_iff.1 (by omega)
  · intro hnone
    obtain ⟨-, -, hnobody, -⟩ := hdrains.last hword hpos h hsettled hnone
    rw [hnone, hnobody] at hlength
    exact hlength

end

theorem drain_of_holders (h : crowd.holders = []) (n : Nat) : crowd.drain n = crowd := by
  induction n with
  | zero => rfl
  | succ n ih => rw [drain, releaseFirst, h, ih]

/-- Releases by the first holder are one way to go on. -/
theorem drains_drain (n : Nat) (crowd : Crowd) :
    ∃ releases grants, Drains crowd releases grants (crowd.drain n) ∧
      (releases.length = n ∨ (crowd.drain n).holders = []) := by
  induction n generalizing crowd with
  | zero => exact ⟨[], [], .rest, .inl rfl⟩
  | succ n ih =>
    cases hholders : crowd.holders with
    | nil =>
      rw [drain_of_holders hholders]
      exact ⟨[], [], .rest, .inr hholders⟩
    | cons thread rest =>
      obtain ⟨begun, hact⟩ :=
        exists_act_release (hholders ▸ List.mem_cons_self : thread ∈ crowd.holders)
      have hfirst : crowd.releaseFirst = begun.settle := by
        rw [releaseFirst, hholders]
        simp only [perform, hact, Option.map_some, Option.getD_some]
      have hturn : Turn (.release thread) crowd crowd.releaseFirst :=
        ⟨rfl, begun, hact, hfirst ▸ stirs_settle begun, hfirst ▸ settled_settle begun⟩
      obtain ⟨releases, grants, hdrains, hlast⟩ := ih crowd.releaseFirst
      refine ⟨_, _, .release hturn hdrains, hlast.imp_left fun hlength => ?_⟩
      rw [List.length_cons, hlength]

/-- After any sequence of requests holders may release the lock in any order until nobody holds it. However
they are chosen, and whoever looks first after each release, this ends after as many releases as there were
threads that held the lock or waited for it, each of them releases it once, and each of those that waited is
granted it once. Nobody is left, and the lock is idle. -/
theorem Attended.drained (hpos : 0 < capacity) (hword : capacity < UInt64.size)
    (h : Attended capacity count requests crowd) :
    let busy := crowd.holders.length + crowd.waiting.length
    (∃ releases grants, Drains crowd releases grants (crowd.drain busy) ∧
      (crowd.drain busy).holders = []) ∧
    ∀ releases grants after, Drains crowd releases grants after →
      releases.length + (after.holders.length + after.waiting.length) = busy ∧
      (∀ thread ∈ after.holders, ∃ begun, after.act (.release thread) = some begun ∧
        ∀ between, Relation.ReflTransGen Stirs begun between →
          ∃ next, Relation.ReflTransGen Stirs between next ∧ next.Settled) ∧
      (releases.length = busy ↔ after.holders = []) ∧
      (after.holders = [] →
        releases.Perm (crowd.holders ++ crowd.waiting) ∧ grants.Perm crowd.waiting ∧
          after.waiting = [] ∧ after.lock.occupancy = {}) := by
  intro busy
  obtain ⟨hreachable, hsettled⟩ := h.reachable
  refine ⟨?_, fun releases grants after hdrains => ⟨hdrains.length_add hword hreachable,
    fun thread hholds => ?_, hdrains.length_eq_iff hword hpos hreachable hsettled,
    hdrains.last hword hpos hreachable hsettled⟩⟩
  · obtain ⟨releases, grants, hdrains, hlast⟩ := drains_drain busy crowd
    exact ⟨releases, grants, hdrains,
      hlast.elim (hdrains.length_eq_iff hword hpos hreachable hsettled).1 id⟩
  · obtain ⟨begun, hact⟩ := exists_act_release hholds
    exact ⟨begun, hact, fun between _ => ⟨between.settle, stirs_settle between, settled_settle between⟩⟩

/-- A lock with one place in its ring, held by a writer, while two writers wait for the place and a reader
waits for the writer. -/
def crowded : Crowd where
  capacity := 1
  lock := { readersPresent := 1, writersActive := 1, ring := [0], nextTicket := 1, slotWaiters := 2 }
  members := [⟨.writing 0, false⟩, ⟨.awaitingSlot, true⟩, ⟨.awaitingSlot, true⟩, ⟨.awaitingRead, true⟩]

/-- Of the writers outside the later one looks first when the place is free. Two of the requests before that
are refused. -/
theorem Attended.drained_crowded :
    ∃ grants after, Attended 1 4 [.acquire 0 .write, .acquire 1 .write, .release 1, .acquire 2 .write,
        .acquire 3 .read, .acquire 0 .read] crowded ∧
      Drains crowded [0, 3, 2, 1] grants after ∧ grants = [3, 2, 1] ∧
        grants.Perm crowded.waiting ∧ after.waiting = [] ∧ after.lock.occupancy = {} := by
  have h : Attended 1 4 _ crowded := Attended.start.performAll [.acquire 0 .write, .acquire 1 .write,
    .release 1, .acquire 2 .write, .acquire 3 .read, .acquire 0 .read] (by decide)
  have hdrains : Drains crowded [0, 3, 2, 1] _ _ :=
    .release
      ⟨rfl, _, rfl, .head ⟨3, .inl rfl⟩ (.head ⟨2, .inl rfl⟩ (.single ⟨1, .inl rfl⟩)), by decide⟩
      (.release ⟨rfl, _, rfl, .head ⟨1, .inl rfl⟩ (.single ⟨2, .inl rfl⟩), by decide⟩
        (.release ⟨rfl, _, rfl, .single ⟨1, .inl rfl⟩, by decide⟩
          (.release ⟨rfl, _, rfl, .refl, by decide⟩ .rest)))
  obtain ⟨-, -, -, hlast⟩ := (h.drained (by decide) (by decide)).2 _ _ _ hdrains
  obtain ⟨-, hgrants, hnobody, hidle⟩ := hlast rfl
  exact ⟨_, _, h, hdrains, rfl, hgrants, hnobody, hidle⟩

/-! ### Actors with names -/

theorem Attended.request {roster : Roster} (h : Attended capacity count requests roster.crowd)
    (name : String) (request : Request) :
    ∃ more, Attended capacity count (requests ++ more) (roster.request name request).1.crowd := by
  rw [Roster.request]
  cases haction : roster.action? name request with
  | none => exact ⟨[], by rwa [List.append_nil]⟩
  | some action =>
    have hrequest : action.isRequest = true := by
      obtain ⟨thread, -, rfl⟩ := Option.map_eq_some_iff.1 haction
      cases request <;> rfl
    refine ⟨[action], ?_⟩
    have hafter := h.perform hrequest
    rw [Option.bind_some]
    cases hperform : roster.crowd.perform action <;> rwa [hperform] at hafter

theorem crowd_drain (roster : Roster) (n : Nat) : (roster.drain n).crowd = roster.crowd.drain n := by
  induction n generalizing roster with
  | zero => rfl
  | succ n ih => exact ih _

theorem Reachable.length_engaged_le (hword : capacity < UInt64.size) (h : Reachable capacity count crowd) :
    crowd.engaged.length ≤ count := by
  have hsubset : crowd.engaged ⊆ List.range count := by
    intro thread hmem
    have haway : crowd.stageOf thread ≠ .away := by
      intro haway
      rw [mem_engaged, haway] at hmem
      cases hmem
    rw [List.mem_range, ← h.length_stages hword]
    exact (List.getElem?_eq_some_iff.1 (getElem?_stages_of_ne_away haway)).1
  have hlength := (List.subperm_of_subset nodup_engaged hsubset).length_le
  rwa [List.length_range] at hlength

/-- One release for each actor is enough: however the actors have asked for the lock, none of them has it or
waits for it in the end. -/
theorem Attended.finish {roster : Roster} (hpos : 0 < capacity) (hword : capacity < UInt64.size)
    (h : Attended capacity roster.names.length requests roster.crowd) :
    roster.finish.crowd.holders = [] ∧ roster.finish.crowd.waiting = [] ∧
      roster.finish.crowd.lock.occupancy = {} := by
  obtain ⟨hreachable, hsettled⟩ := h.reachable
  obtain ⟨releases, grants, hdrains, hlast⟩ := drains_drain roster.names.length roster.crowd
  have hnone : (roster.crowd.drain roster.names.length).holders = [] := by
    rcases hlast with hall | hnone
    · have hlength := hdrains.length_add hword hreachable
      have hle := hreachable.length_engaged_le hword
      rw [engaged, List.length_append] at hle
      exact List.length_eq_zero_iff.1 (by omega)
    · exact hnone
  rw [Roster.finish, crowd_drain]
  exact ⟨hnone, (hdrains.last hword hpos hreachable hsettled hnone).2.2⟩

end Crowd

end LineStore.Lock

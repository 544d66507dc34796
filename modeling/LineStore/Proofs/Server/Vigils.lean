import LineStore.Server.Course
import LineStore.Server.Vigil

/-!
No worker sleeps through an alarm, or while it could go on.

A worker that has seen the flag down and does not look at it again before it sleeps is on its way to sleep.
An alarm raises the flag before it wakes anybody, so it has not passed such a worker, unless an event is
queued there. Likewise nothing has become ready for a worker that found that it had to wait, unless an event
is queued.
-/

namespace LineStore.Server

/-- Whether a worker sleeps, or sleeps as soon as it has to wait. -/
def Watch.isRetiring : Watch → Bool
  | .trying effort => effort ≠ .write
  | .asleep _ => true
  | _ => false

/-- What a worker has found that it has to wait for. -/
def Watch.balked? : Watch → Option Effort
  | .stuck => some .write
  | .asleep effort => some effort
  | _ => none

/-- Whether an alarm wakes a worker no more. -/
def Alarm.hasPassed (number : Nat) : Alarm → Bool
  | .called | .flagged => false
  | .waking left => number ∉ left
  | .returned => true

theorem Alarm.hasPassed_waking_eq_false {number : Nat} {left : List Nat} :
    (waking left).hasPassed number = false ↔ number ∈ left := by
  simp [hasPassed]

namespace Vigil

/-- What holds of a worker for which no event is queued. -/
structure Heeds (vigil : Vigil) (number : Nat) (station : Station) : Prop where
  alarms : station.watch.isRetiring = true → ∀ alarm ∈ vigil.alarms, alarm.hasPassed number = false
  waits : ∀ effort, station.watch.balked? = some effort → vigil.wouldWait station effort = true

/-- The invariant of workers and alarms. -/
structure Alert (vigil : Vigil) : Prop where
  raised : ∀ alarm ∈ vigil.alarms, alarm ≠ .called → vigil.flag = true
  heeds : ∀ (number : Nat) (station : Station), vigil.stations[number]? = some station →
    station.event = false → vigil.Heeds number station

variable {vigil after : Vigil} {number : Nat} {station station' : Station} {event : Event}

/-! ### A step of a worker -/

/-- A worker that has neither seen the flag down nor found that it has to wait can miss nothing. -/
theorem heeds_of_busy (hretiring : station.watch.isRetiring = false)
    (hbalked : station.watch.balked? = none) : vigil.Heeds number station where
  alarms := fun h => absurd (h.symm.trans hretiring) nofun
  waits := fun _ h => absurd (h.symm.trans hbalked) nofun

theorem Alert.not_passed (h : vigil.Alert) (hflag : vigil.flag = false) :
    ∀ alarm ∈ vigil.alarms, alarm.hasPassed number = false := by
  intro alarm halarm
  cases alarm with
  | called => rfl
  | flagged | waking | returned =>
    have hraised := h.raised _ halarm nofun
    rw [hflag] at hraised
    cases hraised

theorem Alert.check (h : vigil.Alert) (hheeds : station.event = false → vigil.Heeds number station)
    (hwork : vigil.work station (.check number) = some station') (hevent : station'.event = false) :
    vigil.Heeds number station' := by
  obtain ⟨watch, event, readable, writable⟩ := station
  cases hflag : vigil.flag with
  | true =>
    cases watch with
    | checking effort =>
      cases effort with
      | accept | read | write =>
        simp only [work, hflag, if_true] at hwork
        cases hwork
        exact heeds_of_busy rfl rfl
    | stuck =>
      simp only [work, hflag, if_true] at hwork
      cases hwork
      exact heeds_of_busy rfl rfl
    | _ => cases hwork
  | false =>
    have hpassed : ∀ alarm ∈ vigil.alarms, alarm.hasPassed number = false := h.not_passed hflag
    cases watch with
    | checking effort =>
      cases effort with
      | accept | read | write =>
        simp only [work, hflag] at hwork
        cases hwork
        exact ⟨fun _ => hpassed, nofun⟩
    | stuck =>
      simp only [work, hflag] at hwork
      cases hwork
      exact ⟨fun _ => hpassed, (hheeds hevent).waits⟩
    | _ => cases hwork

theorem Heeds.balk (h : station.event = false → vigil.Heeds number station)
    (hwork : vigil.work station (.balk number) = some station') (hevent : station'.event = false) :
    vigil.Heeds number station' := by
  obtain ⟨watch, event, readable, writable⟩ := station
  cases watch with
  | trying effort =>
    simp only [work] at hwork
    split at hwork
    · rename_i hwaits
      cases hwork
      have hheeds := h hevent
      cases effort with
      | write => exact ⟨nofun, fun _ heffort => Option.some.inj heffort ▸ hwaits⟩
      | accept | read =>
        exact ⟨fun _ => hheeds.alarms rfl, fun _ heffort => Option.some.inj heffort ▸ hwaits⟩
    · cases hwork
  | _ => cases hwork

theorem heeds_of_proceed {sequel : Watch}
    (hwork : vigil.work station (.proceed number sequel) = some station') :
    vigil.Heeds number station' := by
  have hbusy : ∀ effort : Effort, ∀ sequel ∈ effort.sequels,
      sequel.isRetiring = false ∧ sequel.balked? = none := by
    intro effort
    cases effort <;> decide
  obtain ⟨watch, event, readable, writable⟩ := station
  cases watch with
  | trying effort =>
    simp only [work] at hwork
    split at hwork
    · rename_i hsequel
      cases hwork
      exact heeds_of_busy (hbusy effort sequel hsequel).1 (hbusy effort sequel hsequel).2
    · cases hwork
  | _ => cases hwork

theorem heeds_of_wake (hwork : vigil.work station (.wake number) = some station') :
    vigil.Heeds number station' := by
  obtain ⟨watch, event, readable, writable⟩ := station
  cases watch with
  | asleep effort =>
    cases effort with
    | accept | read | write =>
      cases hwork
      exact heeds_of_busy rfl rfl
  | dozing =>
    cases hwork
    exact heeds_of_busy rfl rfl
  | _ => cases hwork

theorem heeds_of_fail {sequel : Watch} (hwork : vigil.work station (.fail number sequel) = some station') :
    vigil.Heeds number station' := by
  obtain ⟨watch, event, readable, writable⟩ := station
  cases watch with
  | asleep effort =>
    cases effort with
    | accept | read | write =>
      simp only [work] at hwork
      split at hwork
      · rename_i hsequel
        cases hwork
        subst hsequel
        exact heeds_of_busy rfl rfl
      · cases hwork
  | dozing =>
    simp only [work] at hwork
    split at hwork
    · rename_i hsequel
      cases hwork
      subst hsequel
      exact heeds_of_busy rfl rfl
    · cases hwork
  | _ => cases hwork

theorem serves_of_balked {effort : Effort} (h : station.watch.balked? = some effort)
    (heffort : effort ≠ .accept) : station.serves = true := by
  obtain ⟨watch, event, readable, writable⟩ := station
  cases watch with
  | stuck => rfl
  | asleep other =>
    cases h
    exact decide_eq_true heffort
  | _ => cases h

theorem isRegistered_of_balked {effort : Effort} (h : station.watch.balked? = some effort) :
    station.isRegistered = true := by
  refine decide_eq_true fun hwatch => ?_
  rw [hwatch] at h
  cases h

/-- Without news, what a worker hears of and was not ready is not ready. -/
theorem not_ready {hears ready before : Bool} (hnews : (hears && ready && !before) = false)
    (hhears : hears = true) (hbefore : (!before) = true) : (!ready) = true := by
  rw [hhears, hbefore, Bool.true_and, Bool.and_true] at hnews
  exact congrArg not hnews

/-- If no event is queued although there may be something to read, then nobody waits for it. -/
theorem Heeds.readable (h : station.event = false → vigil.Heeds number station) (ready : Bool)
    (hevent : (station.notify (station.serves && ready && !station.readable)).event = false) :
    vigil.Heeds number
      { station.notify (station.serves && ready && !station.readable) with readable := ready } := by
  obtain ⟨hsilent, hnews⟩ := Bool.or_eq_false_iff.1 hevent
  refine ⟨(h hsilent).alarms, fun effort heffort => ?_⟩
  have hwaits := (h hsilent).waits effort heffort
  cases effort with
  | accept | write => exact hwaits
  | read => exact not_ready hnews (serves_of_balked heffort nofun) hwaits

theorem Heeds.writable (h : station.event = false → vigil.Heeds number station) (ready : Bool)
    (hevent : (station.notify (station.serves && ready && !station.writable)).event = false) :
    vigil.Heeds number
      { station.notify (station.serves && ready && !station.writable) with writable := ready } := by
  obtain ⟨hsilent, hnews⟩ := Bool.or_eq_false_iff.1 hevent
  refine ⟨(h hsilent).alarms, fun effort heffort => ?_⟩
  have hwaits := (h hsilent).waits effort heffort
  cases effort with
  | accept | read => exact hwaits
  | write => exact not_ready hnews (serves_of_balked heffort nofun) hwaits

theorem Alert.work (h : vigil.Alert) (hheeds : station.event = false → vigil.Heeds number station)
    (hwork : vigil.work station event = some station') (hevent : station'.event = false) :
    vigil.Heeds number station' := by
  cases event with
  | register =>
    simp only [Vigil.work] at hwork
    split at hwork <;> cases hwork
    exact heeds_of_busy rfl rfl
  | check => exact h.check hheeds hwork hevent
  | balk => exact .balk hheeds hwork hevent
  | proceed => exact heeds_of_proceed hwork
  | wake => exact heeds_of_wake hwork
  | fail => exact heeds_of_fail hwork
  | readable _ ready =>
    cases hwork
    exact .readable hheeds ready hevent
  | writable _ ready =>
    cases hwork
    exact .writable hheeds ready hevent
  | callers | alarm => cases hwork

/-! ### A step of all -/

theorem mem_registered (hstation : vigil.stations[number]? = some station)
    (h : station.isRegistered = true) : number ∈ vigil.registered := by
  refine List.mem_map.2 ⟨(station, number), List.mem_filter.2 ⟨?_, h⟩, rfl⟩
  exact List.mem_zipIdx_iff_getElem?.2 hstation

theorem isRegistered_of_isRetiring (h : station.watch.isRetiring = true) :
    station.isRegistered = true := by
  refine decide_eq_true fun hwatch => ?_
  rw [hwatch] at h
  cases h

/-- A step of a worker at its station. -/
theorem Alert.setStation (h : vigil.Alert) (hstation : vigil.stations[number]? = some station)
    (hwork : vigil.work station event = some station') : (vigil.setStation number station').Alert where
  raised := h.raised
  heeds := by
    intro other station'' hother hevent
    rw [Vigil.setStation, List.getElem?_set] at hother
    split at hother
    · rename_i heq
      subst heq
      split at hother
      · cases hother
        obtain ⟨halarms, hwaits⟩ := h.work (h.heeds number station hstation) hwork hevent
        exact ⟨halarms, hwaits⟩
      · cases hother
    · obtain ⟨halarms, hwaits⟩ := h.heeds other station'' hother hevent
      exact ⟨halarms, hwaits⟩

theorem Alert.callers (h : vigil.Alert) (ready : Bool) :
    Alert
      { vigil with
        callers := ready
        stations := vigil.stations.map fun station =>
          station.notify (station.isRegistered && ready && !vigil.callers) } where
  raised := h.raised
  heeds := by
    intro number station' hstation' hevent
    rw [List.getElem?_map] at hstation'
    obtain ⟨station, hstation, rfl⟩ := Option.map_eq_some_iff.1 hstation'
    obtain ⟨hsilent, hnews⟩ := Bool.or_eq_false_iff.1 hevent
    obtain ⟨halarms, hwaits⟩ := h.heeds number station hstation hsilent
    refine ⟨halarms, fun effort heffort => ?_⟩
    have hwaits' := hwaits effort heffort
    cases effort with
    | read | write => exact hwaits'
    | accept => exact not_ready hnews (isRegistered_of_balked heffort) hwaits'

/-! ### A step of an alarm -/

/-- An alarm goes on, and passes no worker that may sleep without an event. -/
theorem Alert.setAlarm (h : vigil.Alert) (place : Nat) {alarm : Alarm} (hflag : vigil.flag = true)
    (hpassed : ∀ (number : Nat) (station : Station), vigil.stations[number]? = some station →
      station.event = false → station.watch.isRetiring = true → alarm.hasPassed number = false) :
    Alert { vigil with alarms := vigil.alarms.set place alarm } where
  raised := fun _ _ _ => hflag
  heeds := by
    intro number station hstation hevent
    obtain ⟨halarms, hwaits⟩ := h.heeds number station hstation hevent
    refine ⟨fun hretiring other hother => ?_, hwaits⟩
    rcases List.mem_or_eq_of_mem_set hother with hold | rfl
    · exact halarms hretiring other hold
    · exact hpassed number station hstation hevent hretiring

theorem event_of_notified
    (h : (vigil.stations.modify number fun station => station.notify true)[number]? = some station) :
    station.event = true := by
  rw [List.getElem?_modify_eq] at h
  obtain ⟨before, -, rfl⟩ := Option.map_eq_some_iff.1 h
  exact Bool.or_true before.event

theorem Alert.wake (h : vigil.Alert) (worker : Nat) :
    Alert
      { vigil with
        stations := vigil.stations.modify worker fun station => station.notify true } where
  raised := h.raised
  heeds := by
    intro number station' hstation' hevent
    by_cases heq : worker = number
    · subst heq
      cases (event_of_notified hstation').symm.trans hevent
    · rw [List.getElem?_modify_ne _ _ heq] at hstation'
      obtain ⟨halarms, hwaits⟩ := h.heeds number station' hstation' hevent
      exact ⟨halarms, hwaits⟩

theorem Alert.ring (h : vigil.Alert) (hring : vigil.ring number = some after) : after.Alert := by
  rw [Vigil.ring] at hring
  cases halarm : vigil.alarms[number]? with
  | none =>
    rw [halarm] at hring
    cases hring
  | some alarm =>
    rw [halarm] at hring
    have hmem : alarm ∈ vigil.alarms := List.mem_of_getElem? halarm
    cases alarm with
    | called =>
      cases hring
      have hflagged : Alert { vigil with flag := true } :=
        ⟨fun _ _ _ => rfl, fun other station hstation hevent =>
          have hheeds := h.heeds other station hstation hevent
          ⟨hheeds.alarms, hheeds.waits⟩⟩
      exact hflagged.setAlarm number rfl fun _ _ _ _ _ => rfl
    | flagged =>
      simp only at hring
      split at hring <;> cases hring
      refine h.setAlarm number (h.raised _ hmem nofun) fun other station hstation _ hretiring => ?_
      exact Alarm.hasPassed_waking_eq_false.2
        (mem_registered hstation (isRegistered_of_isRetiring hretiring))
    | waking left =>
      have hflag := h.raised _ hmem nofun
      cases left with
      | nil =>
        -- all registered workers have been woken, so every retiring worker has an event
        cases hring
        refine h.setAlarm number hflag fun other station hstation hevent hretiring => ?_
        have hpassed := (h.heeds other station hstation hevent).alarms hretiring _ hmem
        exact absurd (Alarm.hasPassed_waking_eq_false.1 hpassed) List.not_mem_nil
      | cons worker left =>
        cases hring
        refine (h.wake worker).setAlarm number hflag fun other station' hstation' hevent hretiring => ?_
        have hpassed := ((h.wake worker).heeds other station' hstation' hevent).alarms hretiring _ hmem
        rcases List.mem_cons.1 (Alarm.hasPassed_waking_eq_false.1 hpassed) with rfl | hleft
        · cases (event_of_notified hstation').symm.trans hevent
        · exact Alarm.hasPassed_waking_eq_false.2 hleft
    | returned => cases hring

/-! ### Whatever happens -/

theorem alert_start (workers calls : Nat) : (start workers calls).Alert where
  raised := by
    intro alarm halarm hne
    exact absurd (List.eq_of_mem_replicate halarm) hne
  heeds := by
    intro number station hstation _
    rw [List.eq_of_mem_replicate (List.mem_of_getElem? hstation)]
    exact heeds_of_busy rfl rfl

theorem Alert.act (h : vigil.Alert) (hact : vigil.act event = some after) : after.Alert := by
  cases event with
  | alarm number => exact h.ring hact
  | callers ready =>
    cases hact
    exact h.callers ready
  | register number | check number | balk number | proceed number | wake number | fail number
  | readable number | writable number =>
    obtain ⟨station, hstation, hbind⟩ := Option.bind_eq_some_iff.1 hact
    obtain ⟨station', hwork, hafter⟩ := Option.bind_eq_some_iff.1 hbind
    cases hafter
    exact h.setStation hstation hwork

theorem Reachable.alert {workers calls : Nat} (h : Reachable workers calls vigil) : vigil.Alert := by
  induction h with
  | start => exact alert_start workers calls
  | step _ hact ih => exact ih.act hact

theorem Reachable.run {workers calls : Nat} (h : Reachable workers calls vigil) (events : List Event)
    (hrun : events.foldlM Vigil.act vigil = some after) : Reachable workers calls after := by
  induction events generalizing vigil with
  | nil =>
    cases hrun
    exact h
  | cons event rest ih =>
    rw [List.foldlM_cons] at hrun
    obtain ⟨next, hact, hrest⟩ := Option.bind_eq_some_iff.1 hrun
    exact ih (h.step hact) hrest

/-- When a worker sleeps and no event is queued for it, then no alarm has returned, and what the worker
tried last would still have to wait. -/
theorem Reachable.sound_sleep {workers calls : Nat} (h : Reachable workers calls vigil) {effort : Effort}
    (hstation : vigil.stations[number]? = some station) (hasleep : station.watch = .asleep effort)
    (hevent : station.event = false) :
    (∀ alarm ∈ vigil.alarms, alarm ≠ .returned) ∧ vigil.wouldWait station effort = true := by
  obtain ⟨halarms, hwaits⟩ := h.alert.heeds number station hstation hevent
  refine ⟨fun alarm halarm hreturned => ?_, hwaits effort (by rw [hasleep]; rfl)⟩
  have hpassed := halarms (by rw [hasleep]; rfl) alarm halarm
  rw [hreturned] at hpassed
  cases hpassed

/-- Two workers sleep, and an alarm has woken the first one only. -/
theorem Reachable.sound_sleep_half_woken :
    ∃ vigil, Reachable 2 1 vigil ∧ vigil.flag = true ∧ vigil.alarms = [.waking [1]] ∧
      vigil.stations = [{ watch := .asleep .accept, event := true }, { watch := .asleep .accept }] ∧
      (∀ alarm ∈ vigil.alarms, alarm ≠ .returned) ∧
      vigil.wouldWait { watch := .asleep .accept } .accept = true := by
  have hreachable : Reachable 2 1
      { stations := [{ watch := .asleep .accept, event := true }, { watch := .asleep .accept }]
        alarms := [.waking [1]]
        flag := true } :=
    Reachable.start.run
      [.register 0, .register 1, .check 0, .check 1, .balk 0, .balk 1, .alarm 0, .alarm 0, .alarm 0] rfl
  have hsecond : [{ watch := .asleep .accept, event := true }, ({ watch := .asleep .accept } : Station)][1]? =
      some { watch := .asleep .accept } := rfl
  exact ⟨_, hreachable, rfl, rfl, rfl, hreachable.sound_sleep hsecond rfl rfl⟩

end Vigil

/-! ### The steps of a worker at its connection -/

/-- Where a worker at its connection is, as far as sleep is concerned. -/
def Worker.Phase.watch : Worker.Phase → Watch
  | .checking => .checking .read
  | .reading => .trying .read
  | .waitingToRead => .asleep .read
  | .framing | .writing _ => .trying .write
  | .stuck _ => .stuck
  | .waitingToWrite _ => .asleep .write
  | .over .broken => .gone
  | .over _ => .checking .accept

/-- Whether a worker meets with what a vigil has for it. -/
structure Weather.Suits (weather : Weather) (vigil : Vigil) (station : Station) : Prop where
  stopping : weather.stopping = vigil.flag
  read : weather.read = .wouldBlock → vigil.wouldWait station .read = true
  write : weather.write = .wouldBlock → vigil.wouldWait station .write = true

namespace Worker

variable {σ : Type} {worker : Worker σ} {weather : Weather} {vigil : Vigil} {station : Station}

theorem watch_takeFrame_mem (engine : Store.Engine σ) (latency : Span) (worker : Worker σ) :
    (worker.takeFrame engine latency).phase.watch ∈ Effort.write.sequels := by
  rw [takeFrame]
  split
  · simp [Phase.watch, Effort.sequels]
  · split
    · simp [Phase.watch, Effort.sequels]
    · split <;> simp [Phase.watch, Effort.sequels]

/-- Whatever a worker does at its connection, a vigil lets it do as one step. -/
theorem exists_work_of_step (engine : Store.Engine σ) (latency : Span) (number : Nat)
    (hsuits : weather.Suits vigil station) (hlive : worker.phase.isOver = false)
    (hwatch : station.watch = worker.phase.watch) :
    ∃ event station', event.worker? = some number ∧ vigil.work station event = some station' ∧
      station'.watch = (worker.step engine latency weather).phase.watch := by
  obtain ⟨watch, event, readable, writable⟩ := station
  have hproceed (effort : Effort) (sequel : Watch) (htrying : watch = .trying effort)
      (hsequel : sequel ∈ effort.sequels) :
      ∃ event' station', event'.worker? = some number ∧
        vigil.work { watch, event, readable, writable } event' = some station' ∧
          station'.watch = sequel := by
    subst htrying
    exact ⟨.proceed number sequel, { watch := sequel, event, readable, writable }, rfl, if_pos hsequel,
      rfl⟩
  obtain ⟨responder, framer, phase, delivered, served, replies⟩ := worker
  obtain ⟨stopping, read, write, sleepless⟩ := weather
  obtain ⟨rfl, hread, hwrite⟩ := hsuits
  cases hwatch
  cases phase with
  | checking | stuck =>
    refine ⟨.check number, _, rfl, rfl, ?_⟩
    simp only [step]
    cases vigil.flag <;> rfl
  | reading =>
    cases read with
    | wouldBlock => exact ⟨.balk number, _, rfl, if_pos (hread rfl), rfl⟩
    | chunk => exact hproceed .read (.trying .write) rfl (by decide)
    | interrupted => exact hproceed .read (.checking .read) rfl (by decide)
    | ended | failed => exact hproceed .read (.checking .accept) rfl (by decide)
  | waitingToRead | waitingToWrite =>
    cases sleepless with
    | true => exact ⟨.fail number (.checking .accept), _, rfl, rfl, rfl⟩
    | false => exact ⟨.wake number, _, rfl, rfl, rfl⟩
  | framing => exact hproceed .write _ rfl (watch_takeFrame_mem engine latency _)
  | writing rest =>
    cases rest with
    | nil => exact hproceed .write (.trying .write) rfl (by decide)
    | cons b rest =>
      cases write with
      | wouldBlock => exact ⟨.balk number, _, rfl, if_pos (hwrite rfl), rfl⟩
      | accepted | interrupted => exact hproceed .write (.trying .write) rfl (by decide)
      | exhausted | failed => exact hproceed .write (.checking .accept) rfl (by decide)
  | _ => cases hlive

end Worker

end LineStore.Server

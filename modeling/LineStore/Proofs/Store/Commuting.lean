import LineStore.Proofs.Store.Keywise
import LineStore.Proofs.Store.Listings
import LineStore.Proofs.Store.Runs
import LineStore.Proofs.Store.Upkeep

/-!
Operations on different keys can be carried out in either order.

What an operation does to a bucket comes in two parts: it may put a new entry in front, and it may change or
take out the entry of its key, wherever that is. The second parts of two operations on different keys do not
meet, and none of them meets the entry that the other puts in front. Only where each puts an entry in front
of one bucket does the order show.
-/

namespace LineStore.Store

/-! ### Lists of entries -/

namespace Operation

variable {operation first second : Operation} {entries : List Entry} {entry : Entry}

/-- The entry that an operation puts in front of those of a bucket. -/
def made? : Operation → List Entry → Option Entry
  | insert key value, entries =>
    if ∃ entry ∈ entries, entry.key = key then none else some { key, value }
  | search _, _ | update _ _, _ | delete _, _ => none

/-- What an operation makes of an entry that is there. -/
def alter : Operation → Entry → Option Entry
  | insert _ _, entry | search _, entry => some entry
  | update key value, entry => some (if entry.key = key then { entry with value } else entry)
  | delete key, entry => if entry.key = key then none else some entry

theorem alter_of_ne (h : entry.key ≠ operation.key) : operation.alter entry = some entry := by
  cases operation with
  | insert key value | search key => rfl
  | update key value => exact congrArg some (if_neg h)
  | delete key => exact if_neg h

theorem key_of_alter {after : Entry} (h : operation.alter entry = some after) :
    after.key = entry.key := by
  cases operation with
  | insert key value | search key =>
    cases h
    rfl
  | update key value =>
    cases h
    split <;> rfl
  | delete key =>
    rw [alter] at h
    split at h
    · cases h
    · cases h
      rfl

theorem key_of_made? (h : operation.made? entries = some entry) : entry.key = operation.key := by
  cases operation with
  | insert key value =>
    rw [made?] at h
    split at h
    · cases h
    · cases h
      rfl
  | search key | update key value | delete key => cases h

theorem alter_of_made? (h : operation.made? entries = some entry) : operation.alter = some := by
  cases operation with
  | insert key value => rfl
  | search key | update key value | delete key => cases h

theorem rearrange_eq (operation : Operation) (entries : List Entry) :
    operation.rearrange entries =
      (operation.made? entries).toList ++ entries.filterMap operation.alter := by
  cases operation with
  | insert key value =>
    have halter : (insert key value).alter = some := rfl
    rw [halter, List.filterMap_some, rearrange, made?]
    split <;> rfl
  | search key => exact List.filterMap_some.symm
  | update key value => exact (congrFun List.filterMap_eq_map' entries).symm
  | delete key =>
    rw [rearrange, made?, Option.toList_none, List.nil_append, ← List.filterMap_eq_filter]
    refine List.filterMap_congr fun entry _ => ?_
    by_cases h : entry.key = key <;> simp [alter, Option.guard, h]

/-- An operation neither brings nor removes other keys than its own. -/
theorem exists_key_rearrange_iff {key : String} (h : operation.key ≠ key) :
    (∃ entry ∈ operation.rearrange entries, entry.key = key) ↔ ∃ entry ∈ entries, entry.key = key := by
  simp only [rearrange_eq, List.mem_append, Option.mem_toList, List.mem_filterMap]
  constructor
  · rintro ⟨entry, hmade | ⟨old, hold, halter⟩, rfl⟩
    · exact absurd (key_of_made? hmade).symm h
    · exact ⟨old, hold, (key_of_alter halter).symm⟩
  · rintro ⟨entry, hentry, rfl⟩
    exact ⟨entry, .inr ⟨entry, hentry, alter_of_ne h.symm⟩, rfl⟩

theorem made?_rearrange (h : first.key ≠ second.key) :
    second.made? (first.rearrange entries) = second.made? entries := by
  cases second with
  | insert key value => simp only [made?, exists_key_rearrange_iff (show first.key ≠ key from h)]
  | search key | update key value | delete key => rfl

theorem rearrange_rearrange (h : first.key ≠ second.key) :
    second.rearrange (first.rearrange entries) =
      (second.made? entries).toList ++ ((first.made? entries).toList ++
        (entries.filterMap first.alter).filterMap second.alter) := by
  have hmade : (first.made? entries).toList.filterMap second.alter =
      (first.made? entries).toList := by
    cases hfirst : first.made? entries with
    | none => rfl
    | some entry =>
      have hkey : entry.key ≠ second.key := key_of_made? hfirst ▸ h
      rw [Option.toList_some, List.filterMap_cons_some (alter_of_ne hkey), List.filterMap_nil]
  rw [rearrange_eq second, made?_rearrange h, rearrange_eq first, List.filterMap_append, hmade]

/-- Every entry has one key, so one of two operations on different keys leaves it alone. -/
theorem filterMap_alter_comm (h : first.key ≠ second.key) :
    (entries.filterMap first.alter).filterMap second.alter =
      (entries.filterMap second.alter).filterMap first.alter := by
  rw [List.filterMap_filterMap, List.filterMap_filterMap]
  refine List.filterMap_congr fun entry _ => ?_
  have hleave : ∀ {one other : Operation}, entry.key ≠ one.key →
      (one.alter entry).bind other.alter = (other.alter entry).bind one.alter := by
    intro one other hone
    rw [alter_of_ne hone, Option.bind_some]
    cases hother : other.alter entry with
    | none => rfl
    | some after =>
      rw [Option.bind_some, alter_of_ne ((key_of_alter hother).trans_ne hone)]
  by_cases hfirst : entry.key = first.key
  · exact (hleave (hfirst.trans_ne h)).symm
  · exact hleave hfirst

end Operation

/-- The two newest entries, each in the place of the other. -/
def swapNewest : List Entry → List Entry
  | newest :: next :: entries => next :: newest :: entries
  | entries => entries

theorem length_swapNewest (entries : List Entry) : (swapNewest entries).length = entries.length := by
  rcases entries with _ | ⟨_, _ | ⟨_, _⟩⟩ <;> rfl

theorem swapNewest_eq_nil_iff {entries : List Entry} : swapNewest entries = [] ↔ entries = [] := by
  rw [← List.length_eq_zero_iff, length_swapNewest, List.length_eq_zero_iff]

/-- A dump that differs from another in the two newest entries of one bucket. -/
def Dump.swapNewestAt (dump : Dump) (index : Nat) : Dump :=
  { dump with
    buckets := dump.buckets.map fun bucket =>
      if bucket.index = index then { bucket with entries := swapNewest bucket.entries } else bucket }

theorem Dump.swapNewestAt_ofEntries (count index : Nat) (entriesAt : Nat → List Entry) :
    (ofEntries count entriesAt).swapNewestAt index =
      .ofEntries count (Function.update entriesAt index (swapNewest (entriesAt index))) := by
  generalize hafter : Function.update entriesAt index (swapNewest (entriesAt index)) = after
  have hbuckets : ((ofEntries count entriesAt).swapNewestAt index).buckets =
      (ofEntries count after).buckets := by
    simp only [swapNewestAt, ofEntries, List.map_filterMap]
    refine List.filterMap_congr fun i _ => ?_
    rw [← hafter, Function.update_apply]
    by_cases hindex : i = index
    · simp only [hindex, ↓reduceIte, swapNewest_eq_nil_iff]
      split <;> simp
    · simp only [hindex, ↓reduceIte]
      split <;> simp [hindex]
  have htotal : (ofEntries count entriesAt).total = (ofEntries count after).total := by
    have hlengths : (ofEntries count after).buckets.map (fun bucket => bucket.entries.length) =
        (ofEntries count entriesAt).buckets.map fun bucket => bucket.entries.length := by
      rw [← hbuckets, swapNewestAt, List.map_map]
      refine List.map_congr_left fun bucket _ => ?_
      rw [Function.comp_apply]
      split
      · exact length_swapNewest _
      · rfl
    exact congrArg (List.foldr (· + ·) 0) hlengths.symm
  exact congrArg₂ Dump.mk htotal hbuckets

/-! ### Two operations -/

variable {store other : Store} {first second operation : Operation}

/-- Whether two operations both make an entry, in one bucket. -/
structure BothCreate (store : Store) (first second : Operation) : Prop where
  first_creates : (store.perform first).1 = .insert true
  second_creates : (store.perform second).1 = .insert true
  same_bucket : bucketOf first.key store.bucketCount = bucketOf second.key store.bucketCount

theorem Sound.creates_iff (h : store.Sound) :
    (store.perform operation).1 = .insert true ↔
      ∃ entry, operation.made? (store.dump.1.entriesAt (bucketOf operation.key store.bucketCount)) =
        some entry := by
  rw [h.entriesAt_bucketOf, perform_eq_setChain]
  cases operation with
  | insert key value =>
    simp only [Chain.perform, Operation.key, Operation.made?, Chain.exists_key_iff]
    cases (store.chainOf key).find? key <;> simp [Chain.apply]
  | search key => simp [Chain.perform, Chain.apply, Operation.made?]
  | update key value | delete key =>
    simp only [Chain.perform, Operation.key, Operation.made?]
    cases (store.chainOf key).find? key <;> simp [Chain.apply]

theorem Sound.entriesAt_perform_perform (h : store.Sound) (first second : Operation) (i : Nat) :
    ((store.perform first).2.perform second).2.dump.1.entriesAt i =
      if bucketOf second.key store.bucketCount = i then
        second.rearrange
          (if bucketOf first.key store.bucketCount = i then first.rearrange (store.dump.1.entriesAt i)
          else store.dump.1.entriesAt i)
      else if bucketOf first.key store.bucketCount = i then first.rearrange (store.dump.1.entriesAt i)
      else store.dump.1.entriesAt i := by
  rw [(h.perform first).2.2.entriesAt_perform, bucketCount_perform, h.entriesAt_perform]

theorem Sound.outcome_perform_of_ne (h : store.Sound) (hkeys : first.key ≠ second.key) :
    ((store.perform first).2.perform second).1 = (store.perform second).1 := by
  have hagree : Agree {second.key} (store.perform first).2 store := (Agree.refl h).perform_left hkeys
  exact (hagree.perform (Set.mem_singleton second.key)).1

/-- Only where both make an entry in one bucket does the order of two operations show. -/
theorem Sound.entriesAt_comm (h : store.Sound) (hkeys : first.key ≠ second.key)
    (hapart : ¬ store.BothCreate first second) :
    ((store.perform second).2.perform first).2.dump.1.entriesAt =
      ((store.perform first).2.perform second).2.dump.1.entriesAt := by
  funext i
  rw [h.entriesAt_perform_perform second first, h.entriesAt_perform_perform first second]
  by_cases hfirst : bucketOf first.key store.bucketCount = i
  · by_cases hsecond : bucketOf second.key store.bucketCount = i
    · rw [if_pos hfirst, if_pos hsecond, if_pos hfirst, if_pos hsecond,
        Operation.rearrange_rearrange hkeys, Operation.rearrange_rearrange hkeys.symm,
        Operation.filterMap_alter_comm hkeys]
      cases hone : first.made? (store.dump.1.entriesAt i) with
      | none => rfl
      | some one =>
        cases htwo : second.made? (store.dump.1.entriesAt i) with
        | none => rfl
        | some two =>
          refine absurd ⟨?_, ?_, hfirst.trans hsecond.symm⟩ hapart
          · exact h.creates_iff.2 ⟨one, hfirst ▸ hone⟩
          · exact h.creates_iff.2 ⟨two, hsecond ▸ htwo⟩
    · rw [if_neg hsecond, if_neg hsecond]
  · rw [if_neg hfirst, if_neg hfirst]

/-- Where both make an entry, the later one comes first. -/
theorem Sound.entriesAt_of_bothCreate (h : store.Sound) (hkeys : first.key ≠ second.key)
    (htogether : store.BothCreate first second) :
    let index := bucketOf first.key store.bucketCount
    ∃ one two : Entry, one.key = first.key ∧ two.key = second.key ∧
      ((store.perform first).2.perform second).2.dump.1.entriesAt index =
        two :: one :: store.dump.1.entriesAt index ∧
      ((store.perform second).2.perform first).2.dump.1.entriesAt =
        Function.update ((store.perform first).2.perform second).2.dump.1.entriesAt index
          (one :: two :: store.dump.1.entriesAt index) := by
  intro index
  have hsecond : bucketOf second.key store.bucketCount = index := htogether.same_bucket.symm
  obtain ⟨one, hone⟩ := h.creates_iff.1 htogether.first_creates
  obtain ⟨two, htwo⟩ := h.creates_iff.1 htogether.second_creates
  rw [hsecond] at htwo
  have hlists : ∀ entries : List Entry,
      (entries.filterMap first.alter).filterMap second.alter = entries := by
    intro entries
    rw [Operation.alter_of_made? hone, Operation.alter_of_made? htwo, List.filterMap_some,
      List.filterMap_some]
  refine ⟨one, two, Operation.key_of_made? hone, Operation.key_of_made? htwo, ?_, funext fun i => ?_⟩
  · rw [h.entriesAt_perform_perform, if_pos hsecond, if_pos rfl, Operation.rearrange_rearrange hkeys,
      hone, htwo, hlists]
    rfl
  · rw [Function.update_apply]
    split
    · rename_i hindex
      rw [hindex, h.entriesAt_perform_perform, if_pos rfl, if_pos hsecond,
        Operation.rearrange_rearrange hkeys.symm, hone, htwo, ← Operation.filterMap_alter_comm hkeys,
        hlists]
      rfl
    · rename_i hindex
      have hfirst : bucketOf first.key store.bucketCount ≠ i := Ne.symm hindex
      rw [h.entriesAt_perform_perform, h.entriesAt_perform_perform, hsecond, if_neg hfirst,
        if_neg hfirst, if_neg (Ne.symm hindex), if_neg (Ne.symm hindex)]

theorem Sound.dump_comm (h : store.Sound) (hkeys : first.key ≠ second.key)
    (hapart : ¬ store.BothCreate first second) :
    ((store.perform second).2.perform first).2.dump.1 =
      ((store.perform first).2.perform second).2.dump.1 := by
  have hforth : ((store.perform first).2.perform second).2.Sound :=
    ((h.perform first).2.2.perform second).2.2
  have hback : ((store.perform second).2.perform first).2.Sound :=
    ((h.perform second).2.2.perform first).2.2
  rw [hback.dump_eq, hforth.dump_eq, h.entriesAt_comm hkeys hapart]
  simp only [bucketCount_perform]

theorem Sound.dump_of_bothCreate (h : store.Sound) (hkeys : first.key ≠ second.key)
    (htogether : store.BothCreate first second) :
    let forth := ((store.perform first).2.perform second).2.dump.1
    let back := ((store.perform second).2.perform first).2.dump.1
    let index := bucketOf first.key store.bucketCount
    back = forth.swapNewestAt index ∧ back ≠ forth ∧
      ∃ one two : Entry, one.key = first.key ∧ two.key = second.key ∧
        forth.entriesAt index = two :: one :: store.dump.1.entriesAt index := by
  intro forth back index
  have hforth : forth = .ofEntries store.bucketCount forth.entriesAt := by
    simpa only [bucketCount_perform] using ((h.perform first).2.2.perform second).2.2.dump_eq
  have hback : back = .ofEntries store.bucketCount back.entriesAt := by
    simpa only [bucketCount_perform] using ((h.perform second).2.2.perform first).2.2.dump_eq
  obtain ⟨one, two, hone, htwo, hlists, hupdate⟩ := h.entriesAt_of_bothCreate hkeys htogether
  refine ⟨?_, fun hsame => ?_, one, two, hone, htwo, hlists⟩
  · have hswap : back.entriesAt =
        Function.update forth.entriesAt index (swapNewest (forth.entriesAt index)) := by
      rw [hupdate, hlists]
      rfl
    rw [hback, hswap, ← Dump.swapNewestAt_ofEntries, ← hforth]
  · have hlast : back.entriesAt index = one :: two :: store.dump.1.entriesAt index := by
      rw [hupdate, Function.update_self]
    rw [hsame, hlists] at hlast
    obtain ⟨rfl, -⟩ := List.cons.inj hlast
    exact hkeys (hone.symm.trans htwo)

/-! ### Runs -/

/-- Whether two lists differ in no more than the order of elements with different keys. -/
def Reordered {α : Type} (keyOf : α → String) (list other : List α) : Prop :=
  ∀ key, list.filter (keyOf · = key) = other.filter (keyOf · = key)

theorem reordered_pair {α : Type} {keyOf : α → String} {a b : α} (h : keyOf a ≠ keyOf b) :
    Reordered keyOf [a, b] [b, a] := by
  intro key
  by_cases ha : keyOf a = key
  · have hb : keyOf b ≠ key := fun hb => h (ha.trans hb.symm)
    simp [ha, hb]
  · simp [List.filter_cons, ha]

/-- The operations on one key are answered as if there were no others. -/
theorem Agree.performAll_filter {key : String} (h : Agree {key} store other)
    (operations : List Operation) :
    (operations.zip (store.performAll operations).1).filter (·.1.key = key) =
        (operations.filter (·.key = key)).zip
          (other.performAll (operations.filter (·.key = key))).1 ∧
      Agree {key} (store.performAll operations).2
        (other.performAll (operations.filter (·.key = key))).2 := by
  induction operations generalizing store other with
  | nil => exact ⟨rfl, h⟩
  | cons operation operations ih =>
    by_cases hkey : operation.key = key
    · obtain ⟨houtcome, hagree⟩ := h.perform (Set.mem_singleton_iff.2 hkey)
      obtain ⟨hanswers, hafter⟩ := ih hagree
      simp only [Store.performAll, List.zip_cons_cons, List.filter_cons, hkey, decide_true, ↓reduceIte,
        hanswers, houtcome]
      exact ⟨trivial, hafter⟩
    · obtain ⟨hanswers, hafter⟩ := ih (h.perform_left fun hmem => hkey (Set.mem_singleton_iff.1 hmem))
      simp only [Store.performAll, List.zip_cons_cons, List.filter_cons, hkey, decide_false,
        Bool.false_eq_true, ↓reduceIte, hanswers]
      exact ⟨trivial, hafter⟩

theorem Sound.performAll_reordered (h : store.Sound) {operations others : List Operation}
    (hreordered : Reordered Operation.key operations others) :
    Reordered (·.1.key) (operations.zip (store.performAll operations).1)
        (others.zip (store.performAll others).1) ∧
      (store.performAll operations).2.contents = (store.performAll others).2.contents := by
  have hself (key : String) : Agree {key} store store := .refl h
  have hrun (key : String) (list : List Operation) := (hself key).performAll_filter list
  constructor
  · intro key
    rw [(hrun key operations).1, (hrun key others).1, hreordered key]
  · funext key
    have hone := (hrun key operations).2.eqOn (Set.mem_singleton key)
    have hother := (hrun key others).2.eqOn (Set.mem_singleton key)
    rw [hone, hother, hreordered key]

/-- Operations on different keys commute. In either order each has the same answer and the contents end up the
same. So do the dumps, unless both operations make an entry in one bucket: then the entries that are made
come first there in the one dump and in the other, the later one in front, and the dumps differ in nothing
else. So in two runs that differ only in the order of operations on different keys every operation has the
same answer, and the contents end up the same. -/
theorem Reachable.commute {buckets : Nat} {last? : Option Dump} (h : Reachable buckets last? store)
    (hkeys : first.key ≠ second.key) :
    let forth := (store.perform first).2.perform second
    let back := (store.perform second).2.perform first
    let index := bucketOf first.key buckets
    back.1 = (store.perform first).1 ∧ forth.1 = (store.perform second).1 ∧
    back.2.contents = forth.2.contents ∧
    (¬ store.BothCreate first second → back.2.dump.1 = forth.2.dump.1) ∧
    (store.BothCreate first second →
      back.2.dump.1 = forth.2.dump.1.swapNewestAt index ∧ back.2.dump.1 ≠ forth.2.dump.1 ∧
      ∃ one two : Entry, one.key = first.key ∧ two.key = second.key ∧
        forth.2.dump.1.entriesAt index = two :: one :: store.dump.1.entriesAt index) ∧
    ∀ operations others, Reordered Operation.key operations others →
      Reordered (·.1.key) (operations.zip (store.performAll operations).1)
          (others.zip (store.performAll others).1) ∧
        (store.performAll operations).2.contents = (store.performAll others).2.contents := by
  obtain ⟨hsound, rfl, -⟩ := h.sound
  intro forth back index
  refine ⟨?_, ?_, ?_, hsound.dump_comm hkeys, hsound.dump_of_bothCreate hkeys,
    fun operations others hreordered => hsound.performAll_reordered hreordered⟩
  · exact hsound.outcome_perform_of_ne hkeys.symm
  · exact hsound.outcome_perform_of_ne hkeys
  · exact (hsound.performAll_reordered (reordered_pair hkeys.symm)).2

/-- A store with one bucket, in which there is an entry already. Two more are made in either order; taking
out the old one goes with making a new one in either order, and shows in nothing. -/
theorem Reachable.commute_collision :
    ∃ store : Store, Reachable 1 none store ∧
      (store.BothCreate (.insert "a" "1") (.insert "b" "2") ∧
        ((store.perform (.insert "b" "2")).2.perform (.insert "a" "1")).2.dump.1 =
          ((store.perform (.insert "a" "1")).2.perform (.insert "b" "2")).2.dump.1.swapNewestAt 0 ∧
        ((store.perform (.insert "a" "1")).2.perform (.insert "b" "2")).2.dump.1.entriesAt 0 =
          [⟨"b", "2"⟩, ⟨"a", "1"⟩, ⟨"c", "0"⟩]) ∧
      (¬ store.BothCreate (.insert "a" "1") (.delete "c") ∧
        ((store.perform (.delete "c")).2.perform (.insert "a" "1")).2.dump.1 =
          ((store.perform (.insert "a" "1")).2.perform (.delete "c")).2.dump.1) ∧
      Reordered (fun answered : Operation × Outcome => answered.1.key)
        [(.delete "c", .delete true), (.search "a", .search none)]
        [(.search "a", .search none), (.delete "c", .delete true)] := by
  let store := ((empty 1 Nat.one_pos).perform (.insert "c" "0")).2
  have h : Reachable 1 none store :=
    .perform (.insert "c" "0") (.opened (show open? 1 { ringCapacity := 1 } = .ok _ from rfl))
  have hkeys : (Operation.insert "a" "1").key ≠ (Operation.insert "b" "2").key := by decide
  have hothers : (Operation.insert "a" "1").key ≠ (Operation.delete "c").key := by decide
  have htogether : store.BothCreate (.insert "a" "1") (.insert "b" "2") :=
    ⟨by decide +kernel, by decide +kernel, by decide +kernel⟩
  have hapart : ¬ store.BothCreate (.insert "a" "1") (.delete "c") := fun hboth =>
    absurd hboth.second_creates (by decide +kernel)
  have hindex : bucketOf (Operation.insert "a" "1").key 1 = 0 := Nat.mod_one _
  obtain ⟨-, -, -, -, hcreate, hruns⟩ := h.commute hkeys
  obtain ⟨-, -, -, heither, -, -⟩ := h.commute hothers
  obtain ⟨hswap, -, -⟩ := hcreate htogether
  rw [hindex] at hswap
  have hruns := (hruns _ _ (reordered_pair (a := .delete "c") (b := .search "a") (by decide))).1
  have hone : (store.performAll [.delete "c", .search "a"]).1 = [.delete true, .search none] := by
    decide +kernel
  have hother : (store.performAll [.search "a", .delete "c"]).1 = [.search none, .delete true] := by
    decide +kernel
  rw [hone, hother] at hruns
  exact ⟨store, h, ⟨htogether, hswap, by decide +kernel⟩, ⟨hapart, heither hapart⟩, hruns⟩

end LineStore.Store

import LineStore.Proofs.Server.Keeping
import LineStore.Proofs.Text.Fields
import LineStore.Store.Dump

/-!
The text of a dump tells all that it shows, if no key and no value is written over more than one line.

Keys and values are written as they stand, so their lines may read like any other line of the text. None is
taken for another, because it counts where a line is: every bucket says how many entries it has before they
come, and an entry takes two lines.
-/

namespace LineStore

namespace Store

variable {rest rest' : String}

/-! ### Entries -/

/-- Whether the key and the value of an entry each stay within one line. -/
structure Entry.Unbroken (entry : Entry) : Prop where
  key : '\n' ∉ entry.key.toList
  value : '\n' ∉ entry.value.toList

instance (entry : Entry) : Decidable entry.Unbroken :=
  decidable_of_iff ('\n' ∉ entry.key.toList ∧ '\n' ∉ entry.value.toList)
    ⟨fun h => ⟨h.1, h.2⟩, fun h => ⟨h.key, h.value⟩⟩

namespace Entry

theorem text_append (entry : Entry) (rest : String) :
    entry.text ++ rest =
      "    Key:   " ++ (entry.key ++ ("\n    Value: " ++ (entry.value ++ ("\n" ++ rest)))) := by
  unfold text
  simp only [String.append_assoc]
  rfl

theorem text_append_inj {entry entry' : Entry} (h : entry.Unbroken) (h' : entry'.Unbroken) :
    entry.text ++ rest = entry'.text ++ rest' ↔ entry = entry' ∧ rest = rest' := by
  rw [text_append, text_append, String.append_right_inj,
    Text.field_append_inj (by decide) h.key h'.key, Text.field_append_inj (by decide) h.value h'.value,
    ← and_assoc]
  cases entry
  cases entry'
  rw [Entry.mk.injEq]

/-- Where as many entries are written, they are the same. How many there are has to be known, for what
follows them may look like one more. -/
theorem eq_of_join_text_append_eq {entries entries' : List Entry}
    (h : ∀ entry ∈ entries, entry.Unbroken) (h' : ∀ entry ∈ entries', entry.Unbroken)
    (hlength : entries.length = entries'.length)
    (heq : String.join (entries.map text) ++ rest = String.join (entries'.map text) ++ rest') :
    entries = entries' ∧ rest = rest' := by
  induction entries generalizing entries' with
  | nil =>
    obtain rfl := List.length_eq_zero_iff.1 hlength.symm
    exact ⟨rfl, (String.append_right_inj _).1 heq⟩
  | cons entry entries ih =>
    cases entries' with
    | nil => cases hlength
    | cons entry' entries' =>
      rw [Text.join_map_cons_append, Text.join_map_cons_append,
        text_append_inj (h entry List.mem_cons_self) (h' entry' List.mem_cons_self)] at heq
      obtain ⟨rfl, hrest⟩ := heq
      obtain ⟨rfl, rfl⟩ := ih (List.forall_mem_of_forall_mem_cons h) (List.forall_mem_of_forall_mem_cons h')
        (Nat.succ.inj hlength) hrest
      exact ⟨rfl, rfl⟩

end Entry

/-! ### Buckets -/

namespace BucketDump

/-- What the text of a bucket shows: everything but how many writers queue for its lock. -/
def shown (bucket : BucketDump) : BucketDump :=
  { bucket with lock := { bucket.lock with queuedWriters := 0 } }

theorem text_append (bucket : BucketDump) (rest : String) :
    bucket.text ++ rest =
      "Bucket " ++ (bucket.index.repr ++ (": " ++ (bucket.entries.length.repr ++ (" entries\n" ++
        ("  Lock State -> Read Count: " ++ (bucket.lock.readersPresent.repr ++ (", " ++
          ("Write Count: " ++ (bucket.lock.writersActive.repr ++ ("\n" ++
            (String.join (bucket.entries.map Entry.text) ++ rest))))))))))) := by
  unfold text
  simp only [String.append_assoc]
  rfl

theorem eq_of_text_append_eq {bucket bucket' : BucketDump} (h : ∀ entry ∈ bucket.entries, entry.Unbroken)
    (h' : ∀ entry ∈ bucket'.entries, entry.Unbroken) (heq : bucket.text ++ rest = bucket'.text ++ rest') :
    bucket.shown = bucket'.shown ∧ rest = rest' := by
  rw [text_append, text_append, String.append_right_inj, Text.repr_append_inj (by decide),
    Text.repr_append_inj (by decide), String.append_right_inj,
    Text.repr_append_inj (by decide), String.append_right_inj,
    Text.repr_append_inj (by decide)] at heq
  obtain ⟨hindex, hlength, hreaders, hwriters, hentries⟩ := heq
  -- only because the headers agree on the number of entries do these end at the same place
  obtain ⟨hentries, hrest⟩ := Entry.eq_of_join_text_append_eq h h' hlength hentries
  refine ⟨?_, hrest⟩
  simp only [shown, hindex, hreaders, hwriters, hentries]

/-- A bucket is never taken for the last line. -/
theorem text_append_ne (bucket : BucketDump) (rest : String) : bucket.text ++ rest ≠ "End of Dump" := by
  intro heq
  have hhead : "Bucket ".toList.head? = "End of Dump".toList.head? := by
    rw [← heq, text_append, String.toList_append, List.head?_append_of_ne_nil _ (by decide)]
  exact absurd hhead (by decide)

end BucketDump

/-! ### Dumps -/

namespace Dump

/-- Whether every key and every value of a dump stays within one line. -/
def Unbroken (dump : Dump) : Prop :=
  ∀ bucket ∈ dump.buckets, ∀ entry ∈ bucket.entries, entry.Unbroken

instance (dump : Dump) : Decidable dump.Unbroken :=
  inferInstanceAs (Decidable (∀ bucket ∈ dump.buckets, ∀ entry ∈ bucket.entries, entry.Unbroken))

/-- What the text of a dump shows: the total, and what it shows of each bucket. -/
def shown (dump : Dump) : Dump :=
  { dump with buckets := dump.buckets.map BucketDump.shown }

theorem text_eq (dump : Dump) :
    dump.text = "[Hash Table Dump] Total Entries: " ++ (dump.total.repr ++ ("\n" ++
      (String.join (dump.buckets.map BucketDump.text) ++ "End of Dump"))) := by
  unfold text
  simp only [String.append_assoc]
  rfl

theorem text_shown (dump : Dump) : dump.shown.text = dump.text := by
  rw [text_eq, text_eq, shown, List.map_map]
  rfl

theorem shown_eq_of_join_text_eq {buckets buckets' : List BucketDump}
    (h : ∀ bucket ∈ buckets, ∀ entry ∈ bucket.entries, entry.Unbroken)
    (h' : ∀ bucket ∈ buckets', ∀ entry ∈ bucket.entries, entry.Unbroken)
    (heq : String.join (buckets.map BucketDump.text) ++ "End of Dump" =
      String.join (buckets'.map BucketDump.text) ++ "End of Dump") :
    buckets.map BucketDump.shown = buckets'.map BucketDump.shown := by
  induction buckets generalizing buckets' with
  | nil =>
    cases buckets' with
    | nil => rfl
    | cons bucket' buckets' =>
      rw [Text.join_map_cons_append] at heq
      exact absurd heq.symm (bucket'.text_append_ne _)
  | cons bucket buckets ih =>
    cases buckets' with
    | nil =>
      rw [Text.join_map_cons_append] at heq
      exact absurd heq (bucket.text_append_ne _)
    | cons bucket' buckets' =>
      rw [Text.join_map_cons_append, Text.join_map_cons_append] at heq
      obtain ⟨hbucket, hrest⟩ := BucketDump.eq_of_text_append_eq (h bucket List.mem_cons_self)
        (h' bucket' List.mem_cons_self) heq
      rw [List.map_cons, List.map_cons, hbucket,
        ih (List.forall_mem_of_forall_mem_cons h) (List.forall_mem_of_forall_mem_cons h') hrest]

theorem text_eq_iff_shown_eq {dump dump' : Dump} (h : dump.Unbroken) (h' : dump'.Unbroken) :
    dump.text = dump'.text ↔ dump.shown = dump'.shown := by
  constructor
  · intro heq
    rw [text_eq, text_eq, String.append_right_inj, Text.repr_append_inj (by decide)] at heq
    obtain ⟨htotal, hbuckets⟩ := heq
    rw [shown, shown, htotal, shown_eq_of_join_text_eq h h' hbuckets]
  · intro heq
    rw [← dump.text_shown, heq, text_shown]

-- a line feed in a value can move an entry's end
example :
    (⟨2, [⟨0, {}, [⟨"a", "1\n    Key:   b\n    Value: 2"⟩, ⟨"c", "3"⟩]⟩]⟩ : Dump).text =
      (⟨2, [⟨0, {}, [⟨"a", "1"⟩, ⟨"b", "2\n    Key:   c\n    Value: 3"⟩]⟩]⟩ : Dump).text := by
  decide +kernel

end Dump

/-- A dump is taken while nobody is at a lock, so its text leaves nothing out. -/
theorem shown_dump (store : Store) : store.dump.1.shown = store.dump.1 := by
  have hidle : ∀ bucket ∈ store.occupiedBuckets, bucket.shown = bucket := by
    intro bucket hbucket
    obtain ⟨i, chain, -, -, rfl⟩ := mem_occupiedBuckets.1 hbucket
    rfl
  rw [Dump.shown, dump, List.map_congr_left hidle, List.map_id']

end Store

/-- What comes from framers stays within a line where it is printed, as it did where it came from. -/
theorem Responder.Tidy.unbroken_dump {responder : Responder Store} (h : responder.Tidy) :
    responder.state.dump.1.Unbroken := by
  intro bucket hbucket entry hentry
  obtain ⟨i, chain, hi, -, rfl⟩ := Store.mem_occupiedBuckets.1 hbucket
  have hstored := h.sound.contents_eq_some_iff.2 (Store.mem_entries.2 ⟨i, chain, hi, hentry⟩)
  obtain ⟨hkey, hvalue⟩ := h.stored entry.key entry.value hstored
  exact ⟨hkey.no_lineFeed, hvalue.no_lineFeed⟩

namespace Store

/-- Of two dumps without a key or value that is written over more than one line, the texts are the same just
when the totals are, and the buckets with their places, their entries in order, and their readers and writers.
Two stores whose dumps are such print the same just when the dumps are the same. All are such that are filled
through framers. -/
theorem text_dump_inj :
    (∀ dump dump' : Dump, dump.Unbroken → dump'.Unbroken →
      (dump.text = dump'.text ↔ dump.total = dump'.total ∧
        dump.buckets.map BucketDump.shown = dump'.buckets.map BucketDump.shown)) ∧
    (∀ store store' : Store, store.dump.1.Unbroken → store'.dump.1.Unbroken →
      (store.dump.1.text = store'.dump.1.text ↔ store.dump.1 = store'.dump.1)) ∧
    ∀ (buckets : Nat) (hbuckets : 0 < buckets) (count : Nat) (signals : List Server.Signal),
      ((Server.Switchboard.start { state := Store.empty buckets hbuckets } count).actAll Store.engine
        signals).responder.state.dump.1.Unbroken := by
  refine ⟨fun dump dump' h h' => ?_, fun store store' h h' => ?_, fun buckets hbuckets count signals => ?_⟩
  · rw [Dump.text_eq_iff_shown_eq h h', Dump.shown, Dump.shown, Dump.mk.injEq]
  · rw [Dump.text_eq_iff_shown_eq h h', shown_dump, shown_dump]
  · exact ((Server.Switchboard.tidy_start hbuckets count).actAll signals).responder.unbroken_dump

/-- Values that read like lines of the text: the last one, and one that says how many entries there are. The
store of another size puts its entry in a bucket of the same place. Who holds a lock is shown, and who queues for
it is not. -/
theorem text_dump_inj_imitations :
    let last := ((Store.empty 1 Nat.one_pos).insert "a" "End of Dump").2
    let wide := ((Store.empty 97 (by decide)).insert "a" "End of Dump").2
    let header := ((Store.empty 1 Nat.one_pos).insert "  a" "Bucket 0: 1 entries").2
    let busy (lock : Lock.Occupancy) : Dump := ⟨1, [⟨0, lock, [⟨"a", "End of Dump"⟩]⟩]⟩
    (last.dump.1.Unbroken ∧ wide.dump.1.Unbroken ∧ header.dump.1.Unbroken) ∧
      last ≠ wide ∧ last.dump.1.text = wide.dump.1.text ∧ last.dump.1.text ≠ header.dump.1.text ∧
      (busy ⟨11, 0, 0⟩).text ≠ (busy ⟨1, 10, 0⟩).text ∧ (busy ⟨0, 1, 0⟩).text = (busy ⟨0, 1, 2⟩).text := by
  intro last wide header busy
  have hlast : last.dump.1.Unbroken := by decide
  have hwide : wide.dump.1.Unbroken := by decide
  have hheader : header.dump.1.Unbroken := by decide
  obtain ⟨hdumps, hstores, -⟩ := text_dump_inj
  exact ⟨⟨hlast, hwide, hheader⟩, by decide, (hstores last wide hlast hwide).2 (by decide),
    mt (hstores last header hlast hheader).1 (by decide),
    mt (hdumps (busy ⟨11, 0, 0⟩) (busy ⟨1, 10, 0⟩) (by decide) (by decide)).1 (by decide),
    (hdumps (busy ⟨0, 1, 0⟩) (busy ⟨0, 1, 2⟩) (by decide) (by decide)).2 (by decide)⟩

end Store

end LineStore

/-!
Where a part of a text ends can be seen from the text: a run of characters of one kind, before a character of
another kind, and so a field before a mark that begins with a character which the field does not have, and a
numeral before a mark that does not begin with a digit.
-/

namespace LineStore.Text

/-! ### Runs of characters -/

theorem takeWhile_append_of_head? {α : Type} {p : α → Bool} {run rest : List α}
    (hrun : ∀ a ∈ run, p a = true) (hrest : ∀ a ∈ rest.head?, p a = false) :
    (run ++ rest).takeWhile p = run := by
  rw [List.takeWhile_append_of_pos hrun]
  cases rest with
  | nil => simp
  | cons a rest => simp [hrest a rfl]

/-- Two texts that begin with runs of one kind of character, each as long as it can be, are equal only if the
runs are. -/
theorem append_inj_of_head? {α : Type} (p : α → Bool) {run run' rest rest' : List α}
    (hrun : ∀ a ∈ run, p a = true) (hrun' : ∀ a ∈ run', p a = true)
    (hrest : ∀ a ∈ rest.head?, p a = false) (hrest' : ∀ a ∈ rest'.head?, p a = false)
    (h : run ++ rest = run' ++ rest') : run = run' ∧ rest = rest' := by
  have hsame : run = run' := by
    rw [← takeWhile_append_of_head? hrun hrest, h, takeWhile_append_of_head? hrun' hrest']
  subst hsame
  exact ⟨rfl, List.append_cancel_left h⟩

/-! ### Fields -/

variable {c : Char} {mark rest rest' : String}

theorem field_append_inj {field field' : String} (hmark : mark.toList.head? = some c)
    (h : c ∉ field.toList) (h' : c ∉ field'.toList) :
    field ++ (mark ++ rest) = field' ++ (mark ++ rest') ↔ field = field' ∧ rest = rest' := by
  have hfield : ∀ {field : String}, c ∉ field.toList → ∀ a ∈ field.toList, (a != c) = true := by
    intro field hfree a ha
    exact bne_iff_ne.2 fun hc => hfree (hc ▸ ha)
  have hend : ∀ rest : String, ∀ a ∈ (mark ++ rest).toList.head?, (a != c) = false := by
    intro rest a ha
    rw [String.toList_append, List.head?_append, hmark, Option.some_or] at ha
    cases ha
    exact bne_self_eq_false c
  constructor
  · intro heq
    have hlist : field.toList ++ (mark ++ rest).toList = field'.toList ++ (mark ++ rest').toList := by
      rw [← String.toList_append, heq, String.toList_append]
    obtain ⟨hsame, hrest⟩ :=
      append_inj_of_head? (· != c) (hfield h) (hfield h') (hend rest) (hend rest') hlist
    exact ⟨String.toList_inj.1 hsame, (String.append_right_inj mark).1 (String.toList_inj.1 hrest)⟩
  · rintro ⟨rfl, rfl⟩
    rfl

theorem not_mem_repr (hc : c.isDigit = false) (n : Nat) : c ∉ n.repr.toList := by
  intro hmem
  rw [Nat.toList_repr] at hmem
  rw [Nat.isDigit_of_mem_toDigits (by decide) (by decide) hmem] at hc
  cases hc

theorem repr_append_inj {m n : Nat} (hmark : mark.toList.head?.any (!·.isDigit) = true) :
    m.repr ++ (mark ++ rest) = n.repr ++ (mark ++ rest') ↔ m = n ∧ rest = rest' := by
  obtain ⟨c, hfirst, hc⟩ := (Option.any_eq_true _ _).1 hmark
  rw [Bool.not_eq_true'] at hc
  rw [field_append_inj hfirst (not_mem_repr hc m) (not_mem_repr hc n)]
  refine and_congr_left fun _ => ⟨fun heq => ?_, congrArg Nat.repr⟩
  have hvalue := congrArg (fun text => Nat.ofDigitChars 10 text.toList 0) heq
  simpa only [Nat.toList_repr, Nat.ofDigitChars_ten_toDigits] using hvalue

/-! ### One text after another -/

theorem join_map_cons_append {α : Type} (write : α → String) (a : α) (l : List α) (rest : String) :
    String.join ((a :: l).map write) ++ rest = write a ++ (String.join (l.map write) ++ rest) := by
  rw [List.map_cons, String.join_cons, String.append_assoc]

end LineStore.Text

import LineStore.Server.Program

/-!
Where the settings of a server come from: a flag, or else a variable of the environment, or else the default.

All variables are read before any flag counts. So a flag takes the place of what a variable says, but it does
not make up for a variable that cannot be read.
-/

namespace LineStore.Server

/-! ### Variables -/

/-- The number that the text of a variable means, if it means one. -/
def Settings.number? (text : String) : Option Nat :=
  Text.numeral? numberBound (Text.trim text.toList)

namespace Variable

/-- Whether a variable can hold this text: that of an address can hold any, and the others a number. -/
def Reads (source : Variable) (text : String) : Prop :=
  source = address ∨ (Settings.number? text).isSome = true

instance (source : Variable) (text : String) : Decidable (source.Reads text) :=
  inferInstanceAs (Decidable (_ ∨ _))

/-- What is wrong with a variable, if anything is. -/
def fault? (environment : Variable → Option String) (source : Variable) : Option SettingFault :=
  (environment source).bind fun text => if source.Reads text then none else some (.notANumber source text)

variable {environment : Variable → Option String} {source : Variable}

theorem fault?_eq_none_iff :
    source.fault? environment = none ↔ ∀ text ∈ environment source, source.Reads text := by
  simp [fault?, Option.bind_eq_none_iff]

theorem fault?_eq_some {text : String} (htext : environment source = some text)
    (h : ¬ source.Reads text) : source.fault? environment = some (.notANumber source text) := by
  rw [fault?, htext, Option.bind_some, if_neg h]

end Variable

namespace Settings

/-- The settings with what a variable says of one of them, if it says anything that can be read. -/
def heed (environment : Variable → Option String) (settings : Settings) : Variable → Settings
  | .address => { settings with address := (environment .address).getD settings.address }
  | .workers => { settings with workers := ((environment .workers).bind number?).getD settings.workers }
  | .buckets => { settings with buckets := ((environment .buckets).bind number?).getD settings.buckets }
  | .lockDelay =>
    { settings with
      lockDelay := (((environment .lockDelay).bind number?).map Span.ofMilliseconds).getD
        settings.lockDelay }

theorem number_eq (source : Variable) (text : String) :
    number source text = (number? text).elim (.error (.setting (.notANumber source text))) .ok := by
  rw [number, number?]
  cases Text.numeral? numberBound (Text.trim text.toList) <;> rfl

/-- One variable is heeded, or refused. -/
theorem override_step (environment : Variable → Option String) (settings : Settings)
    (source : Variable) :
    (match environment source with
      | some text => settings.change source text
      | none => .ok settings) =
      (source.fault? environment).elim (.ok (settings.heed environment source)) (.error <| .setting ·) := by
  cases htext : environment source with
  | none => cases source <;> simp [Variable.fault?, heed, htext]
  | some text =>
    cases source with
    | address => simp [Variable.fault?, Variable.Reads, change, heed, htext]
    | workers | buckets | lockDelay =>
      cases hnumber : number? text <;>
        simp [Variable.fault?, Variable.Reads, change, number_eq, heed, htext, hnumber, Except.map]

/-- Variables are heeded one after another, up to the first that is refused. -/
theorem foldlM_override_step (environment : Variable → Option String) (settings : Settings)
    (sources : List Variable) :
    sources.foldlM (fun settings source =>
      match environment source with
      | some text => settings.change source text
      | none => .ok settings) settings =
      (sources.findSome? (Variable.fault? environment)).elim
        (.ok (sources.foldl (heed environment) settings)) (.error <| .setting ·) := by
  induction sources generalizing settings with
  | nil => rfl
  | cons source sources ih =>
    rw [List.foldlM_cons, override_step, List.findSome?_cons, List.foldl_cons]
    cases source.fault? environment with
    | none => exact ih (settings.heed environment source)
    | some fault => rfl

theorem override_eq (environment : Variable → Option String) (settings : Settings) :
    settings.override environment =
      (Variable.all.findSome? (Variable.fault? environment)).elim
        (.ok (Variable.all.foldl (heed environment) settings)) (.error <| .setting ·) :=
  foldlM_override_step environment settings Variable.all

/-- Whether two settings have the same value where a variable changes it. -/
def Agrees (settings other : Settings) : Variable → Prop
  | .address => settings.address = other.address
  | .workers => settings.workers = other.workers
  | .buckets => settings.buckets = other.buckets
  | .lockDelay => settings.lockDelay = other.lockDelay

end Settings

/-! ### Flags -/

namespace ServerFlags

variable {flags : ServerFlags} {environment environment' : Variable → Option String}
  {source : Variable}

/-- Whether there is a flag for what a variable changes. -/
def Gives (flags : ServerFlags) : Variable → Prop
  | .address => flags.address?.isSome = true
  | .workers => flags.workers?.isSome = true
  | .buckets => flags.buckets?.isSome = true
  | .lockDelay => flags.lockDelay?.isSome = true

/-- What flags and variables make of the defaults, before it is checked. -/
def settle (flags : ServerFlags) (environment : Variable → Option String) : Except Failure Settings :=
  (({} : Settings).override environment).map flags.apply

/-- The settings by their sources: a flag, or else a variable, or else the default. -/
def inForce (flags : ServerFlags) (environment : Variable → Option String) : Settings where
  address := (flags.address? <|> environment .address).getD ({} : Settings).address
  workers := (flags.workers? <|> (environment .workers).bind Settings.number?).getD ({} : Settings).workers
  buckets := (flags.buckets? <|> (environment .buckets).bind Settings.number?).getD ({} : Settings).buckets
  lockDelay :=
    (flags.lockDelay? <|> ((environment .lockDelay).bind Settings.number?).map Span.ofMilliseconds).getD
      ({} : Settings).lockDelay
  dumpAtEnd := !flags.noDump

theorem apply_foldl_heed (flags : ServerFlags) (environment : Variable → Option String) :
    flags.apply (Variable.all.foldl (Settings.heed environment) {}) = flags.inForce environment := by
  obtain ⟨address?, workers?, buckets?, lockDelay?, noDump⟩ := flags
  cases address? <;> cases workers? <;> cases buckets? <;> cases lockDelay? <;> rfl

theorem settle_eq (flags : ServerFlags) (environment : Variable → Option String) :
    flags.settle environment =
      (Variable.all.findSome? (Variable.fault? environment)).elim
        (.ok (flags.inForce environment)) (.error <| .setting ·) := by
  rw [settle, Settings.override_eq]
  cases Variable.all.findSome? (Variable.fault? environment) with
  | none => exact congrArg Except.ok (flags.apply_foldl_heed environment)
  | some fault => rfl

theorem effectiveSettings_eq (flags : ServerFlags) (environment : Variable → Option String) :
    effectiveSettings flags environment = do
      let settings ← flags.settle environment
      settings.check
      return settings := by
  rw [effectiveSettings, settle]
  cases ({} : Settings).override environment <;> rfl

theorem orElse_congr {α : Type} {flag? value? value?' : Option α}
    (h : flag?.isSome = true ∨ value? = value?') : (flag? <|> value?) = (flag? <|> value?') := by
  rcases h with hflag | rfl
  · obtain ⟨value, rfl⟩ := Option.isSome_iff_exists.1 hflag
    rfl
  · rfl

/-- What is said by a variable that a flag outranks is not in force. -/
theorem inForce_congr (hgiven : flags.Gives source)
    (hothers : ∀ other, other ≠ source → environment other = environment' other) :
    flags.inForce environment = flags.inForce environment' := by
  have hsame (other : Variable) : flags.Gives other ∨ environment other = environment' other := by
    by_cases hother : other = source
    · exact .inl (hother ▸ hgiven)
    · exact .inr (hothers other hother)
  have haddress := orElse_congr (hsame .address)
  have hworkers := orElse_congr ((hsame .workers).imp_right (congrArg (·.bind Settings.number?)))
  have hbuckets := orElse_congr ((hsame .buckets).imp_right (congrArg (·.bind Settings.number?)))
  have hdelay := orElse_congr ((hsame .lockDelay).imp_right
    (congrArg fun text? => (text?.bind Settings.number?).map Span.ofMilliseconds))
  rw [inForce, inForce, haddress, hworkers, hbuckets, hdelay]

theorem inForce_agrees_default (hgiven : ¬ flags.Gives source) (hnone : environment source = none) :
    (flags.inForce environment).Agrees {} source := by
  cases source <;>
    · have hflag := Option.not_isSome_iff_eq_none.1 hgiven
      simp [inForce, Settings.Agrees, hflag, hnone]

/-- The ranks of flags, variables and defaults. -/
structure Layered (flags : ServerFlags) : Prop where
  /-- Where there is a flag, what the variable says makes no difference, if it can be read. -/
  outranks : ∀ (source : Variable) (environment environment' : Variable → Option String),
    flags.Gives source → (∀ other, other ≠ source → environment other = environment' other) →
      (∀ text ∈ environment source, source.Reads text) →
      (∀ text ∈ environment' source, source.Reads text) →
        flags.settle environment = flags.settle environment' ∧
          effectiveSettings flags environment = effectiveSettings flags environment'
  /-- If all variables can be read, there are settings, and each has the first source that there is. -/
  settles : ∀ environment : Variable → Option String,
    (∀ source, ∀ text ∈ environment source, source.Reads text) →
      flags.settle environment = .ok (flags.inForce environment)
  /-- Where there is neither a flag nor a variable, the default stays. -/
  keeps : ∀ (source : Variable) (environment : Variable → Option String) (settings : Settings),
    flags.settle environment = .ok settings → ¬ flags.Gives source → environment source = none →
      settings.Agrees {} source
  /-- The first variable that cannot be read is reported, whether or not there is a flag. -/
  refuses : ∀ (source : Variable) (environment : Variable → Option String) (text : String),
    environment source = some text → ¬ source.Reads text →
      (∀ earlier ∈ Variable.all.takeWhile (· ≠ source), ∀ text ∈ environment earlier, earlier.Reads text) →
        flags.settle environment = .error (.setting (.notANumber source text))

/-- A flag counts for more than a variable, and a variable for more than the default, but a variable that cannot
be read is refused before any flag counts. -/
theorem layered (flags : ServerFlags) : flags.Layered where
  outranks source environment environment' hgiven hothers hread hread' := by
    -- the variable has no fault in either environment, and the others are the same in both
    have hfault : Variable.fault? environment = Variable.fault? environment' := by
      funext other
      by_cases hother : other = source
      · subst hother
        rw [Variable.fault?_eq_none_iff.2 hread, Variable.fault?_eq_none_iff.2 hread']
      · rw [Variable.fault?, Variable.fault?, hothers other hother]
    have hsettle : flags.settle environment = flags.settle environment' := by
      rw [settle_eq, settle_eq, hfault, inForce_congr hgiven hothers]
    exact ⟨hsettle, by rw [effectiveSettings_eq, effectiveSettings_eq, hsettle]⟩
  settles environment hread := by
    have hnone : Variable.all.findSome? (Variable.fault? environment) = none :=
      List.findSome?_eq_none_iff.2 fun source _ => Variable.fault?_eq_none_iff.2 (hread source)
    rw [settle_eq, hnone]
    rfl
  keeps source environment settings hsettle hgiven hnone := by
    rw [settle_eq] at hsettle
    cases hfault : Variable.all.findSome? (Variable.fault? environment) with
    | none =>
      rw [hfault] at hsettle
      cases hsettle
      exact inForce_agrees_default hgiven hnone
    | some fault =>
      rw [hfault] at hsettle
      cases hsettle
  refuses source environment text htext hrefused hearlier := by
    obtain ⟨later, hall⟩ :
        ∃ later, Variable.all = Variable.all.takeWhile (· ≠ source) ++ source :: later := by
      cases source <;> exact ⟨_, rfl⟩
    have hfirst : Variable.all.findSome? (Variable.fault? environment) = some (.notANumber source text) := by
      rw [hall, List.findSome?_append, List.findSome?_eq_none_iff.2 fun earlier h =>
        Variable.fault?_eq_none_iff.2 (hearlier earlier h), Option.none_or, List.findSome?_cons,
        Variable.fault?_eq_some htext hrefused]
    rw [settle_eq, hfirst]
    rfl

/-- A number of workers that is flagged, with a variable for it that says another one or nothing. A number of
buckets that cannot be read does harm, although there is a flag for it. -/
theorem layered_two_workers :
    let flags : ServerFlags := { workers? := some 2, buckets? := some 5 }
    let saying (workers? buckets? : Option String) : Variable → Option String
      | .workers => workers?
      | .buckets => buckets?
      | _ => none
    flags.Layered ∧
      flags.settle (saying (some " 3 ") none) = flags.settle (saying none none) ∧
      flags.settle (saying none none) = .ok { workers := 2, buckets := 5 } ∧
      flags.settle (saying (some "3") (some "many")) =
        .error (.setting (.notANumber .buckets "many")) := by
  intro flags saying
  have hlayered := flags.layered
  refine ⟨hlayered, ?_, ?_, ?_⟩
  · refine (hlayered.outranks .workers _ _ rfl ?_ (by decide) (by decide)).1
    intro other hother
    cases other with
    | workers => exact absurd rfl hother
    | address | buckets | lockDelay => rfl
  · exact hlayered.settles _ fun source => by cases source <;> decide
  · exact hlayered.refuses .buckets _ "many" rfl (by decide) (by decide)

/-- A flag does not make up for a variable that cannot be read. -/
theorem not_outranks_unread :
    ¬ ∀ (arguments : List Bytes) (flags : ServerFlags) (source : Variable)
      (environment environment' : Variable → Option String),
        CommandLine.understand serverFlags ServerFlags.add arguments {} = .run flags →
        flags.Gives source → (∀ other, other ≠ source → environment other = environment' other) →
          flags.settle environment = flags.settle environment' := by
  intro hclaim
  let flags : ServerFlags := { workers? := some 2 }
  let bad : Variable → Option String := fun source => if source = .workers then some "bad" else none
  have hsame := hclaim (["-w", "2"].map Utf8.encode) flags .workers bad (fun _ => none) rfl rfl
    fun other hother => if_neg hother
  have hbad : flags.settle bad = .error (.setting (.notANumber .workers "bad")) := rfl
  have hnone : flags.settle (fun _ => none) = .ok { workers := 2 } := rfl
  rw [hbad, hnone] at hsame
  cases hsame

end ServerFlags

end LineStore.Server

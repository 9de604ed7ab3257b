import Folio.Cli.Program
import Folio.Proofs.Effects
import Folio.Proofs.Path

/-!
# What a call works on

An option that is limited to some values has been given one of them by the end of the command line
(`Request.accepted`), so settings can be made from it unless a value is withheld
(`settingsFor_eq_error`). The inputs that are gathered are document files (`isDocument_of_gather`).
-/

namespace Folio.Cli

variable {c c' : Collected} {a : Arguments}

/-! ## Options -/

/-- What has been given for an option that takes one value. -/
def Collected.value? (c : Collected) : Opt → Option Value
  | .output => c.output
  | .pattern => some c.pattern
  | .version => c.version
  | .repagination => some c.repagination
  | .password => c.password
  | .logDirectory => c.logDirectory
  | .help | .input | .overwrite | .verbose => none

/-- What has been given for an option that is limited to some values is one of them, or withheld. -/
def Collected.Accepted (c : Collected) : Prop :=
  ∀ opt choices text, opt.choices = some choices → c.value? opt = some (.text text) →
    text ∈ choices

namespace Collected

theorem accepted_initial : initial.Accepted := by
  intro opt choices text hchoices hvalue
  cases opt <;> cases hchoices <;> cases hvalue
  decide

/-- Taking an option with its value changes no other one. -/
theorem value?_takeOne {opt other : Opt} {value v : Value}
    (h : (c.takeOne opt value).value? other = some v) :
    c.value? other = some v ∨ other = opt ∧ v = value := by
  cases opt <;> cases other <;> first | exact .inl h | (cases h; exact .inr ⟨rfl, rfl⟩)

namespace Accepted

theorem takeOne (h : c.Accepted) {opt : Opt} {value : Value}
    (hvalue : ∀ {choices text}, opt.choices = some choices → value = .text text → text ∈ choices) :
    (c.takeOne opt value).Accepted := by
  intro other choices text hchoices hother
  rcases value?_takeOne hother with hold | ⟨rfl, hnew⟩
  · exact h other choices text hchoices hold
  · exact hvalue hchoices hnew.symm

/-- An option is taken with one of the values that it is limited to, or not at all. -/
theorem take (h : c.Accepted) {opt : Opt} {given : List String}
    (htake : c.take opt given = .ok c') : c'.Accepted := by
  unfold Collected.take at htake
  split at htake
  · split at htake <;>
    · cases htake
      exact h
  · cases htake
    exact h
  · next value rest _ _ =>
    split at htake
    · next choices hchoices =>
      split at htake
      · next hmem =>
        cases htake
        refine h.takeOne fun hchoices' htext => ?_
        cases hchoices.symm.trans hchoices'
        cases htext
        exact hmem
      · cases htake
    · next hnone =>
      cases htake
      exact h.takeOne fun hchoices _ => nomatch hnone.symm.trans hchoices
  · cases htake
    exact h.takeOne fun _ htext => nomatch htext

theorem takeFlags : ∀ {flags : List Opt} {c : Collected}, c.Accepted →
    c.takeFlags flags = .ok c' → c'.Accepted
  | [], c, h, htake => by
    cases htake
    exact h
  | opt :: flags, c, h, htake => by
    unfold Collected.takeFlags at htake
    split at htake
    · cases htake
      exact h
    · obtain ⟨c₁, hfirst, hrest⟩ := ok_of_bind htake
      exact takeFlags (h.take hfirst) hrest

/-- The end of an option token is taken behind the options in front of it, unless these ask for
help. -/
theorem takeEnd (h : c.Accepted) {opt : Opt} {flags : List Opt} {given : List String}
    {tokens rest : List Token}
    (htake : (do
      let c ← c.takeFlags flags
      if c.help then return (c, tokens) else return (← c.take opt given, tokens)) =
        (.ok (c', rest) : Except UsageError _)) : c'.Accepted := by
  obtain ⟨c₁, hflags, htake⟩ := ok_of_bind htake
  split at htake
  · cases htake
    exact h.takeFlags hflags
  · obtain ⟨c₂, htaken, htake⟩ := ok_of_bind htake
    cases htake
    exact (h.takeFlags hflags).take htaken

theorem takeOption (h : c.Accepted) {opt : Opt} {long : Bool} {attached : Option (List Char)}
    {tokens rest : List Token} (htake : takeOption c opt long attached tokens = .ok (c', rest)) :
    c'.Accepted := by
  obtain ⟨⟨flags, last⟩, -, htake⟩ := ok_of_bind htake
  cases last with
  | bare opt =>
    obtain ⟨⟨values, found⟩, -, htake⟩ := ok_of_bind htake
    exact h.takeEnd htake
  | valued opt value => exact h.takeEnd htake

/-- Values stay accepted to the end of the command line. -/
theorem collect : ∀ {limit : Nat} {c : Collected} {tokens : List Token}, c.Accepted →
    collect limit c tokens = .ok c' → c'.Accepted
  | 0, c, tokens, h, hc => by
    cases hc
    exact h
  | limit + 1, c, [], h, hc => by
    cases hc
    exact h
  | limit + 1, c, token :: rest, h, hc => by
    unfold Cli.collect at hc
    split at hc
    · cases hc
      exact h
    · cases token with
      | separator | value | unknown => exact collect (by exact h) hc
      | option opt long attached =>
        dsimp only at hc
        split at hc
        · cases hc
        · next c₁ rest₁ hoption => exact collect (h.takeOption hoption) hc

end Accepted

end Collected

/-- What stands for the version and for the repagination mode is one of their choices, or withheld.
-/
structure Arguments.Accepted (a : Arguments) : Prop where
  version : ∀ {text}, a.version = some (.text text) → text ∈ Pdf.versions
  repagination : ∀ {text}, a.repagination = .text text →
    text ∈ Repagination.all.map Repagination.text

/-- **A complete command line** gives limited options none but their choices. -/
theorem Request.accepted {arguments : List String}
    (h : Request.ofArguments arguments = .ok (.arguments a)) : a.Accepted := by
  obtain ⟨tokens, -, h⟩ := ok_of_bind h
  obtain ⟨c, hcollect, hfinish⟩ := ok_of_bind h
  have hc := Collected.accepted_initial.collect hcollect
  unfold Collected.finish at hfinish
  split at hfinish
  · cases hfinish
  split at hfinish
  · split at hfinish
    · cases hfinish
      exact ⟨fun hversion => hc .version _ _ rfl hversion,
        fun hmode => hc .repagination _ _ rfl (congrArg some hmode)⟩
    · cases hfinish
  all_goals cases hfinish

/-! ## Settings -/

/-- The failure of a complete command line that withholds a value from the settings. -/
def Arguments.withheld? (a : Arguments) : Option Failure :=
  match a.output, a.repagination, a.version with
  | .withheld, _, _ => some .withheldOutput
  | _, .withheld, _ => some .withheldRepagination
  | _, _, some .withheld => some .withheldVersion
  | .text _, .text _, _ => none

/-- The settings of a batch over gathered inputs are what was asked for. -/
structure Made (a : Arguments) (inputs : List Path) (settings : Settings Pdf.Source) : Prop where
  sources : settings.sources =
    inputs.map fun p => Pdf.Source.of p (a.password.map Value.orEmpty) none
  output : ∃ directory, a.output = .text directory ∧ settings.output = some (.ofText directory)
  pattern : settings.pattern = a.pattern.orEmpty
  version : Settings.checkVersion settings.version = .ok ()

/-- Settings can be made with a mode and a version that there are. -/
theorem exists_made {directory word : String} {version : Option String}
    (houtput : a.output = .text directory) (hword : word ∈ Repagination.all.map Repagination.text)
    (hversion : ∀ text ∈ version, text ∈ Pdf.versions) (inputs : List Path) :
    ∃ settings, Settings.make
        (inputs.map fun p => Pdf.Source.of p (a.password.map Value.orEmpty) none)
        (some (.ofText directory)) a.pattern.orEmpty a.overwrite version word = .ok settings ∧
      Made a inputs settings := by
  obtain ⟨mode, -, rfl⟩ := List.mem_map.1 hword
  have hmode : Settings.mode mode.text = .ok mode := by cases mode <;> rfl
  have hchecked : Settings.checkVersion version = .ok () := by
    cases version with
    | none => rfl
    | some text => exact if_pos (hversion text rfl)
  rw [Settings.make, hmode, ok_bind, hchecked]
  exact ⟨_, rfl, rfl, ⟨directory, houtput, rfl⟩, rfl, hchecked⟩

/-- Settings are made from what was accepted, unless a value is withheld. -/
theorem Arguments.Accepted.settings (h : a.Accepted) (inputs : List Path) :
    (∃ f, a.withheld? = some f ∧ settingsFor a inputs = .error f) ∨
      a.withheld? = none ∧ ∃ settings, settingsFor a inputs = .ok settings ∧
        Made a inputs settings := by
  unfold Arguments.withheld? settingsFor
  cases houtput : a.output with
  | withheld => exact .inl ⟨_, rfl, rfl⟩
  | text directory =>
    cases hmode : a.repagination with
    | withheld => exact .inl ⟨_, rfl, rfl⟩
    | text word =>
      have hmade := fun version : Option String => fun hversion =>
        exists_made houtput (h.repagination hmode) (hversion : ∀ text ∈ version, _) inputs
      rcases hversion : a.version with _ | text | _
      · exact .inr ⟨rfl, hmade none nofun⟩
      · exact .inr ⟨rfl, hmade (some text) fun _ heq => Option.some.inj heq ▸ h.version hversion⟩
      · exact .inl ⟨_, rfl, rfl⟩

/-- **Settings are refused** exactly for a value that is withheld. -/
theorem Arguments.Accepted.settingsFor_eq_error (h : a.Accepted) {inputs : List Path}
    {f : Failure} : settingsFor a inputs = .error f ↔ a.withheld? = some f := by
  rcases h.settings inputs with ⟨g, hwithheld, hfailed⟩ | ⟨hnone, settings, hok, -⟩
  · rw [hwithheld, hfailed, Except.error.injEq, Option.some.injEq]
  · simp [hnone, hok]

/-- Settings that are made are those that were asked for. -/
theorem Arguments.Accepted.made (h : a.Accepted) {inputs : List Path}
    {settings : Settings Pdf.Source} (hok : settingsFor a inputs = .ok settings) :
    Made a inputs settings := by
  rcases h.settings inputs with ⟨_, -, hfailed⟩ | ⟨-, _, hmade, h⟩
  · rw [hfailed] at hok
    cases hok
  · cases hmade.symm.trans hok
    exact h

/-! ## Inputs -/

variable {t : FileTree}

/-- A filter that may fail lets through what passes, or stops at a failure. The induction is on the
list, with what has been let through so far. -/
private theorem filterAuxM_cases {ε : Type} (f : String → Except ε Bool) :
    ∀ names kept : List String,
      (List.filterAuxM f names kept =
          .ok ((names.filter fun name => (f name).toOption.getD false).reverse ++ kept) ∧
        ∀ name ∈ names, (f name).isOk = true) ∨
      ∃ name ∈ names, ∃ e, f name = .error e ∧ List.filterAuxM f names kept = .error e
  | [], kept => .inl ⟨rfl, by simp⟩
  | first :: names, kept => by
    unfold List.filterAuxM
    cases hfirst : f first with
    | error e => exact .inr ⟨first, List.mem_cons_self, e, hfirst, rfl⟩
    | ok passed =>
      rw [ok_bind]
      rcases filterAuxM_cases f names (bif passed then first :: kept else kept) with
        ⟨hall, hnames⟩ | ⟨name, hname, e, hfailed, hall⟩
      · refine .inl ⟨hall.trans ?_, List.forall_mem_cons.2 ⟨by rw [hfirst]; rfl, hnames⟩⟩
        cases passed <;> simp [hfirst, Except.toOption]
      · exact .inr ⟨name, List.mem_cons_of_mem _ hname, e, hfailed, hall⟩

theorem filterM_cases {ε : Type} (f : String → Except ε Bool) (names : List String) :
    (names.filterM f = .ok (names.filter fun name => (f name).toOption.getD false) ∧
        ∀ name ∈ names, (f name).isOk = true) ∨
      ∃ name ∈ names, ∃ e, f name = .error e ∧ names.filterM f = .error e := by
  unfold List.filterM
  rcases filterAuxM_cases f names [] with ⟨hall, hnames⟩ | ⟨name, hname, e, hfailed, hall⟩
  · rw [hall, ok_bind, List.append_nil, List.reverse_reverse]
    exact .inl ⟨rfl, hnames⟩
  · rw [hall]
    exact .inr ⟨name, hname, e, hfailed, rfl⟩

theorem isDocument_of_documentsIn {p : Path} {dir : Location} {paths : List Path}
    (h : documentsIn t p dir = .ok paths) : ∀ q ∈ paths, isDocument t q = .ok true := by
  obtain ⟨names, hnames, h⟩ := ok_of_bind h
  cases h
  rcases filterM_cases (fun name => isDocument t { p with parts := p.parts ++ [name] })
    (t.children dir) with ⟨hfilter, -⟩ | ⟨_, -, e, -, hfilter⟩
  · cases hnames.symm.trans hfilter
    intro q hq
    obtain ⟨name, hname, rfl⟩ := List.mem_map.1 hq
    rw [List.mem_mergeSort, List.mem_filter] at hname
    generalize isDocument t _ = outcome at hname ⊢
    rcases outcome with e | _ | _
    · cases hname.2
    · cases hname.2
    · rfl
  · cases hnames.symm.trans hfilter

theorem isDocument_of_lookUp {p : Path} {paths : List Path}
    (h : lookUp t p = .ok (.documents paths)) : ∀ q ∈ paths, isDocument t q = .ok true := by
  obtain ⟨dir, -, h⟩ := ok_of_bind h
  split at h
  · obtain ⟨found, hfound, h⟩ := ok_of_bind h
    cases h
    exact isDocument_of_documentsIn hfound
  · obtain ⟨document, hdocument, h⟩ := ok_of_bind h
    split at h
    · next htrue =>
      cases h
      exact fun q hq => List.mem_singleton.1 hq ▸ htrue ▸ hdocument
    · cases h

/-- **Inputs that are gathered** are document files. -/
theorem isDocument_of_gather : ∀ {inputs : List String} {paths : List Path},
    (gather t inputs).2 = .ok paths → ∀ p ∈ paths, isDocument t p = .ok true
  | [], paths, h, p, hp => by
    cases h
    cases hp
  | text :: inputs, paths, h, p, hp => by
    unfold gather at h
    split at h
    · cases h
    · next input hinput =>
      cases input with
      | neither => exact isDocument_of_gather h p hp
      | documents found =>
        dsimp only at h
        cases hrest : (gather t inputs).2 with
        | error e =>
          rw [hrest] at h
          cases h
        | ok rest =>
          rw [hrest] at h
          cases h
          rcases List.mem_append.1 hp with hfound | hlater
          · exact isDocument_of_lookUp hinput p hfound
          · exact isDocument_of_gather hrest p hlater

/-- The path of a document can be handed to the file system. -/
theorem hasNul_of_isDocument {p : Path} (h : isDocument t p = .ok true) : p.hasNul = false := by
  rw [← Bool.not_eq_true]
  intro hnul
  rw [isDocument, FileTree.isFileAt, FileTree.probe, if_pos hnul] at h
  cases h

end Folio.Cli

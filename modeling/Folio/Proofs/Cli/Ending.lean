import Folio.Proofs.Batch.Failing
import Folio.Proofs.Cli.Reading
import Folio.Proofs.Log.Console

/-!
# How a call ends

A call that works on documents ends with status `0` if its batch comes to its end and with status
`1` if it is told what went wrong. What it is not told is what nothing guards: looking at the
inputs, settings for which a value is withheld, and what gets past a run.
`commit_and_call_unhandled` says so of commits and of calls.
-/

namespace Folio.Cli

variable {t : FileTree} {buffers : Nat} {now : Instant} {a : Arguments}
  {settings : Settings Pdf.Source}

/-- The batch of a call, from the file system and the number of the last buffer that it finds. -/
def runOutcome (t : FileTree) (buffers : Nat) (now : Instant) (settings : Settings Pdf.Source) :
    Except Failure Progress :=
  ((Batch.run Pdf.medium (Batch.namerAt now) .silent settings).run
    (.start ⟨t, buffers, .empty settings.overwrite, []⟩)).1

/-- How a call ends whose batch has ended. -/
def Ending.ofOutcome : Except Failure Progress → Ending
  | .ok _ => .status 0
  | .error f => if f.isSplitting then .status 1 else .failed f

/-- There are documents to split, and the batch over them returns. -/
def Returns (t : FileTree) (buffers : Nat) (now : Instant) (a : Arguments) : Prop :=
  ∃ p paths settings progress, (gather t a.inputs).2 = .ok (p :: paths) ∧
    settingsFor a (p :: paths) = .ok settings ∧ runOutcome t buffers now settings = .ok progress

/-- Why a call ends with a failure that the user is not told. -/
inductive Unhandled (t : FileTree) (buffers : Nat) (now : Instant) (a : Arguments) : Failure → Prop
  /-- The file system refuses to look at an input. -/
  | input {e : FileError} (hfound : (gather t a.inputs).2 = .error e) :
    Unhandled t buffers now a (.file e)
  /-- There are documents to split, but a value is withheld from the settings. -/
  | withheld {p : Path} {paths : List Path} {f : Failure}
      (hfound : (gather t a.inputs).2 = .ok (p :: paths)) (hvalue : a.withheld? = some f) :
    Unhandled t buffers now a f
  /-- An error of the file system gets past the batch. -/
  | batch {p : Path} {paths : List Path} {settings : Settings Pdf.Source} {output : Path}
      {e : FileError} (hfound : (gather t a.inputs).2 = .ok (p :: paths))
      (hsettings : settingsFor a (p :: paths) = .ok settings)
      (hvalid : settings.validate = .ok output)
      (hrun : Batch.Unhandled Pdf.medium (Batch.namerAt now) settings
        ⟨t, buffers, .empty settings.overwrite, []⟩ output e) :
    Unhandled t buffers now a (.file e)

/-! ## Settings of a call -/

namespace Made

variable {inputs : List Path}

theorem validate (h : Made a inputs settings) (hinputs : inputs ≠ []) :
    ∃ output, settings.validate = .ok output := by
  obtain ⟨directory, -, houtput⟩ := h.output
  refine ⟨.ofText directory, ?_⟩
  rw [Settings.validate, houtput, h.sources, if_neg (by simpa using hinputs)]

/-- What gets past the run over gathered inputs. -/
theorem run_unhandled (h : Made a inputs settings)
    (hfound : (gather t a.inputs).2 = .ok inputs)
    (hpattern : Char.ofNat 0 ∉ a.pattern.orEmpty.toList) {output : Path}
    (hvalid : settings.validate = .ok output) {f : Failure} :
    runOutcome t buffers now settings = .error f ∧ f.isSplitting = false ↔
      ∃ e, f = .file e ∧ Batch.Unhandled Pdf.medium (Batch.namerAt now) settings
        ⟨t, buffers, .empty settings.overwrite, []⟩ output e := by
  have hsources : ∀ source ∈ settings.sources,
      source.path.hasNul = false ∧ source.name = source.path.name := by
    rw [h.sources]
    intro source hsource
    obtain ⟨p, hp, rfl⟩ := List.mem_map.1 hsource
    exact ⟨hasNul_of_isDocument (isDocument_of_gather hfound p hp), rfl⟩
  refine Batch.run_unhandled hvalid h.version (h.pattern ▸ hpattern) (fun source hsource => ?_)
    fun source hsource => (hsources source hsource).1
  obtain ⟨hnul, hname⟩ := hsources source hsource
  exact hname ▸ Path.nul_notMem_name hnul

end Made

/-! ## Endings -/

theorem onConsole_verboseLoggers (verbose : Bool) : (verboseLoggers verbose).OnConsole := by
  have hstart : startLoggers.OnConsole := Log.Loggers.OnConsole.initial.get _ _
  unfold verboseLoggers
  split
  · exact hstart.setLevel _
  · exact hstart

/-- The batch of a call is followed by nothing but its messages. -/
theorem ending_runBatch (loggers : Log.Loggers) (stderr : String) :
    (runBatch t buffers now loggers settings stderr).ending =
      .ofOutcome (runOutcome t buffers now settings) := by
  unfold runBatch runOutcome
  dsimp only
  rcases (Batch.run Pdf.medium (Batch.namerAt now) .silent settings).run
    (.start ⟨t, buffers, .empty settings.overwrite, []⟩) with ⟨f | progress, final⟩
  · unfold Ending.ofOutcome
    dsimp only
    split <;> rfl
  · rfl

/-- The work of a call that keeps no log file ends as its inputs, its settings and its batch say. -/
theorem ending_execute (hlog : a.logDirectory = none) :
    (execute t buffers now a).ending =
      match (gather t a.inputs).2 with
      | .error e => .failed (.file e)
      | .ok [] => .status 1
      | .ok inputs =>
        match settingsFor a inputs with
        | .error f => .failed f
        | .ok settings => .ofOutcome (runOutcome t buffers now settings) := by
  have hset : setUpLogging t now a = (.ok (verboseLoggers a.verbose), t) := by
    rw [setUpLogging, hlog]
    rfl
  have htree := (onConsole_verboseLoggers a.verbose).deliverAll_tree (gather t a.inputs).1 ("", t)
  unfold execute
  rw [hset]
  dsimp only
  rw [htree]
  cases (gather t a.inputs).2 with
  | error e => rfl
  | ok inputs =>
    cases inputs with
    | nil => rfl
    | cons p paths =>
      dsimp only
      cases settingsFor a (p :: paths) with
      | error f => rfl
      | ok settings => exact ending_runBatch ..

namespace Unhandled

variable {f : Failure}

/-- An input that the file system refuses to look at is what the call fails with. -/
theorem iff_of_refused {e : FileError} (hfound : (gather t a.inputs).2 = .error e) :
    Unhandled t buffers now a f ↔ f = .file e := by
  constructor
  · rintro (⟨hother⟩ | ⟨hother, -⟩ | ⟨hother, -, -, -⟩) <;> cases hfound.symm.trans hother
    rfl
  · rintro rfl
    exact .input hfound

/-- Without a document there is nothing to fail with. -/
theorem not_of_nothing (hfound : (gather t a.inputs).2 = .ok []) :
    ¬ Unhandled t buffers now a f := by
  rintro (⟨hother⟩ | ⟨hother, -⟩ | ⟨hother, -, -, -⟩) <;> cases hfound.symm.trans hother

/-- Settings that cannot be made are what the call fails with. -/
theorem iff_of_withheld (ha : a.Accepted) {p : Path} {paths : List Path} {g : Failure}
    (hfound : (gather t a.inputs).2 = .ok (p :: paths))
    (hsettings : settingsFor a (p :: paths) = .error g) : Unhandled t buffers now a f ↔ f = g := by
  have hwithheld := ha.settingsFor_eq_error.1 hsettings
  constructor
  · rintro (⟨hother⟩ | ⟨-, hvalue⟩ | ⟨hother, hmade, -, -⟩)
    · cases hfound.symm.trans hother
    · exact Option.some.inj (hvalue.symm.trans hwithheld)
    · cases hfound.symm.trans hother
      cases hsettings.symm.trans hmade
  · rintro rfl
    exact .withheld hfound hwithheld

/-- Behind settings, what the batch fails with is what the call fails with, unless it is told. -/
theorem iff_of_settings (ha : a.Accepted) (hpattern : Char.ofNat 0 ∉ a.pattern.orEmpty.toList)
    {p : Path} {paths : List Path} (hfound : (gather t a.inputs).2 = .ok (p :: paths))
    (hsettings : settingsFor a (p :: paths) = .ok settings) :
    Unhandled t buffers now a f ↔
      runOutcome t buffers now settings = .error f ∧ f.isSplitting = false := by
  have hmade := ha.made hsettings
  obtain ⟨output, hvalid⟩ := hmade.validate (List.cons_ne_nil p paths)
  rw [hmade.run_unhandled hfound hpattern hvalid]
  constructor
  · rintro (⟨hother⟩ | ⟨hother, hvalue⟩ | ⟨hother, hsame, hvalid', hrun⟩)
    · cases hfound.symm.trans hother
    · cases hfound.symm.trans hother
      cases (ha.settingsFor_eq_error.2 hvalue).symm.trans hsettings
    · cases hfound.symm.trans hother
      cases hsettings.symm.trans hsame
      cases hvalid.symm.trans hvalid'
      exact ⟨_, rfl, hrun⟩
  · rintro ⟨e, rfl, hrun⟩
    exact .batch hfound hsettings hvalid hrun

end Unhandled

/-- An ending that is settled: status `0` means that the batch returns, a failure is there just if
nothing handles it, and otherwise the status is `1`. -/
structure Settled (t : FileTree) (buffers : Nat) (now : Instant) (a : Arguments) (ending : Ending) :
    Prop where
  success : ending = .status 0 ↔ Returns t buffers now a
  failure : ∀ f, ending = .failed f ↔ Unhandled t buffers now a f
  otherwise : ending = .status 0 ∨ ending = .status 1 ∨ ∃ f, ending = .failed f

namespace Settled

theorem of_refused {e : FileError} (hfound : (gather t a.inputs).2 = .error e) :
    Settled t buffers now a (.failed (.file e)) where
  success := by
    refine ⟨nofun, ?_⟩
    rintro ⟨_, _, _, _, hother, -, -⟩
    cases hfound.symm.trans hother
  failure f := by rw [Unhandled.iff_of_refused hfound, Ending.failed.injEq, eq_comm]
  otherwise := .inr (.inr ⟨_, rfl⟩)

theorem of_nothing (hfound : (gather t a.inputs).2 = .ok []) :
    Settled t buffers now a (.status 1) where
  success := by
    refine ⟨nofun, ?_⟩
    rintro ⟨_, _, _, _, hother, -, -⟩
    cases hfound.symm.trans hother
  failure _ := ⟨nofun, fun h => absurd h (Unhandled.not_of_nothing hfound)⟩
  otherwise := .inr (.inl rfl)

theorem of_withheld (ha : a.Accepted) {p : Path} {paths : List Path} {g : Failure}
    (hfound : (gather t a.inputs).2 = .ok (p :: paths))
    (hsettings : settingsFor a (p :: paths) = .error g) : Settled t buffers now a (.failed g) where
  success := by
    refine ⟨nofun, ?_⟩
    rintro ⟨_, _, _, _, hother, hmade, -⟩
    cases hfound.symm.trans hother
    cases hsettings.symm.trans hmade
  failure f := by rw [Unhandled.iff_of_withheld ha hfound hsettings, Ending.failed.injEq, eq_comm]
  otherwise := .inr (.inr ⟨_, rfl⟩)

/-- A call that comes to its batch ends as the batch does. -/
theorem of_settings (ha : a.Accepted) (hpattern : Char.ofNat 0 ∉ a.pattern.orEmpty.toList)
    {p : Path} {paths : List Path} (hfound : (gather t a.inputs).2 = .ok (p :: paths))
    (hsettings : settingsFor a (p :: paths) = .ok settings) :
    Settled t buffers now a (.ofOutcome (runOutcome t buffers now settings)) := by
  have hreturns : Returns t buffers now a ↔
      ∃ progress, runOutcome t buffers now settings = .ok progress := by
    constructor
    · rintro ⟨_, _, _, progress, hother, hsame, hrun⟩
      cases hfound.symm.trans hother
      cases hsettings.symm.trans hsame
      exact ⟨progress, hrun⟩
    · rintro ⟨progress, hrun⟩
      exact ⟨_, _, _, progress, hfound, hsettings, hrun⟩
  have hunhandled : ∀ f, Unhandled t buffers now a f ↔
      runOutcome t buffers now settings = .error f ∧ f.isSplitting = false :=
    fun _ => Unhandled.iff_of_settings ha hpattern hfound hsettings
  cases houtcome : runOutcome t buffers now settings with
  | ok progress =>
    rw [houtcome] at hreturns
    refine ⟨iff_of_true rfl (hreturns.2 ⟨progress, rfl⟩), fun f => ⟨nofun, fun h => ?_⟩, .inl rfl⟩
    cases houtcome.symm.trans ((hunhandled f).1 h).1
  | error g =>
    have hnot : ¬ Returns t buffers now a := fun h => by
      obtain ⟨_, hok⟩ := hreturns.1 h
      cases houtcome.symm.trans hok
    cases hkind : g.isSplitting with
    | true =>
      rw [Ending.ofOutcome, if_pos hkind]
      refine ⟨iff_of_false nofun hnot, fun f => ⟨nofun, fun h => ?_⟩, .inr (.inl rfl)⟩
      obtain ⟨hfailed, hother⟩ := (hunhandled f).1 h
      cases houtcome.symm.trans hfailed
      cases hkind.symm.trans hother
    | false =>
      rw [Ending.ofOutcome, if_neg (by simp [hkind])]
      refine ⟨iff_of_false nofun hnot, fun f => ?_, .inr (.inr ⟨_, rfl⟩)⟩
      rw [hunhandled, houtcome, Ending.failed.injEq, Except.error.injEq]
      exact ⟨fun h => ⟨h, h ▸ hkind⟩, And.left⟩

end Settled

/-- **How a call ends** that keeps no log file: with status `0` if its batch returns, with a failure
as it stands if nothing handles it, and otherwise with status `1`. -/
theorem settled_call {arguments : List String}
    (harguments : Request.ofArguments arguments = .ok (.arguments a)) (hlog : a.logDirectory = none)
    (hpattern : Char.ofNat 0 ∉ a.pattern.orEmpty.toList) :
    Settled t buffers now a (call t buffers now arguments).ending := by
  have ha := Request.accepted harguments
  have hcall : call t buffers now arguments = execute t buffers now a := by rw [call, harguments]
  rw [hcall, ending_execute hlog]
  rcases hfound : (gather t a.inputs).2 with e | _ | ⟨p, paths⟩
  · exact .of_refused hfound
  · exact .of_nothing hfound
  · dsimp only
    rcases hsettings : settingsFor a (p :: paths) with g | settings
    · exact .of_withheld ha hfound hsettings
    · exact .of_settings ha hpattern hfound hsettings

/-- **What gets past a commit and past a call.** A commit whose names and buffers can be handed to
the file system fails with existing files or with an output that cannot be written, except for an
error of the file system in making its directory or in looking for a target; in a well-formed tree
there is no such error exactly if the commit is unhindered. A call that keeps no log file is
settled. -/
theorem commit_and_call_unhandled {s : Store} {directory : Path} {f : Failure}
    {arguments : List String} (hnames : ∀ name ∈ s.registry.names, Char.ofNat 0 ∉ name.toList)
    (hbuffers : ∀ output ∈ s.registry.outputs, output.2.hasNul = false)
    (harguments : Request.ofArguments arguments = .ok (.arguments a)) (hlog : a.logDirectory = none)
    (hpattern : Char.ofNat 0 ∉ a.pattern.orEmpty.toList) :
    (((Store.commit directory).run s).1 = .error f ∧ f.kind ≠ .outputConflict ∧ f.kind ≠ .save ↔
        ∃ e, f = .file e ∧ Store.Unhandled s.tree s.registry directory e) ∧
      (s.tree.WellFormed → directory.parts.length < FileTree.depthLimit →
        ((∀ g, ((Store.commit directory).run s).1 = .error g →
            g.kind = .outputConflict ∨ g.kind = .save) ↔ s.Unhindered directory)) ∧
      Settled t buffers now a (call t buffers now arguments).ending :=
  ⟨Store.commit_unhandled hnames hbuffers,
    fun ht hdepth => Store.commit_handled_iff ht hdepth hnames hbuffers,
    settled_call harguments hlog hpattern⟩

/-- A document, and a file where the output directory is to be made. -/
def occupied : FileTree :=
  ⟨["w"], [(["w"], .directory), (["w", "tmp"], .directory),
    (["w", "a.pdf"], .file (.document ⟨"%PDF-1.4", [], ⟨[], none, none⟩, none, false⟩)),
    (["w", "out"], .file (.text "taken"))]⟩

/-- What is asked for there. -/
def occupiedRequest : Arguments where
  inputs := ["a.pdf"]
  output := .text "out"
  pattern := .text "[BASENAME]_split"
  overwrite := false
  version := none
  repagination := .text "none"
  password := none
  verbose := false
  logDirectory := none

/-- A file where the output directory is to be made is an error that nothing guards, in a commit as
in a call. -/
theorem commit_and_call_unhandled_occupied :
    let e := FileError.system .alreadyExists "out"
    let now : Instant := ⟨2024, 3, 9, 14, 5, 7, 0⟩
    let s : Store := ⟨occupied, 0, .empty false, []⟩
    ((Store.commit ⟨.relative, ["out"]⟩).run s).1 = .error (.file e) ∧
      ¬ s.Unhindered ⟨.relative, ["out"]⟩ ∧
      (call occupied 0 now ["-i", "a.pdf", "-o", "out"]).ending = .failed (.file e) ∧
      Unhandled occupied 0 now occupiedRequest (.file e) := by
  intro e now s
  have hmade : (occupied.makeDirectories ⟨.relative, ["out"]⟩).1 = .error e := rfl
  have hrequest : Request.ofArguments ["-i", "a.pdf", "-o", "out"] =
      .ok (.arguments occupiedRequest) := rfl
  have hending : (call occupied 0 now ["-i", "a.pdf", "-o", "out"]).ending = .failed (.file e) := by
    have hfails : (match (call occupied 0 now ["-i", "a.pdf", "-o", "out"]).ending with
        | .failed (.file g) => decide (g = e)
        | _ => false) = true := by decide +kernel
    split at hfails
    · next g h => rw [h, of_decide_eq_true hfails]
    · cases hfails
  have hunhandled : (((Store.commit ⟨.relative, ["out"]⟩).run s).1 = .error (.file e) ∧ _ ↔ _) ∧
      _ ∧ Settled occupied 0 now occupiedRequest _ :=
    commit_and_call_unhandled (by decide) (by decide) hrequest rfl (by decide)
  obtain ⟨hcommit, hhandled, hsettled⟩ := hunhandled
  have hfailed := (hcommit.2 ⟨e, rfl, .inl hmade⟩).1
  refine ⟨hfailed, fun h => ?_, hending, (hsettled.failure _).1 hending⟩
  have ht : occupied.WellFormed := .of_entries (by decide) (by decide)
  rcases ((hhandled ht (by decide)).2 h) _ hfailed with hkind | hkind <;> cases hkind

end Folio.Cli

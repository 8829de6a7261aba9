import Flowchart.Proofs.CommandLine
import Flowchart.Proofs.Words

/-!
# Where the result of a run goes

A run that does a task either prints the result or writes it to the output file, and changes nothing
else (`CommandLine.run_delivers`). A command line that names an output file asks for a task, the
same command line without that file asks for the same task to be printed
(`CommandLine.ofWords_printing`), and the result of a task does not depend on where it goes. All of
this holds on every host. Of several output files only the last one counts, even if it is empty, and
a host may drop the separator; the result is printed then, whatever else was given
(`CommandLine.run_overruled`).
-/

set_option autoImplicit false

namespace Flowchart.CommandLine

/-! ## Tasks that print -/

/-- A task whose result is printed. -/
def Task.printed : Task → Task
  | .parse input _ => .parse input none
  | .generate input _ fenced plainArrows => .generate input none fenced plainArrows
  | .format input _ => .format input none
  | .new _ json => .new none json
  | .summarize input => .summarize input

@[simp] theorem Task.output?_printed (task : Task) : task.printed.output? = none := by
  cases task <;> rfl

/-- The result of a task does not depend on where it goes. -/
theorem Task.result_printed (settings : Settings) (tree : FileTree) (standardInput : Bytes)
    (task : Task) :
    task.printed.result settings tree standardInput =
      task.result settings tree standardInput := by
  cases task with
  | new output json => cases json <;> rfl
  | _ => rfl

theorem Given.task_withoutOutput (keepsSeparator : Bool) (g : Given) (c : Command) :
    ({ g with output := none } : Given).task keepsSeparator c =
      (g.task keepsSeparator c).printed := by
  cases c <;> rfl

/-- The command line that is left of one without the switches for the output file. -/
def printing : List Text → List Text
  | [] => []
  | name :: rest =>
    match Vocabulary.ofName? name with
    | some c => name :: withoutOutput (.command c) rest
    | none => name :: rest

theorem printing_cons (c : Command) (rest : List Text) :
    printing (c.name :: rest) = c.name :: withoutOutput (.command c) rest := by
  have hname : Vocabulary.ofName? c.name = some c := Vocabulary.ofName?_name c
  simp only [printing, hname]

/-- A task is read from the name of a command and the words after it, and nothing before. -/
theorem exists_command_of_readFrom {keepsSeparator : Bool} {leftOver texts : List Text}
    {task : Task} (h : readFrom keepsSeparator leftOver texts = .ok task) :
    leftOver = [] ∧ ∃ (c : Command) (rest : List Text), texts = c.name :: rest ∧
      readCommand keepsSeparator [] c rest = .ok task := by
  fun_induction readFrom keepsSeparator leftOver texts with
  | case2 leftOver t rest name hword c hcommand =>
      obtain rfl := ((readCommand_eq_ok_iff keepsSeparator leftOver c rest task).mp h).1
      have hname : c.name = name := Vocabulary.name_of_ofName? hcommand
      rw [Word.text_of_ofText hword] at hname
      exact ⟨rfl, c, rest, by rw [hname], h⟩
  | case6 leftOver t rest _ _ _ ih | case7 leftOver t rest _ _ ih =>
      exact absurd (ih h).1 (by simp)
  | _ => cases h

theorem ofWords_eq_ok_iff (keepsSeparator : Bool) (texts : List Text) (task : Task) :
    Task.ofWords keepsSeparator texts = .ok task ↔
      ∃ (c : Command) (rest : List Text) (g : Given), texts = c.name :: rest ∧
        Accepts c {} (Word.ofTexts (.command c) rest) g ∧ ¬ g.LacksInput c ∧
          g.task keepsSeparator c = task := by
  constructor
  · intro h
    obtain ⟨-, c, rest, rfl, hread⟩ := exists_command_of_readFrom h
    obtain ⟨-, g, hg⟩ := (readCommand_eq_ok_iff keepsSeparator [] c rest task).mp hread
    exact ⟨c, rest, g, rfl, hg⟩
  · rintro ⟨c, rest, g, rfl, hg⟩
    rw [ofWords_cons]
    exact (readCommand_eq_ok_iff keepsSeparator [] c rest task).mpr ⟨rfl, g, hg⟩

/-- Without the switches for the output file, a command line asks for the same task, to be
printed. -/
theorem ofWords_printing {keepsSeparator : Bool} {texts : List Text} {task : Task}
    (h : Task.ofWords keepsSeparator texts = .ok task) :
    Task.ofWords keepsSeparator (printing texts) = .ok task.printed := by
  obtain ⟨c, rest, g, rfl, haccepts, hinput, rfl⟩ := (ofWords_eq_ok_iff _ texts task).mp h
  refine (ofWords_eq_ok_iff _ _ _).mpr ⟨c, withoutOutput (.command c) rest,
    { g with output := none }, printing_cons c rest, ?_, hinput, g.task_withoutOutput _ c⟩
  rw [Word.ofTexts_withoutOutput]
  exact haccepts.withoutOutput

/-! ## The output file -/

/-- The text that a command line gives as the output file. Of several the last one counts. -/
def outputText? : List Text → Option Text
  | [] => none
  | name :: rest => do
    let c ← Vocabulary.ofName? name
    let g ← (readWords c {} (Word.ofTexts (.command c) rest)).toOption
    g.output

/-- Whether a text names an output file. An empty text does not, nor does a separator that the
option parser drops. -/
def NamesFile (keepsSeparator : Bool) (t : Text) : Prop :=
  t ≠ [] ∧ (keepsSeparator = true ∨ t ≠ separatorText)

instance (keepsSeparator : Bool) (t : Text) : Decidable (NamesFile keepsSeparator t) :=
  inferInstanceAs (Decidable (t ≠ [] ∧ (keepsSeparator = true ∨ t ≠ separatorText)))

theorem Given.outputFile?_eq (keepsSeparator : Bool) (g : Given) :
    g.outputFile? keepsSeparator =
      (g.output.filter fun t => decide (NamesFile keepsSeparator t)).map FilePath.ofText := by
  have hnames : (fun t : Text => !t.isEmpty && (keepsSeparator || t != separatorText)) =
      fun t => decide (NamesFile keepsSeparator t) := by
    funext t
    rw [Bool.eq_iff_iff, decide_eq_true_iff]
    simp [NamesFile]
  rw [outputFile?, hnames]

/-- An output file is given by a switch only. -/
theorem Accepts.exists_switch {c : Command} {g g' : Given} {words : List Word}
    (h : Accepts c g words g') (hne : g'.output ≠ g.output) :
    ∃ isLetter attached, .switch .output isLetter attached ∈ words := by
  induction h with
  | done g => exact absurd rfl hne
  | input hg h ih | inputSeparator hg h ih | separatorInput hg h ih =>
      obtain ⟨isLetter, attached, hmem⟩ := ih hne
      exact ⟨isLetter, attached, by simp [hmem]⟩
  | @attached g g' isLetter value rest h ih => exact ⟨isLetter, some value, by simp⟩
  | @value g g' isLetter t rest h ih => exact ⟨isLetter, none, by simp⟩
  | @flag g g' s isLetter rest hhelp houtput h ih =>
      have hflag : (g.withFlag s).output = g.output := by cases s <;> rfl
      obtain ⟨isLetter', attached, hmem⟩ := ih (hflag ▸ hne)
      exact ⟨isLetter', attached, by simp [hmem]⟩

theorem outputText?_cons {c : Command} {rest : List Text} {g : Given}
    (h : Accepts c {} (Word.ofTexts (.command c) rest) g) :
    outputText? (c.name :: rest) = g.output := by
  have hname : Vocabulary.ofName? c.name = some c := Vocabulary.ofName?_name c
  have hread : readWords c {} (Word.ofTexts (.command c) rest) = .ok g := (h.readWords_eq rfl).1
  simp only [outputText?, hname, hread, Except.toOption, bind, Option.bind]

section OutputFile

variable {keepsSeparator : Bool} {texts : List Text} {task : Task}

/-- The result of a task goes to the file that the command line gives. -/
theorem output?_of_ofWords (h : Task.ofWords keepsSeparator texts = .ok task) :
    task.output? =
      ((outputText? texts).filter fun t => decide (NamesFile keepsSeparator t)).map
        FilePath.ofText := by
  obtain ⟨c, rest, g, rfl, haccepts, -, rfl⟩ := (ofWords_eq_ok_iff _ texts task).mp h
  rw [outputText?_cons haccepts, ← g.outputFile?_eq]
  cases c with
  | summarize =>
      -- this command knows no switch for an output file
      by_cases houtput : g.output = none
      · rw [g.outputFile?_eq, houtput]
        rfl
      · obtain ⟨isLetter, attached, hmem⟩ := haccepts.exists_switch houtput
        exact absurd (Word.mem_switches_of_mem_ofTexts hmem) (by decide)
  | _ => rfl

theorem output?_of_namesFile {out : Text} (h : Task.ofWords keepsSeparator texts = .ok task)
    (hout : outputText? texts = some out) (hnames : NamesFile keepsSeparator out) :
    task.output? = some (FilePath.ofText out) := by
  rw [output?_of_ofWords h, hout, Option.filter_some, if_pos (decide_eq_true hnames),
    Option.map_some]

theorem output?_of_not_namesFile (h : Task.ofWords keepsSeparator texts = .ok task)
    (hnone : ∀ out, outputText? texts = some out → ¬ NamesFile keepsSeparator out) :
    task.output? = none := by
  rw [output?_of_ofWords h]
  cases hout : outputText? texts with
  | none => rfl
  | some out => simp [hnone out hout]

end OutputFile

/-- A command line that asks for help gives no output file. -/
theorem outputText?_of_help {keepsSeparator : Bool} {texts : List Text} {p : Page}
    (h : Task.ofWords keepsSeparator texts = .error (.help p)) : outputText? texts = none := by
  cases texts with
  | nil => rfl
  | cons name rest =>
      cases hcommand : (Vocabulary.ofName? name : Option Command) with
      | none => simp only [outputText?, hcommand, bind, Option.bind]
      | some c =>
          obtain rfl : c.name = name := Vocabulary.name_of_ofName? hcommand
          rw [ofWords_cons, readCommand] at h
          cases hread : readWords c {} (Word.ofTexts (.command c) rest) with
          | error stop =>
              simp only [outputText?, hcommand, hread, Except.toOption, bind, Option.bind]
          | ok g =>
              -- whatever goes wrong after the words were taken in is a mistake
              simp only [hread, bind, Except.bind] at h
              split at h
              · cases h
              · split at h
                · cases h
                · split at h <;> cases h

/-! ## Runs -/

section Run

variable {tree after : FileTree} {standardInput : Bytes} {outcome : Outcome}

theorem Failure.output_outcome (failure : Failure) : failure.outcome.output = [] := by
  cases failure <;> rfl

theorem Failure.ending_outcome (failure : Failure) : failure.outcome.ending ≠ .exit 0 := by
  cases failure <;> simp [Failure.outcome]

/-- A result is printed, or written to a file and not printed. -/
theorem deliver_cases {output : Option FilePath} {result : Text}
    (h : deliver tree output result = (outcome, after)) :
    (output = none ∧ outcome = { output := line result } ∧ after = tree) ∨
      (∃ path, output = some path ∧ outcome.output = [] ∧ outcome.ending = .exit 0 ∧
        tree.Wrote path (Utf8.encode (line result)) after) ∨
      ∃ e, outcome.ending = .fileError e := by
  unfold deliver at h
  split at h
  · cases h
    exact .inl ⟨rfl, rfl, rfl⟩
  · next path =>
      split at h
      · next hwrite =>
          cases h
          exact .inr (.inl ⟨path, rfl, rfl, rfl, FileTree.wrote_of_write hwrite⟩)
      · next e _ _ =>
          cases h
          exact .inr (.inr ⟨e, rfl⟩)

/-- What a run does with the result of a task. -/
theorem Task.run_cases {settings : Settings} {task : Task}
    (h : task.run settings tree standardInput = (outcome, after)) :
    (∃ failure : Failure, outcome = failure.outcome ∧ after = tree) ∨
      ∃ result, task.result settings tree standardInput = .ok result ∧
        deliver tree task.output? result = (outcome, after) := by
  unfold Task.run at h
  split at h
  · next failure _ =>
      cases h
      exact .inl ⟨failure, rfl, rfl⟩
  · next result hresult => exact .inr ⟨result, hresult, h⟩

theorem Task.run_printed {settings : Settings} {task : Task} {result : Text}
    (h : task.result settings tree standardInput = .ok result) :
    task.printed.run settings tree standardInput = ({ output := line result }, tree) := by
  rw [Task.run, Task.result_printed, h]
  simp only [Task.output?_printed, deliver]

/-- What becomes of a task, in a run that ends with an exit code. -/
theorem Task.delivers_of_run {settings : Settings} {task : Task}
    (h : task.run settings tree standardInput = (outcome, after)) :
    (outcome.ending = .exit 1 → outcome.output = [] ∧ after = tree) ∧
      (outcome.ending = .exit 0 →
        (∀ path, task.output? = some path → outcome.output = [] ∧
          ∃ printed, task.printed.run settings tree standardInput = ({ output := printed }, tree) ∧
            tree.Wrote path (Utf8.encode printed) after) ∧
        (task.output? = none → after = tree)) := by
  rcases run_cases h with ⟨failure, rfl, rfl⟩ | ⟨result, hresult, hdeliver⟩
  · exact ⟨fun _ => ⟨failure.output_outcome, rfl⟩, fun hend => absurd hend failure.ending_outcome⟩
  rcases deliver_cases hdeliver with ⟨hnone, rfl, rfl⟩ | ⟨path, hpath, houtput, hend, hwrote⟩ |
    ⟨e, hend⟩
  · refine ⟨nofun, fun _ => ⟨fun path hpath => ?_, fun _ => rfl⟩⟩
    rw [hnone] at hpath
    cases hpath
  · rw [hend]
    refine ⟨nofun, fun _ => ⟨fun path' hpath' => ?_, fun hnone => ?_⟩⟩
    · obtain rfl : path = path' := Option.some.inj (hpath.symm.trans hpath')
      exact ⟨houtput, line result, run_printed hresult, hwrote⟩
    · rw [hpath] at hnone
      cases hnone
  · rw [hend]
    exact ⟨nofun, nofun⟩

end Run

/-- **A run writes what it would print, or nothing.** With exit code 1 it prints nothing and changes
nothing. With exit code 0 and an output file, it prints nothing, and the file holds what the same
command line without that file prints in the same place; nothing else changes but directories on the
way to the file that were missing. Without an output file nothing changes at all. The output file is
the last one given; an empty one is none, nor is a separator that the option parser drops. -/
theorem run_delivers {host : Host} {tree after : FileTree} {env : Environment}
    {standardInput : Bytes} {texts : List Text} {outcome : Outcome}
    (h : run host tree env standardInput texts = (outcome, after)) :
    (outcome.ending = .exit 1 → outcome.output = [] ∧ after = tree) ∧
      (outcome.ending = .exit 0 →
        (∀ out, outputText? texts = some out → NamesFile host.keepsSeparator out →
          outcome.output = [] ∧
            ∃ printed, run host tree env standardInput (printing texts) =
                ({ output := printed }, tree) ∧
              tree.Wrote (FilePath.ofText out) (Utf8.encode printed) after) ∧
        ((∀ out, outputText? texts = some out → ¬ NamesFile host.keepsSeparator out) →
          after = tree)) := by
  unfold run at h ⊢
  cases hload :
      EnvironmentFile.load host.loader tree (.ofLocation tree.workingDirectory) env with
  | error e =>
      rw [hload] at h
      cases h
      exact ⟨nofun, nofun⟩
  | ok loaded =>
      rw [hload] at h
      dsimp only at h ⊢
      cases htask : Task.ofWords host.keepsSeparator texts with
      | error stop =>
          rw [htask] at h
          cases h
          cases stop with
          | help p =>
              refine ⟨nofun, fun _ => ⟨fun out hout => ?_, fun _ => rfl⟩⟩
              rw [outputText?_of_help htask] at hout
              cases hout
          | mistake p m => exact ⟨nofun, nofun⟩
      | ok task =>
          rw [htask] at h
          obtain ⟨hfails, hends⟩ := Task.delivers_of_run h
          refine ⟨hfails, fun hend => ⟨fun out hout hnames => ?_, fun hnone => ?_⟩⟩
          · rw [ofWords_printing htask]
            exact (hends hend).1 _ (output?_of_namesFile htask hout hnames)
          · exact (hends hend).2 (output?_of_not_namesFile htask hnone)

/-- A command line that puts a file in its customary form, in place. -/
def inPlace : List Text := ["format".toList, "d.mmd".toList, "--out=d.mmd".toList]

/-- A command line that takes a diagram for the graph that it draws, in place. -/
def mistaken : List Text := ["generate".toList, "d.mmd".toList, "-o".toList, "d.mmd".toList]

/-- The input file itself is written as it would have been printed, or not touched. -/
theorem run_delivers_in_place :
    (run Route.workHost Route.work {} [] inPlace).1.output = [] ∧
      (run Route.workHost Route.work {} [] inPlace).2.read (FilePath.ofText "d.mmd".toList) =
        .ok (Utf8.encode "flowchart LR\n  a[a] -.-> b[b]\n".toList) ∧
      (run Route.workHost Route.work {} [] mistaken).1.output = [] ∧
      (run Route.workHost Route.work {} [] mistaken).2 = Route.work := by
  have hend : (run Route.workHost Route.work {} [] inPlace).1.ending = .exit 0 := by rfl
  have hfail : (run Route.workHost Route.work {} [] mistaken).1.ending = .exit 1 := by rfl
  obtain ⟨-, hends⟩ := run_delivers (Prod.eta (run Route.workHost Route.work {} [] inPlace)).symm
  obtain ⟨hfails, -⟩ := run_delivers (Prod.eta (run Route.workHost Route.work {} [] mistaken)).symm
  obtain ⟨houtput, printed, hprinted, hwrote⟩ :=
    (hends hend).1 "d.mmd".toList (by decide +kernel) (by decide)
  have hshown : (run Route.workHost Route.work {} [] (printing inPlace)).1.output =
      "flowchart LR\n  a[a] -.-> b[b]\n".toList := by decide +kernel
  rw [hprinted] at hshown
  exact ⟨houtput, hshown ▸ hwrote.read, hfails hfail⟩

/-- The first diagram is printed if no output file is named, here among no other files. -/
theorem run_new {host : Host} {texts : List Text}
    (h : Task.ofWords host.keepsSeparator texts = .ok (.new none false)) :
    run host {} {} [] texts = ({ output := line (Graph.seed.diagram true false) }, {}) := by
  have hnone : EnvironmentFile.nearest? {} (.ofLocation ({} : FileTree).workingDirectory) = none := by
    decide +kernel
  have hunfenced : (Settings.ofEnvironment {}).fenced = false := by decide +kernel
  rw [run_eq hnone h, Task.run, Task.result, hunfenced]
  rfl

/-- A command line that gives an output file, and then an empty one. -/
def overruled : List Text :=
  ["new".toList, "-o".toList, "a.mmd".toList, "-o".toList, []]

/-- A command line that gives the separator as the output file. -/
def toSeparator : List Text := ["new".toList, "--output=--".toList]

/-- The first output file is overruled by the second one, which names none, on every host; and where
the option parser drops a separator, that names none either. So a run that was given an output file
of a name prints its result and writes nothing. -/
theorem run_overruled :
    (∀ host : Host, ["-o".toList, "a.mmd".toList] <:+: overruled ∧
      (run host {} {} [] overruled).1.ending = .exit 0 ∧
      (run host {} {} [] overruled).1.output ≠ [] ∧ (run host {} {} [] overruled).2 = {}) ∧
    ∀ host : Host, host.keepsSeparator = false →
      outputText? toSeparator = some separatorText ∧
      (run host {} {} [] toSeparator).1.ending = .exit 0 ∧
      (run host {} {} [] toSeparator).1.output ≠ [] ∧ (run host {} {} [] toSeparator).2 = {} := by
  have hline (t : Text) : line t ≠ [] := List.append_ne_nil_of_right_ne_nil t (by simp)
  constructor
  · intro host
    rw [run_new (by rfl)]
    exact ⟨⟨["new".toList], ["-o".toList, []], rfl⟩, rfl, hline _, rfl⟩
  · intro host hdrops
    rw [run_new (by rw [hdrops]; rfl)]
    exact ⟨by decide +kernel, rfl, hline _, rfl⟩

end Flowchart.CommandLine

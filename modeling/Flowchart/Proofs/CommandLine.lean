import Flowchart.CommandLine.Run
import Flowchart.Proofs.FileTree
import Flowchart.Proofs.Json.Integer
import Flowchart.Proofs.Storage

/-!
# Through a file or directly

A diagram is put in its customary form directly, or by way of a file with its graph; both print the
same, and so do the summaries of the two files (`Route.prints_same`). The graph is written where
nothing stood: so the diagram is read as before, the graph is read back, and no environment file
comes in force. The loader of environment files never runs, and so the host does not matter. What
was written begins with a brace, which makes it a text of JSON, and the graph of a diagram is stored
without a loss.
-/

set_option autoImplicit false

namespace Flowchart.CommandLine

/-! ## Words of a command line -/

/-- A word that does not begin with a dash is an operand. -/
theorem Word.ofText_operand (p : Page) {t : Text} (h : t.head? ≠ some '-') :
    Word.ofText p t = .operand t := by
  have hseparator : t ≠ separatorText := by
    rintro rfl
    exact h rfl
  unfold Word.ofText
  rw [if_neg hseparator, if_pos (by simp [h])]

theorem Source.ofText_operand {t : Text} (h : t.head? ≠ some '-') :
    Source.ofText t = .file (FilePath.ofText t) := by
  have hdash : t ≠ ['-'] := by
    rintro rfl
    exact h rfl
  rw [Source.ofText, if_neg hdash]

/-- The words after a command are read by the command. -/
theorem ofWords_cons (keepsSeparator : Bool) (c : Command) (rest : List Text) :
    Task.ofWords keepsSeparator (c.name :: rest) = readCommand keepsSeparator [] c rest := by
  have hname : Word.ofText .program c.name = .operand c.name :=
    Word.ofText_operand .program (by cases c <;> decide)
  have hcommand : Vocabulary.ofName? c.name = some c := Vocabulary.ofName?_name c
  rw [Task.ofWords, readFrom, hname]
  simp only [hcommand]

/-- A command with an input. -/
theorem ofWords_input (keepsSeparator : Bool) {c : Command} (hc : c.takesInput = true) {F : Text}
    (hF : F.head? ≠ some '-') :
    Task.ofWords keepsSeparator [c.name, F] =
      .ok (({ input := some F } : Given).task keepsSeparator c) := by
  have hwords : Word.ofTexts (.command c) [F] = [.operand F] := by
    simp only [Word.ofTexts, Word.ofText_operand _ hF]
  have hread : readWords c {} [.operand F] = .ok { input := some F } := by
    simp [readWords, Given.withOperand, hc]
  rw [ofWords_cons, readCommand, hwords]
  simp [Word.mistake?, hread, bind, Except.bind]

/-- The command that puts the graph of a diagram into a file. -/
theorem ofWords_parse (keepsSeparator : Bool) {F G : Text} (hF : F.head? ≠ some '-')
    (hG : G.head? ≠ some '-') (hne : G ≠ []) :
    Task.ofWords keepsSeparator [Command.parse.name, F, "-o".toList, G] =
      .ok (.parse (.file (FilePath.ofText F)) (some (FilePath.ofText G))) := by
  have hswitch : Word.ofText (.command .parse) "-o".toList = .switch .output true none := by decide
  have hwords : Word.ofTexts (.command .parse) [F, "-o".toList, G] =
      [.operand F, .switch .output true none, .operand G] := by
    simp only [Word.ofTexts, Word.ofText_operand _ hF, Word.ofText_operand _ hG, hswitch]
  have houtput : ({ input := some F, output := some G } : Given).outputFile? keepsSeparator =
      some (FilePath.ofText G) := by
    have hseparator : G ≠ separatorText := by
      rintro rfl
      exact hG rfl
    simp [Given.outputFile?, hne, hseparator]
  calc Task.ofWords keepsSeparator [Command.parse.name, F, "-o".toList, G]
      = .ok (({ input := some F, output := some G } : Given).task keepsSeparator .parse) := by
        rw [ofWords_cons, readCommand, hwords]
        rfl
    _ = .ok (.parse (.file (FilePath.ofText F)) (some (FilePath.ofText G))) := by
        simp only [Given.task, houtput, Option.getD_some, Source.ofText_operand hF]

/-! ## Environment files -/

/-- A new file is no environment file, unless it is named like one. -/
theorem nearest?_put {tree : FileTree} {location : Location} {content : Bytes}
    {directory : FilePath} (hlocation : location ≠ [])
    (hname : location.getLast? ≠ some EnvironmentFile.fileName)
    (h : EnvironmentFile.nearest? tree directory = none) :
    EnvironmentFile.nearest? (tree.put location (.file content)) directory = none := by
  unfold EnvironmentFile.nearest? at h ⊢
  rw [List.find?_eq_none] at h ⊢
  intro p hp hthere
  refine h p hp ?_
  obtain ⟨q, -, rfl⟩ := List.mem_map.mp hp
  unfold EnvironmentFile.isThere at hthere ⊢
  split at hthere
  · next there entry? hlocate =>
      obtain ⟨entry, rfl⟩ := Option.isSome_iff_exists.mp hthere
      obtain ⟨hnull, hlong, hdescend⟩ := (FileTree.locate_eq_ok_iff _ _ _).mp hlocate
      rcases FileTree.descend_of_put hlocation hdescend with rfl | hdescend'
      · -- a candidate leads to a place with the name of an environment file
        obtain ⟨before, -, hstep⟩ := FileTree.descend_parent hdescend
        rw [hstep, Location.step, if_neg (by decide), List.getLast?_concat] at hname
        exact absurd rfl hname
      · have hlocate' : tree.locate (q.child EnvironmentFile.fileName) = .ok (there, some entry) :=
          (FileTree.locate_eq_ok_iff _ _ _).mpr ⟨hnull, hlong, hdescend'⟩
        rw [hlocate']
        rfl
  · cases hthere

/-- Without an environment file, a run is that of its task in the given environment. -/
theorem run_eq {host : Host} {tree : FileTree} {texts : List Text} {task : Task}
    (hnone : EnvironmentFile.nearest? tree (.ofLocation tree.workingDirectory) = none)
    (htask : Task.ofWords host.keepsSeparator texts = .ok task) (env : Environment)
    (standardInput : Bytes) :
    run host tree env standardInput texts =
      task.run (Settings.ofEnvironment env) tree standardInput := by
  have hload : EnvironmentFile.load host.loader tree (.ofLocation tree.workingDirectory) env =
      .ok (none, env) := by
    rw [EnvironmentFile.load, hnone]
  rw [run, hload]
  simp only [htask]

/-! ## Texts of files -/

/-- A path leads to a file of the given text. -/
def HasText (tree : FileTree) (p : FilePath) (t : Text) : Prop :=
  ∃ bytes, tree.read p = .ok bytes ∧ Utf8.decode bytes = .ok t

theorem text_of_hasText {tree : FileTree} {p : FilePath} {t : Text} (h : HasText tree p t)
    (standardInput : Bytes) :
    (Source.file p).text tree standardInput = .ok (Text.unifyLineEnds t) := by
  obtain ⟨bytes, hread, hdecode⟩ := h
  rw [Source.text, hread]
  simp only [Except.mapError, bind, Except.bind, inputText, hdecode]

/-- The text of a file with a graph has no carriage return. -/
theorem unifyLineEnds_line_fileText (g : Graph) :
    Text.unifyLineEnds (line g.fileText) = line g.fileText := by
  refine Text.unifyLineEnds_eq_self ?_
  have hfile : '\r' ∉ g.fileText := Json.return_not_mem_write g.toRecord
  simp [line, hfile]

/-- The file of a diagram's graph is read as the graph, with the line feed at its end. -/
theorem ofText_line_fileText {t : Text}
    (hjson : Json.read (Graph.ofDiagram t).fileText = .ok (Graph.ofDiagram t).toRecord) :
    Graph.ofText (line (Graph.ofDiagram t).fileText) = .ok (Graph.ofDiagram t) := by
  have hfeed : ∀ c ∈ ['\n'], Json.isSpace c = true := by simp [Json.isSpace]
  have hread : Json.read (line (Graph.ofDiagram t).fileText) = .ok (Graph.ofDiagram t).toRecord :=
    Json.read_write_blanks Json.readable_indented
      (Graph.distinctKeys_toRecord (Graph.storable_ofDiagram t)) hjson hfeed
  rw [Graph.ofText, hread]
  simp only [Graph.ofRecord_toRecord_ofDiagram]
  rfl

/-- A text with a brace in front is taken for JSON. -/
theorem graphOfEither_line_fileText {t : Text}
    (hjson : Json.read (Graph.ofDiagram t).fileText = .ok (Graph.ofDiagram t).toRecord) :
    graphOfEither (line (Graph.ofDiagram t).fileText) = .ok (Graph.ofDiagram t) := by
  obtain ⟨rest, hrest⟩ : ∃ rest, line (Graph.ofDiagram t).fileText = '\x7b' :: rest := ⟨_, rfl⟩
  have htrim : (line (Graph.ofDiagram t).fileText).trimStart =
      line (Graph.ofDiagram t).fileText := by
    rw [hrest]
    rfl
  rw [graphOfEither, htrim, ofText_line_fileText hjson, hrest]
  rfl

/-- Unifying the line ends leaves the first character that is no blank. -/
theorem head?_trimStart_unifyLineEnds (t : Text) :
    (Text.unifyLineEnds t).trimStart.head? = t.trimStart.head? := by
  have hreturn : isBlank '\r' = true := by decide
  have hfeed : isBlank '\n' = true := by decide
  unfold Text.trimStart
  fun_induction Text.unifyLineEnds t with
  | case1 rest ih => simpa [List.dropWhile_cons, hreturn, hfeed] using ih
  | case2 rest _ ih => simpa [List.dropWhile_cons, hreturn, hfeed] using ih
  | case3 c rest _ _ ih =>
      cases hc : isBlank c with
      | true => simpa [List.dropWhile_cons, hc] using ih
      | false => simp [hc]
  | case4 => rfl

theorem graphOfEither_diagram {t : Text} (h : t.trimStart.head? ≠ some '\x7b') :
    graphOfEither (Text.unifyLineEnds t) = .ok (Graph.ofDiagram (Text.unifyLineEnds t)) := by
  rw [graphOfEither, head?_trimStart_unifyLineEnds, if_neg h]

/-! ## Runs on a file -/

section Runs

variable {host : Host} {tree : FileTree} {env : Environment} {F G t : Text}

/-- Putting a diagram in its customary form. -/
theorem run_format
    (hnone : EnvironmentFile.nearest? tree (.ofLocation tree.workingDirectory) = none)
    (hF : F.head? ≠ some '-') (htext : HasText tree (.ofText F) t) (standardInput : Bytes) :
    run host tree env standardInput ["format".toList, F] =
      ({ output := line ((Graph.ofDiagram (Text.unifyLineEnds t)).diagram
          (Settings.ofEnvironment env).keepStyles false) }, tree) := by
  have htask : Task.ofWords host.keepsSeparator ["format".toList, F] =
      .ok (.format (.file (.ofText F)) none) := by
    rw [← Source.ofText_operand hF]
    exact ofWords_input host.keepsSeparator (c := .format) rfl hF
  rw [run_eq hnone htask, Task.run]
  simp only [Task.result, text_of_hasText htext]
  rfl

/-- Drawing a graph, when no fence is asked for. -/
theorem run_generate {g : Graph}
    (hnone : EnvironmentFile.nearest? tree (.ofLocation tree.workingDirectory) = none)
    (hunfenced : (Settings.ofEnvironment env).fenced = false)
    (hG : G.head? ≠ some '-') (htext : HasText tree (.ofText G) t)
    (hgraph : Graph.ofText (Text.unifyLineEnds t) = .ok g) (standardInput : Bytes) :
    run host tree env standardInput ["generate".toList, G] =
      ({ output := line (g.diagram (Settings.ofEnvironment env).keepStyles false) }, tree) := by
  have htask : Task.ofWords host.keepsSeparator ["generate".toList, G] =
      .ok (.generate (.file (.ofText G)) none false false) := by
    rw [← Source.ofText_operand hG]
    exact ofWords_input host.keepsSeparator (c := .generate) rfl hG
  have hjson : graphOfJson (Text.unifyLineEnds t) = .ok g := by
    rw [graphOfJson, hgraph]
    rfl
  rw [run_eq hnone htask, Task.run]
  simp only [Task.result, text_of_hasText htext, bind, Except.bind, hjson, hunfenced]
  simp [pure, Except.pure, deliver, Task.output?]

/-- Summing up a file of either kind. -/
theorem run_show {g : Graph}
    (hnone : EnvironmentFile.nearest? tree (.ofLocation tree.workingDirectory) = none)
    (hF : F.head? ≠ some '-') (htext : HasText tree (.ofText F) t)
    (hgraph : graphOfEither (Text.unifyLineEnds t) = .ok g) (standardInput : Bytes) :
    run host tree env standardInput ["show".toList, F] =
      ({ output := line (sentence g.summary) }, tree) := by
  have htask : Task.ofWords host.keepsSeparator ["show".toList, F] =
      .ok (.summarize (.file (.ofText F))) := by
    rw [← Source.ofText_operand hF]
    exact ofWords_input host.keepsSeparator (c := .summarize) rfl hF
  rw [run_eq hnone htask, Task.run]
  simp only [Task.result, text_of_hasText htext, bind, Except.bind, hgraph]
  rfl

/-- Putting the graph of a diagram into a new file. -/
theorem run_parse {location : Location}
    (hnone : EnvironmentFile.nearest? tree (.ofLocation tree.workingDirectory) = none)
    (hF : F.head? ≠ some '-') (hG : G.head? ≠ some '-') (htext : HasText tree (.ofText F) t)
    (hnames : (FilePath.ofText G).names ≠ [])
    (hfree : tree.locate (.ofText G) = .ok (location, none)) (standardInput : Bytes) :
    run host tree env standardInput ["parse".toList, F, "-o".toList, G] =
      ({ messages := line ("Written to ".toList ++ (FilePath.ofText G).toText) },
        tree.put location (.file (Utf8.encode
          (line (Graph.ofDiagram (Text.unifyLineEnds t)).fileText)))) := by
  have hne : G ≠ [] := by
    rintro rfl
    exact hnames rfl
  have htask : Task.ofWords host.keepsSeparator ["parse".toList, F, "-o".toList, G] =
      .ok (.parse (.file (.ofText F)) (some (.ofText G))) :=
    ofWords_parse host.keepsSeparator hF hG hne
  rw [run_eq hnone htask, Task.run]
  simp only [Task.result, text_of_hasText htext, bind, Except.bind, pure, Except.pure, deliver,
    Task.output?, FileTree.write_of_locate hnames hfree]

end Runs

/-! ## By way of a file -/

/-- A diagram file `F` with the text `t`, and the name `G` of a file that is not there yet. No
environment file is in force, and the environment does not ask for fences. -/
structure Route (tree : FileTree) (env : Environment) (F G t : Text) : Prop where
  noEnvironmentFile : EnvironmentFile.nearest? tree (.ofLocation tree.workingDirectory) = none
  unfenced : (Settings.ofEnvironment env).fenced = false
  operand : F.head? ≠ some '-'
  text : HasText tree (.ofText F) t
  newOperand : G.head? ≠ some '-'
  newNames : (FilePath.ofText G).names ≠ []
  newPlace : ∃ location, tree.locate (.ofText G) = .ok (location, none) ∧
    location.getLast? ≠ some EnvironmentFile.fileName

namespace Route

variable {tree : FileTree} {env : Environment} {F G t : Text}

/-- The new file holds the graph, the diagram file holds its text still, and no environment file has
come in force. -/
theorem exists_parsed (h : Route tree env F G t) (host : Host) :
    ∃ after messages,
      (∀ input, run host tree env input ["parse".toList, F, "-o".toList, G] =
        ({ messages := messages }, after)) ∧
      EnvironmentFile.nearest? after (.ofLocation after.workingDirectory) = none ∧
      HasText after (.ofText F) t ∧
      HasText after (.ofText G) (line (Graph.ofDiagram (Text.unifyLineEnds t)).fileText) := by
  obtain ⟨location, hfree, hname⟩ := h.newPlace
  have hnothing : tree.get? location = none :=
    FileTree.get?_of_descend ((FileTree.locate_eq_ok_iff _ _ _).mp hfree).2.2
  have hlocation : location ≠ [] := by
    rintro rfl
    cases hnothing
  obtain ⟨bytes, hread, hdecode⟩ := h.text
  refine ⟨_, _, run_parse h.noEnvironmentFile h.operand h.newOperand h.text h.newNames hfree,
    nearest?_put hlocation hname h.noEnvironmentFile,
    ⟨bytes, FileTree.read_put hnothing hread, hdecode⟩,
    ⟨_, FileTree.read_write (FileTree.write_of_locate h.newNames hfree _), Utf8.decode_encode _⟩⟩

/-- **A file in between makes no difference.** Putting the graph of a diagram file into a new file
succeeds. To draw the new file then prints what putting the diagram in its customary form prints,
before or after; and to sum up the new file prints what summing up the diagram file prints, unless
that one begins with a brace. That the text of the graph is read as its record is taken for granted:
it is, unless the graph has more nodes than could ever be numbered (`Graph.read_fileText`,
`Graph.readableIntegers_ofDiagram`). -/
theorem prints_same (h : Route tree env F G t) (host : Host)
    (hjson : Json.read (Graph.ofDiagram (Text.unifyLineEnds t)).fileText =
      .ok (Graph.ofDiagram (Text.unifyLineEnds t)).toRecord) :
    ∃ after messages,
      (∀ input, run host tree env input ["parse".toList, F, "-o".toList, G] =
        ({ messages := messages, ending := .exit 0 }, after)) ∧
      (∃ drawn,
        (∀ input, (run host after env input ["generate".toList, G]).1 =
          { output := line drawn, ending := .exit 0 }) ∧
        ∀ before ∈ [tree, after], ∀ input, (run host before env input ["format".toList, F]).1 =
          { output := line drawn, ending := .exit 0 }) ∧
      (t.trimStart.head? ≠ some '\x7b' →
        ∃ shown,
          (∀ input, (run host after env input ["show".toList, G]).1 =
            { output := line shown, ending := .exit 0 }) ∧
          ∀ before ∈ [tree, after], ∀ input, (run host before env input ["show".toList, F]).1 =
            { output := line shown, ending := .exit 0 }) := by
  obtain ⟨after, messages, hparse, hnone, htextF, htextG⟩ := h.exists_parsed host
  -- what both files hold: the diagram in either tree, the graph in the new one
  have hdiagram : ∀ before ∈ [tree, after],
      EnvironmentFile.nearest? before (.ofLocation before.workingDirectory) = none ∧
        HasText before (.ofText F) t := by
    simp only [List.mem_cons, List.not_mem_nil, or_false, forall_eq_or_imp, forall_eq]
    exact ⟨⟨h.noEnvironmentFile, h.text⟩, hnone, htextF⟩
  have hgraph := ofText_line_fileText hjson
  have heither := graphOfEither_line_fileText hjson
  rw [← unifyLineEnds_line_fileText] at hgraph heither
  refine ⟨after, messages, hparse,
    ⟨(Graph.ofDiagram (Text.unifyLineEnds t)).diagram (Settings.ofEnvironment env).keepStyles false,
      fun input => ?_, fun before hbefore input => ?_⟩,
    fun hbrace => ⟨sentence (Graph.ofDiagram (Text.unifyLineEnds t)).summary,
      fun input => ?_, fun before hbefore input => ?_⟩⟩
  · exact congrArg Prod.fst (run_generate hnone h.unfenced h.newOperand htextG hgraph input)
  · obtain ⟨hnone', htext⟩ := hdiagram before hbefore
    exact congrArg Prod.fst (run_format hnone' h.operand htext input)
  · exact congrArg Prod.fst (run_show hnone h.newOperand htextG heither input)
  · obtain ⟨hnone', htext⟩ := hdiagram before hbefore
    exact congrArg Prod.fst (run_show hnone' h.operand htext (graphOfEither_diagram hbrace) input)

/-! ### A diagram in a directory -/

/-- A diagram of one edge, with the line ends of another system. -/
def workText : Text := "graph LR\r\n  a -.-> b\r\n".toList

/-- A working directory with a file of that text. -/
def work : FileTree where
  entries := (Keyed.empty.put ["work".toList] .directory).put ["work".toList, "d.mmd".toList]
    (.file (Utf8.encode workText))
  workingDirectory := ["work".toList]

theorem route_work : Route work {} "d.mmd".toList "g.json".toList workText where
  noEnvironmentFile := by decide +kernel
  unfenced := by decide +kernel
  operand := by decide
  text := ⟨Utf8.encode workText, by rfl, Utf8.decode_encode workText⟩
  newOperand := by decide
  newNames := by decide
  newPlace := ⟨["work".toList, "g.json".toList], by rfl, by decide⟩

/-- A host with a loader that sets nothing. There is no environment file in the directory, so the
loader never runs there. -/
def workHost : Host where
  loader := fun _ _ env => .ok env
  keepsSeparator := true

/-- Drawing the graph in the new file prints the diagram as putting it in its customary form does,
and summing it up prints the same line. -/
theorem prints_same_work :
    ∃ after messages,
      run workHost work {} [] ["parse".toList, "d.mmd".toList, "-o".toList, "g.json".toList] =
        ({ messages := messages }, after) ∧
      (run workHost after {} [] ["generate".toList, "g.json".toList]).1.output =
        "flowchart LR\n  a[a] -.-> b[b]\n".toList ∧
      (run workHost after {} [] ["show".toList, "g.json".toList]).1.output =
        "2 nodes, 1 edges (0 orphan nodes), direction LR\n".toList := by
  have hsize : (Graph.ofDiagram (Text.unifyLineEnds workText)).nodes.size ≤
      10 ^ (Json.maxIntegerDigits - 3) := by
    calc (Graph.ofDiagram (Text.unifyLineEnds workText)).nodes.size = 2 := by decide +kernel
      _ ≤ 10 ^ 1 := by decide
      _ ≤ 10 ^ (Json.maxIntegerDigits - 3) := Nat.pow_le_pow_right (by decide) (by decide)
  have hjson := Graph.read_fileText (Graph.storable_ofDiagram (Text.unifyLineEnds workText))
    (Graph.readableIntegers_ofDiagram hsize)
  obtain ⟨after, messages, hparse, ⟨drawn, hgenerate, hformat⟩, hshow⟩ :=
    prints_same route_work workHost hjson
  obtain ⟨shown, hshowG, hshowF⟩ := hshow (by decide)
  have hdrawn : (run workHost work {} [] ["format".toList, "d.mmd".toList]).1.output =
      "flowchart LR\n  a[a] -.-> b[b]\n".toList := by decide +kernel
  have hshown : (run workHost work {} [] ["show".toList, "d.mmd".toList]).1.output =
      "2 nodes, 1 edges (0 orphan nodes), direction LR\n".toList := by decide +kernel
  rw [hformat work (by simp)] at hdrawn
  rw [hshowF work (by simp)] at hshown
  exact ⟨after, messages, hparse [], by rw [hgenerate]; exact hdrawn, by rw [hshowG]; exact hshown⟩

end Route

end Flowchart.CommandLine

import Flowchart.FileTree
import Flowchart.Record
import Flowchart.Text.LineEnd

/-!
# Graphs in files

A graph is kept in a file as the text of its record. Saving makes the directories on the way to the
file; loading reads what saving wrote, and what others may have written, with line ends of any kind.
-/

namespace Flowchart

/-- Why no graph is loaded: there is no file of text, or its text is no graph. -/
inductive LoadError where
  | noText (error : FileError)
  | noGraph (error : GraphTextError)

namespace Graph

/-- Writes a graph to a file. -/
def save (g : Graph) (tree : FileTree) (p : FilePath) : Except FileError Unit × FileTree :=
  tree.write p (Utf8.encode g.fileText)

/-- The graph that a file keeps. -/
def load (tree : FileTree) (p : FilePath) : Except LoadError Graph := do
  let bytes ← (tree.read p).mapError .noText
  let text ← (Utf8.decode bytes).mapError fun e => .noText (.undecodable e)
  (Graph.ofText (Text.unifyLineEnds text)).mapError .noGraph

end Graph

end Flowchart

import MarkupText.Console.Ansi
import MarkupText.Console.Arguments
import MarkupText.Console.Report
import MarkupText.Render.Descent
import MarkupText.Tree.Interchange

/-!
# The command

`Invocation.run` renders a tree that was read and gives what the command prints. Warnings go to the
error output in color, with the number of those that rendering gave rise to after them.
-/

namespace MarkupText.Console

/-- What a run of the command leaves behind. -/
structure Output where
  exitCode : Nat
  stdout : Text := []
  stderr : Text := []

namespace Output

/-- Bad usage. -/
def badUsage : Output := { exitCode := 2 }

/-- A notice, given the terminal width from the environment, if it is set. -/
def ofNotice (environmentColumns : Option Text) (n : Notice) : Output :=
  { exitCode := 0, stdout := n.text environmentColumns }

/-- A failure, after the warnings given before it. -/
def failure (warnings message : Text) : Output :=
  { exitCode := 1, stderr := warnings ++ "Error: ".toList ++ message ++ ['\n'] }

end Output

/-- A warning as it is printed. -/
def warningLine (w : Warning) : Text :=
  setCodes "33".toList ++ "[Tessera ".toList ++ w.component ++ "] ⚠ ".toList ++ w.message ++
    setCodes "39".toList ++ ['\n']

def warningLines (l : WarningLog) : Text := l.warnings.flatMap warningLine

/-- The number of warnings, if there are any. -/
def countLine (l : WarningLog) : Text :=
  if l.size = 0 then []
  else
    setCodes ['2'] ++ natText l.size ++ " rendering warning(s)".toList ++ setCodes ['0'] ++ ['\n']

/-- The text on one line. -/
def echoLine (r : Rendered) : Text := [' '].intercalate r.text.words

namespace Invocation

/-- What is printed for a rendered tree. -/
def present (i : Invocation) (r : Rendered) : Text :=
  if i.annotated then r.toJson.pretty ++ ['\n']
  else match i.mode with
    | .echo => echoLine r ++ ['\n']
    | .audible => r.text
    | .visible => if i.color then r.ansi else r.text

/-- Options from the arguments. Without a width the text fills the terminal. -/
def options (i : Invocation) : Except OptionsError Options :=
  let base : Options :=
    { displayMode := i.mode
      width := match i.width with
        | some n => .fixed n
        | none => .full }
  base.blockImages i.blockImages

/-- Renders the tree in `text`; `none` stands for a source that cannot be read. -/
def run (i : Invocation) (text : Option Text) : Output :=
  match text with
  | none => .failure [] i.source.failure
  | some t =>
    match Tree.ofJsonText t with
    | .error _ => .failure [] ("loading tree from ".toList ++ i.source.name)
    | .ok loaded =>
      let loading := warningLines (({} : WarningLog).addAll loaded.warnings)
      match i.options with
      | .error e => .failure loading e.message
      | .ok options =>
        let scene : Scene := { tree := loaded.tree, options, surface := { columns := i.columns } }
        let out := render scene Tree.root
        { exitCode := 0, stdout := i.present out.rendered
          stderr := loading ++ warningLines out.log ++ countLine out.log }

end Invocation
end MarkupText.Console

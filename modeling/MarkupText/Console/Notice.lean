import MarkupText.Text.Basic

/-!
# Notices

What the command says about itself, in place of rendering anything: its version, and how it is used.
-/

namespace MarkupText.Console

/-- What may be asked about the command. -/
inductive Notice where
  | version
  | help
deriving DecidableEq

namespace Notice

def versionText : String := "tessera 0.1.0\n"

/-- How the command is used, around the value of the terminal width in the environment. -/
def helpText (columns : String) : String :=
  "Render a JSON node tree to annotated fixed-width text\n\n" ++
  "Usage: tessera [OPTIONS] <FILE>\n\n" ++
  "Arguments:\n" ++
  "  <FILE>  Path to the JSON node tree, or \x60-\x60 for stdin\n\n" ++
  "Options:\n" ++
  "  -w, --width <WIDTH>           " ++
  "Wrap to this many columns instead of the full terminal width\n" ++
  "      --columns <COLUMNS>       " ++
  "Terminal width (falls back to $COLUMNS, then 80) [env: COLUMNS=" ++ columns ++
  "] [default: 80]\n" ++
  "      --block-images <PATTERN>  Regular expression for image sources to render as alt text\n" ++
  "      --mode <MODE>             Display mode: visible, audible or echo [default: visible]\n" ++
  "      --color                   Style the output with ANSI colors and faces\n" ++
  "      --annotations             Print the text and its annotations as JSON\n" ++
  "  -h, --help                    Print help\n" ++
  "  -V, --version                 Print version\n\n" ++
  "EXAMPLES:\n" ++
  "    # Render at the terminal width\n" ++
  "    tessera page.json\n\n" ++
  "    # Wrap to 60 columns with colors and faces\n" ++
  "    tessera --width 60 --color page.json\n\n" ++
  "    # Read the tree from stdin and dump the annotations\n" ++
  "    cat page.json | tessera --annotations -\n\n" ++
  "    # Render image alt text for anything served from an ad host\n" ++
  "    tessera --block-images '^https?://ads\\.' page.json\n"

/-- What is printed, given the terminal width from the environment, if it is set. -/
def text (environmentColumns : Option Text) : Notice → Text
  | version => versionText.toList
  | help => (helpText (String.ofList (environmentColumns.getD []))).toList

end Notice
end MarkupText.Console

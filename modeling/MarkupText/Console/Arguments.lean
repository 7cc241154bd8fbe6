import MarkupText.Console.Notice
import MarkupText.Decimal.Digits
import MarkupText.Options

/-!
# Arguments of the command

`Request.ofArguments?` reads the arguments: one file, with `-` for the standard input, and options
before or after it. Options that take a value take the next argument or what follows an equals sign;
only `--block-images` may be repeated. The arguments are read in order, and a request for a notice
counts as soon as it is reached, whatever follows it and whatever is still missing.
-/

namespace MarkupText.Console

/-- Where the tree is read from. -/
inductive Source where
  | standardInput
  | file (path : Text)
deriving DecidableEq

/-- The name of a source in messages. -/
def Source.name : Source → Text
  | standardInput => ['-']
  | file path => path

/-- What failed when a source cannot be read. -/
def Source.failure : Source → Text
  | standardInput => "reading tree from stdin".toList
  | file path => "reading ".toList ++ path

def Source.ofText (t : Text) : Source := if t = ['-'] then .standardInput else .file t

/-- What is to be rendered, and how. -/
structure Invocation where
  source : Source
  width : Option Nat
  columns : Nat
  blockImages : List Text
  mode : DisplayMode
  color : Bool
  annotated : Bool

/-- What the arguments ask for. -/
inductive Request where
  | notice (n : Notice)
  | render (i : Invocation)

/-- An option that tunes the rendering. -/
inductive Flag where
  | width
  | columns
  | blockImages
  | mode
  | color
  | annotated
deriving DecidableEq

def Flag.takesValue : Flag → Bool
  | color | annotated => false
  | _ => true

/-- Whether an argument is an option rather than a value or a file. -/
def looksLikeOption (t : Text) : Bool := t.head? = some '-' && t.length ≠ 1

/-- What an argument means by itself. -/
inductive Argument where
  | file
  /-- The end of the options. -/
  | stop
  | flag (f : Flag) (value : Option Text)
  | notice (n : Notice)
  | unknown

namespace Argument

/-- An option by its long name, with the value after an equals sign. -/
def ofLongName (name : String) (value : Option Text) : Argument :=
  match name with
  | "width" => flag .width value
  | "columns" => flag .columns value
  | "block-images" => flag .blockImages value
  | "mode" => flag .mode value
  | "color" => flag .color value
  | "annotations" => flag .annotated value
  | "version" => if value.isNone then notice .version else unknown
  | "help" => if value.isNone then notice .help else unknown
  | _ => unknown

/-- Reads one argument that stands where an option or a file may stand. Of several letters after
one hyphen the first decides: it takes the others as its value, or nothing comes after it. -/
def ofText (t : Text) : Argument :=
  match t with
  | ['-', '-'] => stop
  | '-' :: '-' :: t =>
    match Text.cut? '=' t with
    | some (name, value) => ofLongName (String.ofList name) (some value)
    | none => ofLongName (String.ofList t) none
  | '-' :: 'w' :: t =>
    if t.isEmpty then flag .width none
    else flag .width (some (if t.head? = some '=' then t.drop 1 else t))
  | '-' :: 'V' :: _ => notice .version
  | '-' :: 'h' :: _ => notice .help
  | ['-'] => file
  | '-' :: _ => unknown
  | _ => file

end Argument

/-- The bound of numbers in arguments. -/
def countBound : Nat := pow2 64

/-- What has been settled by the arguments read so far. -/
structure Settings where
  file : Option Text := none
  width : Option Nat := none
  columns : Option Nat := none
  blockImages : List Text := []
  mode : Option DisplayMode := none
  color : Bool := false
  annotated : Bool := false

namespace Settings

/-- Adds the file; `none` if there is one already. -/
def addFile? (s : Settings) (t : Text) : Option Settings :=
  if s.file.isSome then none else some { s with file := t }

/-- Adds an option; `none` if its value cannot be read, or if it may not be repeated and is there
already. -/
def set? (s : Settings) (f : Flag) (value : Text) : Option Settings :=
  match f with
  | .width =>
    if s.width.isSome then none
    else (readNat? countBound value).map fun n => { s with width := n }
  | .columns =>
    if s.columns.isSome then none
    else (readNat? countBound value).map fun n => { s with columns := n }
  | .blockImages => some { s with blockImages := s.blockImages ++ [value] }
  | .mode =>
    if s.mode.isSome then none else (DisplayMode.ofName? value).map fun m => { s with mode := m }
  | .color => if s.color then none else some { s with color := true }
  | .annotated => if s.annotated then none else some { s with annotated := true }

/-- What the settings ask for, given the terminal width from the environment, if it is set; `none`
if that cannot be read, if there is no file, or if two settings exclude each other. -/
def invocation? (s : Settings) (environmentColumns : Option Text) : Option Invocation := do
  let file ← s.file
  let columns ← match s.columns, environmentColumns with
    | some n, _ => some n
    | none, some t => readNat? countBound t
    | none, none => some 80
  if s.color && s.annotated then none
  else
    return { source := .ofText file, width := s.width, columns, blockImages := s.blockImages
             mode := s.mode.getD .visible, color := s.color, annotated := s.annotated }

end Settings

namespace Request

/-- Reads on after the settings in `s`. -/
def read? (environmentColumns : Option Text) (s : Settings) : List Text → Option Request
  | [] => (s.invocation? environmentColumns).map render
  | t :: ts =>
    match Argument.ofText t with
    | .file => do read? environmentColumns (← s.addFile? t) ts
    | .stop => do
      let s ← ts.foldlM Settings.addFile? s
      (s.invocation? environmentColumns).map render
    | .unknown => none
    | .notice n => some (notice n)
    | .flag f (some value) =>
      if f.takesValue then do read? environmentColumns (← s.set? f value) ts else none
    | .flag f none =>
      if !f.takesValue then do read? environmentColumns (← s.set? f []) ts
      else match ts with
        | [] => none
        | value :: ts =>
          if looksLikeOption value then none
          else do read? environmentColumns (← s.set? f value) ts

/-- What the arguments ask for, given the terminal width from the environment, if it is set; `none`
on bad usage. -/
def ofArguments? (arguments : List Text) (environmentColumns : Option Text) : Option Request :=
  read? environmentColumns {} arguments

end Request
end MarkupText.Console

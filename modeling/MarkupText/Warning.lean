import MarkupText.Text.Basic

/-!
# Warnings

Input that is rendered less than faithfully is reported, each report once. `WarningLog` keeps the
reports in order without repetition.
-/

namespace MarkupText

/-- A report, and the part of the program that makes it. -/
structure Warning where
  component : Text
  message : Text

/-- What makes two reports the same. -/
def Warning.key (w : Warning) : Text := '[' :: w.component ++ "] ".toList ++ w.message

/-- Distinct warnings in the order of their first report. -/
structure WarningLog where
  warnings : List Warning := []

namespace WarningLog

def size (l : WarningLog) : Nat := l.warnings.length

/-- Records a warning unless one with its key is present. -/
def add (l : WarningLog) (w : Warning) : WarningLog :=
  if l.warnings.any (·.key == w.key) then l else { warnings := l.warnings ++ [w] }

def addAll (l : WarningLog) (ws : List Warning) : WarningLog := ws.foldl add l

end WarningLog
end MarkupText

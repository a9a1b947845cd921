/-!
# Errors of a host's files

What a host says when it cannot read, create or open a file.  The causes that a sandbox meets have texts of
their own; every other one comes with the host's text.
-/

namespace PluginSandbox

/-- Why a host cannot do something with a file.  Any other cause is given in the host's words. -/
inductive FileError where
  | notFound
  | alreadyExists
  | notDirectory
  | isDirectory
  | nameTooLong
  | nulInPath
  | notText
  | other (text : String)
  deriving DecidableEq, Inhabited

namespace FileError

/-- The text of a file error. -/
def text : FileError → String
  | .notFound => "No such file or directory (os error 2)"
  | .alreadyExists => "File exists (os error 17)"
  | .notDirectory => "Not a directory (os error 20)"
  | .isDirectory => "Is a directory (os error 21)"
  | .nameTooLong => "File name too long (os error 36)"
  | .nulInPath => "file name contained an unexpected NUL byte"
  | .notText => "stream did not contain valid UTF-8"
  | .other text => text

/-- The text that the bytes of a file hold. -/
def textOfFile (file : Except FileError ByteArray) : Except FileError String := do
  match String.fromUTF8? (← file) with
  | some text => return text
  | none => throw .notText

end FileError
end PluginSandbox

import ResumePress.Files.Path
import ResumePress.Text.Quoted

/-!
What can go wrong with a file or a program, and the wording of each case.
-/

namespace ResumePress.Files

/-- Why an operation on a file, a folder or a program did not succeed. -/
inductive Fault where
  | notFound
  | permissionDenied
  | alreadyExists
  | notADirectory
  | isADirectory
  | nameTooLong
  | tooManyLinks
  /-- Bytes that should have been text are not. -/
  | notText
  /-- A path holds a character that no path can hold. -/
  | nulInPath
  /-- The name or an argument of a program holds such a character. -/
  | nulInProgram
  /-- Only the content of files can be copied. -/
  | notRegular
  /-- Every name tried for a new folder was taken. -/
  | namesTaken
  /-- A case known by its wording alone. -/
  | worded (text : String)
  /-- A case that happened at a path. -/
  | atPath (cause : Fault) (path : Path)
deriving Repr, DecidableEq

namespace Fault

/-- The wording of a case. -/
def message : Fault → String
  | .notFound => "No such file or directory (os error 2)"
  | .permissionDenied => "Permission denied (os error 13)"
  | .alreadyExists => "File exists (os error 17)"
  | .notADirectory => "Not a directory (os error 20)"
  | .isADirectory => "Is a directory (os error 21)"
  | .nameTooLong => "File name too long (os error 36)"
  | .tooManyLinks => "Too many levels of symbolic links (os error 40)"
  | .notText => "stream did not contain valid UTF-8"
  | .nulInPath => "file name contained an unexpected NUL byte"
  | .nulInProgram => "nul byte found in provided data"
  | .notRegular => "the source path is neither a regular file nor a symlink to a regular file"
  | .namesTaken => "too many temporary files exist"
  | .worded text => text
  | .atPath cause path => cause.message ++ " at path " ++ Text.quoted path.text

end Fault

end ResumePress.Files

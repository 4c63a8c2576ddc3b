import ApiStack.Files.Glob

namespace ApiStack

/-- Why a file cannot be read or written. -/
inductive FileFault where
  | absent
  | noSuchFile
  | alreadyExists
  | notADirectory
  | isADirectory
  | nameTooLong
  | notText
  | zeroInName
  deriving DecidableEq

def FileFault.message : FileFault → String
  | .absent => "entity not found"
  | .noSuchFile => "No such file or directory (os error 2)"
  | .alreadyExists => "File exists (os error 17)"
  | .notADirectory => "Not a directory (os error 20)"
  | .isADirectory => "Is a directory (os error 21)"
  | .nameTooLong => "File name too long (os error 36)"
  | .notText => "stream did not contain valid UTF-8"
  | .zeroInName => "file name contained an unexpected NUL byte"

structure FileSystem where
  contains (path : Path) : Bool
  read (path : Path) : Except FileFault String
  glob (pattern : String) : Except Glob.PatternFault (List Path)

end ApiStack

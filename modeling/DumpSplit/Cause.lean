/-
  Causes for which the file system refuses an operation.
-/
namespace DumpSplit

/-- Why a file could not be read or written. -/
inductive Cause
  /-- nothing has that name, or a directory on the way to it is missing -/
  | noEntry
  /-- something on the way is no directory -/
  | notDirectory
  /-- a directory where a file is wanted -/
  | isDirectory
  /-- the device takes no more bytes -/
  | noSpace
  /-- a name, or the whole path, is longer than the system takes -/
  | nameTooLong
  /-- a zero byte, which no path can hold -/
  | zeroByte
  /-- the content is not UTF-8 text -/
  | notText
  /-- a file where the directory of the dumps is wanted -/
  | noDirectoryOfDumps
  /-- anything else, in the system's words -/
  | system (words : String)
  deriving DecidableEq

def Cause.message : Cause → String
  | noEntry => "No such file or directory (os error 2)"
  | notDirectory => "Not a directory (os error 20)"
  | isDirectory => "Is a directory (os error 21)"
  | noSpace => "No space left on device (os error 28)"
  | nameTooLong => "File name too long (os error 36)"
  | zeroByte => "file name contained an unexpected NUL byte"
  | notText => "stream did not contain valid UTF-8"
  | noDirectoryOfDumps => "not a directory"
  | system words => words

end DumpSplit

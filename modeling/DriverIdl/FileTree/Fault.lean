/-!
# Faults of file operations

Why the system refuses to read or write a file, in the words in which it tells so.
-/

namespace DriverIdl

/-- Why a file operation fails. -/
inductive FileFault where
  | notFound
  | exists
  | notDirectory
  | isDirectory
  | nameTooLong
  | zeroByte
  | notUtf8
  deriving DecidableEq, Inhabited

/-- The sentence that tells a fault, with the number that the system gives it.  A name with a zero byte
never reaches the system. -/
def FileFault.message : FileFault → String
  | .notFound => "No such file or directory (os error 2)"
  | .exists => "File exists (os error 17)"
  | .notDirectory => "Not a directory (os error 20)"
  | .isDirectory => "Is a directory (os error 21)"
  | .nameTooLong => "File name too long (os error 36)"
  | .zeroByte => "file name contained an unexpected NUL byte"
  | .notUtf8 => "stream did not contain valid UTF-8"

end DriverIdl

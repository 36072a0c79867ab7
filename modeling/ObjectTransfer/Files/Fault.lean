/-!
Why the file system refuses an operation.
-/
namespace ObjectTransfer.Files

inductive Fault where
  | notFound
  | exists
  | notDirectory
  | isDirectory
  | nameTooLong
  /-- A name holds a zero character, which would end it. -/
  | zeroInName
  /-- A length that no file can have. -/
  | lengthOutside
  /-- What cannot be done to a file of this kind. -/
  | invalidArgument
  | noSpace
  deriving Repr, DecidableEq, Inhabited

def Fault.message : Fault → String
  | .notFound => "No such file or directory (os error 2)"
  | .exists => "File exists (os error 17)"
  | .notDirectory => "Not a directory (os error 20)"
  | .isDirectory => "Is a directory (os error 21)"
  | .nameTooLong => "File name too long (os error 36)"
  | .zeroInName => "file name contained an unexpected NUL byte"
  | .lengthOutside => "out of range integral type conversion attempted"
  | .invalidArgument => "Invalid argument (os error 22)"
  | .noSpace => "No space left on device (os error 28)"

end ObjectTransfer.Files

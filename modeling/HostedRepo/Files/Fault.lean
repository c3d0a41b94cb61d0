/-!
# Faults of the file system
-/

namespace HostedRepo.Files

inductive Fault where
  | notFound
  | exists
  | notFolder
  | isFolder
  | nameTooLong
  | nulByte
  | notText
  deriving DecidableEq, Repr

def Fault.message : Fault → String
  | .notFound => "No such file or directory (os error 2)"
  | .exists => "File exists (os error 17)"
  | .notFolder => "Not a directory (os error 20)"
  | .isFolder => "Is a directory (os error 21)"
  | .nameTooLong => "File name too long (os error 36)"
  | .nulByte => "file name contained an unexpected NUL byte"
  | .notText => "stream did not contain valid UTF-8"

end HostedRepo.Files

/-!
# Failures of the file system

Why an operation on files fails. Failures are shown by the number that the operating system gives
them.
-/

namespace BudgetedRun

/-- Why an operation on files fails. -/
inductive FileError where
  | notFound
  | busy
  | alreadyExists
  | notADirectory
  | isADirectory
  | nameTooLong
  /-- A text was asked for, and the bytes are none. -/
  | notText
  /-- The path has a NUL character in it. -/
  | badPath
  /-- Any other number of the operating system. -/
  | other (code : Nat)
deriving DecidableEq, Repr

namespace FileError

/-- The failure with some number. -/
def ofCode : Nat → FileError
  | 2 => notFound
  | 16 => busy
  | 17 => alreadyExists
  | 20 => notADirectory
  | 21 => isADirectory
  | 36 => nameTooLong
  | code => other code

def message : FileError → String
  | notFound => "os error 2"
  | busy => "os error 16"
  | alreadyExists => "os error 17"
  | notADirectory => "os error 20"
  | isADirectory => "os error 21"
  | nameTooLong => "os error 36"
  | notText => "invalid utf-8"
  | badPath => "file name contained an unexpected NUL byte"
  | other code => s!"os error {code}"

end FileError

end BudgetedRun

/-!
# Errors of the system

The reasons for which the system refuses to open or read a path, or to read a clock.  Each has two
texts: one with its symbol, used where access or a clock is refused, and one with its number, used where
reading a path fails.  The two describe the same error in words that may differ.
-/

namespace SleepPolicy

inductive SystemError
  | noEntry | inputOutput | accessDenied | notDirectory | isDirectory | invalidArgument | readOnly
  | tooManyLinks
  deriving DecidableEq, Repr

namespace SystemError

def all : List SystemError :=
  [noEntry, inputOutput, accessDenied, notDirectory, isDirectory, invalidArgument, readOnly,
    tooManyLinks]

def number : SystemError → Nat
  | noEntry => 2
  | inputOutput => 5
  | accessDenied => 13
  | notDirectory => 20
  | isDirectory => 21
  | invalidArgument => 22
  | readOnly => 30
  | tooManyLinks => 40

def ofNumber? (n : Nat) : Option SystemError :=
  all.find? (·.number == n)

def symbol : SystemError → String
  | noEntry => "ENOENT"
  | inputOutput => "EIO"
  | accessDenied => "EACCES"
  | notDirectory => "ENOTDIR"
  | isDirectory => "EISDIR"
  | invalidArgument => "EINVAL"
  | readOnly => "EROFS"
  | tooManyLinks => "ELOOP"

/-- The words that go with the number. -/
def words : SystemError → String
  | noEntry => "No such file or directory"
  | inputOutput => "Input/output error"
  | accessDenied => "Permission denied"
  | notDirectory => "Not a directory"
  | isDirectory => "Is a directory"
  | invalidArgument => "Invalid argument"
  | readOnly => "Read-only file system"
  | tooManyLinks => "Too many levels of symbolic links"

/-- The words that go with the symbol. -/
def symbolWords : SystemError → String
  | inputOutput => "I/O error"
  | tooManyLinks => "Too many symbolic links encountered"
  | e => e.words

def symbolText (e : SystemError) : String :=
  s!"{e.symbol}: {e.symbolWords}"

def numberText (e : SystemError) : String :=
  s!"{e.words} (os error {e.number})"

end SystemError

/-- Why no text could be read from a path. -/
inductive ReadError
  | system (error : SystemError)
  | notUtf8
  deriving DecidableEq, Repr

def ReadError.message : ReadError → String
  | .system e => e.numberText
  | .notUtf8 => "stream did not contain valid UTF-8"

end SleepPolicy

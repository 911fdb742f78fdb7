/-! # Errors of the operating system -/

namespace ModuleInstall

/-- The numbered errors of the system. -/
inductive Errno where
  | notPermitted
  | noEntry
  | argumentListTooLong
  | execFormat
  /-- No answer at all: the call waits for somebody at the other end of a pipe. -/
  | wouldBlock
  | accessDenied
  | alreadyExists
  | notDirectory
  | isDirectory
  | invalidArgument
  | noSpace
  | nameTooLong
  | tooManyLinks
  deriving DecidableEq, Repr

namespace Errno

def number : Errno → Nat
  | notPermitted => 1
  | noEntry => 2
  | argumentListTooLong => 7
  | execFormat => 8
  | wouldBlock => 11
  | accessDenied => 13
  | alreadyExists => 17
  | notDirectory => 20
  | isDirectory => 21
  | invalidArgument => 22
  | noSpace => 28
  | nameTooLong => 36
  | tooManyLinks => 40

def words : Errno → String
  | notPermitted => "Operation not permitted"
  | noEntry => "No such file or directory"
  | argumentListTooLong => "Argument list too long"
  | execFormat => "Exec format error"
  | wouldBlock => "Resource temporarily unavailable"
  | accessDenied => "Permission denied"
  | alreadyExists => "File exists"
  | notDirectory => "Not a directory"
  | isDirectory => "Is a directory"
  | invalidArgument => "Invalid argument"
  | noSpace => "No space left on device"
  | nameTooLong => "File name too long"
  | tooManyLinks => "Too many levels of symbolic links"

def all : List Errno :=
  [notPermitted, noEntry, argumentListTooLong, execFormat, wouldBlock, accessDenied, alreadyExists,
    notDirectory, isDirectory, invalidArgument, noSpace, nameTooLong, tooManyLinks]

/-- The error of a given number. -/
def ofNumber? (n : Nat) : Option Errno := all.find? fun e => e.number == n

theorem ofNumber?_number (e : Errno) : ofNumber? e.number = some e := by cases e <;> rfl

end Errno

/-- The classes of errors that no call of the system has a number for. -/
inductive ErrorClass where
  | notFound
  | permissionDenied
  | alreadyExists
  | invalidInput
  | invalidData
  | isDirectory
  | notDirectory
  | unexpectedEnd
  | interrupted
  | other
  deriving DecidableEq, Repr

def ErrorClass.words : ErrorClass → String
  | notFound => "entity not found"
  | permissionDenied => "permission denied"
  | alreadyExists => "entity already exists"
  | invalidInput => "invalid input parameter"
  | invalidData => "invalid data"
  | isDirectory => "is a directory"
  | notDirectory => "not a directory"
  | unexpectedEnd => "unexpected end of file"
  | interrupted => "operation interrupted"
  | other => "other error"

/-- Why a call failed. -/
inductive SystemError where
  /-- The system refused it. -/
  | code (errno : Errno)
  /-- It failed before the system saw it, for a reason of a class alone. -/
  | plain (kind : ErrorClass)
  /-- It failed before the system saw it, for a reason in words. -/
  | worded (kind : ErrorClass) (words : String)
  deriving DecidableEq, Repr

namespace SystemError

def message : SystemError → String
  | code e => e.words ++ " (os error " ++ toString e.number ++ ")"
  | plain k => k.words
  | worded _ words => words

/-- A path that holds a NUL byte cannot be passed to the system. -/
def nulInPath : SystemError := .worded .invalidInput "file name contained an unexpected NUL byte"

/-- Nor can a program name or an argument that does. -/
def nulInArgument : SystemError := .worded .invalidInput "nul byte found in provided data"

/-- A path that ends in no name cannot be installed. -/
def noFileName : SystemError := .worded .invalidInput "path has no file name"

end SystemError

end ModuleInstall

/-!
# Faults of file access

How an operating system refuses to read or write a file: a number, the kind of refusal that the
number stands for, and a sentence.
-/

namespace WireBindings.Files

/-- Why a file cannot be read or written. -/
inductive Fault where
  /-- There is nothing at this path. -/
  | notFound
  /-- The path goes through something that is not a directory. -/
  | notADirectory
  /-- There is a directory at this path. -/
  | isADirectory
  /-- The access is not allowed. -/
  | permissionDenied
  /-- The path, or a name in it, is longer than paths and names may be. -/
  | nameTooLong
  /-- Any other refusal. -/
  | other (code : Nat) (message : String)
deriving DecidableEq, Repr

namespace Fault

/-- The number of the refusal. -/
def code : Fault → Nat
  | notFound => 2
  | notADirectory => 20
  | isADirectory => 21
  | permissionDenied => 13
  | nameTooLong => 36
  | other code _ => code

/-- The name of the kind of refusal. -/
def kind : Fault → String
  | notFound => "NotFound"
  | notADirectory => "NotADirectory"
  | isADirectory => "IsADirectory"
  | permissionDenied => "PermissionDenied"
  | nameTooLong => "InvalidFilename"
  | other _ _ => "Uncategorized"

/-- The sentence for the refusal. -/
def sentence : Fault → String
  | notFound => "No such file or directory"
  | notADirectory => "Not a directory"
  | isADirectory => "Is a directory"
  | permissionDenied => "Permission denied"
  | nameTooLong => "File name too long"
  | other _ message => message

/-- The refusal of that number. -/
def ofCode (code : Nat) (message : String) : Fault :=
  if code = 2 then notFound
  else if code = 20 then notADirectory
  else if code = 21 then isADirectory
  else if code = 13 then permissionDenied
  else if code = 36 then nameTooLong
  else other code message

/-- The fault in words. -/
def message (fault : Fault) : String :=
  fault.sentence ++ " (os error " ++ toString fault.code ++ ")"

end Fault

end WireBindings.Files

import LoudHeaders.Machine.SystemError
import LoudHeaders.Json.Fault

/-
  What can go wrong, by cause.

  `RunError` is one program run that gave no output, `ExtractError` one compile
  command without dependencies, and `Error` a cause that ends the whole run. The
  wording of a cause includes the wording of what is behind it; `Error.causes`
  lists these, the nearest first.
-/

namespace LoudHeaders

/-- Why a program gave no output. -/
inductive RunError where
  | emptyCommand
  | start (program : Text) (cause : StartFailure)
  | failed (program status stderr : Text)
  deriving DecidableEq, Repr

namespace RunError

/-- The wording of a run error. -/
def message : RunError → Text
  | .emptyCommand => "empty command line".toList
  | .start program cause =>
    "could not start ".toList ++ program ++ ": ".toList ++ cause.message
  | .failed program status stderr =>
    program ++ " exited with ".toList ++ status ++ ": ".toList ++ stderr

/-- What is behind a run error. -/
def causes : RunError → List Text
  | .start _ cause => [cause.message]
  | _ => []

end RunError

/-- Why a compile command has no dependencies. -/
inductive ExtractError where
  | fetch (file : Text) (cause : RunError)
  | noRule (file : Text)
  deriving DecidableEq, Repr

/-- The wording of an extract error. -/
def ExtractError.message : ExtractError → Text
  | .fetch file cause => "failed to fetch deps of ".toList ++ file ++ ": ".toList ++ cause.message
  | .noRule file =>
    "failed to parse deps of ".toList ++ file ++ ": no ':' in compiler output".toList

/-- Why a repository object could not be read. -/
inductive ObjectError where
  | missing (id : Text)
  deriving DecidableEq, Repr

/-- The wording of an object error. -/
def ObjectError.message : ObjectError → Text
  | .missing id =>
    "object not found - no match for id (".toList ++ id ++
      "); class=Odb (9); code=NotFound (-3)".toList

/-- A cause that ends the run. -/
inductive Error where
  | toolVersion (binary found required : Text)
  | resolver (targets : Text) (cause : RunError)
  | repository (directory reason : Text)
  | databaseRead (path : Text) (cause : ReadFailure)
  | databaseParse (path : Text) (cause : Json.Error)
  | history (cause : ObjectError)
  deriving DecidableEq, Repr

namespace Error

/-- The wording of an error. -/
def message : Error → Text
  | .toolVersion binary found required =>
    binary ++ " reports version ".toList ++ Text.quoted found ++ ", but at least ".toList ++
      required ++ " is required".toList
  | .resolver targets cause =>
    "failed to query build inputs of ".toList ++ targets ++ ": ".toList ++ cause.message
  | .repository directory reason =>
    "cannot use repository at ".toList ++ directory ++ ": ".toList ++ reason
  | .databaseRead path cause =>
    "failed to read compile database ".toList ++ path ++ ": ".toList ++ cause.message
  | .databaseParse path cause =>
    "malformed compile database ".toList ++ path ++ ": ".toList ++ cause.message
  | .history cause => "git error while walking history: ".toList ++ cause.message

/-- The wording of what is behind an error, the nearest cause first. -/
def causes : Error → List Text
  | .toolVersion _ _ _ => []
  | .resolver _ cause => cause.message :: cause.causes
  | .repository _ _ => []
  | .databaseRead _ cause => [cause.message]
  | .databaseParse _ cause => [cause.message]
  | .history cause => [cause.message]

end Error

/-- How a run can end without a result: with an error, because a date has no written
form, or because a score is too large for a word. -/
inductive Failure where
  | error (cause : Error)
  | unwritableDate
  | scoreTooLarge
  deriving DecidableEq, Repr

end LoudHeaders

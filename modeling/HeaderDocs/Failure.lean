import HeaderDocs.Text.Quoted

/-!
Everything that can go wrong, as causes, with the wording of each in one place. Causes that a user
can act on are reported and end the work at hand; the others end the program.
-/

namespace HeaderDocs

inductive Failure where
  | headerMissing (path : String)
  | headerUnreadable (path cause : String)
  | sourceEmpty (name : String)
  | packageToolMissing
  | packageUnknown (package output : String)
  | programMissing (program : String)
  | programFailed (code : Int)
  | notANumber (text : String)
  | pathMissing (path : String)
  | pathExists (path : String)
  | notADirectory (path : String)
  | isADirectory (path : String)
  | copyIncomplete
  | notUtf8
  | noPrototype
  | invalidPattern
  | unsupportedPattern
  | wrongType
  | missingKey
  | missingAttribute
deriving DecidableEq, Repr

namespace Failure

def systemMessage (number : Nat) (text path : String) : String :=
  "[Errno " ++ toString number ++ "] " ++ text ++ ": " ++ Text.quoted path

def shortQuoted (text : String) : String :=
  String.ofList ((Text.quote text.toList).take 200)

def message : Failure → String
  | headerMissing path => "Header not found: " ++ path
  | headerUnreadable path cause => "Failed to parse " ++ path ++ ": " ++ cause
  | sourceEmpty name =>
      "The `" ++ name ++ "` directory is empty, did you forget to pull the submodules? " ++
        "Try `git submodule update --init --recursive`"
  | packageToolMissing => "pkg-config not found, needed for system libraries"
  | packageUnknown package output => "pkg-config cannot find " ++ package ++ ": " ++ output
  | programMissing program => program ++ " failed to start. Do you have it installed?"
  | programFailed code => "Build error, exit code " ++ toString code
  | notANumber text => "invalid literal for int() with base 10: " ++ shortQuoted text
  | pathMissing path => systemMessage 2 "No such file or directory" path
  | pathExists path => systemMessage 17 "File exists" path
  | notADirectory path => systemMessage 20 "Not a directory" path
  | isADirectory path => systemMessage 21 "Is a directory" path
  | copyIncomplete => "some files could not be copied"
  | notUtf8 => "the file is not valid UTF-8"
  | noPrototype => "the function has no prototype"
  | invalidPattern => "the pattern is malformed"
  | unsupportedPattern => "the pattern is not of those read here"
  | wrongType => "a value has the wrong type"
  | missingKey => "a required key is missing"
  | missingAttribute => "a value lacks the operation asked of it"

/-- A failure that is reported to the user. -/
def isReported : Failure → Bool
  | headerMissing _ | headerUnreadable _ _ | sourceEmpty _ | packageToolMissing
  | packageUnknown _ _ | programMissing _ | programFailed _ => true
  | _ => false

end Failure

inductive Level where
  | debug
  | info
  | warning
  | error
deriving DecidableEq, Repr

def Level.name : Level → String
  | debug => "DEBUG"
  | info => "INFO"
  | warning => "WARNING"
  | error => "ERROR"

structure Notice where
  level : Level
  text : String
deriving DecidableEq, Repr

end HeaderDocs

/-!
# Failures

What can end the work before anything is written, and the message that says so.
-/

namespace ProseTypes

/-- Why nothing can be written. -/
inductive Failure where
  | noInput
  | badPattern (pattern : String)
  | unknownFormat (name : String)
  | unreadable (path : String)
  | outputMissing
  | inputUnreadable
  | outputDirectory (path : String)
  | directory (path : String)
  | unwritable (path : String)
deriving DecidableEq, Repr

def Failure.message : Failure → String
  | noInput => "no input documents"
  | badPattern pattern => "invalid glob pattern: " ++ pattern
  | unknownFormat name => "unknown format: " ++ name ++ ". Use typescript or json"
  | unreadable path => "failed to read " ++ path
  | outputMissing => "--output is required when files are given"
  | inputUnreadable => "failed to read stdin"
  | outputDirectory path => "failed to create output directory: " ++ path
  | directory path => "failed to create directory: " ++ path
  | unwritable path => "failed to write " ++ path

end ProseTypes

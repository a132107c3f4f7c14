import ExamPaper.File.Disk

/-!
# Errors of a configuration

Why a configuration cannot be had, and the texts that report it.
-/

namespace ExamPaper

/-- Why a configuration cannot be had. -/
inductive ConfigurationError where
  | missing (path : Path)
  | unreadable (path : Path) (cause : DiskError)
  /-- The text is no TOML document, or does not say what a configuration has to say. -/
  | malformed (path : Path)
  | badVersion (version : Nat)
  | notPositive (field : String)
  /-- A path that cannot be expanded. -/
  | noHome
  deriving DecidableEq, Repr

/-- The text of an error. -/
def ConfigurationError.message : ConfigurationError → String
  | missing path => "config file not found at " ++ path.text
  | unreadable path cause => "failed to read config file " ++ path.text ++ ": " ++ cause.message
  | malformed path => "failed to parse TOML in " ++ path.text ++ ": not a configuration"
  | badVersion version =>
    "version " ++ Nat.repr version ++ " is unsupported (expected 1)"
  | notPositive field => field ++ " must be positive"
  | noHome => "home directory not available to expand '~'"

end ExamPaper

import SymbolHistory.Text.Lines
import SymbolHistory.Text.Quoted

namespace SymbolHistory

inductive ReadFault where
  | missing
  | isDirectory
  | notDirectory
  | notText
  | tooLong
  | zeroInPath
  | zeroInArgument
  deriving DecidableEq, Repr

def ReadFault.message : ReadFault → String
  | missing => "No such file or directory (os error 2)"
  | isDirectory => "Is a directory (os error 21)"
  | notDirectory => "Not a directory (os error 20)"
  | notText => "stream did not contain valid UTF-8"
  | tooLong => "File name too long (os error 36)"
  | zeroInPath => "file name contained an unexpected NUL byte"
  | zeroInArgument => "nul byte found in provided data"

inductive QueryFault where
  | malformed
  | unknownElement (name : String)
  | unknownScope (name : String)
  deriving DecidableEq, Repr

def QueryFault.message : QueryFault → String
  | malformed => "malformed query"
  | unknownElement name => "unknown element " ++ Text.quoted name
  | unknownScope name => "unknown scope filter " ++ Text.quoted name

inductive ConfigFault where
  | malformed
  | badPattern (pattern : String)
  | tooDeepPattern
  | unknownLanguage (extension language : String)
  | toleranceOutOfRange (value : String)
  | inFile (path : String) (fault : ConfigFault)
  deriving DecidableEq, Repr

/-- Whether a configuration was read and its values refused. -/
def ConfigFault.isRefusedValue : ConfigFault → Bool
  | unknownLanguage .. | toleranceOutOfRange _ => true
  | inFile _ fault => fault.isRefusedValue
  | _ => false

def ConfigFault.message : ConfigFault → String
  | malformed => "malformed configuration"
  | badPattern pattern => "invalid excluded_paths pattern " ++ Text.quoted pattern
  | tooDeepPattern => "excluded_paths pattern nests too deeply"
  | unknownLanguage extension language =>
    "extension " ++ Text.quoted extension ++ " maps to unknown language " ++ Text.quoted language
  | toleranceOutOfRange value => "parse.error_tolerance must be within 0..1, got " ++ value
  | inFile path fault => path ++ ": invalid configuration: " ++ fault.message

inductive RepositoryFault where
  | notStarted (fault : ReadFault)
  | failed (arguments : List String) (complaint : String)
  | outside (path root : String)
  deriving DecidableEq, Repr

def RepositoryFault.message : RepositoryFault → String
  | notStarted fault => "failed to run git: " ++ fault.message
  | failed arguments complaint =>
    "git " ++ Text.joinWith " " arguments ++ " failed: " ++ complaint
  | outside path root => path ++ " is outside " ++ root

inductive Error where
  | unsupportedLanguage (path : String)
  | parse (path reason : String)
  | missingSnapshot (commit path : String)
  | extraction (path reason : String)
  | query (fault : QueryFault)
  | repository (fault : RepositoryFault)
  | config (fault : ConfigFault)
  | read (fault : ReadFault)
  /-- A failure of a command as a whole. -/
  | command (text : String)
  deriving DecidableEq, Repr

namespace Error

def message : Error → String
  | unsupportedLanguage path => "unsupported language: " ++ path
  | parse path reason => "failed to parse " ++ path ++ ": " ++ reason
  | missingSnapshot commit path => "no content for " ++ path ++ " at " ++ commit
  | extraction path reason => "extraction failed for " ++ path ++ ": " ++ reason
  | query fault => "invalid extraction query: " ++ fault.message
  | repository fault => "git error: " ++ fault.message
  | config fault => "invalid configuration: " ++ fault.message
  | read fault => "IO error: " ++ fault.message
  | command text => text

/-- Whether the error concerns a single snapshot, so that the others can still be used. -/
def isMissingSnapshot : Error → Bool
  | missingSnapshot .. => true
  | _ => false

end Error
end SymbolHistory

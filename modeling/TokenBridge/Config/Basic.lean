import TokenBridge.Genesis
import TokenBridge.Logging

namespace TokenBridge

inductive FileError where
  | notFound
  | isDirectory
  | notDirectory
  | nameTooLong
  | nullInName
  | denied
  | notText
deriving DecidableEq, Repr

def FileError.message : FileError → String
  | notFound => "No such file or directory (os error 2)"
  | isDirectory => "Is a directory (os error 21)"
  | notDirectory => "Not a directory (os error 20)"
  | nameTooLong => "File name too long (os error 36)"
  | nullInName => "file name contained an unexpected NUL byte"
  | denied => "Permission denied (os error 13)"
  | notText => "stream did not contain valid UTF-8"

structure Config where
  bridge : GenesisDraft
  logging : LogSettings
deriving DecidableEq

inductive ConfigError where
  | unreadable (path : String) (cause : FileError)
  | malformed
deriving DecidableEq, Repr

def ConfigError.messages : ConfigError → List String
  | unreadable path cause => [s!"failed to read {path}: {cause.message}", cause.message]
  | malformed => ["failed to parse config"]

end TokenBridge

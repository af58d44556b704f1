namespace TokenBridge

inductive LogLevel where
  | error
  | warn
  | info
  | debug
  | trace
deriving DecidableEq, Repr

def LogLevel.all : List LogLevel := [error, warn, info, debug, trace]

def LogLevel.name : LogLevel → String
  | error => "ERROR"
  | warn => "WARN"
  | info => "INFO"
  | debug => "DEBUG"
  | trace => "TRACE"

inductive Rotation where
  | minutely
  | hourly
  | daily
  | never
deriving DecidableEq, Repr

def Rotation.all : List Rotation := [minutely, hourly, daily, never]

def Rotation.name : Rotation → String
  | minutely => "minutely"
  | hourly => "hourly"
  | daily => "daily"
  | never => "never"

structure LogFile where
  directory : String
  filePrefix : String
  rotation : Rotation
  jsonFormat : Bool
deriving DecidableEq, Repr

structure Logger where
  service : String
  level : LogLevel
  jsonFormat : Bool
  file : Option LogFile
deriving DecidableEq, Repr

structure LogSettings where
  serviceLabel : Option String
  directory : Option String
  filePrefix : Option String
  jsonFormat : Option Bool
deriving DecidableEq, Repr

def LogSettings.none : LogSettings := ⟨.none, .none, .none, .none⟩

def labelled (base : String) : Option String → String
  | none => base
  | some label => s!"{base}%{label}"

def LogFile.new (directory filePrefix : String) : LogFile := ⟨directory, filePrefix, .daily, false⟩

namespace Logger

def new (service : String) : Logger := ⟨service, .info, false, none⟩

def default : Logger := new "(gantry)"

instance : Inhabited Logger := ⟨default⟩

/-- The file and the rest share one form. There is a file if there is a directory. -/
def ofSettings (base filePrefix : String) (level : LogLevel) (s : LogSettings) : Logger where
  service := labelled base s.serviceLabel
  level
  jsonFormat := s.jsonFormat.getD false
  file := s.directory.map fun directory ↦
    { LogFile.new directory (s.filePrefix.getD filePrefix) with
      jsonFormat := s.jsonFormat.getD false }

end Logger

end TokenBridge

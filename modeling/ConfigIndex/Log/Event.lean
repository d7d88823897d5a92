import ConfigIndex.Data.Value

/-!
What is logged: named events with a level and fields.
-/

namespace ConfigIndex

inductive Level
  | debug
  | info
  | warning
  | error
  | critical
deriving DecidableEq, Repr

namespace Level

def rank : Level → Nat
  | debug => 10
  | info => 20
  | warning => 30
  | error => 40
  | critical => 50

def name : Level → String
  | debug => "DEBUG"
  | info => "INFO"
  | warning => "WARNING"
  | error => "ERROR"
  | critical => "CRITICAL"

def label : Level → String
  | debug => "debug"
  | info => "info"
  | warning => "warning"
  | error => "error"
  | critical => "critical"

def all : List Level := [debug, info, warning, error, critical]

def ofName? (name : String) : Option Level := all.find? fun level => level.name == name

end Level

structure Event where
  level : Level
  name : String
  fields : Data.Fields := []

end ConfigIndex

namespace SeaChart

inductive Event where
  | warning (message : String)
  | error (message : String)
deriving DecidableEq, Repr

abbrev Log := List Event

def Event.message : Event → String
  | .warning message => message
  | .error message => message

end SeaChart

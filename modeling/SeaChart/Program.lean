import SeaChart.Generate

namespace SeaChart

inductive Answer where
  | nothing
  | help
  | version
deriving DecidableEq, Repr

structure Outcome where
  exitCode : Nat
  answer : Answer := .nothing
  shown : Log := []
  complaint : Option String := none
  store : Store

namespace Program

def shows (r : Request) (debug : Bool) : Bool :=
  debug || r.verbosity ≠ .off

def filterLog (isShown : Bool) (log : Log) : Log :=
  if isShown then log else []

def refuse (e : UsageError) (store : Store) : Outcome :=
  let answer :=
    match e with
    | .help => .help
    | .version => .version
    | _ => .nothing
  { exitCode := e.exitCode
    answer
    complaint := if e.isAnswer then none else some e.message
    store }

def answerTo : SettingsError → Answer
  | .unreadable .. => .help
  | .malformed => .help
  | _ => .nothing

def carryOut (r : Request) (s : Settings) (early : Log) (store : Store)
    (list : Store.Listing := Store.names) : Outcome :=
  let (result, progress) := Job.run (generate r s list) store
  let isShown := shows r s.debug
  let early := filterLog (shows r false) early
  match result with
  | .ok _ =>
    { exitCode := 0, shown := early ++ filterLog isShown progress.log, store := progress.store }
  | .error e =>
    { exitCode := 1
      shown := early ++ filterLog isShown (progress.log ++ [.error e.message])
      complaint := some e.message
      store := progress.store }

def run (usualResources : String) (arguments : List String) (store : Store)
    (list : Store.Listing := Store.names) : Outcome :=
  match CommandLine.read usualResources arguments with
  | .error e => refuse e store
  | .ok r =>
    let (settings, log) := Settings.load store ⟨r.settingsFile⟩ ⟨r.resources⟩
    match settings with
    | .ok s => carryOut r s log store list
    | .error e =>
      { exitCode := e.exitCode
        answer := answerTo e
        shown := filterLog (shows r false) log
        complaint := some e.message
        store }

end Program

end SeaChart

import SeaChart.Toml.Scalar

namespace SeaChart.Toml

def readElements (element : Reader Value) (fuel : Nat) : Reader (List Value) := fun cs =>
  match fuel with
  | 0 => none
  | fuel + 1 =>
    match skipFiller cs with
    | ']' :: rest => some ([], rest)
    | cs => do
      let (v, rest) ← element cs
      match skipFiller rest with
      | ']' :: rest => return ([v], rest)
      | ',' :: rest =>
        let (vs, rest) ← readElements element fuel rest
        return (v :: vs, rest)
      | _ => none

def readPair (value : Reader Value) : Reader ((List String × String) × Value) := fun cs => do
  let (key, rest) ← readKey cs
  let (v, rest) ← value (skipBlanks (← afterChar? '=' rest))
  return ((key, v), rest)

def readPairs (value : Reader Value) (fuel : Nat) :
    Reader (List ((List String × String) × Value)) :=
  fun cs =>
  match fuel with
  | 0 => none
  | fuel + 1 => do
    let (pair, rest) ← readPair value cs
    match skipBlanks rest with
    | '}' :: rest => return ([pair], rest)
    | ',' :: rest =>
      let (pairs, rest) ← readPairs value fuel rest
      return (pair :: pairs, rest)
    | _ => none

def tableOfPairs (pairs : List ((List String × String) × Value)) : Option Value :=
  let add (t : Table) (pair : (List String × String) × Value) : Option Table :=
    t.addValue pair.1.1 pair.1.2 pair.2
  (pairs.foldlM add ⟨.header, []⟩).map fun t => .table (entriesToValues t.entries)

def readValue (depth : Nat) : Reader Value := fun cs =>
  match depth, cs with
  | 0, _ => none
  | depth + 1, '[' :: rest =>
    if depth = 0 then none
    else (readElements (readValue depth) (cs.length + 1) rest).map fun (vs, r) => (.array vs, r)
  | depth + 1, '\x7b' :: rest =>
    if depth = 0 then none
    else
      match skipBlanks rest with
      | '\x7d' :: rest => some (.table [], rest)
      | rest => do
        let (pairs, rest) ← readPairs (readValue depth) (cs.length + 1) rest
        return (← tableOfPairs pairs, rest)
  | _, '"' :: rest => (readStringOf basic rest).map fun (s, r) => (.string s, r)
  | _, '\'' :: rest => (readStringOf literal rest).map fun (s, r) => (.string s, r)
  | _, 't' :: 'r' :: 'u' :: 'e' :: rest => some (.boolean true, rest)
  | _, 'f' :: 'a' :: 'l' :: 's' :: 'e' :: rest => some (.boolean false, rest)
  | _, cs => readNumber cs

structure Draft where
  root : Table
  header : List String

def Draft.addHeader (d : Draft) (cs : List Char) : Option (Draft × List Char) :=
  match cs with
  | '[' :: rest => do
    let ((path, key), rest) ← readKey rest
    let rest ← endLine? (← afterChar? ']' (← afterChar? ']' rest))
    return (⟨← d.root.beginElement path key, path ++ [key]⟩, rest)
  | cs => do
    let ((path, key), rest) ← readKey cs
    let rest ← endLine? (← afterChar? ']' rest)
    return (⟨← d.root.begin path key, path ++ [key]⟩, rest)

def Draft.addPair (d : Draft) (cs : List Char) : Option (Draft × List Char) := do
  let (((path, key), v), rest) ← readPair (readValue depthLimit) cs
  let rest ← endLine? rest
  let root ← Table.update false (·.addValue path key v) d.header d.root
  return ({ d with root }, rest)

def Draft.read (d : Draft) (fuel : Nat) (cs : List Char) : Option Draft :=
  match fuel with
  | 0 => none
  | fuel + 1 =>
    match skipBlanks cs with
    | [] => some d
    | '#' :: rest => (endLine? ('#' :: rest)).bind (d.read fuel)
    | '[' :: rest => (d.addHeader rest).bind fun (d, rest) => d.read fuel rest
    | cs =>
      match afterBreak? cs with
      | some rest => d.read fuel rest
      | none => (d.addPair cs).bind fun (d, rest) => d.read fuel rest

def readDocument (text : String) : Option (List (String × Value)) :=
  let cs := text.toList
  let cs := if cs.head? = some '\uFEFF' then cs.drop 1 else cs
  let draft : Draft := ⟨⟨.header, []⟩, []⟩
  (draft.read (cs.length + 1) cs).map fun d => entriesToValues d.root.entries

end SeaChart.Toml

/-!
Dictionaries whose entries stand in increasing order of their keys. Text is ordered by code points,
which is also the order of its UTF-8 bytes.
-/

namespace SeaChart

structure Dictionary (α : Type) where
  entries : List (String × α)
deriving Repr

namespace Dictionary

variable {α : Type}

def empty : Dictionary α := ⟨[]⟩

instance : Inhabited (Dictionary α) := ⟨empty⟩

def keys (d : Dictionary α) : List String :=
  d.entries.map Prod.fst

def values (d : Dictionary α) : List α :=
  d.entries.map Prod.snd

def find? (d : Dictionary α) (key : String) : Option α :=
  d.entries.lookup key

def contains (d : Dictionary α) (key : String) : Bool :=
  (d.find? key).isSome

def insertEntry (key : String) (value : α) : List (String × α) → List (String × α)
  | [] => [(key, value)]
  | (k, v) :: rest =>
    if key < k then (key, value) :: (k, v) :: rest
    else if key = k then (key, value) :: rest
    else (k, v) :: insertEntry key value rest

def insert (d : Dictionary α) (key : String) (value : α) : Dictionary α :=
  ⟨insertEntry key value d.entries⟩

def ofList (entries : List (String × α)) : Dictionary α :=
  entries.foldl (fun d (key, value) => d.insert key value) empty

def Sorted (d : Dictionary α) : Prop :=
  d.keys.Pairwise (· < ·)

theorem find?_insert_self (d : Dictionary α) (key : String) (value : α) :
    (d.insert key value).find? key = some value := by
  obtain ⟨es⟩ := d
  simp only [find?, insert]
  induction es with
  | nil => simp [insertEntry]
  | cons e es ih =>
    obtain ⟨k, v⟩ := e
    simp only [insertEntry]
    split
    · simp
    · split
      · simp
      · next hne =>
        have : (key == k) = false := by simpa using hne
        simp [List.lookup_cons, this, ih]

theorem find?_insert_of_ne (d : Dictionary α) {key other : String} (value : α)
    (h : other ≠ key) : (d.insert key value).find? other = d.find? other := by
  obtain ⟨es⟩ := d
  have hb : (other == key) = false := by simpa using h
  simp only [find?, insert]
  induction es with
  | nil => simp [insertEntry, List.lookup_cons, hb]
  | cons e es ih =>
    obtain ⟨k, v⟩ := e
    simp only [insertEntry]
    split
    · simp [List.lookup_cons, hb]
    · split
      · next he => subst he; simp [List.lookup_cons, hb]
      · simp [List.lookup_cons, ih]

end Dictionary

def distinctNames (names : List String) : List String :=
  (Dictionary.ofList (names.map fun n => (n, ()))).keys

end SeaChart

/-!
# Dictionaries

Values under text keys, in the order in which the keys were first inserted.
Inserting a key again replaces its value and keeps its place.
-/

namespace FlowConfig

structure Dictionary (A : Type) where
  entries : List (String × A)
deriving DecidableEq, Repr

namespace Dictionary

variable {A : Type}

def empty : Dictionary A := ⟨[]⟩

def insertEntry (key : String) (value : A) : List (String × A) -> List (String × A)
  | [] => [(key, value)]
  | entry :: rest =>
      if entry.1 = key then (key, value) :: rest
      else entry :: insertEntry key value rest

def insert (d : Dictionary A) (key : String) (value : A) : Dictionary A :=
  ⟨insertEntry key value d.entries⟩

def get? (d : Dictionary A) (key : String) : Option A :=
  d.entries.lookup key

def keys (d : Dictionary A) : List String :=
  d.entries.map Prod.fst

def ofList (entries : List (String × A)) : Dictionary A :=
  entries.foldl (fun d entry => d.insert entry.1 entry.2) empty

theorem lookup_insertEntry (key other : String) (value : A) (entries : List (String × A)) :
    (insertEntry key value entries).lookup other =
      if other = key then some value else entries.lookup other := by
  induction entries with
  | nil =>
      by_cases h : other = key
      · simp [insertEntry, h]
      · have hbeq : (other == key) = false := by simpa using h
        simp [insertEntry, List.lookup_cons, h, hbeq]
  | cons entry rest ih =>
      obtain ⟨first, old⟩ := entry
      by_cases hkey : first = key
      · by_cases h : other = key
        · simp [insertEntry, hkey, h]
        · have hbeq : (other == key) = false := by simpa using h
          simp [insertEntry, List.lookup_cons, hkey, h, hbeq]
      · simp only [insertEntry, hkey, if_false, List.lookup_cons]
        by_cases hother : other = first
        · simp [hother, hkey]
        · have hbeq : (other == first) = false := by simpa using hother
          simp [hbeq, ih]

@[simp] theorem get?_insert (d : Dictionary A) (key other : String) (value : A) :
    (d.insert key value).get? other = if other = key then some value else d.get? other :=
  lookup_insertEntry key other value d.entries

theorem map_fst_insertEntry (key : String) (value : A) (entries : List (String × A)) :
    (insertEntry key value entries).map Prod.fst =
      if key ∈ entries.map Prod.fst then entries.map Prod.fst
      else entries.map Prod.fst ++ [key] := by
  induction entries with
  | nil => simp [insertEntry]
  | cons entry rest ih =>
      by_cases hkey : entry.1 = key
      · simp [insertEntry, hkey]
      · have hne : ¬ key = entry.1 := fun h => hkey h.symm
        simp only [insertEntry, hkey, if_false, List.map_cons, ih, List.mem_cons, hne, false_or]
        split <;> simp

theorem keys_insert (d : Dictionary A) (key : String) (value : A) :
    (d.insert key value).keys = if key ∈ d.keys then d.keys else d.keys ++ [key] :=
  map_fst_insertEntry key value d.entries

end Dictionary
end FlowConfig

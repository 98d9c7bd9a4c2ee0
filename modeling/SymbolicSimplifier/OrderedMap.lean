set_option autoImplicit false

namespace SymbolicSimplifier

structure OrderedMap (α : Type) where
  entries : List (String × α)

namespace OrderedMap

variable {α : Type}

def empty : OrderedMap α :=
  ⟨[]⟩

def insertEntry (key : String) (value : α) : List (String × α) → List (String × α)
  | [] => [(key, value)]
  | (key', value') :: rest =>
    if key' = key then (key, value) :: rest else (key', value') :: insertEntry key value rest

def findIn? (key : String) : List (String × α) → Option α
  | [] => none
  | (key', value) :: rest => if key' = key then some value else findIn? key rest

def insert (map : OrderedMap α) (key : String) (value : α) : OrderedMap α :=
  ⟨insertEntry key value map.entries⟩

def find? (map : OrderedMap α) (key : String) : Option α :=
  findIn? key map.entries

def contains (map : OrderedMap α) (key : String) : Bool :=
  (map.find? key).isSome

def ofList (entries : List (String × α)) : OrderedMap α :=
  entries.foldl (fun map entry => map.insert entry.1 entry.2) empty

def union (first second : OrderedMap α) : OrderedMap α :=
  second.entries.foldl (fun map entry => map.insert entry.1 entry.2) first

def keys (map : OrderedMap α) : List String :=
  map.entries.map (·.1)

def values (map : OrderedMap α) : List α :=
  map.entries.map (·.2)

def size (map : OrderedMap α) : Nat :=
  map.entries.length

def sortedKeys (map : OrderedMap α) : List String :=
  map.keys.mergeSort (fun a b => !decide (b < a))

def increment (counts : OrderedMap Nat) (key : String) : OrderedMap Nat :=
  counts.insert key ((counts.find? key).getD 0 + 1)

def tally (keys : List String) : OrderedMap Nat :=
  keys.foldl increment empty

theorem findIn?_insertEntry (key key' : String) (value : α) (entries : List (String × α)) :
    findIn? key' (insertEntry key value entries) =
      if key = key' then some value else findIn? key' entries := by
  induction entries with
  | nil => simp [insertEntry, findIn?]
  | cons entry rest ih => grind [insertEntry, findIn?]

theorem find?_insert (map : OrderedMap α) (key key' : String) (value : α) :
    (map.insert key value).find? key' = if key = key' then some value else map.find? key' :=
  findIn?_insertEntry key key' value map.entries

theorem find?_empty (key : String) : (empty : OrderedMap α).find? key = none :=
  rfl

theorem findIn?_eq_none_iff (key : String) (entries : List (String × α)) :
    findIn? key entries = none ↔ key ∉ entries.map (·.1) := by
  induction entries with
  | nil => simp [findIn?]
  | cons entry rest ih => grind [findIn?]

theorem find?_eq_none_iff (map : OrderedMap α) (key : String) :
    map.find? key = none ↔ key ∉ map.keys :=
  findIn?_eq_none_iff key map.entries

theorem insertEntry_eq_append {key : String} (value : α) {entries : List (String × α)}
    (fresh : key ∉ entries.map (·.1)) :
    insertEntry key value entries = entries ++ [(key, value)] := by
  induction entries with
  | nil => rfl
  | cons entry rest ih => grind [insertEntry]

end OrderedMap

end SymbolicSimplifier

/-!
Ordered tables: entries under distinct string keys, kept in the order in which the keys first came
in. Writing to a present key keeps its place; a new key goes last. The operations on bare entry
lists stand first, since documents in transit hold entries without the promise of distinct keys.
-/
namespace GraphWorkbench

universe u
variable {α : Type u}

namespace Entries

/-- The value of the first entry under a key. -/
def get? (key : String) : List (String × α) → Option α
  | [] => none
  | (k, v) :: rest => if k = key then some v else get? key rest

def keys (entries : List (String × α)) : List String := entries.map Prod.fst

def has (key : String) (entries : List (String × α)) : Bool := (get? key entries).isSome

/-- Writes a value under a key, in the key's place if it has one and last otherwise. -/
def put (key : String) (value : α) : List (String × α) → List (String × α)
  | [] => [(key, value)]
  | (k, v) :: rest => if k = key then (k, value) :: rest else (k, v) :: put key value rest

/-- Removes every entry under a key. -/
def erase (key : String) (entries : List (String × α)) : List (String × α) :=
  entries.filter fun e => e.1 ≠ key

/-- Writes a value under a key that has none yet. -/
def putNew (key : String) (value : α) (entries : List (String × α)) : List (String × α) :=
  if has key entries then entries else entries ++ [(key, value)]

/-- Writes the entries of the second list, one by one, over the first. -/
def merge (under upper : List (String × α)) : List (String × α) :=
  upper.foldl (fun acc e => put e.1 e.2 acc) under

theorem get?_put (key other : String) (value : α) (entries : List (String × α)) :
    get? other (put key value entries) = if other = key then some value else get? other entries := by
  induction entries with
  | nil => simp only [put, get?]; split <;> split <;> simp_all
  | cons e rest ih =>
    obtain ⟨k, v⟩ := e
    by_cases hk : k = key <;> by_cases ho : k = other <;> simp_all [put, get?]
    · intro h; exact absurd h.symm ho

theorem get?_isSome_iff (key : String) (entries : List (String × α)) :
    (get? key entries).isSome = true ↔ key ∈ keys entries := by
  induction entries with
  | nil => simp [get?, keys]
  | cons e rest ih =>
    obtain ⟨k, v⟩ := e
    by_cases hk : k = key
    · simp [get?, keys, hk]
    · simp only [get?, hk, if_false, ih, keys, List.map_cons, List.mem_cons]
      constructor
      · exact Or.inr
      · rintro (h | h)
        · exact absurd h.symm hk
        · exact h

theorem keys_put (key : String) (value : α) (entries : List (String × α)) :
    keys (put key value entries) =
      if key ∈ keys entries then keys entries else keys entries ++ [key] := by
  induction entries with
  | nil => simp [put, keys]
  | cons e rest ih =>
    obtain ⟨k, v⟩ := e
    by_cases hk : k = key
    · simp [put, keys, hk]
    · have hk' : ¬ key = k := fun h => hk h.symm
      simp only [keys] at ih
      simp only [put, hk, if_false, keys, List.map_cons, ih, List.mem_cons, hk', false_or]
      split <;> simp_all

theorem nodup_keys_put (key : String) (value : α) {entries : List (String × α)}
    (h : (keys entries).Nodup) : (keys (put key value entries)).Nodup := by
  rw [keys_put]
  split
  · exact h
  · rename_i hn
    rw [List.nodup_append]
    refine ⟨h, by simp, ?_⟩
    intro a ha b hb
    simp only [List.mem_singleton] at hb
    rintro rfl
    exact hn (hb ▸ ha)

theorem nodup_keys_merge {under : List (String × α)} (upper : List (String × α))
    (h : (keys under).Nodup) : (keys (merge under upper)).Nodup := by
  unfold merge
  induction upper generalizing under with
  | nil => exact h
  | cons e rest ih => exact ih (nodup_keys_put e.1 e.2 h)

theorem nodup_keys_erase (key : String) {entries : List (String × α)}
    (h : (keys entries).Nodup) : (keys (erase key entries)).Nodup :=
  List.Nodup.sublist (List.Sublist.map Prod.fst List.filter_sublist) h

end Entries

/-- Entries under distinct keys, in order. -/
structure Table (α : Type u) where
  entries : List (String × α)
  nodup : (Entries.keys entries).Nodup

namespace Table

@[ext] theorem ext {s t : Table α} (h : s.entries = t.entries) : s = t := by
  cases s; cases t; cases h; rfl

instance [DecidableEq α] : DecidableEq (Table α) := fun s t =>
  decidable_of_iff (s.entries = t.entries) ⟨ext, fun h => h ▸ rfl⟩

def empty : Table α := ⟨[], List.nodup_nil⟩

instance : Inhabited (Table α) := ⟨empty⟩

def get? (t : Table α) (key : String) : Option α := Entries.get? key t.entries

def has (t : Table α) (key : String) : Bool := Entries.has key t.entries

def size (t : Table α) : Nat := t.entries.length

def isEmpty (t : Table α) : Bool := t.entries.isEmpty

def keys (t : Table α) : List String := Entries.keys t.entries

def values (t : Table α) : List α := t.entries.map Prod.snd

/-- Writes a value under a key, in the key's place if it has one and last otherwise. -/
def put (t : Table α) (key : String) (value : α) : Table α :=
  ⟨Entries.put key value t.entries, Entries.nodup_keys_put key value t.nodup⟩

def erase (t : Table α) (key : String) : Table α :=
  ⟨Entries.erase key t.entries, Entries.nodup_keys_erase key t.nodup⟩

/-- The entries of the second table written over the first. -/
def merge (under upper : Table α) : Table α :=
  ⟨Entries.merge under.entries upper.entries, Entries.nodup_keys_merge upper.entries under.nodup⟩

/-- The table of a list of entries: a repeated key keeps its first place and its last value. -/
def ofEntries (entries : List (String × α)) : Table α :=
  ⟨Entries.merge [] entries, Entries.nodup_keys_merge entries List.nodup_nil⟩

/-- The place in a list of `size` entries that an index names: a negative one counts from the end,
and one below the start names the start. -/
def place (size : Nat) (index : Int) : Nat :=
  if index < 0 then (index + size).toNat else index.toNat

/-- Puts a new entry at a place; from the table's size on that is the end. -/
def insertAt (t : Table α) (index : Int) (key : String) (value : α) : Table α :=
  if (t.size : Int) ≤ index then t.put key value
  else
    let i := place t.size index
    ofEntries (t.entries.take i ++ (key, value) :: t.entries.drop i)

/-- The place of a key in the order of the table. -/
def indexOf? (t : Table α) (key : String) : Option Nat := t.keys.findIdx? (· == key)

/-- The same entries with each value changed. -/
def mapValues {β : Type u} (f : α → β) (t : Table α) : Table β :=
  ⟨t.entries.map fun e => (e.1, f e.2), by
    have h : Entries.keys (t.entries.map fun e => (e.1, f e.2)) = Entries.keys t.entries := by
      simp [Entries.keys, Function.comp_def]
    exact h ▸ t.nodup⟩

/-- Whether two tables have the same keys, with related values under them; order does not count. -/
def sameBy {β : Type u} (rel : α → β → Bool) (s : Table α) (t : Table β) : Bool :=
  s.size == t.size && s.entries.all fun e => match t.get? e.1 with
    | some b => rel e.2 b
    | none => false

@[simp] theorem get?_put (t : Table α) (key other : String) (value : α) :
    (t.put key value).get? other = if other = key then some value else t.get? other :=
  Entries.get?_put key other value t.entries

theorem has_iff_mem_keys (t : Table α) (key : String) : t.has key = true ↔ key ∈ t.keys :=
  Entries.get?_isSome_iff key t.entries

end Table

end GraphWorkbench

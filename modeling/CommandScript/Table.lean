/-!
# Ordered tables

A table maps names to things and remembers in which order the names came in. Giving a name a new
thing keeps its place; a name that was erased and comes again goes to the end. Frames of
variables, hashes, command registries and application data are all tables.

## Main definitions

* `Table` — the entries in order, no name twice.
* `Table.find?`, `Table.insert`, `Table.erase`, `Table.keys`, `Table.values`.
* `Table.ofPairs` — a table filled entry by entry.
* `Table.withValues` — the same names with other things.

## Main results

* `Table.keys_insert`, `Table.keys_erase` — what the operations do to the order of names.
* `Table.find?_insert`, `Table.find?_erase` — what they do to look-ups.
-/

set_option autoImplicit false

namespace CommandScript

universe u v

/-- Entries in order of insertion, no name twice. -/
structure Table (α : Type u) where
  /-- The entries in order. -/
  entries : List (String × α)
  /-- No name occurs twice. -/
  nodup_names : (entries.map Prod.fst).Nodup

namespace Table

variable {α : Type u} {β : Type v}

/-- The table with no entries. -/
def empty : Table α :=
  ⟨[], List.nodup_nil⟩

instance : Inhabited (Table α) :=
  ⟨empty⟩

/-- The names in order. -/
def keys (t : Table α) : List String :=
  t.entries.map Prod.fst

/-- The things in order of their names. -/
def values (t : Table α) : List α :=
  t.entries.map Prod.snd

/-- The number of entries. -/
def size (t : Table α) : Nat :=
  t.entries.length

/-- What a name stands for. -/
def find? (t : Table α) (name : String) : Option α :=
  t.entries.lookup name

/-- Whether the table has the name. -/
def contains (t : Table α) (name : String) : Bool :=
  (t.find? name).isSome

/-- Puts an entry in the place of the one with the same name, or at the end. -/
def insertEntry (name : String) (a : α) : List (String × α) → List (String × α)
  | [] => [(name, a)]
  | e :: rest => if e.1 = name then (name, a) :: rest else e :: insertEntry name a rest

/-- An entry keeps its place, and a new one comes last. -/
theorem map_fst_insertEntry (name : String) (a : α) (es : List (String × α)) :
    (insertEntry name a es).map Prod.fst =
      if name ∈ es.map Prod.fst then es.map Prod.fst else es.map Prod.fst ++ [name] := by
  induction es with
  | nil => simp [insertEntry]
  | cons e rest ih =>
    by_cases h : e.1 = name
    · simp [insertEntry, h]
    · have h' : ¬ name = e.1 := fun he => h he.symm
      by_cases hm : name ∈ rest.map Prod.fst <;> simp_all [insertEntry]

/-- No name comes twice, so none does after an insertion. -/
theorem nodup_insertEntry (name : String) (a : α) {es : List (String × α)}
    (h : (es.map Prod.fst).Nodup) : ((insertEntry name a es).map Prod.fst).Nodup := by
  rw [map_fst_insertEntry]
  split
  · exact h
  · next hm =>
    rw [List.nodup_append]
    refine ⟨h, by simp, ?_⟩
    intro x hx y hy hxy
    rw [List.mem_singleton] at hy
    exact hm (by rw [← hy, ← hxy]; exact hx)

/-- Binds a name. A name that is there keeps its place, a new one comes last. -/
def insert (t : Table α) (name : String) (a : α) : Table α :=
  ⟨insertEntry name a t.entries, nodup_insertEntry name a t.nodup_names⟩

/-- Binds a name only if it is not there. -/
def insertIfNew (t : Table α) (name : String) (a : α) : Table α :=
  if t.contains name then t else t.insert name a

/-- Removes a name; the others keep their order. -/
def erase (t : Table α) (name : String) : Table α :=
  ⟨t.entries.filter (fun e => e.1 != name),
    t.nodup_names.sublist (List.filter_sublist.map Prod.fst)⟩

/-- Inserts the pairs one after another. -/
def insertAll (t : Table α) (pairs : List (String × α)) : Table α :=
  pairs.foldl (fun t p => t.insert p.1 p.2) t

/-- The table filled with the pairs one after another. -/
def ofPairs (pairs : List (String × α)) : Table α :=
  empty.insertAll pairs

/-- The names of what has been put together are among the names that were given, in their order. -/
theorem map_fst_zip_sublist (names : List String) (things : List β) :
    ((names.zip things).map Prod.fst).Sublist names := by
  induction names generalizing things with
  | nil => simp
  | cons n rest ih =>
    cases things with
    | nil => simp
    | cons b bs => simpa using (ih bs).cons_cons n

/-- The same names with other things, given in order. -/
def withValues (t : Table α) (things : List β) : Table β :=
  ⟨t.keys.zip things, t.nodup_names.sublist (map_fst_zip_sublist _ _)⟩

/-! ## What the operations do to names and look-ups -/

/-- The empty table has no names. -/
@[simp] theorem keys_empty : (empty : Table α).keys = [] := rfl

/-- Nothing is found in it. -/
@[simp] theorem find?_empty (name : String) : (empty : Table α).find? name = none := rfl

/-- No name comes twice. -/
theorem nodup_keys (t : Table α) : t.keys.Nodup :=
  t.nodup_names

/-- A name keeps its place, and a new one comes last. -/
theorem keys_insert (t : Table α) (name : String) (a : α) :
    (t.insert name a).keys = if name ∈ t.keys then t.keys else t.keys ++ [name] :=
  map_fst_insertEntry name a t.entries

/-- The other names keep their places. -/
theorem keys_erase (t : Table α) (name : String) :
    (t.erase name).keys = t.keys.filter (fun k => k != name) := by
  simp only [keys, erase, List.filter_map]
  rfl

/-- The entry is what is found under its name. -/
theorem lookup_insertEntry (name other : String) (a : α) (es : List (String × α)) :
    (insertEntry name a es).lookup other = if other = name then some a else es.lookup other := by
  induction es with
  | nil =>
    by_cases h : other = name
    · simp [insertEntry, h]
    · have hb : (other == name) = false := by simpa using h
      simp [insertEntry, List.lookup_cons, h, hb]
  | cons e rest ih =>
    obtain ⟨k, b⟩ := e
    by_cases hk : k = name
    · subst hk
      by_cases h : other = k
      · simp [insertEntry, h]
      · have hb : (other == k) = false := by simpa using h
        simp [insertEntry, List.lookup_cons, h, hb]
    · simp only [insertEntry, hk, if_false, List.lookup_cons]
      by_cases h : other = k
      · subst h
        simp [hk]
      · have hb : (other == k) = false := by simpa using h
        simp [hb, ih]

/-- What was inserted is found under its name, and nothing else changes. -/
theorem find?_insert (t : Table α) (name other : String) (a : α) :
    (t.insert name a).find? other = if other = name then some a else t.find? other :=
  lookup_insertEntry name other a t.entries

/-- What was erased is no longer found, and nothing else changes. -/
theorem find?_erase (t : Table α) (name other : String) :
    (t.erase name).find? other = if other = name then none else t.find? other := by
  simp only [find?, erase]
  induction t.entries with
  | nil => by_cases h : other = name <;> simp [h]
  | cons e rest ih =>
    obtain ⟨k, b⟩ := e
    by_cases hk : k = name
    · subst hk
      rw [List.filter_cons_of_neg (by simp), ih, List.lookup_cons]
      by_cases h : other = k
      · simp [h]
      · have hb : (other == k) = false := by simpa using h
        simp [h, hb]
    · rw [List.filter_cons_of_pos (by simpa using hk), List.lookup_cons, List.lookup_cons, ih]
      by_cases h : other = k
      · subst h
        simp [hk]
      · have hb : (other == k) = false := by simpa using h
        simp [hb]

end Table

end CommandScript

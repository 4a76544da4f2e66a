import CommandScript.Table
import Mathlib.Data.List.Basic
import Mathlib.Tactic.Lemma

/-!
# What is in a table

What is found in a table is one of its things, and the operations on tables bring in no others than
they are given.

## Main results

* `Table.mem_values_of_find?` — what is found is there.
* `Table.mem_values_insert`, `Table.mem_values_erase`, `Table.mem_values_withValues` — what is there
  after an operation.
* `Table.mem_keys_iff` — the names are those that stand for something.
* `Table.insert_of_find?` — binding a name to what it stands for changes nothing.
-/

set_option autoImplicit false

namespace CommandScript

namespace Table

variable {α β : Type} {t : Table α} {name : String}

/-- What is found in a table is among its values. -/
lemma mem_values_of_find? {a : α} (h : t.find? name = some a) : a ∈ t.values := by
  unfold find? at h
  unfold values
  generalize t.entries = es at h ⊢
  induction es with
  | nil => cases h
  | cons e es ih =>
    rw [List.lookup_cons] at h
    cases hname : name == e.1 with
    | true =>
      rw [hname] at h
      exact List.mem_cons.2 (.inl (Option.some.inj h).symm)
    | false =>
      rw [hname] at h
      exact List.mem_cons_of_mem _ (ih h)

/-- An insertion brings in no value but the one inserted. -/
lemma mem_values_insert {a b : α} (h : a ∈ (t.insert name b).values) : a = b ∨ a ∈ t.values := by
  unfold values at h ⊢
  change a ∈ (insertEntry name b t.entries).map Prod.snd at h
  generalize t.entries = es at h ⊢
  induction es with
  | nil => exact .inl (List.mem_singleton.1 h)
  | cons e es ih =>
    unfold insertEntry at h
    split at h
    · obtain hb | hes := List.mem_cons.1 h
      · exact .inl hb
      · exact .inr (List.mem_cons_of_mem _ hes)
    · obtain he | hes := List.mem_cons.1 h
      · exact .inr (List.mem_cons.2 (.inl he))
      · exact (ih hes).imp_right (List.mem_cons_of_mem _)

/-- What is left after an erasure was there before. -/
lemma mem_values_erase {a : α} (h : a ∈ (t.erase name).values) : a ∈ t.values := by
  obtain ⟨e, he, rfl⟩ := List.mem_map.1 h
  exact List.mem_map_of_mem (List.mem_of_mem_filter he)

/-- The values of a table are among those it has been given. -/
lemma mem_values_withValues {things : List β} {b : β} (h : b ∈ (t.withValues things).values) :
    b ∈ things := by
  obtain ⟨⟨key, thing⟩, he, rfl⟩ := List.mem_map.1 h
  exact (List.of_mem_zip he).2

/-- A name is listed exactly if it stands for something. -/
lemma mem_keys_iff : name ∈ t.keys ↔ t.find? name ≠ none := by
  unfold keys find?
  rw [Ne, List.lookup_eq_none_iff, List.mem_map]
  push Not
  constructor
  · rintro ⟨e, he, rfl⟩
    exact ⟨e, he, by simp⟩
  · rintro ⟨e, he, hname⟩
    exact ⟨e, he, (by simpa using hname : name = e.1).symm⟩

/-- To insert what is there already changes nothing. -/
lemma insertEntry_of_lookup {a : α} {es : List (String × α)} (h : es.lookup name = some a) :
    insertEntry name a es = es := by
  induction es with
  | nil => cases h
  | cons e es ih =>
    obtain ⟨key, b⟩ := e
    rw [List.lookup_cons] at h
    unfold insertEntry
    by_cases hkey : key = name
    · subst hkey
      rw [beq_self_eq_true] at h
      rw [if_pos rfl, ← Option.some.inj h]
    · have hne : (name == key) = false := by simpa using fun he => hkey he.symm
      rw [hne] at h
      rw [if_neg hkey, ih h]

/-- Binding a name to what it stands for already changes nothing. -/
lemma insert_of_find? {a : α} (h : t.find? name = some a) : t.insert name a = t := by
  obtain ⟨es, hes⟩ := t
  unfold insert
  congr 1
  exact insertEntry_of_lookup h

end Table

end CommandScript

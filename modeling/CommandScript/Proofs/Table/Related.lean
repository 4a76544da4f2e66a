import CommandScript.Proofs.ListText.RoundTrip
import CommandScript.HashText
import Mathlib.Data.List.Forall2

/-!
# Related tables

Two tables are related if they have the same names in the same order and related things under each.
What is done to both of them alike keeps them related.

A table is also determined by its names and things, which gives that a hash can be read back from
its text.

## Main definitions

* `Table.Related` — the same names, with related things.

## Main results

* `Table.Related.find?`, `Table.Related.insert`, `Table.Related.erase` — look-ups and changes.
* `Table.related_withValues` — the same names with other things.
* `Table.ofPairs_entries` — a table is what its entries fill.
* `HashText.read_flatten` — a hash can be read back.
-/

set_option autoImplicit false

namespace CommandScript

namespace Table

variable {α β γ : Type} {R : α → β → Prop}

/-- The same names in the same order, with related things. -/
def Related (R : α → β → Prop) (t : Table α) (u : Table β) : Prop :=
  List.Forall₂ (fun e f => e.1 = f.1 ∧ R e.2 f.2) t.entries u.entries

/-- A table is its entries, in their order. -/
lemma ext_entries {t u : Table α} (h : t.entries = u.entries) : t = u := by
  obtain ⟨es, hes⟩ := t
  obtain ⟨fs, hfs⟩ := u
  subst h
  rfl

namespace Related

/-- Tables that are related are related by anything that says less. -/
lemma mono {S : α → β → Prop} {t : Table α} {u : Table β} (h : Related R t u)
    (hRS : ∀ a b, R a b → S a b) : Related S t u :=
  h.imp fun _ _ he => ⟨he.1, hRS _ _ he.2⟩

/-- Empty tables are related. -/
lemma empty : Related R (Table.empty : Table α) (Table.empty : Table β) :=
  .nil

/-- Related tables have the same names, in the same order. -/
lemma keys_eq {t : Table α} {u : Table β} (h : Related R t u) : t.keys = u.keys := by
  unfold Related at h
  unfold keys
  generalize t.entries = es at h ⊢
  generalize u.entries = fs at h ⊢
  induction h with
  | nil => rfl
  | cons he _ ih => rw [List.map_cons, List.map_cons, he.1, ih]

/-- And related values. -/
lemma values {t : Table α} {u : Table β} (h : Related R t u) :
    List.Forall₂ R t.values u.values := by
  unfold Related at h
  unfold Table.values
  generalize t.entries = es at h ⊢
  generalize u.entries = fs at h ⊢
  induction h with
  | nil => exact .nil
  | cons he _ ih => exact .cons he.2 ih

/-- A name stands for related things in both tables, or for nothing in either. -/
lemma find? {t : Table α} {u : Table β} (h : Related R t u) (name : String) :
    Option.Rel R (t.find? name) (u.find? name) := by
  unfold Related at h
  unfold Table.find?
  generalize t.entries = es at h ⊢
  generalize u.entries = fs at h ⊢
  induction h with
  | nil => exact .none
  | @cons e f es fs he _ ih =>
    obtain ⟨k, a⟩ := e
    obtain ⟨l, b⟩ := f
    obtain ⟨rfl, hab⟩ := he
    rw [List.lookup_cons, List.lookup_cons]
    cases name == k with
    | true => exact .some hab
    | false => exact ih

/-- Related values may be inserted under the same name. -/
lemma insert {t : Table α} {u : Table β} (h : Related R t u) (name : String) {a : α} {b : β}
    (hab : R a b) : Related R (t.insert name a) (u.insert name b) := by
  unfold Related at h ⊢
  change List.Forall₂ _ (insertEntry name a t.entries) (insertEntry name b u.entries)
  generalize t.entries = es at h ⊢
  generalize u.entries = fs at h ⊢
  induction h with
  | nil => exact .cons ⟨rfl, hab⟩ .nil
  | @cons e f es fs he hrest ih =>
    unfold insertEntry
    rw [he.1]
    split
    · exact .cons ⟨rfl, hab⟩ hrest
    · exact .cons he ih

/-- So may many, one after the other. -/
lemma insertAll {t : Table α} {u : Table β} (h : Related R t u) {pairs : List (String × α)}
    {pairs' : List (String × β)}
    (hpairs : List.Forall₂ (fun e f => e.1 = f.1 ∧ R e.2 f.2) pairs pairs') :
    Related R (t.insertAll pairs) (u.insertAll pairs') := by
  induction hpairs generalizing t u with
  | nil => exact h
  | @cons e f _ _ he _ ih =>
    obtain ⟨k, a⟩ := e
    obtain ⟨l, b⟩ := f
    obtain ⟨rfl, hab⟩ := he
    exact ih (h.insert k hab)

/-- The same name may be erased. -/
lemma erase {t : Table α} {u : Table β} (h : Related R t u) (name : String) :
    Related R (t.erase name) (u.erase name) :=
  List.rel_filter (fun e f he => by simp only [he.1]) h

/-- A table is related to one table only, if each thing is to one thing only. -/
lemma right_unique {t : Table α} {u v : Table β} (h : Related R t u) (hR : Relator.RightUnique R)
    (h' : Related R t v) : u = v := by
  refine ext_entries (List.right_unique_forall₂' (fun e f g hf hg => ?_) h h')
  exact Prod.ext (hf.1.symm.trans hg.1) (hR hf.2 hg.2)

/-- What is picked by a property of the things that related things share has the same names. -/
lemma keys_filter_eq {t : Table α} {u : Table β} (h : Related R t u) {p : α → Bool} {q : β → Bool}
    (hpq : ∀ a b, R a b → p a = q b) :
    (t.entries.filter fun e => p e.2).map Prod.fst =
      (u.entries.filter fun e => q e.2).map Prod.fst := by
  unfold Related at h
  generalize t.entries = es at h ⊢
  generalize u.entries = fs at h ⊢
  induction h with
  | nil => rfl
  | @cons e f es fs he _ ih =>
    rw [List.filter_cons, List.filter_cons, hpq _ _ he.2]
    split
    · rw [List.map_cons, List.map_cons, he.1, ih]
    · exact ih

end Related

/-- The same names with other things are related to a table with these names. -/
lemma related_withValues {t : Table γ} {u : Table β} {things : List α} (hkeys : t.keys = u.keys)
    (h : List.Forall₂ R things u.values) : Related R (t.withValues things) u := by
  unfold Related
  change List.Forall₂ _ (t.keys.zip things) u.entries
  rw [hkeys]
  unfold Table.values at h
  unfold keys
  generalize u.entries = fs at h
  induction fs generalizing things with
  | nil =>
    cases h
    exact .nil
  | cons f fs ih =>
    cases h with
    | cons hab hrest => exact .cons ⟨rfl, hab⟩ (ih hrest)

/-- A table is made of its names and its values. -/
lemma withValues_values {t : Table γ} {u : Table β} (hkeys : t.keys = u.keys) :
    t.withValues u.values = u := by
  refine ext_entries ?_
  change t.keys.zip u.values = u.entries
  rw [hkeys]
  unfold keys Table.values
  induction u.entries with
  | nil => rfl
  | cons f fs ih => rw [List.map_cons, List.map_cons, List.zip_cons_cons, ih]

/-! ## Tables filled entry by entry -/

/-- A new name comes last. -/
lemma insertEntry_of_notMem {name : String} {es : List (String × α)}
    (h : name ∉ es.map Prod.fst) (a : α) : insertEntry name a es = es ++ [(name, a)] := by
  induction es with
  | nil => rfl
  | cons e es ih =>
    rw [List.map_cons, List.mem_cons, not_or] at h
    unfold insertEntry
    rw [if_neg fun he => h.1 he.symm, ih h.2, List.cons_append]

/-- New names come to the end, in their order. -/
lemma entries_insertAll {t : Table α} {pairs : List (String × α)}
    (h : ((t.entries ++ pairs).map Prod.fst).Nodup) :
    (t.insertAll pairs).entries = t.entries ++ pairs := by
  induction pairs generalizing t with
  | nil => exact (List.append_nil _).symm
  | cons e pairs ih =>
    have hnew : e.1 ∉ t.entries.map Prod.fst := by
      intro hmem
      rw [List.map_append, List.nodup_append] at h
      exact h.2.2 _ hmem e.1 (by simp) rfl
    have hinsert : (t.insert e.1 e.2).entries = t.entries ++ [e] := insertEntry_of_notMem hnew e.2
    have hstep : t.insertAll (e :: pairs) = (t.insert e.1 e.2).insertAll pairs := rfl
    have happend : t.entries ++ [e] ++ pairs = t.entries ++ e :: pairs := by simp
    rw [hstep, ih, hinsert, happend]
    rw [hinsert, happend]
    exact h

/-- **A table is what its entries fill.** -/
lemma ofPairs_entries (t : Table α) : ofPairs t.entries = t :=
  ext_entries (entries_insertAll t.nodup_names)

end Table

namespace HashText

/-- The text of a table's pairs is put into these pairs. -/
lemma pairUp_flatMap (es : List (String × String)) :
    pairUp (es.flatMap fun e => [e.1, e.2]) = some es := by
  induction es with
  | nil => rfl
  | cons e es ih =>
    rw [List.flatMap_cons]
    change (pairUp (es.flatMap fun e => [e.1, e.2])).map _ = _
    rw [ih]
    rfl

/-- **A hash can be read back** from the text of its keys, each followed by its value. -/
lemma read_flatten (entries : Table String) :
    read (ListText.write (flatten entries)) = .ok entries := by
  have hlist : ListText.read (ListText.write (flatten entries)) = .ok (flatten entries) := by
    simpa [ListText.read, ListText.Reader.start] using
      ListText.Reader.finish_run_write [] (flatten entries)
  unfold read
  rw [hlist]
  dsimp only [flatten]
  rw [pairUp_flatMap]
  exact congrArg Except.ok (Table.ofPairs_entries entries)

end HashText

end CommandScript

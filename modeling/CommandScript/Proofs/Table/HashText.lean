import CommandScript.Proofs.Table.Related
import Mathlib.Data.List.Induction

/-!
# Hashes and their texts

A hash is filled pair by pair from the elements of a list: those at even places are keys, and each
is followed by what it stands for. A key that comes again keeps its place and takes on what follows
it now. So the keys stand in the order in which they first occur, and each stands for what follows
its last occurrence. In the text that is written for a hash no key comes twice, and it is the only
text that is ever written for this hash: a normal form.

## Main definitions

* `HashText.evenPlaces` — the elements at even places.
* `HashText.Paired` — the hash that the elements of a list make.

## Main results

* `Table.keys_ofPairs`, `Table.find?_ofPairs` — a table filled with pairs in which names recur.
* `HashText.pairUp_eq_some_iff` — which lists consist of pairs.
* `HashText.hash_texts` — writing and reading hashes.
-/

set_option autoImplicit false

namespace CommandScript

namespace Table

variable {α : Type} {pairs : List (String × α)}

/-- The last pair is inserted last. -/
lemma ofPairs_concat (pairs : List (String × α)) (e : String × α) :
    ofPairs (pairs ++ [e]) = (ofPairs pairs).insert e.1 e.2 :=
  List.foldl_concat _ _ _ _

/-- **The names stand in the order in which they first occur.** -/
lemma keys_ofPairs (pairs : List (String × α)) :
    (ofPairs pairs).keys = (pairs.map Prod.fst).eraseDups := by
  -- the last pair is the one that is put in last
  induction pairs using List.reverseRecOn with
  | nil => rfl
  | append_singleton pairs e ih =>
    rw [ofPairs_concat, keys_insert, ih, List.map_append, List.eraseDups_append]
    by_cases hmem : e.1 ∈ pairs.map Prod.fst
    · rw [if_pos (List.mem_eraseDups.2 hmem)]
      simp [List.removeAll, hmem]
    · rw [if_neg (mt List.mem_eraseDups.1 hmem)]
      simp [List.removeAll, hmem, List.eraseDups_cons]

/-- **A name stands for what it comes with the last time.** -/
lemma find?_ofPairs {i : Nat} {name : String} {a : α} (h : pairs[i]? = some (name, a))
    (hlast : ∀ j, i < j → ∀ b, pairs[j]? ≠ some (name, b)) :
    (ofPairs pairs).find? name = some a := by
  induction pairs using List.reverseRecOn with
  | nil => cases h
  | append_singleton pairs e ih =>
    rw [ofPairs_concat, find?_insert]
    have hlt : i < (pairs ++ [e]).length := (List.getElem?_eq_some_iff.1 h).1
    rw [List.length_append, List.length_singleton] at hlt
    obtain hbefore | rfl := Nat.lt_succ_iff_lt_or_eq.1 hlt
    · have hne : name ≠ e.1 := fun heq =>
        hlast pairs.length hbefore e.2 (by rw [List.getElem?_concat_length, heq])
      rw [if_neg hne]
      refine ih (by rwa [List.getElem?_append_left hbefore] at h) fun j hj b hb => hlast j hj b ?_
      rw [List.getElem?_append_left (List.getElem?_eq_some_iff.1 hb).1, hb]
    · rw [List.getElem?_concat_length, Option.some.injEq] at h
      subst h
      exact if_pos rfl

end Table

namespace HashText

/-! ## Pairs -/

/-- The elements at even places. -/
def evenPlaces {α : Type} : List α → List α
  | [] => []
  | [a] => [a]
  | a :: _ :: rest => a :: evenPlaces rest

/-- The hash has the elements at even places as its keys, in the order in which they first occur.
Each key stands for the element after its last occurrence. -/
structure Paired (items : List String) (m : Table String) : Prop where
  /-- The keys in order. -/
  keys : m.keys = (evenPlaces items).eraseDups
  /-- What a key stands for. -/
  find? : ∀ i key value, items[2 * i]? = some key → items[2 * i + 1]? = some value →
    (∀ j, i < j → items[2 * j]? ≠ some key) → m.find? key = some value

variable {α : Type}

/-- The even places, counted by themselves. -/
lemma getElem?_evenPlaces (items : List α) (i : Nat) : (evenPlaces items)[i]? = items[2 * i]? := by
  induction items using evenPlaces.induct generalizing i with
  | case1 => rfl
  | case2 a =>
    cases i with
    | zero => rfl
    | succ i => rfl
  | case3 a b rest ih =>
    cases i with
    | zero => rfl
    | succ i => exact ih i

/-- **A list consists of pairs** exactly if the pairs, one after another, are the list. -/
lemma pairUp_eq_some_iff {items : List α} {pairs : List (α × α)} :
    pairUp items = some pairs ↔ items = pairs.flatMap fun e => [e.1, e.2] := by
  induction items using pairUp.induct generalizing pairs with
  | case1 =>
    cases pairs with
    | nil => simp [pairUp]
    | cons e pairs => simp [pairUp]
  | case2 a =>
    cases pairs with
    | nil => simp [pairUp]
    | cons e pairs => simp [pairUp]
  | case3 key value rest ih =>
    cases pairs with
    | nil => simp [pairUp]
    | cons e pairs => simp [pairUp, ih, Prod.ext_iff, and_comm, and_assoc]

/-- Items can be put into pairs if and only if their number is even. -/
lemma isSome_pairUp (items : List α) : (pairUp items).isSome ↔ items.length % 2 = 0 := by
  induction items using pairUp.induct with
  | case1 => simp [pairUp]
  | case2 a => simp [pairUp]
  | case3 key value rest ih =>
    rw [pairUp, Option.isSome_map, ih, List.length_cons, List.length_cons]
    omega

/-- The keys are at even places. -/
lemma evenPlaces_flatMap (pairs : List (α × α)) :
    evenPlaces (pairs.flatMap fun e => [e.1, e.2]) = pairs.map Prod.fst := by
  induction pairs with
  | nil => rfl
  | cons e pairs ih => exact congrArg (e.1 :: ·) ih

/-- What the keys come with is at odd places. -/
lemma getElem?_flatMap_odd (pairs : List (α × α)) (i : Nat) :
    (pairs.flatMap fun e => [e.1, e.2])[2 * i + 1]? = pairs[i]?.map Prod.snd := by
  induction pairs generalizing i with
  | nil => rfl
  | cons e pairs ih =>
    cases i with
    | zero => rfl
    | succ i => exact ih i

/-- The names of the pairs stand at the even places. -/
lemma getElem?_flatMap_even (pairs : List (α × α)) (i : Nat) :
    (pairs.flatMap fun e => [e.1, e.2])[2 * i]? = pairs[i]?.map Prod.fst := by
  rw [← getElem?_evenPlaces, evenPlaces_flatMap, List.getElem?_map]

/-- The text of a table's pairs is read as that table. -/
lemma paired_ofPairs (pairs : List (String × String)) :
    Paired (pairs.flatMap fun e => [e.1, e.2]) (Table.ofPairs pairs) where
  keys := by rw [Table.keys_ofPairs, evenPlaces_flatMap]
  find? i key value hkey hvalue hlast := by
    simp only [getElem?_flatMap_even, getElem?_flatMap_odd] at hkey hvalue hlast
    obtain ⟨e, he, rfl⟩ := Option.map_eq_some_iff.1 hkey
    rw [he, Option.map_some, Option.some.injEq] at hvalue
    subst hvalue
    refine Table.find?_ofPairs he fun j hj b hb => hlast j hj ?_
    rw [hb]
    rfl

/-! ## Texts -/

/-- A text is read as a hash exactly if it is a list of pairs, and the hash is what they fill. -/
lemma read_eq_ok_iff {t : String} {m : Table String} :
    read t = .ok m ↔ ∃ pairs : List (String × String),
      ListText.read t = .ok (pairs.flatMap fun e => [e.1, e.2]) ∧ m = Table.ofPairs pairs := by
  unfold read
  cases ListText.read t with
  | error e => simp
  | ok items =>
    simp only [Except.ok.injEq, ← pairUp_eq_some_iff]
    cases pairUp items with
    | none => simp
    | some pairs => simp [eq_comm]

/-- **Hashes and their texts.** A hash that is written is read back as it was. A text can be read as
a hash exactly if it can be read as a list with an even number of elements. The keys are the
elements at even places, in the order in which they first occur, and each key stands for the element
after its last occurrence. Writing the hash gives a normal form: reading and writing it again gives
the same text.

**Proof sketch.** A list with an even number of elements is made of pairs. They are put into the
hash one after another, so that what holds of the keys, and of what they stand for, follows by
induction on the pairs, the last one first. A hash that is filled with its own entries is itself, as
no key comes twice. -/
theorem hash_texts :
    (∀ m, read (write m) = .ok m) ∧
    (∀ t, (∃ m, read t = .ok m) ↔ ∃ items, ListText.read t = .ok items ∧ items.length % 2 = 0) ∧
    (∀ t m items, read t = .ok m → ListText.read t = .ok items → Paired items m) ∧
    ∀ t m, read t = .ok m → ∃ m', read (write m) = .ok m' ∧ write m' = write m := by
  refine ⟨read_flatten, fun t => ⟨?_, ?_⟩, fun t m items hread hlist => ?_,
    fun t m _ => ⟨m, read_flatten m, rfl⟩⟩
  · rintro ⟨m, hm⟩
    obtain ⟨pairs, hpairs, -⟩ := read_eq_ok_iff.1 hm
    exact ⟨_, hpairs, (isSome_pairUp _).1 (by rw [pairUp_flatMap]; rfl)⟩
  · rintro ⟨items, hitems, heven⟩
    obtain ⟨pairs, hpairs⟩ := Option.isSome_iff_exists.1 ((isSome_pairUp items).2 heven)
    rw [pairUp_eq_some_iff.1 hpairs] at hitems
    exact ⟨_, read_eq_ok_iff.2 ⟨pairs, hitems, rfl⟩⟩
  · obtain ⟨pairs, hpairs, rfl⟩ := read_eq_ok_iff.1 hread
    obtain rfl : pairs.flatMap _ = items := Except.ok.inj (hpairs.symm.trans hlist)
    exact paired_ofPairs pairs

/-- The key `a` comes twice: it is the first one, and it stands for what it comes with last. -/
theorem hash_texts_repeatedKey :
    ∃ m, read "a 1 b {2 3} a 4" = .ok m ∧ m.keys = ["a", "b"] ∧ m.find? "a" = some "4" ∧
      ∃ m', read (write m) = .ok m' ∧ write m' = write m := by
  obtain ⟨-, hread, hpaired, hnormal⟩ := hash_texts
  have hlist : ListText.read "a 1 b {2 3} a 4" = .ok ["a", "1", "b", "2 3", "a", "4"] := by
    decide +kernel
  obtain ⟨m, hm⟩ := (hread _).2 ⟨_, hlist, rfl⟩
  have hm' := hpaired _ m _ hm hlist
  have hlast : ∀ j, 2 < j → ["a", "1", "b", "2 3", "a", "4"][2 * j]? ≠ some "a" := by
    intro j hj
    rw [List.getElem?_eq_none (by simp only [List.length_cons, List.length_nil]; omega)]
    exact nofun
  exact ⟨m, hm, hm'.keys.trans (by decide), hm'.find? 2 "a" "4" rfl rfl hlast, hnormal _ m hm⟩

end HashText

end CommandScript

/-!
# Stacks

A stack is a sequence that grows and shrinks at its top. A taller stack shares what is below its
top with a shorter one, so that adding an element is one step however many there are. Frames of
variables are stacked, and the elements of a list are too, since lists grow at their end.

## Main definitions

* `Stack` — elements and how many they are.
* `Stack.toList` — the elements from the bottom to the top.
* `Stack.push`, `Stack.pop`, `Stack.pushAll`, `Stack.get?`, `Stack.set` — its operations; places are
  counted from the bottom.

## Main results

* `Stack.toList_push`, `Stack.toList_pushAll`, `Stack.toList_set`, `Stack.toList_of_pop` — what the
  operations do to the sequence.
* `Stack.get?_eq` — what is at a place.
-/

set_option autoImplicit false

namespace CommandScript

universe u v

/-- A sequence that grows and shrinks at its top. -/
structure Stack (α : Type u) where
  /-- The elements, the top one first. -/
  items : List α
  /-- How many there are, so that they need not be counted. -/
  height : Nat
  /-- The height is the number of elements. -/
  height_eq : height = items.length

namespace Stack

variable {α : Type u} {β : Type v}

/-- The stack without elements. -/
def empty : Stack α :=
  ⟨[], 0, rfl⟩

instance : Inhabited (Stack α) :=
  ⟨empty⟩

/-- The elements from the bottom to the top. -/
def toList (s : Stack α) : List α :=
  s.items.reverse

/-- The stack with the elements, given from the bottom to the top. -/
def ofList (xs : List α) : Stack α :=
  ⟨xs.reverse, xs.length, by simp⟩

/-- Puts an element on top. -/
def push (s : Stack α) (a : α) : Stack α :=
  ⟨a :: s.items, s.height + 1, by simp [s.height_eq]⟩

/-- Puts elements on top, one after another. -/
def pushAll (s : Stack α) (xs : List α) : Stack α :=
  xs.foldl push s

/-- Takes the top element off. -/
def pop (s : Stack α) : Option (α × Stack α) :=
  match h : s.items with
  | [] => none
  | a :: items => some (a, ⟨items, s.height - 1, by simp [s.height_eq, h]⟩)

/-- The element at a place, counted from the bottom. -/
def get? (s : Stack α) (place : Nat) : Option α :=
  if place < s.height then s.items[s.height - 1 - place]? else none

/-- Replaces the element at a place, counted from the bottom. -/
def set (s : Stack α) (place : Nat) (a : α) : Stack α :=
  if place < s.height then
    ⟨s.items.set (s.height - 1 - place) a, s.height, by simp [s.height_eq]⟩
  else s

/-! ## What the operations do to the sequence -/

/-- The empty stack has no elements. -/
@[simp] theorem toList_empty : (empty : Stack α).toList = [] := rfl

/-- A stack made of a list has its elements. -/
@[simp] theorem toList_ofList (xs : List α) : (ofList xs).toList = xs := by
  simp [ofList, toList]

/-- The height is the number of elements. -/
@[simp] theorem length_toList (s : Stack α) : s.toList.length = s.height := by
  simp [toList, s.height_eq]

/-- The newest element comes last. -/
@[simp] theorem toList_push (s : Stack α) (a : α) : (s.push a).toList = s.toList ++ [a] := by
  simp [push, toList]

/-- Elements that are pushed together keep their order. -/
@[simp] theorem toList_pushAll (s : Stack α) (xs : List α) :
    (s.pushAll xs).toList = s.toList ++ xs := by
  induction xs generalizing s with
  | nil => simp [pushAll]
  | cons x xs ih =>
    have h : s.pushAll (x :: xs) = (s.push x).pushAll xs := rfl
    rw [h, ih, toList_push, List.append_assoc, List.singleton_append]

/-- Popping takes the last element of the sequence. -/
theorem toList_of_pop {s t : Stack α} {a : α} (h : s.pop = some (a, t)) :
    s.toList = t.toList ++ [a] := by
  unfold pop at h
  split at h
  · simp at h
  · next b items hs =>
    simp only [Option.some.injEq, Prod.mk.injEq] at h
    obtain ⟨rfl, rfl⟩ := h
    simp [toList, hs]

/-- Places are counted from the bottom. -/
theorem get?_eq (s : Stack α) (place : Nat) : s.get? place = s.toList[place]? := by
  unfold get? toList
  split
  · next h =>
    rw [s.height_eq] at h
    rw [List.getElem?_reverse h, s.height_eq]
  · next h =>
    rw [List.getElem?_eq_none]
    simpa [s.height_eq] using h

/-- Only the element at that place is replaced. -/
theorem toList_set (s : Stack α) (place : Nat) (a : α) :
    (s.set place a).toList = s.toList.set place a := by
  unfold set
  split
  · next h =>
    rw [s.height_eq] at h
    apply List.ext_getElem? fun i => ?_
    by_cases hi : i < s.items.length
    · simp only [toList, s.height_eq]
      rw [List.getElem?_reverse (by simpa using hi), List.getElem?_set, List.length_set,
        List.getElem?_set]
      have hsame : s.items.length - 1 - place = s.items.length - 1 - i ↔ place = i := by omega
      by_cases hp : place = i
      · subst hp
        simp [List.length_reverse, h]
        omega
      · simp [hsame, hp, List.getElem?_reverse hi]
    · rw [List.getElem?_eq_none (by simpa [toList] using hi),
        List.getElem?_eq_none (by simpa [toList] using hi)]
  · next h =>
    rw [List.set_eq_of_length_le]
    simpa using h

end Stack

end CommandScript

import CommandScript.Scope
import Mathlib.Tactic.Lemma

/-!
# Frames on the stack

What the operations on variables and on frames do to the stack of frames: access to variables keeps
the number of frames, a frame that is put on top comes off again, and frames that were taken off
and are put back stand where they stood.

## Main results

* `ScopeStack.depth_of_set`, `ScopeStack.depth_of_unset`, `ScopeStack.depth_linkGlobal` — variables.
* `ScopeStack.depth_pop_of_depth_push` — a frame of its own goes again.
* `ScopeStack.toList_popMany`, `ScopeStack.depth_popMany`, `ScopeStack.toList_pushMany` — frames set
  aside and put back.
* `ScopeStack.depth_pushMany_popMany`, `ScopeStack.frame_pushMany_popMany` — they stand where they
  stood.
-/

set_option autoImplicit false

namespace CommandScript

namespace Stack

variable {α : Type}

/-- Setting an element keeps the height. -/
lemma height_set (s : Stack α) (place : Nat) (a : α) : (s.set place a).height = s.height := by
  unfold set
  split
  · rfl
  · rfl

/-- Popping an element takes one from the height. -/
lemma height_of_pop {s t : Stack α} {a : α} (h : s.pop = some (a, t)) :
    s.height = t.height + 1 := by
  have hlen := congrArg List.length (toList_of_pop h)
  simpa using hlen

/-- Only an empty stack has nothing to pop. -/
lemma height_of_pop_eq_none {s : Stack α} (h : s.pop = none) : s.height = 0 := by
  unfold pop at h
  split at h
  next hs => rw [s.height_eq, hs, List.length_nil]
  next => cases h

end Stack

namespace ScopeStack

/-! ## Variables -/

/-- To replace a frame keeps the depth. -/
lemma depth_setFrame (s : ScopeStack) (place : Nat) (f : Frame) :
    (s.setFrame place f).depth = s.depth := by
  cases place with
  | zero => rfl
  | succ place => exact congrArg (· + 1) (Stack.height_set s.locals place f)

/-- So does setting a variable. -/
lemma depth_of_set {s t : ScopeStack} {name : String} {r : Ref} {level : Int}
    (h : s.set name r level = .ok t) : t.depth = s.depth := by
  unfold set at h
  split at h
  · cases h
  · cases h
    exact depth_setFrame s _ _

/-- So does removing one. -/
lemma depth_of_unset {s t : ScopeStack} {name : String} {level : Int}
    (h : s.unset name level = .ok t) : t.depth = s.depth := by
  unfold unset at h
  split at h
  · cases h
  · split at h
    · cases h
    · cases h
      split
      · exact depth_setFrame s _ _
      · exact depth_setFrame s _ _

/-- So does a link to a global variable. -/
lemma depth_linkGlobal (s : ScopeStack) (name : String) : (s.linkGlobal name).depth = s.depth := by
  unfold linkGlobal
  split
  · rfl
  next f locals hpop => exact congrArg (· + 1) (Stack.height_of_pop hpop).symm

/-! ## Frames that come and go -/

/-- The global frame lies below the local ones. -/
lemma depth_eq (s : ScopeStack) : s.depth = s.locals.toList.length + 1 := by
  rw [Stack.length_toList]
  rfl

/-- What is above the global frame, read off the stack. -/
lemma frame_succ (s : ScopeStack) (place : Nat) :
    s.frame (place + 1) = s.locals.toList[place]?.getD .empty := by
  rw [← Stack.get?_eq]
  rfl

/-- A pop takes the top frame off, unless only the global one is there. -/
lemma pop_cases (s : ScopeStack) :
    (s.pop = (none, s) ∧ s.depth = 1) ∨
      ∃ f t, s.pop = (some f, t) ∧ s.locals.toList = t.locals.toList ++ [f] := by
  unfold pop
  cases h : s.locals.pop with
  | none => exact .inl ⟨rfl, congrArg (· + 1) (Stack.height_of_pop_eq_none h)⟩
  | some top => exact .inr ⟨top.1, _, rfl, Stack.toList_of_pop h⟩

/-- A frame that was put on top goes again, whatever happened to the frames meanwhile. -/
lemma depth_pop_of_depth_push {s t : ScopeStack} (h : t.depth = s.push.depth) :
    t.pop.2.depth = s.depth := by
  have hpush : s.push.depth = s.depth + 1 := rfl
  obtain ⟨-, hdepth⟩ | ⟨f, u, hpop, hlist⟩ := pop_cases t
  · have hpos : s.depth = s.locals.height + 1 := rfl
    omega
  · rw [hpop]
    have hlen := congrArg List.length hlist
    rw [List.length_append, List.length_singleton] at hlen
    have ht := depth_eq t
    have hu := depth_eq u
    dsimp only
    omega

/-! ## Frames set aside -/

/-- The frames taken off and those left are all frames, in order. -/
lemma toList_popMany (taken : List Frame) (count : Nat) (s : ScopeStack) :
    (popMany taken count s).2.locals.toList ++ (popMany taken count s).1 =
      s.locals.toList ++ taken := by
  induction count generalizing taken s with
  | zero => rfl
  | succ count ih =>
    unfold popMany
    obtain ⟨hpop, -⟩ | ⟨f, t, hpop, hlist⟩ := pop_cases s
    · rw [hpop]
    · rw [hpop, hlist, List.append_assoc, List.singleton_append]
      exact ih (f :: taken) t

/-- As many frames are taken off as are to be, if there are enough. -/
lemma depth_popMany {count : Nat} {s : ScopeStack} (taken : List Frame) (h : count < s.depth) :
    (popMany taken count s).2.depth + count = s.depth := by
  induction count generalizing taken s with
  | zero => rfl
  | succ count ih =>
    unfold popMany
    obtain ⟨-, hdepth⟩ | ⟨f, t, hpop, hlist⟩ := pop_cases s
    · omega
    · have hlen := congrArg List.length hlist
      rw [List.length_append, List.length_singleton] at hlen
      have hs := depth_eq s
      have ht := depth_eq t
      have hrest := ih (f :: taken) (s := t) (by omega)
      rw [hpop]
      dsimp only
      omega

/-- Frames that are pushed back keep their order. -/
lemma toList_pushMany (s : ScopeStack) (frames : List Frame) :
    (s.pushMany frames).locals.toList = s.locals.toList ++ frames := by
  induction frames generalizing s with
  | nil => exact (List.append_nil _).symm
  | cons f frames ih =>
    have hstep : s.pushMany (f :: frames) = (s.pushFrame f).pushMany frames := rfl
    have htop : (s.pushFrame f).locals.toList = s.locals.toList ++ [f] := Stack.toList_push _ _
    rw [hstep, ih, htop, List.append_assoc, List.singleton_append]

/-- A level for evaluation means a frame that is there, or it is a bad level. -/
lemma evalPlace?_cases (s : ScopeStack) (level : Int) :
    (∃ place, s.evalPlace? level = .ok place ∧ place < s.depth) ∨
      s.evalPlace? level = .error (.badLevel level) := by
  unfold evalPlace?
  dsimp only
  generalize (if level < 0 then (s.depth : Int) - 1 + level else level) = place
  by_cases hbad : place < 0 ∨ (s.depth : Int) - 1 < place
  · exact .inr (if_pos hbad)
  · exact .inl ⟨place.toNat, if_neg hbad, by omega⟩

section PutBack

variable {s t : ScopeStack} {count : Nat}

/-- **Frames that are put back make the stack as high as it was**, if what they are put back on is
as high as what was left. -/
lemma depth_pushMany_popMany (ht : t.depth = (s.popMany [] count).2.depth) :
    (t.pushMany (s.popMany [] count).1).depth = s.depth := by
  have hall := congrArg List.length (toList_popMany [] count s)
  rw [List.append_nil, List.length_append] at hall
  rw [depth_eq, depth_eq] at ht
  rw [depth_eq, depth_eq, toList_pushMany, List.length_append]
  omega

/-- **Frames that are put back stand where they stood**, if what they are put back on is as high as
what was left.

**Proof sketch.** The stack was what was left and then the frames taken off, and it is `t` and then
these frames; the two beginnings are equally long. -/
lemma frame_pushMany_popMany (hcount : count < s.depth)
    (ht : t.depth = (s.popMany [] count).2.depth) {place : Nat}
    (hplace : s.depth - 1 - count < place) :
    (t.pushMany (s.popMany [] count).1).frame place = s.frame place := by
  obtain ⟨place, rfl⟩ : ∃ i, place = i + 1 := ⟨place - 1, by omega⟩
  have hleft := depth_popMany [] hcount
  have hall := toList_popMany [] count s
  rw [List.append_nil] at hall
  rw [depth_eq, depth_eq (s.popMany [] count).2] at ht
  rw [depth_eq (s.popMany [] count).2] at hleft
  rw [frame_succ, frame_succ, toList_pushMany, ← hall, List.getElem?_append_right (by omega),
    List.getElem?_append_right (by omega)]
  congr 3
  omega

end PutBack

end ScopeStack

end CommandScript

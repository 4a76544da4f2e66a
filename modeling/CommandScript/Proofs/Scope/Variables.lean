import CommandScript.Interp.Basic
import CommandScript.Proofs.Scope.Frames

/-!
# Variables and links

A name in a frame stands for a variable: its own, or the global one if the name is a link. Two
addresses, each a name and a level, are the same variable if they lead to the same *slot*, the frame
that holds the value. Whatever has happened to the stack of frames before, reading a variable after
writing, removing or linking one is then told by slots alone.

The law needs that links end in the global frame. They do, since no operation puts a link there, and
frames that were taken off and are put back go on top.

## Main definitions

* `ScopeStack.Step`, `ScopeStack.Reachable` — the stacks of frames that can come about.
* `ScopeStack.Grounded` — the global frame has no links.
* `ScopeStack.stored?` — the value in a slot.

## Main results

* `ScopeStack.Reachable.grounded` — the global frame never has a link.
* `ScopeStack.valueAt?_of_set`, `ScopeStack.valueAt?_of_unset`, `ScopeStack.valueAt?_linkGlobal` —
  what the operations do to all variables.
* `ScopeStack.store_law` — the law of variables.
-/

set_option autoImplicit false

namespace CommandScript

namespace ScopeStack

/-! ## Stacks that can come about -/

/-- An operation on the stack of frames. The frame that is put on top may be any: a new one, or one
that was taken off before. -/
inductive Step : ScopeStack → ScopeStack → Prop
  | push (s : ScopeStack) : Step s s.push
  | pushFrame (s : ScopeStack) (f : Frame) : Step s (s.pushFrame f)
  | pop (s : ScopeStack) : Step s s.pop.2
  | set {s t : ScopeStack} (name : String) (r : Ref) (level : Int)
    (h : s.set name r level = .ok t) : Step s t
  | unset {s t : ScopeStack} (name : String) (level : Int) (h : s.unset name level = .ok t) :
    Step s t
  | linkGlobal (s : ScopeStack) (name : String) : Step s (s.linkGlobal name)

/-- The stack comes about by operations from the one that has an empty global frame only. -/
inductive Reachable : ScopeStack → Prop
  | start : Reachable {}
  | step {s t : ScopeStack} (h : Reachable s) (h' : Step s t) : Reachable t

/-! ## Places and frames -/

/-- The place of a level is that of a frame. -/
lemma lt_depth_of_place? {s : ScopeStack} {level : Int} {place : Nat}
    (h : s.place? level = .ok place) : place < s.depth := by
  unfold place? at h
  dsimp only at h
  generalize (if level < 0 then (s.depth : Int) + level else level) = i at h
  by_cases hbad : i < 0 ∨ (s.depth : Int) ≤ i
  · rw [if_pos hbad] at h
    cases h
  · rw [if_neg hbad] at h
    cases h
    omega

/-- Which frame a level means depends on the number of frames only. -/
lemma place?_of_depth_eq {s t : ScopeStack} (h : t.depth = s.depth) (level : Int) :
    t.place? level = s.place? level := by
  unfold place?
  rw [h]

/-- The global frame is always at level zero. -/
lemma place?_zero (s : ScopeStack) : s.place? 0 = .ok 0 := by
  have hpos : 0 < s.depth := Nat.succ_pos _
  unfold place?
  dsimp only
  rw [if_neg (by omega), if_neg (by omega)]
  rfl

/-- The top frame is always at level minus one. -/
lemma place?_top (s : ScopeStack) : s.place? (-1) = .ok (s.depth - 1) := by
  have hpos : 0 < s.depth := Nat.succ_pos _
  have hplace : (if (-1 : Int) < 0 then (s.depth : Int) + -1 else -1) = s.depth + -1 :=
    if_pos (by omega)
  unfold place?
  dsimp only
  rw [hplace, if_neg (by omega)]
  congr 1
  omega

/-- Only the frame at that place is replaced. -/
lemma frame_setFrame {s : ScopeStack} {place : Nat} (h : place < s.depth) (f : Frame) (i : Nat) :
    (s.setFrame place f).frame i = if i = place then f else s.frame i := by
  cases place with
  | zero =>
    cases i with
    | zero => rfl
    | succ i => rfl
  | succ place =>
    have hplace : place < s.locals.height := Nat.lt_of_succ_lt_succ h
    cases i with
    | zero => rfl
    | succ i =>
      change (s.locals.set place f |>.get? i).getD .empty = _
      rw [Stack.get?_eq, Stack.toList_set, List.getElem?_set, frame_succ]
      by_cases hi : i = place
      · simp [hi, hplace]
      · have hi' : ¬ place = i := fun h => hi h.symm
        simp [hi, hi']

/-- Linking a name changes the top frame only. -/
lemma frame_linkGlobal {s : ScopeStack} (h : 1 < s.depth) (name : String) (i : Nat) :
    (s.linkGlobal name).frame i =
      if i = s.depth - 1 then (s.frame i).insert name .link else s.frame i := by
  unfold linkGlobal
  cases hpop : s.locals.pop with
  | none =>
    have hzero : s.depth = 0 + 1 := congrArg (· + 1) (Stack.height_of_pop_eq_none hpop)
    omega
  | some top =>
    obtain ⟨f, locals⟩ := top
    have hlist := Stack.toList_of_pop hpop
    have hdepth : s.depth = locals.toList.length + 1 + 1 := by
      rw [depth_eq, hlist, List.length_append, List.length_singleton]
    cases i with
    | zero => rw [if_neg (by omega)]; rfl
    | succ i =>
      change ((locals.push (f.insert name .link)).get? i).getD .empty = _
      rw [Stack.get?_eq, Stack.toList_push, frame_succ, hlist]
      by_cases hi : i = locals.toList.length
      · rw [if_pos (by omega), hi, List.getElem?_concat_length, List.getElem?_concat_length]
        rfl
      · rw [if_neg (by omega)]
        by_cases hlt : i < locals.toList.length
        · rw [List.getElem?_append_left hlt, List.getElem?_append_left hlt]
        · have hnone : ∀ g : Frame, (locals.toList ++ [g])[i]? = none := by
            intro g
            apply List.getElem?_eq_none
            rw [List.length_append, List.length_singleton]
            omega
          rw [hnone, hnone]

/-! ## Slots -/

/-- The global frame has no links. -/
def Grounded (s : ScopeStack) : Prop :=
  ∀ name, s.globals.find? name ≠ some .link

/-- The value in a slot: that of a variable in the frame itself. -/
def stored? (s : ScopeStack) (name : String) (slot : Nat) : Option Ref :=
  match (s.frame slot).find? name with
  | some (.value r) => some r
  | _ => none

/-- **The value of a variable is the one in its slot.** -/
lemma valueAt?_eq_stored? (s : ScopeStack) (name : String) (place : Nat) :
    s.valueAt? name place = s.stored? name (s.slot name place) := by
  unfold valueAt? slot stored?
  cases h : (s.frame place).find? name with
  | none => simp only [h]
  | some b =>
    cases b with
    | value r => simp only [h]
    | link => rfl

/-- A global variable lives in the global frame. -/
lemma slot_zero (s : ScopeStack) (name : String) : s.slot name 0 = 0 := by
  unfold slot
  split <;> rfl

/-- A slot holds no link. -/
lemma Grounded.find?_slot_ne_link {s : ScopeStack} (hs : Grounded s) (name : String)
    (place : Nat) : (s.frame (s.slot name place)).find? name ≠ some .link := by
  unfold slot
  split
  · exact hs name
  next h => exact h

/-- The slot is the frame itself, unless the name is a link. -/
lemma slot_cases (s : ScopeStack) (name : String) (place : Nat) :
    s.slot name place = place ∧ (s.frame place).find? name ≠ some .link ∨
      s.slot name place = 0 ∧ (s.frame place).find? name = some .link := by
  unfold slot
  split
  next h => exact .inr ⟨rfl, h⟩
  next h => exact .inl ⟨rfl, h⟩

/-- Slots are told by which names are links. -/
lemma slot_congr {s t : ScopeStack} {name : String} {place : Nat}
    (h : (t.frame place).find? name = some .link ↔ (s.frame place).find? name = some .link) :
    t.slot name place = s.slot name place := by
  obtain ⟨hs, hlink⟩ | ⟨hs, hlink⟩ := slot_cases s name place
  · obtain ⟨ht, -⟩ | ⟨-, hlink'⟩ := slot_cases t name place
    · rw [hs, ht]
    · exact absurd (h.1 hlink') hlink
  · obtain ⟨-, hlink'⟩ | ⟨ht, -⟩ := slot_cases t name place
    · exact absurd (h.2 hlink) hlink'
    · rw [hs, ht]

/-! ## What the operations do to bindings -/

section Bindings

variable {s t : ScopeStack} {name : String} {r : Ref} {level : Int} {place : Nat}

/-- To count a change leaves the frames alone. -/
@[simp] lemma frame_touch (s : ScopeStack) (i : Nat) : s.touch.frame i = s.frame i := by
  cases i with
  | zero => rfl
  | succ i => rfl

/-- The slot of a variable is that of a frame. -/
lemma slot_lt_depth (hplace : place < s.depth) : s.slot name place < s.depth := by
  obtain ⟨hslot, -⟩ | ⟨hslot, -⟩ := slot_cases s name place
  · omega
  · omega

/-- A variable can only be set at a level that there is. -/
lemma exists_place_of_set (h : s.set name r level = .ok t) : ∃ i, s.place? level = .ok i := by
  unfold set at h
  cases hplace : s.place? level with
  | error e =>
    rw [hplace] at h
    cases h
  | ok i => exact ⟨i, rfl⟩

/-- And removed only there. -/
lemma exists_place_of_unset (h : s.unset name level = .ok t) : ∃ i, s.place? level = .ok i := by
  unfold unset at h
  cases hplace : s.place? level with
  | error e =>
    rw [hplace] at h
    cases h
  | ok i => exact ⟨i, rfl⟩

/-- A variable that gets a value is bound in its slot. -/
lemma find?_frame_of_set (hplace : s.place? level = .ok place) (h : s.set name r level = .ok t)
    (other : String) (i : Nat) :
    (t.frame i).find? other =
      if other = name ∧ i = s.slot name place then some (.value r)
      else (s.frame i).find? other := by
  unfold set at h
  rw [hplace] at h
  cases h
  rw [frame_touch, frame_setFrame (slot_lt_depth (lt_depth_of_place? hplace))]
  by_cases hi : i = s.slot name place
  · rw [if_pos hi, Table.find?_insert, hi]
    simp only [and_true]
  · rw [if_neg hi, if_neg (fun hboth => hi hboth.2)]

/-- A variable that is removed is unbound in the frame, and a link takes the global variable with
it. -/
lemma find?_frame_of_unset (hplace : s.place? level = .ok place)
    (h : s.unset name level = .ok t) (other : String) (i : Nat) :
    (t.frame i).find? other =
      if other = name ∧ (i = place ∨ i = 0 ∧ (s.frame place).find? name = some .link) then none
      else (s.frame i).find? other := by
  unfold unset at h
  rw [hplace] at h
  dsimp only at h
  have hlt := lt_depth_of_place? hplace
  cases hb : (s.frame place).find? name with
  | none =>
    rw [hb] at h
    cases h
  | some b =>
    rw [hb] at h
    -- a value is erased in its own frame, and behind a link in the global frame, too
    cases b with
    | value r =>
      cases h
      rw [frame_touch, frame_setFrame hlt]
      by_cases hi : i = place
      · rw [if_pos hi, Table.find?_erase, hi]
        simp
      · rw [if_neg hi, if_neg (by simp [hi])]
    | link =>
      cases h
      rw [frame_touch]
      cases i with
      | zero =>
        change ((s.setFrame place _).globals.erase name).find? other = _
        rw [Table.find?_erase]
        change (if other = name then none else ((s.setFrame place _).frame 0).find? other) = _
        rw [frame_setFrame hlt]
        by_cases hother : other = name
        · simp [hother]
        · by_cases hi : 0 = place
          · rw [if_neg hother, if_pos hi, Table.find?_erase, if_neg hother, ← hi]
            simp [hother]
          · simp [hother, hi]
      | succ i =>
        change ((s.setFrame place _).frame (i + 1)).find? other = _
        rw [frame_setFrame hlt]
        by_cases hi : i + 1 = place
        · rw [if_pos hi, Table.find?_erase, ← hi]
          simp
        · simp [hi]

/-- A name that is linked is a link in the top frame. -/
lemma find?_frame_linkGlobal (h : 1 < s.depth) (name other : String) (i : Nat) :
    ((s.linkGlobal name).frame i).find? other =
      if other = name ∧ i = s.depth - 1 then some .link else (s.frame i).find? other := by
  rw [frame_linkGlobal h]
  by_cases hi : i = s.depth - 1
  · rw [if_pos hi, Table.find?_insert]
    simp only [hi, and_true]
  · rw [if_neg hi, if_neg (fun hboth => hi hboth.2)]

/-! ## Links end in the global frame -/

/-- Leaving a frame keeps the global one. -/
lemma globals_pop (s : ScopeStack) : s.pop.2.globals = s.globals := by
  unfold pop
  split
  · rfl
  · rfl

/-- At the bottom there is nothing to link. -/
lemma linkGlobal_of_depth_le_one (h : ¬ 1 < s.depth) (name : String) : s.linkGlobal name = s := by
  unfold linkGlobal
  cases hpop : s.locals.pop with
  | none => rfl
  | some top =>
    have hdepth : s.depth = top.2.height + 1 + 1 := congrArg (· + 1) (Stack.height_of_pop hpop)
    omega

/-- No operation puts a link into the global frame. -/
lemma Step.grounded (h : Step s t) (hs : Grounded s) : Grounded t := by
  intro name
  cases h with
  | push => exact hs name
  | pushFrame f => exact hs name
  | pop =>
    rw [globals_pop]
    exact hs name
  | set other r level h =>
    obtain ⟨place, hplace⟩ := exists_place_of_set h
    change (t.frame 0).find? name ≠ _
    rw [find?_frame_of_set hplace h]
    split
    · intro hlink
      cases hlink
    · exact hs name
  | unset other level h =>
    obtain ⟨place, hplace⟩ := exists_place_of_unset h
    change (t.frame 0).find? name ≠ _
    rw [find?_frame_of_unset hplace h]
    split
    · intro hlink
      cases hlink
    · exact hs name
  --  linkGlobal|a link is made in a local frame, or not at all
  | linkGlobal other =>
    by_cases hdepth : 1 < s.depth
    · change ((s.linkGlobal other).frame 0).find? name ≠ _
      rw [find?_frame_linkGlobal hdepth, if_neg (by omega)]
      exact hs name
    · rw [linkGlobal_of_depth_le_one hdepth]
      exact hs name

/-- **The global frame never has a link**, whatever has happened to the stack. -/
lemma Reachable.grounded (h : Reachable s) : Grounded s := by
  induction h with
  | start =>
    intro name hlink
    cases hlink
  | step _ h' ih => exact h'.grounded ih

/-! ## What the operations do to variables -/

/-- **A variable that gets a value** has it at every address with the same slot, and all other
variables keep theirs.

**Proof sketch.** A slot holds no link, so binding a name there to a value turns no link into a
variable: all slots stay. The value in a slot is the one that was put there last. -/
lemma valueAt?_of_set (hs : Grounded s) (hplace : s.place? level = .ok place)
    (h : s.set name r level = .ok t) (other : String) (i : Nat) :
    t.valueAt? other i =
      if other = name ∧ s.slot name i = s.slot name place then some r
      else s.valueAt? other i := by
  have hbind := find?_frame_of_set hplace h
  have hslot : t.slot other i = s.slot other i := by
    apply slot_congr
    rw [hbind]
    split
    next heq =>
      obtain ⟨rfl, rfl⟩ := heq
      have hnone := hs.find?_slot_ne_link other place
      simp [hnone]
    next => rfl
  rw [valueAt?_eq_stored?, valueAt?_eq_stored?, hslot]
  unfold stored?
  rw [hbind]
  by_cases hother : other = name
  · subst hother
    by_cases hsame : s.slot other i = s.slot other place
    · rw [if_pos ⟨rfl, hsame⟩, if_pos ⟨rfl, hsame⟩]
    · rw [if_neg (fun hboth => hsame hboth.2), if_neg (fun hboth => hsame hboth.2)]
  · rw [if_neg (fun hboth => hother hboth.1), if_neg (fun hboth => hother hboth.1)]

/-- **A variable that is removed** takes away no variable at an address with another slot.

**Proof sketch.** The bindings that go are the one in the frame and, for a link, the one in the
global frame; the addresses that lead there have the slot of the variable. -/
lemma valueAt?_of_unset (hplace : s.place? level = .ok place)
    (h : s.unset name level = .ok t) {other : String} {i : Nat}
    (hother : other ≠ name ∨ s.slot name i ≠ s.slot name place) :
    t.valueAt? other i = s.valueAt? other i := by
  have hbind := find?_frame_of_unset hplace h
  by_cases hname : other = name
  · subst hname
    have hslots : s.slot other i ≠ s.slot other place :=
      hother.resolve_left (fun hne => hne rfl)
    have hne : i ≠ place := fun heq => hslots (by rw [heq])
    -- the binding that the address leads to stays, and so does the address
    have hkept : ∀ j, j = i ∨ j = s.slot other i →
        (t.frame j).find? other = (s.frame j).find? other := by
      intro j hj
      rw [hbind, if_neg]
      rintro ⟨-, hgone⟩
      have hi := slot_cases s other i
      have hp := slot_cases s other place
      have hzero := slot_zero s other
      grind
    have hslot : t.slot other i = s.slot other i := slot_congr (by rw [hkept i (.inl rfl)])
    rw [valueAt?_eq_stored?, valueAt?_eq_stored?, hslot]
    unfold stored?
    rw [hkept _ (.inr rfl)]
  · have hkept : ∀ j, (t.frame j).find? other = (s.frame j).find? other := by
      intro j
      rw [hbind, if_neg (fun hboth => hname hboth.1)]
    have hslot : t.slot other i = s.slot other i := slot_congr (by rw [hkept])
    rw [valueAt?_eq_stored?, valueAt?_eq_stored?, hslot]
    unfold stored?
    rw [hkept]

/-- **A name that is linked** stands for the global variable in the top frame, and all else
stays. -/
lemma valueAt?_linkGlobal (h : 1 < s.depth) (name other : String) (i : Nat) :
    (s.linkGlobal name).valueAt? other i =
      if other = name ∧ i = s.depth - 1 then s.valueAt? name 0 else s.valueAt? other i := by
  have hbind := find?_frame_linkGlobal h name
  by_cases hlinked : other = name ∧ i = s.depth - 1
  · obtain ⟨rfl, rfl⟩ := hlinked
    have hslot : (s.linkGlobal other).slot other (s.depth - 1) = 0 := by
      unfold slot
      rw [hbind, if_pos ⟨rfl, rfl⟩]
    rw [if_pos ⟨rfl, rfl⟩, valueAt?_eq_stored?, valueAt?_eq_stored?, hslot, slot_zero]
    unfold stored?
    rw [hbind, if_neg (by omega)]
  · have hslot : (s.linkGlobal name).slot other i = s.slot other i := by
      apply slot_congr
      rw [hbind, if_neg hlinked]
    rw [if_neg hlinked, valueAt?_eq_stored?, valueAt?_eq_stored?, hslot]
    unfold stored?
    rw [hbind, if_neg]
    -- the slot of another address is the top frame only if the address is in it
    rintro ⟨rfl, hi⟩
    obtain ⟨hsame, -⟩ | ⟨hzero, -⟩ := slot_cases s other i
    · exact hlinked ⟨rfl, hsame.symm.trans hi⟩
    · omega

/-! ## Reading -/

/-- What is read at an address is the value of the variable, or that there is none. -/
lemma get_of_place? (hplace : s.place? level = .ok place) (name : String) :
    s.get name level = (s.valueAt? name place).elim (.error (.noVariable name)) .ok := by
  unfold get
  rw [hplace]
  dsimp only
  cases s.valueAt? name place with
  | none => rfl
  | some r => rfl

/-- A variable exists exactly if it can be read. -/
lemma has_iff_get (s : ScopeStack) (name : String) (level : Int) :
    s.has name level = true ↔ ∃ r, s.get name level = .ok r := by
  cases hplace : s.place? level with
  | error e => simp [has, get, hplace]
  | ok place =>
    rw [get_of_place? hplace]
    cases hvalue : s.valueAt? name place with
    | none => simp [has, hplace, hvalue]
    | some r => simp [has, hplace, hvalue]

/-- Reading after a variable got a value. -/
lemma get_of_set (hs : Grounded s) (hplace : s.place? level = .ok place)
    (h : s.set name r level = .ok t) {level' : Int} {place' : Nat}
    (hplace' : s.place? level' = .ok place') (other : String) :
    t.get other level' =
      if other = name ∧ s.slot name place' = s.slot name place then .ok r
      else s.get other level' := by
  rw [get_of_place? ((place?_of_depth_eq (depth_of_set h) _).trans hplace'), get_of_place? hplace',
    valueAt?_of_set hs hplace h]
  split
  · rfl
  · rfl

/-- Reading after a variable was removed. -/
lemma get_of_unset (hplace : s.place? level = .ok place) (h : s.unset name level = .ok t)
    {level' : Int} {place' : Nat} (hplace' : s.place? level' = .ok place') {other : String}
    (hother : other ≠ name ∨ s.slot name place' ≠ s.slot name place) :
    t.get other level' = s.get other level' := by
  rw [get_of_place? ((place?_of_depth_eq (depth_of_unset h) _).trans hplace'),
    get_of_place? hplace', valueAt?_of_unset hplace h hother]

/-- Reading after a name was linked. -/
lemma get_linkGlobal (h : 1 < s.depth) (hplace : s.place? level = .ok place)
    (name other : String) :
    (s.linkGlobal name).get other level =
      if other = name ∧ place = s.depth - 1 then s.get name 0 else s.get other level := by
  rw [get_of_place? ((place?_of_depth_eq (depth_linkGlobal s name) _).trans hplace),
    valueAt?_linkGlobal h, get_of_place? hplace, get_of_place? (place?_zero s)]
  split
  next heq => rw [heq.1]
  next => rfl

end Bindings

/-- Giving a variable a value stores what is yielded: the value, or a copy of it if it belongs to a
script. -/
lemma setVar_apply {κ : Type} {v : Store} {c : Context κ} {name : String} {r : Ref} {level : Int}
    {t : ScopeStack} (h : c.scopes.set name (Store.own r v).1 level = .ok t) :
    EvalM.setVar name r level ⟨v, c⟩ =
      .ok (Store.own r v).1 ⟨(Store.own r v).2, { c with scopes := t }⟩ := by
  obtain ⟨place, hplace⟩ := exists_place_of_set h
  change (EvalM.attempt (c.scopes.place? level) >>= _ : EvalM κ Ref) ⟨v, c⟩ = _
  rw [hplace]
  have hupdate : EvalM.updateScopes (fun s => s.set name (Store.own r v).1 level)
      ⟨(Store.own r v).2, c⟩ = .ok () ⟨(Store.own r v).2, { c with scopes := t }⟩ := by
    change (EvalM.attempt (c.scopes.set name (Store.own r v).1 level) >>= _ : EvalM κ Unit) _ = _
    rw [h]
    rfl
  change EStateM.bind (EvalM.updateScopes (fun s => s.set name (Store.own r v).1 level)) _
    ⟨(Store.own r v).2, c⟩ = _
  unfold EStateM.bind
  rw [hupdate]
  rfl

/-- **The law of variables.** Whatever operations led to the stack of frames:

* there is a global frame, and it has no links;
* a variable exists exactly if it can be read;
* a variable that gets a value has it at every address with the same slot, and all other addresses
  read as before. What an interpreter stores is what it yields: the value, or a copy of it if it
  belongs to a script;
* a variable that was removed is not in its frame any more, and if it was a link, the global
  variable is gone too; every address with another name or slot reads as before;
* a name that is linked in a frame other than the global one reads there as the global variable, and
  every other address reads as before. -/
theorem store_law {κ : Type} {s : ScopeStack} (hs : Reachable s) :
    (0 < s.depth ∧ ∀ name, s.globals.find? name ≠ some .link) ∧
    (∀ name level, s.has name level = true ↔ ∃ r, s.get name level = .ok r) ∧
    (∀ name r level place, s.place? level = .ok place → ∃ t, s.set name r level = .ok t ∧
      ∀ other level' place', s.place? level' = .ok place' →
        t.get other level' =
          if other = name ∧ s.slot name place' = s.slot name place then .ok r
          else s.get other level') ∧
    (∀ (v : Store) (c : Context κ) name r level t, c.scopes = s →
      s.set name (Store.own r v).1 level = .ok t →
        EvalM.setVar name r level ⟨v, c⟩ =
          .ok (Store.own r v).1 ⟨(Store.own r v).2, { c with scopes := t }⟩) ∧
    (∀ name level place t, s.place? level = .ok place → s.unset name level = .ok t →
      (t.frame place).find? name = none ∧
      ((s.frame place).find? name = some .link → t.globals.find? name = none) ∧
      ∀ other level' place', s.place? level' = .ok place' →
        (other ≠ name ∨ s.slot name place' ≠ s.slot name place) →
          t.get other level' = s.get other level') ∧
    ∀ name, 1 < s.depth → ∀ other level place, s.place? level = .ok place →
      (s.linkGlobal name).get other level =
        if other = name ∧ place = s.depth - 1 then (s.linkGlobal name).get name 0
        else s.get other level := by
  refine ⟨⟨Nat.succ_pos _, hs.grounded⟩, has_iff_get s, ?_, ?_, ?_, ?_⟩
  · intro name r level place hplace
    have hset : ∃ t, s.set name r level = .ok t := by
      unfold set
      rw [hplace]
      exact ⟨_, rfl⟩
    obtain ⟨t, ht⟩ := hset
    exact ⟨t, ht, fun other _ _ hplace' => get_of_set hs.grounded hplace ht hplace' other⟩
  · rintro v c name r level t rfl ht
    exact setVar_apply ht
  · intro name level place t hplace ht
    have hbind := find?_frame_of_unset hplace ht name
    refine ⟨?_, fun hlink => ?_, fun other _ _ hplace' => get_of_unset hplace ht hplace'⟩
    -- in its own frame, and then in the global one
    · rw [hbind, if_pos ⟨rfl, .inl rfl⟩]
    · change (t.frame 0).find? name = none
      rw [hbind, if_pos ⟨rfl, .inr ⟨rfl, hlink⟩⟩]
  · intro name hdepth other level place hplace
    have hglobal : (s.linkGlobal name).get name 0 = s.get name 0 := by
      rw [get_linkGlobal hdepth (place?_zero s), if_neg (by omega)]
    rw [get_linkGlobal hdepth hplace, hglobal]

/-- A stack with a frame in which a name is a link. -/
def linked : ScopeStack :=
  ({} : ScopeStack).push.linkGlobal "x"

/-- The stack of the example is reachable. -/
lemma reachable_linked : Reachable linked :=
  .step (.step .start (.push _)) (.linkGlobal _ "x")

/-- A value that is given to the link is read from the global frame. -/
theorem store_law_linked :
    ∃ t, linked.set "x" ⟨7⟩ (-1) = .ok t ∧ t.get "x" 0 = .ok ⟨7⟩ ∧ linked.slot "x" 1 = 0 := by
  obtain ⟨-, -, hset, -⟩ := store_law (κ := Empty) reachable_linked
  obtain ⟨t, ht, hget⟩ := hset "x" ⟨7⟩ (-1) 1 rfl
  exact ⟨t, ht, hget "x" 0 0 rfl, rfl⟩

end ScopeStack

end CommandScript

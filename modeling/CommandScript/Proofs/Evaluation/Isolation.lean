import CommandScript.Proofs.Evaluation.StackRestoration
import CommandScript.Proofs.Scope.Variables

/-!
# Procedures are isolated from their callers

A procedure has a frame of its own. What its script does to variables, it does in that frame, or
through a link in the global frame; the frames of its callers are out of reach, unless there is a
way to evaluate scripts at another level. And links come from one command only: without it, the
global frame is out of reach too. A script can rename commands, give them other names and define
procedures under their names, but none of this brings a command back that is not at hand.

## Main definitions

* `Interp.Lacks` — no name and no type leads to a built-in command.
* `ScopeStack.Unlinked` — the top frame has no links.

## Main results

* `Interp.Run.frame_eq` — whatever happens in the top frame, the frames below it stay.
* `Interp.Run.globals_eq` — without links, the global frame stays.
* `Procedure.call_isolated` — a call leaves the frames of its callers alone.
-/

set_option autoImplicit false

namespace CommandScript

open Interp (Run)

/-! ## The top frame -/

namespace ScopeStack

variable {s t : ScopeStack} {name : String} {r : Ref}

/-- The top frame has no links. -/
def Unlinked (s : ScopeStack) : Prop :=
  ∀ name, (s.frame (s.depth - 1)).find? name ≠ some .link

/-- Where the top frame has no links, a variable of it is held there. -/
lemma Unlinked.slot_eq (hs : s.Unlinked) (name : String) :
    s.slot name (s.depth - 1) = s.depth - 1 := by
  obtain ⟨hslot, -⟩ | ⟨-, hlink⟩ := slot_cases s name (s.depth - 1)
  · exact hslot
  · exact absurd hlink (hs name)

/-- To set a variable changes the frame of its slot only. -/
lemma frame_of_set {level : Int} {place i : Nat} (hplace : s.place? level = .ok place)
    (h : s.set name r level = .ok t) (hi : i ≠ s.slot name place) : t.frame i = s.frame i := by
  unfold set at h
  rw [hplace] at h
  cases h
  rw [frame_touch, frame_setFrame (slot_lt_depth (lt_depth_of_place? hplace)), if_neg hi]

/-- To remove a variable changes its frame, and the global frame if the variable is linked. -/
lemma frame_of_unset {level : Int} {place i : Nat} (hplace : s.place? level = .ok place)
    (h : s.unset name level = .ok t) (hi : i ≠ place)
    (hlink : i = 0 → (s.frame place).find? name ≠ some .link) : t.frame i = s.frame i := by
  have hlt := lt_depth_of_place? hplace
  unfold unset at h
  rw [hplace] at h
  dsimp only at h
  split at h
  · cases h
  next b hb =>
    cases h
    rw [frame_touch]
    cases b with
    | value r => rw [frame_setFrame hlt, if_neg hi]
    | link =>
      cases i with
      | zero => exact absurd hb (hlink rfl)
      | succ i =>
        change (s.setFrame place _).frame (i + 1) = _
        rw [frame_setFrame hlt, if_neg hi]

/-- A variable of the top frame is held there or in the global frame. -/
lemma frame_of_set_top (h : s.set name r (-1) = .ok t) {i : Nat} (hpos : 0 < i)
    (hi : i + 1 < s.depth) : t.frame i = s.frame i := by
  refine frame_of_set (place?_top s) h ?_
  obtain ⟨hslot, -⟩ | ⟨hslot, -⟩ := slot_cases s name (s.depth - 1)
  · omega
  · omega

/-- To remove a variable at the top leaves the frames between alone. -/
lemma frame_of_unset_top (h : s.unset name (-1) = .ok t) {i : Nat} (hpos : 0 < i)
    (hi : i + 1 < s.depth) : t.frame i = s.frame i :=
  frame_of_unset (place?_top s) h (by omega) (by omega)

/-- Without links, a variable of the top frame that gets a value leaves the global frame alone. -/
lemma Unlinked.of_set (hs : s.Unlinked) (hdepth : 1 < s.depth) (h : s.set name r (-1) = .ok t) :
    t.globals = s.globals ∧ t.Unlinked := by
  have hplace := place?_top s
  have hslot := hs.slot_eq name
  refine ⟨frame_of_set (i := 0) hplace h (by omega), fun other => ?_⟩
  rw [depth_of_set h, find?_frame_of_set hplace h]
  split
  · intro hvalue
    cases hvalue
  · exact hs other

/-- Without links, a variable of the top frame that is removed leaves the global frame alone. -/
lemma Unlinked.of_unset (hs : s.Unlinked) (hdepth : 1 < s.depth)
    (h : s.unset name (-1) = .ok t) : t.globals = s.globals ∧ t.Unlinked := by
  have hplace := place?_top s
  refine ⟨frame_of_unset (i := 0) hplace h (by omega) fun _ => hs name, fun other => ?_⟩
  rw [depth_of_unset h, find?_frame_of_unset hplace h]
  split
  · intro hnone
    cases hnone
  · exact hs other

/-- A frame that is put on top changes none below. -/
lemma frame_push {i : Nat} (hi : i < s.depth) : s.push.frame i = s.frame i := by
  cases i with
  | zero => rfl
  | succ i =>
    have hlt : i < s.locals.toList.length := by
      rw [depth_eq] at hi
      omega
    rw [frame_succ, frame_succ]
    change ((s.locals.push .empty).toList)[i]?.getD .empty = _
    rw [Stack.toList_push, List.getElem?_append_left hlt]

/-- Taking the top frame off changes none below. -/
lemma frame_pop {i : Nat} (hi : i + 1 < s.depth) : s.pop.2.frame i = s.frame i := by
  cases i with
  | zero => exact globals_pop s
  | succ i =>
    obtain ⟨hpop, -⟩ | ⟨f, t, hpop, hlist⟩ := pop_cases s
    · rw [hpop]
    · have hlt : i < t.locals.toList.length := by
        rw [depth_eq, hlist, List.length_append, List.length_singleton] at hi
        omega
      rw [hpop, frame_succ, frame_succ, hlist, List.getElem?_append_left hlt]

/-- A new frame is empty. -/
lemma frame_push_top (s : ScopeStack) : s.push.frame s.depth = .empty := by
  change (s.locals.push .empty |>.get? s.locals.height).getD .empty = _
  rw [Stack.get?_eq, Stack.toList_push, ← Stack.length_toList, List.getElem?_concat_length]
  rfl

/-- A new frame has no links. -/
lemma unlinked_push (s : ScopeStack) : s.push.Unlinked := by
  intro name
  change (s.push.frame s.depth).find? name ≠ _
  rw [frame_push_top]
  intro hlink
  cases hlink

end ScopeStack

/-! ## What is out of reach -/

namespace Interp

variable {κ : Type} {A : Builtin → Prop} {s t : Interp κ}

/-- **The frames below the top one stay**, other than the global one, if nothing is evaluated at
another level.

**Proof sketch.** Induction on what is done. A variable of the top frame is held there or, through a
link, in the global frame. What a procedure does by induction leaves the frames below its own
alone, and these are all that are left when its frame has gone. -/
lemma Run.frame_eq (h : Run A s t) (hA : ¬ A (.control .upeval)) {i : Nat} (hpos : 0 < i)
    (hi : i + 1 < s.context.scopes.depth) :
    t.context.scopes.frame i = s.context.scopes.frame i := by
  induction h with
  | trans h _ ih ih' =>
    have hdepth := h.sameHeight.depth
    exact (ih' (by omega)).trans (ih hi)
  | set name r h => exact ScopeStack.frame_of_set_top h hpos hi
  | unset name h => exact ScopeStack.frame_of_unset_top h hpos hi
  | link name hA =>
    dsimp only at hi ⊢
    rw [ScopeStack.frame_linkGlobal (by omega), if_neg (by omega)]
  | @call v c t h ih =>
    have hdepth : t.context.scopes.depth = c.scopes.depth + 1 := h.sameHeight.depth
    dsimp only at hi ⊢
    rw [ScopeStack.frame_pop (by omega), ih (Nat.lt_succ_of_lt hi),
      ScopeStack.frame_push (by omega)]
  | nest _ ih => exact ih hi
  | upeval hup => exact absurd hup hA
  | _ => rfl

/-- **The global frame stays**, if nothing is evaluated at another level, no name is linked, and the
top frame is one without links.

**Proof sketch.** Induction on what is done: all variables are held in the top frame, and a new
frame has no links. -/
lemma Run.globals_eq (h : Run A s t) (hup : ¬ A (.control .upeval)) (hlink : ¬ A (.plain .global))
    (hdepth : 1 < s.context.scopes.depth) (hs : s.context.scopes.Unlinked) :
    t.context.scopes.globals = s.context.scopes.globals ∧ t.context.scopes.Unlinked := by
  induction h with
  | refl s => exact ⟨rfl, hs⟩
  | trans h _ ih ih' =>
    obtain ⟨hglobals, ht⟩ := ih hdepth hs
    obtain ⟨hglobals', hu⟩ := ih' (by rw [h.sameHeight.depth]; exact hdepth) ht
    exact ⟨hglobals'.trans hglobals, hu⟩
  | set name r h => exact hs.of_set hdepth h
  | unset name h => exact hs.of_unset hdepth h
  | link name hA => exact absurd hA hlink
  | @call v c t h ih =>
    have hheight : t.context.scopes.depth = c.scopes.depth + 1 := h.sameHeight.depth
    have hpop : t.context.scopes.pop.2.depth = c.scopes.depth :=
      ScopeStack.depth_pop_of_depth_push hheight
    obtain ⟨hglobals, -⟩ := ih (Nat.lt_succ_of_lt hdepth) (ScopeStack.unlinked_push _)
    refine ⟨(ScopeStack.globals_pop _).trans hglobals, fun name => ?_⟩
    -- the top frame is the one that was below the procedure's
    dsimp only at hdepth ⊢
    have hbelow : t.context.scopes.frame (c.scopes.depth - 1) =
        c.scopes.push.frame (c.scopes.depth - 1) :=
      h.frame_eq hup (by omega) (show c.scopes.depth - 1 + 1 < c.scopes.depth + 1 by omega)
    rw [hpop, ScopeStack.frame_pop (by omega), hbelow, ScopeStack.frame_push (by omega)]
    exact hs name
  | nest _ ih => exact ih hdepth hs
  | upeval h => exact absurd h hup
  | _ => exact ⟨rfl, hs⟩

/-- No name and no type leads to the built-in command. -/
structure Lacks (b : Builtin) (s : Interp κ) : Prop where
  /-- No name stands for it. -/
  byName : ∀ name, s.context.commands.find? name ≠ some (.builtin b)
  /-- It is found for no type. -/
  byType : ∀ tag, (s.context.typeCommands.resolve tag).1 ≠ some (.builtin b)

/-- An interpreter that lacks a command stays among the others. -/
lemma Lacks.within {b : Builtin} (hs : s.Lacks b) : s.Within (· ≠ b) where
  byName := by
    rintro name _ hfind b rfl rfl
    exact hs.byName name hfind
  byType := by
    rintro tag _ hfound b rfl rfl
    exact hs.byType tag hfound

/-- What an interpreter stays among may be said twice. -/
lemma Within.and {B : Builtin → Prop} (hA : s.Within A) (hB : s.Within B) :
    s.Within fun b => A b ∧ B b :=
  ⟨fun name c hfind b hb => ⟨hA.byName name c hfind b hb, hB.byName name c hfind b hb⟩,
    fun tag c hfound b hb => ⟨hA.byType tag c hfound b hb, hB.byType tag c hfound b hb⟩⟩

end Interp

/-! ## Calls -/

namespace EvalM

variable {κ α : Type}

/-- What holds on return holds together with what does so under a condition that does not depend on
the interpreter. -/
lemma OnReturn.and_imp {p : Prop} {P Q : Interp κ → Prop} {o : EStateM.Result Stop (Interp κ) α}
    (hP : OnReturn P o) (hQ : p → OnReturn Q o) : OnReturn (fun t => P t ∧ (p → Q t)) o := by
  cases o with
  | ok a t => exact ⟨hP, hQ⟩
  | error e t =>
    cases e with
    | raised e => exact ⟨hP, hQ⟩
    | exited status => trivial
    | fault => trivial
    | diverged => trivial

/-- What holds on return holds of the state that is returned. -/
lemma OnReturn.of_ok {P : Interp κ → Prop} {o : EStateM.Result Stop (Interp κ) α} {a : α}
    {t : Interp κ} (h : OnReturn P o) (ho : o = .ok a t) : P t := by
  subst ho
  exact h

/-- What becomes of the outcome of a procedure leaves the context alone. -/
lemma onReturn_settle {P : Context κ → Prop} (x : Except Exception Ref) (t : Interp κ)
    (ht : P t.context) : OnReturn (fun t => P t.context) ((settle x : EvalM κ Ref) t) := by
  cases x with
  | ok r => exact ht
  | error e =>
    unfold settle
    dsimp only
    cases e.code with
    | error => exact ht
    | returned => exact ht
    | broke => exact ht
    | continued => exact ht
    | custom label => exact ht

end EvalM

namespace Procedure

open EvalM Interp

variable {κ : Type} {A : Builtin → Prop} {E : Engine κ} {s : Interp κ}

/-- What a call does in its frame: it binds the parameters, and evaluates the body. Without words it
stops before that. -/
lemma traced_body (hE : ∀ r, Traced A (E.eval r)) (p : Procedure) (argv : List Ref) :
    Traced A (p.bind argv >>= fun _ => E.eval p.body) := by
  refine Traced.bind ?_ fun _ => hE p.body
  by_cases hargv : argv = []
  · rw [hargv]
    exact traced_throw .fault
  · exact (scriptless_bind p hargv).traced

/-- A call leaves the frames that were there alone, other than the global one. -/
lemma onReturn_call_frames (hE : ∀ r, Traced A (E.eval r)) (hA : ¬ A (.control .upeval))
    (hs : s.Within A) (p : Procedure) (argv : List Ref) :
    OnReturn (fun t => t.context.scopes.depth = s.context.scopes.depth ∧
      ∀ i, 0 < i → i < s.context.scopes.depth →
        t.context.scopes.frame i = s.context.scopes.frame i) (p.call E argv s) := by
  obtain ⟨v, c⟩ := s
  refine onReturn_nested _ _ ⟨hs.byName, hs.byType⟩ (traced_body hE p argv)
    (onReturn_settle (P := fun c' => c'.scopes.depth = c.scopes.depth ∧
      ∀ i, 0 < i → i < c.scopes.depth → c'.scopes.frame i = c.scopes.frame i)) fun t h => ?_
  have hdepth : t.context.scopes.depth = c.scopes.depth + 1 := h.sameHeight.depth
  refine ⟨ScopeStack.depth_pop_of_depth_push hdepth, fun i hpos hi => ?_⟩
  have hbelow : t.context.scopes.frame i = c.scopes.push.frame i :=
    h.frame_eq hA hpos (Nat.succ_lt_succ hi)
  dsimp only at hi ⊢
  rw [ScopeStack.frame_pop (by omega), hbelow, ScopeStack.frame_push hi]

/-- A call leaves the global frame alone, if nothing can be linked. -/
lemma onReturn_call_globals (hE : ∀ r, Traced A (E.eval r)) (hup : ¬ A (.control .upeval))
    (hlink : ¬ A (.plain .global)) (hs : s.Within A) (p : Procedure) (argv : List Ref) :
    OnReturn (fun t => t.context.scopes.globals = s.context.scopes.globals) (p.call E argv s) := by
  obtain ⟨v, c⟩ := s
  refine onReturn_nested _ _ ⟨hs.byName, hs.byType⟩ (traced_body hE p argv)
    (onReturn_settle (P := fun c' => c'.scopes.globals = c.scopes.globals)) fun t h => ?_
  obtain ⟨hglobals, -⟩ :=
    h.globals_eq hup hlink (Nat.succ_lt_succ (Nat.succ_pos _)) (ScopeStack.unlinked_push c.scopes)
  exact (ScopeStack.globals_pop _).trans hglobals

/-- **Procedures are isolated from their callers.** In an interpreter without commands of an
application and without a way to evaluate at another level, a call of any procedure with any words
leaves all frames that were there as they were, other than the global one, whether it ends with a
result, an error or a signal. Where nothing can be linked either, it leaves the global frame as it
was, too. -/
theorem call_isolated (bound : Nat) (p : Procedure) (argv : List Ref) {s : Interp Empty}
    (hs : s.Lacks (.control .upeval)) :
    OnReturn (fun t => (t.context.scopes.depth = s.context.scopes.depth ∧
        ∀ i, 0 < i → i < s.context.scopes.depth →
          t.context.scopes.frame i = s.context.scopes.frame i) ∧
      (s.Lacks (.plain .global) → t.context.scopes.globals = s.context.scopes.globals))
      (p.call (engine bound) argv s) := by
  have hframes := onReturn_call_frames (E := engine bound) (traced_evaluate bound)
    (fun h => h rfl) hs.within p argv
  refine hframes.and_imp fun hlink => ?_
  exact onReturn_call_globals (E := engine bound) (traced_evaluate bound) (fun h => h.1 rfl)
    (fun h => h.2 rfl) (hs.within.and hlink.within) p argv

end Procedure

/-! ## Interpreters that lack commands -/

namespace Table

/-- What is found after insertions was inserted or was there before. -/
lemma mem_or_find?_of_find?_insertAll {α : Type} {name : String} {a : α}
    {pairs : List (String × α)} {t : Table α} (h : (t.insertAll pairs).find? name = some a) :
    (name, a) ∈ pairs ∨ t.find? name = some a := by
  induction pairs generalizing t with
  | nil => exact .inr h
  | cons p pairs ih =>
    obtain hmem | hfind := ih (t := t.insert p.1 p.2) h
    · exact .inl (List.mem_cons_of_mem _ hmem)
    · rw [find?_insert] at hfind
      split at hfind
      next heq =>
        cases hfind
        exact .inl (heq ▸ List.mem_cons_self)
      next => exact .inr hfind

end Table

namespace TypeCommands

variable {α : Type}

/-- The best entry is one of the entries, or the one that was the best before. -/
lemma mem_of_foldl_better {tag : TypeTag} {e : TypeTag × α} {entries : List (TypeTag × α)}
    {start : Option (TypeTag × α)} (h : entries.foldl (better tag) start = some e) :
    e ∈ entries ∨ start = some e := by
  induction entries generalizing start with
  | nil => exact .inr h
  | cons f entries ih =>
    obtain hmem | hbetter := ih h
    · exact .inl (List.mem_cons_of_mem _ hmem)
    · have hcases : better tag start f = some f ∨ better tag start f = start := by
        unfold better
        repeat' split
        · exact .inl rfl
        · exact .inr rfl
        · exact .inl rfl
        · exact .inr rfl
      obtain hnew | hold := hcases
      · cases hnew.symm.trans hbetter
        exact .inl List.mem_cons_self
      · exact .inr (hold.symm.trans hbetter)

/-- Where nothing is remembered, what is found for a type is registered for one. -/
lemma mem_of_resolve {t : TypeCommands α} {tag : TypeTag} {command : α} (ht : t.found = .empty)
    (h : (t.resolve tag).1 = some command) : ∃ u, (u, command) ∈ t.entries := by
  have hnone : t.found.find? tag.name = none := by
    rw [ht]
    rfl
  unfold resolve at h
  rw [hnone] at h
  dsimp only at h
  split at h
  · cases h
  next u c hbest =>
    cases h
    obtain hmem | hstart := mem_of_foldl_better hbest
    · exact ⟨u, hmem⟩
    · cases hstart

end TypeCommands

namespace Interp

/-- The interpreter with the commands of the language, but for some. -/
def without (removed : List Builtin) : Interp Empty :=
  let start : Interp Empty := standard
  { start with
    context := { start.context with
      commands := Table.ofPairs ((Builtin.standard.filter fun e => e.2 ∉ removed).map
        fun e => (e.1, .builtin e.2)) } }

/-- Commands that are left out at the start are lacking. -/
lemma lacks_without {removed : List Builtin} {b : Builtin} (hb : b ∈ removed) :
    (without removed).Lacks b where
  byName := by
    intro name hfind
    obtain hmem | hfind := Table.mem_or_find?_of_find?_insertAll hfind
    · obtain ⟨e, he, heq⟩ := List.mem_map.1 hmem
      have hkept := of_decide_eq_true (List.mem_filter.1 he).2
      cases heq
      exact hkept hb
    · cases hfind
  byType := by
    intro tag hfound
    obtain ⟨u, hmem⟩ := TypeCommands.mem_of_resolve rfl hfound
    -- the one command that is registered for a type calls procedures
    change (u, _) ∈ [(TypeTag.proc, Command.invoke)] at hmem
    cases List.mem_singleton.1 hmem

/-- An interpreter in the middle of a call, without evaluation at another level and without links:
both the caller's frame and the global one hold a variable `x`. -/
def amidCall : Interp Empty :=
  { values := { cells := #[{ text := some "7" }, { text := some "" },
      { text := some "set x 1; set y $x" }, { text := some "p" }] }
    context := { (without [.control .upeval, .plain .global]).context with
      scopes :=
        { globals := Table.empty.insert "x" (.value ⟨0⟩)
          locals := Stack.empty.push (Table.empty.insert "x" (.value ⟨1⟩)) } } }

/-- The interpreter in the midst of a call lacks what it was made without. -/
lemma lacks_amidCall {b : Builtin} (hb : b ∈ [.control .upeval, .plain .global]) :
    amidCall.Lacks b :=
  ⟨(lacks_without hb).byName, (lacks_without hb).byType⟩

end Interp

/-- A procedure that sets `x` changes the `x` of its caller as little as the global one. -/
theorem Procedure.call_isolated_amidCall :
    ∃ r t, Procedure.call (Interp.engine 1) ⟨⟨1⟩, [], ⟨2⟩⟩ [⟨3⟩] Interp.amidCall = .ok r t ∧
      t.context.scopes.frame 1 = Interp.amidCall.context.scopes.frame 1 ∧
      t.context.scopes.globals = Interp.amidCall.context.scopes.globals := by
  have hok : (match Procedure.call (Interp.engine 1) ⟨⟨1⟩, [], ⟨2⟩⟩ [⟨3⟩] Interp.amidCall with
    | .ok _ _ => true
    | .error _ _ => false) = true := by decide +kernel
  split at hok
  next r t hcall =>
    have hup : Interp.amidCall.Lacks (.control .upeval) := Interp.lacks_amidCall (by decide)
    have hlink : Interp.amidCall.Lacks (.plain .global) := Interp.lacks_amidCall (by decide)
    have hdepth : Interp.amidCall.context.scopes.depth = 2 := rfl
    -- the call is not to be evaluated again
    generalize Interp.amidCall = s at *
    obtain ⟨⟨-, hframes⟩, hglobals⟩ := (Procedure.call_isolated 1 _ _ hup).of_ok hcall
    exact ⟨r, t, hcall, hframes 1 Nat.one_pos (hdepth ▸ Nat.one_lt_two), hglobals hlink⟩
  next => cases hok

end CommandScript

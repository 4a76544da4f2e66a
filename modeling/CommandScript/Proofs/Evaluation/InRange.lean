import CommandScript.Proofs.Evaluation.Signals
import CommandScript.Proofs.Text.Tokens

/-!
# Nothing is looked up out of range

An evaluation looks up many things by their place: the first word of a command, the arguments of a
command, the pieces of a text, the elements of a list, the frames of variables. Each of these places
is there, for a reason of its own: the reader leaves out commands without words, the number of words
is checked before a command is run, marks lie between characters, a loop without variables is
refused, and a level that means no frame is an error.

The branches of `if` are found by recursion on its words. Counting places instead, as `ifWalk` does,
comes to the same, and no place that it counts is out of range.

## Main definitions

* `Builtin.ifWalk` — `if`, with its words looked up by their places.
* `Builtin.InPieces` — a list cut into pieces.
* `ScopeStack.FramesInRange` — the levels that mean frames mean frames that are there.

## Main results

* `Builtin.ifWalk_eq` — the walk over the places finds the branches.
* `Builtin.inPieces_chunks` — a list is cut into pieces, and no piece is empty.
* `ScopeStack.framesInRange` — frames are looked up in range.
* `Interp.lookups_inRange` — all of this, for every state that can come about.
-/

set_option autoImplicit false

namespace CommandScript

open EvalM

/-! ## Places of words -/

namespace Builtin

variable {κ : Type}

/-- `if`, from a place of its words on: what stands at a place is looked up there, which is a fault
if nothing does. -/
def ifWalk (E : Engine κ) (argv : List Ref) (place : Nat) : EvalM κ (Option Ref) := do
  if hplace : place + 1 < argv.length then
    if ← condition E (← arg argv place) then
      evalResult E (← arg argv (place + 1))
    else if place + 2 = argv.length then done
    else
      let keyword ← text (← arg argv (place + 2))
      if keyword = "elseif" then ifWalk E argv (place + 3)
      else if keyword = "else" ∧ place + 4 = argv.length then
        evalResult E (← arg argv (place + 3))
      else fail (.usage ifForm)
  else fail (.usage ifForm)
termination_by argv.length - place

/-- What stands at a place is found there. -/
lemma arg_eq_pure {argv rest : List Ref} {place : Nat} {r : Ref} (h : argv.drop place = r :: rest) :
    (arg argv place : EvalM κ Ref) = pure r := by
  have hplace : argv[place]? = some r := by
    rw [← List.head?_drop, h, List.head?_cons]
  unfold arg
  rw [hplace]

lemma drop_succ_eq {argv rest : List Ref} {place : Nat} {r : Ref}
    (h : argv.drop place = r :: rest) : argv.drop (place + 1) = rest := by
  rw [← List.tail_drop, h, List.tail_cons]

/-- **The walk over the places finds the branches**, and never looks at a place where no word is.

**Proof sketch.** Induction on how many words are left. If there are two, they are a condition and a
body, and what comes after them is either nothing, or a keyword with what belongs to it. -/
lemma ifWalk_eq (E : Engine κ) (argv : List Ref) (place : Nat) :
    ifWalk E argv place = ifChain E (argv.drop place) := by
  induction hleft : argv.length - place using Nat.strong_induction_on generalizing place with
  | h left ih =>
    have hlength : (argv.drop place).length = argv.length - place := List.length_drop
    rw [ifWalk]
    rcases hwords : argv.drop place with _ | ⟨cond, _ | ⟨body, rest⟩⟩
    · rw [hwords, List.length_nil] at hlength
      rw [dif_neg (by omega)]
      rfl
    · rw [hwords, List.length_singleton] at hlength
      rw [dif_neg (by omega)]
      rfl
    -- a condition and its body are there; the walk looks at what comes after them
    · have hbody := drop_succ_eq hwords
      have hrest := drop_succ_eq hbody
      rw [hwords, List.length_cons, List.length_cons] at hlength
      rw [dif_pos (by omega), arg_eq_pure hwords, pure_bind]
      unfold ifChain
      refine bind_congr fun holds => ?_
      cases holds with
      | true => rw [if_pos rfl, if_pos rfl, arg_eq_pure hbody, pure_bind]
      | false =>
        rw [if_neg Bool.false_ne_true, if_neg Bool.false_ne_true]
        cases rest with
        | nil =>
          rw [List.length_nil] at hlength
          rw [if_pos (by omega)]
        | cons keyword rest =>
          have hafter := drop_succ_eq hrest
          rw [List.length_cons] at hlength
          rw [if_neg (by omega), arg_eq_pure hrest, pure_bind]
          refine bind_congr fun word => ?_
          split
          · rw [ih _ (by omega) (place + 3) rfl, show argv.drop (place + 3) = rest from hafter]
          · split
            -- `else` is followed by the last word of all
            next hends =>
              obtain ⟨rfl, hend⟩ := hends
              rcases rest with _ | ⟨last, _ | ⟨_, _⟩⟩
              · rw [List.length_nil] at hlength
                omega
              · rw [arg_eq_pure hafter, pure_bind]
                rfl
              · rw [List.length_cons, List.length_cons] at hlength
                omega
            next hends =>
              split
              next =>
                rw [List.length_singleton] at hlength
                exact absurd ⟨rfl, by omega⟩ hends
              next => rfl

/-! ## Pieces of lists -/

/-- The pieces make up the list. None of them is empty, and none has more elements than they are to
have. -/
structure InPieces {α : Type} (count : Nat) (items : List α) (pieces : List (List α)) : Prop where
  /-- Nothing is lost, and nothing is there twice. -/
  flatten_eq : pieces.flatten = items
  /-- How many elements a piece has. -/
  length : ∀ piece ∈ pieces, 0 < piece.length ∧ piece.length ≤ count

/-- **A list is cut into pieces of at least one element.** -/
lemma inPieces_chunks {α : Type} (size : Nat) (items : List α) :
    InPieces (size + 1) items (chunks size items) := by
  fun_induction chunks size items with
  | case1 => exact ⟨rfl, fun piece hpiece => nomatch hpiece⟩
  | case2 a rest ih =>
    refine ⟨?_, fun piece hpiece => ?_⟩
    · rw [List.flatten_cons, ih.flatten_eq, List.cons_append, List.take_append_drop]
    · obtain rfl | hpiece := List.mem_cons.1 hpiece
      · rw [List.length_cons, List.length_take]
        omega
      · exact ih.length piece hpiece

/-- A loop over a list that has no variable is refused, so that no list is cut into pieces of no
element. -/
lemma raised_foreach (E : Engine κ) {names : Ref} {s : Interp κ} {v : Store}
    (hnames : Store.asList names s.values = .ok [] v) (word list body : Ref) :
    ∃ e t, Builtin.foreach E [word, names, list, body] s = .error (.raised e) t := by
  have hvars : (liftM (Store.asList names) : EvalM κ (List Ref)) s = .ok [] ⟨v, s.context⟩ :=
    liftConv_of_ok hnames
  cases hlist : Store.asList list v with
  | ok items w => exact ⟨_, _, (bind_of_ok hvars).trans (bind_of_ok (liftConv_of_ok hlist))⟩
  | error f w =>
    have hitems : (liftM (Store.asList list) : EvalM κ (List Ref)) ⟨v, s.context⟩ =
        fail f ⟨w, s.context⟩ := by
      rw [liftConv_apply, hlist]
    exact ⟨_, _, (bind_of_ok hvars).trans (bind_of_error hitems)⟩

end Builtin

/-! ## Frames -/

namespace ScopeStack

/-- There is a frame to begin with, and the levels that mean frames mean frames that are there. -/
structure FramesInRange (s : ScopeStack) : Prop where
  /-- There is a top frame. -/
  depth_pos : 0 < s.depth
  /-- The frame that a level means for variables. -/
  place : ∀ level place, s.place? level = .ok place → place < s.depth
  /-- The frame that a level means for evaluation. -/
  evalPlace : ∀ level place, s.evalPlace? level = .ok place → place < s.depth
  /-- The frame that holds what a name stands for. -/
  slot : ∀ name place, place < s.depth → s.slot name place < s.depth
  /-- The frames above the global one. -/
  frame : ∀ place, place + 1 < s.depth → ∃ f, s.locals.get? place = some f
  /-- The frames that are set aside are as many as are to be. -/
  aside : ∀ place, place < s.depth →
    (popMany [] (s.depth - 1 - place) s).1.length = s.depth - 1 - place

/-- **Frames are looked up in range.** -/
lemma framesInRange (s : ScopeStack) : s.FramesInRange where
  depth_pos := Nat.succ_pos _
  place level place h := lt_depth_of_place? h
  evalPlace level place h := by
    obtain ⟨place', hplace, hlt⟩ | hbad := evalPlace?_cases s level
    · rw [hplace] at h
      cases h
      exact hlt
    · rw [hbad] at h
      cases h
  slot name place h := slot_lt_depth h
  frame place h := by
    rw [depth_eq] at h
    have hplace : place < s.locals.toList.length := by omega
    exact ⟨s.locals.toList[place], by rw [Stack.get?_eq, List.getElem?_eq_getElem hplace]⟩
  aside place h := by
    have hcount : s.depth - 1 - place < s.depth := by omega
    have hdepth := depth_popMany [] hcount
    have hlength := congrArg List.length (toList_popMany [] (s.depth - 1 - place) s)
    have hs := depth_eq s
    have hleft := depth_eq (popMany [] (s.depth - 1 - place) s).2
    rw [List.length_append, List.append_nil] at hlength
    omega

end ScopeStack

/-! ## Evaluation -/

namespace Interp

/-- **Nothing is looked up out of range.** In every state that can come about in an interpreter
without commands of an application, whatever is evaluated:

* no evaluation, of a value or of a text, ends with a fault;
* all commands of a script that was read have words, at any depth of brackets, so that there is a
  first one to dispatch by;
* a built-in command does not fault if the number of its words is right, and `if` may look its words
  up by their places;
* the tokens of scripts and lists are cut out of their texts between characters;
* `foreach` without variables is an error, and otherwise it cuts its list into pieces that are not
  empty;
* the frames that levels mean are there. -/
theorem lookups_inRange {s : Interp Empty} (hs : Reachable s) (bound : Nat) :
    (∀ r t, evaluate bound r s ≠ .error .fault t) ∧
    (∀ script t, (do
        let r ← (Store.ofText script : StoreM Ref)
        evaluate bound r : EvalM Empty Ref) s ≠ .error .fault t) ∧
    (∀ text script, Script.read text = .done script → Script.Filled script) ∧
    (∀ argv : List Ref, argv ≠ [] →
      (∀ b : Builtin.Plain, b.arity.check (argv.length - 1) = .ok () →
        ∀ t, b.run argv s ≠ .error .fault t) ∧
      (∀ b : Builtin.Control, b.arity.check (argv.length - 1) = .ok () →
        ∀ t, b.run (engine bound) argv s ≠ .error .fault t) ∧
      ∀ E : Engine Empty, Builtin.Control.if.run E argv = Builtin.ifWalk E argv 1) ∧
    (∀ text, Script.TokensCut text ∧ ListText.TokensCut text) ∧
    (∀ word names list body v, Store.asList names s.values = .ok [] v →
      ∃ e t, Builtin.foreach (engine bound) [word, names, list, body] s = .error (.raised e) t) ∧
    (∀ size (items : List Ref), Builtin.InPieces (size + 1) items (Builtin.chunks size items)) ∧
    s.context.scopes.FramesInRange := by
  have hne : ∀ {o : EStateM.Result Stop (Interp Empty) (Option Ref)}, SafeOutcome o →
      ∀ t, o ≠ .error .fault t := by
    rintro o hout t rfl
    exact hout
  refine ⟨hs.evaluate_ne_fault bound, fun script t => ?_, fun text script => Script.filled_of_read,
    fun argv hargv => ⟨fun b harity => ?_, fun b harity => ?_,
      fun E => ?_⟩,
    fun text => ⟨Script.tokensCut text, ListText.tokensCut text⟩,
    fun word names list body v hnames => Builtin.raised_foreach _ hnames word list body,
    fun size items => Builtin.inPieces_chunks size items, ScopeStack.framesInRange _⟩
  -- a text is evaluated as a new value
  · have hafter : Reachable ⟨(Store.ofText script s.values).2, s.context⟩ :=
      hs.run (.values (Store.grows_alloc (by trivial) s.values))
    exact hafter.evaluate_ne_fault bound _ t
  · exact (Builtin.scriptless_plain (A := fun _ => True) b trivial hargv harity).neverFaults s
  · have hcontrol : Scripted (fun _ => True) (· ≠ .fault) (engine bound : Engine Empty)
        (b.run _ argv) := Builtin.scripted_control (fun _ => nofun) b trivial hargv harity
    exact hne (hcontrol.safe (safe_evaluate bound) s hs.filled)
  · rw [Builtin.ifWalk_eq, List.drop_one]
    rfl

/-- A new interpreter refuses a loop without variables, looks up the argument of `set`, and cuts out
a name with a character of two bytes. -/
theorem lookups_inRange_standard :
    (∀ t, (do
      let r ← (Store.ofText "foreach {} {a b} {}" : StoreM Ref)
      evaluate 5 r : EvalM Empty Ref) standard ≠ .error .fault t) ∧
    (∀ t, Builtin.Plain.set.run [⟨0⟩, ⟨1⟩] (standard : Interp Empty) ≠ .error .fault t) ∧
    ∃ mark, Text.Cut "${é}" mark ⟨4⟩ ['é'] := by
  obtain ⟨-, htext, -, hwords, htokens, -⟩ :=
    lookups_inRange (Reachable.start (standard : Interp Empty).context) 5
  refine ⟨htext _, (hwords [⟨0⟩, ⟨1⟩] (List.cons_ne_nil _ _)).1 .set rfl, ?_⟩
  exact (htokens "${é}").1 ['$', '{', 'é'] ['}'] {} (.plain false {} (.nameInBraces ['é'])) []
    rfl rfl

end Interp

end CommandScript

import CommandScript.Proofs.Evaluation.CustodyPlain
import CommandScript.Proofs.Evaluation.Isolation

/-!
# Values that belong to scripts stay apart from variables

A variable must not hold a value that belongs to a script: the script is kept, and whoever runs it
again would come upon what has become of the value. No variable has such a value itself, in whatever
way it is set: the value is copied first. But the values that a command is given are not copied when
they are collected in a list, and a variable may then have the list. Where no command collects
values, all that variables hold, to any depth, is apart from scripts.

## Main definitions

* `Interp.Reached` — the states that evaluations lead to.
* `Interp.Fresh` — an interpreter in which nothing has happened yet.

## Main results

* `Builtin.keeps_control`, `Interp.keeps_runScript`, `Interp.keeps_evaluate` — evaluation keeps an
  interpreter closed, and `Interp.Reached.closed` that every state it leads to is.
* `Interp.Reached.literals_apart` — what variables hold belongs to no script, but for the elements
  of lists; without commands that collect values, for these too.
* `Interp.Reached.literal_shared` — with such a command, two variables come to share a value that
  belongs to a script.
-/

set_option autoImplicit false

namespace CommandScript

open Marks EvalM

namespace Builtin

variable {tidy : Prop} {μ : Marks} {argv : List Ref} {E : Engine Empty}

/-! ## Commands that run scripts -/

/-- A condition leaves closed interpreters closed, if evaluations do. -/
lemma keeps_condition (hE : ∀ μ r, Keeps tidy μ Valid (E.eval r)) (cond : Ref) :
    Keeps tidy μ Anything (condition E cond) := by
  refine (Keeps.lift (Store.makes_bool? cond)).bindAny fun μ₁ b => ?_
  cases b with
  | some b => exact .pure trivial
  | none => exact (hE μ₁ cond).bindAny fun _ r => .liftConv (Store.makes_asBool r)

/-- So does a round of a loop. -/
lemma keeps_round (hE : ∀ μ r, Keeps tidy μ Valid (E.eval r)) (body : Ref) :
    Keeps tidy μ Anything (round E body) := by
  refine (hE μ body).observe.bind fun μ₁ outcome _ houtcome => ?_
  cases outcome with
  | ok r => exact .pure trivial
  | error e =>
    dsimp only
    split
    · exact .pure trivial
    · exact .pure trivial
    · exact keeps_raise houtcome

/-- So does a script whose result is wanted. -/
lemma keeps_evalResult (hE : ∀ μ r, Keeps tidy μ Valid (E.eval r)) (script : Ref) :
    Keeps tidy μ (Optional Valid) (evalResult E script) :=
  (hE μ script).bind fun _ _ _ hr => keeps_some hr

/-- So does a chain of conditions. -/
lemma keeps_ifChain (hE : ∀ μ r, Keeps tidy μ Valid (E.eval r)) (words : List Ref) :
    Keeps tidy μ (Optional Valid) (ifChain E words) := by
  fun_induction ifChain E words generalizing μ with
  | case1 cond body rest ih =>
    refine (keeps_condition hE cond).bindAny fun _ holds => ?_
    split
    · exact keeps_evalResult hE body
    · split
      · exact keeps_done
      · refine (keeps_text _).bindAny fun _ keyword => ?_
        split
        · exact ih
        · split
          · exact keeps_evalResult hE _
          · exact keeps_fail _
  | case2 => exact keeps_fail _

/-- So does a loop with a condition. -/
lemma keeps_whileLoop (hE : ∀ μ r, Keeps tidy μ Valid (E.eval r)) (cond body : Ref)
    (rounds : Nat) : Keeps tidy μ Anything (whileLoop E cond body rounds) := by
  induction rounds generalizing μ with
  | zero => exact keeps_diverged
  | succ rounds ih =>
    refine (keeps_condition hE cond).bindAny fun _ holds => ?_
    split
    · refine (keeps_round hE body).bindAny fun _ goes => ?_
      split
      · exact ih
      · exact .pure trivial
    · exact .pure trivial

/-- The next item is one of those there are, or new. -/
lemma keeps_loopValue {items : List Ref} (hitems : All Valid μ items) :
    Keeps tidy μ Valid (loopValue items) := by
  unfold loopValue
  split
  next r _ => exact .pure (hitems r List.mem_cons_self)
  next => exact (Keeps.lift (Store.makes_ofText "")).imp fun _ _ _ hr => hr.valid

/-- Variables are bound to values that are there. -/
lemma keeps_bindLoopVars (vars : List Ref) {items : List Ref} (hitems : All Valid μ items) :
    Keeps tidy μ Anything (bindLoopVars vars items) := by
  induction vars generalizing items μ with
  | nil => exact .pure trivial
  | cons var vars ih =>
    rw [bindLoopVars_cons]
    refine (keeps_loopValue hitems).bind fun μ' r hμ hr => ?_
    refine (keeps_text var).bind fun μ₁ name h₁ _ => ?_
    refine (keeps_setVar name (hr.mono h₁) _).bind fun μ₂ _ h₂ _ => ih ?_
    exact firm_valid.all ((hμ.trans h₁).trans h₂) fun q hq => hitems q (List.mem_of_mem_tail hq)

/-- A loop over pieces leaves them closed. -/
lemma keeps_foreachLoop (hE : ∀ μ r, Keeps tidy μ Valid (E.eval r)) (vars : List Ref) (body : Ref)
    {pieces : List (List Ref)} (hpieces : ∀ piece ∈ pieces, All Valid μ piece) :
    Keeps tidy μ Anything (foreachLoop E vars body pieces) := by
  induction pieces generalizing μ with
  | nil => exact .pure trivial
  | cons items pieces ih =>
    refine (keeps_bindLoopVars vars (hpieces items List.mem_cons_self)).bind fun μ₁ _ h₁ _ => ?_
    refine (keeps_round hE body).bind fun μ₂ goes h₂ _ => ?_
    split
    · refine ih fun piece hpiece => firm_valid.all (h₁.trans h₂) ?_
      exact hpieces piece (List.mem_cons_of_mem _ hpiece)
    · exact .pure trivial

/-- The pieces of a list are made of its elements. -/
lemma mem_of_mem_chunks {α : Type} {size : Nat} {items piece : List α} {a : α}
    (hpiece : piece ∈ chunks size items) (ha : a ∈ piece) : a ∈ items := by
  fun_induction chunks size items with
  | case1 => cases hpiece
  | case2 b rest ih =>
    obtain rfl | hpiece := List.mem_cons.1 hpiece
    · obtain rfl | ha := List.mem_cons.1 ha
      · exact List.mem_cons_self
      · exact List.mem_cons_of_mem _ (List.mem_of_mem_take ha)
    · exact List.mem_cons_of_mem _ (List.mem_of_mem_drop (ih hpiece))

/-- So does a script that is evaluated a number of times. -/
lemma keeps_repeatEval (hE : ∀ μ r, Keeps tidy μ Valid (E.eval r)) (script : Ref) (count : Nat) :
    Keeps tidy μ Anything (repeatEval E script count) := by
  induction count generalizing μ with
  | zero => exact .pure trivial
  | succ count ih => exact (hE μ script).bindAny fun _ _ => ih

/-- The frames that are set aside are put back as they were. -/
lemma keeps_evalAt (hE : ∀ μ r, Keeps tidy μ Valid (E.eval r)) (script : Ref) (level : Int) :
    Keeps tidy μ Valid (evalAt E script level) := by
  rintro ⟨v, c⟩ hs
  rw [evalAt_apply]
  split
  · exact keeps_fail _ ⟨v, c⟩ hs
  next place _ =>
    obtain ⟨hleft, htaken⟩ := hs.context.scopes.popMany (c.scopes.depth - 1 - place)
      fun f (hf : f ∈ []) => nomatch hf
    refine keeps_nested firm_valid (fun μ' c' hμ hc' => ?_) (fun μ' _ => hE μ' script)
      (fun μ' c' hμ hc' => ?_) (fun μ' x hx => keeps_conclude hx) ⟨v, c⟩ hs
    · exact ⟨hc'.byName, hc'.byType, hleft.mono hμ, hc'.errorStack⟩
    · have hback := hc'.scopes.pushMany fun f hf => (htaken f hf).mono hμ
      exact ⟨hc'.byName, hc'.byType, hback, hc'.errorStack⟩

/-- So does `eval`. -/
lemma keeps_eval (hE : ∀ μ r, Keeps tidy μ Valid (E.eval r)) (argv : List Ref) :
    Keeps tidy μ (Optional Valid) (Builtin.eval E argv) := by
  unfold Builtin.eval
  split
  · exact keeps_evalResult hE _
  · exact keeps_fault

/-- The last thing that `catch` does: what is caught is at hand already. -/
lemma keeps_answer {caught : Int32 × Ref} (hcaught : Valid μ caught.2) :
    Keeps tidy μ (Optional Valid) (answer argv caught) := by
  unfold answer
  split
  · refine (keeps_text _).bind fun μ₁ name h₁ _ => ?_
    exact (keeps_setVar name (hcaught.mono h₁) _).bindAny fun _ _ => keeps_intResult _
  · exact keeps_intResult _

/-- So does `catch`. -/
lemma keeps_catchSignal (hE : ∀ μ r, Keeps tidy μ Valid (E.eval r)) (hargv : All Valid μ argv) :
    Keeps tidy μ (Optional Valid) (catchSignal E argv) := by
  rw [catchSignal_eq]
  refine (keeps_arg hargv 1).bindAny fun μ₁ script => ?_
  refine (hE μ₁ script).observe.bind fun μ₂ outcome _ houtcome => keeps_answer ?_
  cases outcome with
  | ok r => exact houtcome
  | error e => exact houtcome.value

/-- So does `upeval`. -/
lemma keeps_upeval (hE : ∀ μ r, Keeps tidy μ Valid (E.eval r)) (argv : List Ref) :
    Keeps tidy μ (Optional Valid) (Builtin.upeval E argv) := by
  unfold Builtin.upeval
  split
  · exact (keeps_evalAt hE _ _).bind fun _ _ _ hr => keeps_some hr
  · refine (keeps_asInt _).bindAny fun _ level => ?_
    exact (keeps_evalAt hE _ _).bind fun _ _ _ hr => keeps_some hr
  · exact keeps_fault

/-- How often the script is run is said by an argument. -/
lemma keeps_timeCount (argv : List Ref) : Keeps tidy μ Anything (timeCount argv) := by
  unfold timeCount
  split
  · exact keeps_asInt _
  · exact .pure trivial

/-- `time` leaves them closed. -/
lemma keeps_time (hE : ∀ μ r, Keeps tidy μ Valid (E.eval r)) (hargv : All Valid μ argv) :
    Keeps tidy μ (Optional Valid) (Builtin.time E argv) := by
  rw [time_eq]
  refine (keeps_timeCount argv).bind fun μ' count hμ _ => ?_
  refine (keeps_arg (firm_valid.all hμ hargv) 1).bindAny fun _ script => ?_
  refine keeps_readClock.bindAny fun _ _ => (keeps_repeatEval hE script _).bindAny fun _ _ => ?_
  exact keeps_readClock.bindAny fun _ _ => keeps_longResult _

/-- So does `while`. -/
lemma keeps_loopWhile (hE : ∀ μ r, Keeps tidy μ Valid (E.eval r)) (argv : List Ref) :
    Keeps tidy μ (Optional Valid) (loopWhile E argv) := by
  unfold loopWhile
  split
  · exact (keeps_whileLoop hE _ _ _).bindAny fun _ _ => keeps_done
  · exact keeps_fault

/-- So does `foreach`. -/
lemma keeps_foreach (hE : ∀ μ r, Keeps tidy μ Valid (E.eval r)) (argv : List Ref) :
    Keeps tidy μ (Optional Valid) (Builtin.foreach E argv) := by
  unfold Builtin.foreach
  split
  · refine (Keeps.liftConv (Store.makes_asList _)).bindAny fun _ vars => ?_
    refine (Keeps.liftConv (Store.makes_asList _)).bind fun μ₂ items _ hitems => ?_
    cases vars with
    | nil => exact keeps_fail _
    | cons var others =>
      refine (keeps_foreachLoop hE _ _ fun piece hpiece r hr => ?_).bindAny fun _ _ => keeps_done
      exact (hitems r (mem_of_mem_chunks hpiece hr)).1
  · exact keeps_fault

/-- **Commands that run scripts** keep an interpreter closed, if evaluation does. -/
lemma keeps_control (hE : ∀ μ r, Keeps tidy μ Valid (E.eval r)) (b : Control)
    (hargv : All Valid μ argv) : Keeps tidy μ (Optional Valid) (b.run E argv) :=
  match b with
  | .eval => keeps_eval hE argv
  | .catch => keeps_catchSignal hE hargv
  | .upeval => keeps_upeval hE argv
  | .time => keeps_time hE hargv
  | .if => keeps_ifChain hE argv.tail
  | .while => keeps_loopWhile hE argv
  | .foreach => keeps_foreach hE argv

end Builtin

/-! ## Commands and scripts -/

namespace Command

variable {tidy : Prop} {μ : Marks} {argv : List Ref} {E : Engine Empty}

/-- The result is a value that is there, or empty. -/
lemma keeps_resultOf {r : Option Ref} (h : Optional Valid μ r) :
    Keeps tidy μ Valid (resultOf r : EvalM Empty Ref) := by
  cases r with
  | some r => exact .pure (h r rfl)
  | none => exact (Keeps.lift (Store.makes_ofText "")).imp fun _ _ _ hr => hr.valid

/-- The call of an object leaves them closed. -/
lemma keeps_callObject (hE : ∀ μ r, Keeps tidy μ Valid (E.eval r)) (hargv : All Valid μ argv)
    (value : Ref) {object : Option Object} (hobject : Optional (Object.Closed tidy) μ object) :
    Keeps tidy μ Valid (callObject E argv value object) := by
  unfold callObject
  split
  next p =>
    obtain ⟨htidy, hp⟩ := hobject _ rfl
    exact Procedure.keeps_call hE htidy hp hargv
  · exact (keeps_text value).bindAny fun _ _ => keeps_fail _

/-- So does the call of a value. -/
lemma keeps_invokeValue (hE : ∀ μ r, Keeps tidy μ Valid (E.eval r)) (hargv : All Valid μ argv) :
    Keeps tidy μ Valid (invokeValue E argv) := by
  rw [invokeValue_eq]
  refine (keeps_arg hargv 0).bind fun μ₁ value h₁ _ => ?_
  refine (keeps_objectOf? value).bind fun μ₂ o h₂ _ => ?_
  have hargv₂ := firm_valid.all (h₁.trans h₂) hargv
  cases o with
  | some o =>
    exact (keeps_object? o).bind fun μ₃ object h₃ hobject =>
      keeps_callObject hE (firm_valid.all h₃ hargv₂) value hobject
  | none => exact keeps_callObject hE hargv₂ value optional_none

/-- So does every command. -/
lemma keeps_execute (hE : ∀ μ r, Keeps tidy μ Valid (E.eval r)) (hargv : All Valid μ argv)
    {c : Command Empty} (hc : c.Closed tidy μ) : Keeps tidy μ Valid (c.execute E argv) := by
  cases c with
  | builtin b =>
    refine (keeps_attempt (R := Anything) fun _ _ => trivial).bind fun μ₁ _ h₁ _ => ?_
    have hargv₁ := firm_valid.all h₁ hargv
    cases b with
    | plain b => exact (Builtin.keeps_plain b hc hargv₁).bind fun _ _ _ hr => keeps_resultOf hr
    | control b => exact (Builtin.keeps_control hE b hargv₁).bind fun _ _ _ hr => keeps_resultOf hr
  | host _ _ action => exact action.elim
  | procedure p => exact Procedure.keeps_call hE hc.1 hc.2 hargv
  | invoke => exact keeps_invokeValue hE hargv

end Command

namespace Interp

variable {tidy : Prop} {μ : Marks} {argv : List Ref} {E : Engine Empty}

/-- So does a command that is looked up. -/
lemma keeps_dispatch (hE : ∀ μ r, Keeps tidy μ Valid (E.eval r)) (hargv : All Valid μ argv) :
    Keeps tidy μ Valid (dispatch E argv) := by
  refine (keeps_arg hargv 0).bind fun μ₁ head h₁ _ => (keeps_text head).bind fun μ₂ name h₂ _ => ?_
  have hargv₂ := firm_valid.all (h₁.trans h₂) hargv
  refine .getContextBind fun c hc => ?_
  split
  next command hcommand => exact Command.keeps_execute hE hargv₂ (hc.byName name command hcommand)
  next =>
    refine (keeps_typeOf head).bind fun μ₃ tag h₃ _ => ?_
    refine (keeps_typeCommand tag).bind fun μ₄ found h₄ hfound => ?_
    cases found with
    | some command =>
      exact Command.keeps_execute hE (firm_valid.all (h₃.trans h₄) hargv₂) (hfound command rfl)
    | none =>
      refine (keeps_objectOf? head).bindAny fun _ o => ?_
      cases o with
      | some o => exact keeps_fail _
      | none => exact keeps_fail _

/-- So does one whose errors are traced. -/
lemma keeps_runCommand (hE : ∀ μ r, Keeps tidy μ Valid (E.eval r)) (hargv : All Valid μ argv) :
    Keeps tidy μ Valid (runCommand E argv) := by
  refine (keeps_dispatch hE hargv).observe.bind fun μ₁ outcome _ houtcome => ?_
  cases outcome with
  | ok r => exact .pure houtcome
  | error e =>
    dsimp only
    split
    · have hframe : StoreM.Makes tidy μ₁ Free (do Store.ofText (← Store.listText argv)) :=
        (Store.makes_listText argv).bind fun _ _ _ _ => Store.makes_ofText _
      refine (Keeps.lift hframe).bind fun μ₂ frame h₂ hframe => keeps_raise ?_
      exact (Exception.firm_closed h₂ houtcome).addFrame hframe
    · exact keeps_raise houtcome

mutual

/-- **The commands of a script** are given values that are there: values of the script, of variables
and of other commands. -/
theorem keeps_runScript (hE : ∀ μ r, Keeps tidy μ Valid (E.eval r)) (μ : Marks)
    (last : Option Ref) (hlast : Optional Valid μ last) :
    ∀ script, All Valid μ (Script.literals script) → Keeps tidy μ Valid (runScript E last script)
  | [], _ => Command.keeps_resultOf hlast
  | words :: rest, h => by
    rw [Script.literals] at h
    have hwords : All Valid μ (Script.wordsLiterals words) := fun r hr =>
      h r (List.mem_append_left _ hr)
    have hrest : All Valid μ (Script.literals rest) := fun r hr => h r (List.mem_append_right _ hr)
    refine (keeps_evalWords hE μ words hwords).bind fun μ₁ argv h₁ hargv => ?_
    refine (keeps_runCommand hE hargv).bind fun μ₂ r h₂ hr => ?_
    refine keeps_runScript hE μ₂ (some r) (fun q hq => ?_) rest
      (firm_valid.all (h₁.trans h₂) hrest)
    cases hq
    exact hr

/-- So do the words of a command; each comes to a value that is there. -/
theorem keeps_evalWords (hE : ∀ μ r, Keeps tidy μ Valid (E.eval r)) (μ : Marks) :
    ∀ words, All Valid μ (Script.wordsLiterals words) →
      Keeps tidy μ (All Valid) (evalWords E words)
  | [], _ => .pure fun _ hr => nomatch hr
  | w :: rest, h => by
    rw [Script.wordsLiterals] at h
    have hw : All Valid μ (Script.wordLiterals w) := fun r hr => h r (List.mem_append_left _ hr)
    have hrest : All Valid μ (Script.wordsLiterals rest) := fun r hr =>
      h r (List.mem_append_right _ hr)
    refine (keeps_evalWord hE μ w hw).bind fun μ₁ r h₁ hr => ?_
    refine (keeps_evalWords hE μ₁ rest (firm_valid.all h₁ hrest)).bind fun μ₂ rs h₂ hrs => ?_
    refine .pure fun q hq => ?_
    obtain rfl | hq := List.mem_cons.1 hq
    · exact hr.mono h₂
    · exact hrs q hq

/-- So does a single word. -/
theorem keeps_evalWord (hE : ∀ μ r, Keeps tidy μ Valid (E.eval r)) (μ : Marks) :
    ∀ w, All Valid μ (Script.wordLiterals w) → Keeps tidy μ Valid (evalWord E w)
  | .literal r, h => .pure (h r (by simp [Script.wordLiterals]))
  | .var name, _ => (keeps_getVar name (-1)).imp fun _ _ _ hr => hr.valid
  | .substitution script, h => by
    rw [Script.wordLiterals] at h
    exact keeps_runScript hE μ none optional_none script h
  | .joined parts, h => by
    rw [Script.wordLiterals] at h
    refine (keeps_evalWords hE μ parts h).bind fun μ₁ rs _ hrs => ?_
    split
    next r => exact .pure (hrs r List.mem_cons_self)
    next =>
      refine (Keeps.lift (Store.makes_texts rs)).bindAny fun _ _ => ?_
      exact (Keeps.lift (Store.makes_ofText _)).imp fun _ _ _ hr => hr.valid

end

/-- The literals of a script that has been read are values that are there. -/
lemma keeps_scriptOf (r : Ref) :
    Keeps tidy μ (fun μ' script => All Valid μ' (Script.literals script)) (scriptOf r) := by
  refine (Keeps.lift (Store.makes_asScript r)).bind fun μ₁ outcome _ houtcome => ?_
  cases outcome with
  | done script => exact .pure houtcome
  | failed e => exact keeps_fail _
  | stuck => exact keeps_diverged

/-- The note of an error leaves them closed. -/
lemma keeps_noted {outcome : Except Exception Ref} (h : Observed tidy Valid μ outcome) :
    Keeps tidy μ Valid (noted outcome) := by
  cases outcome with
  | ok r => exact .pure h
  | error e =>
    have hnote : Keeps tidy μ Anything (noteError e) := by
      unfold noteError
      split
      next herror =>
        refine (Keeps.lift (e.makes_diagnosis h herror)).bind fun μ₁ stack _ hstack => ?_
        exact keeps_modifyContext fun c hc => ⟨hc.byName, hc.byType, hc.scopes, hstack⟩
      next => exact .pure trivial
    exact hnote.bind fun _ _ hμ _ => keeps_raise (Exception.firm_closed hμ h)

/-- So does the way out of an evaluation. -/
lemma keeps_release {outcome : Except Exception Ref} (h : Observed tidy Valid μ outcome) :
    Keeps tidy μ Valid (release outcome) := by
  refine .getContextBind fun c _ => ?_
  split
  · exact (keeps_settle h).observe.bind fun _ _ _ hsettled => keeps_noted hsettled
  · exact keeps_noted h

/-- So does a nested evaluation. -/
lemma keeps_evalNested (hE : ∀ μ r, Keeps tidy μ Valid (E.eval r)) (r : Ref) :
    Keeps tidy μ Valid (evalNested E r) := by
  rintro ⟨v, c⟩ hs
  rw [evalNested_apply]
  split
  · exact keeps_fail _ ⟨v, c⟩ hs
  · refine keeps_nested firm_valid (fun _ _ _ hc => ?_) (fun μ' _ => ?_) (fun _ _ _ hc => ?_)
      (fun _ _ hx => keeps_release hx) ⟨v, c⟩ hs
    · exact ⟨hc.byName, hc.byType, hc.scopes, hc.errorStack⟩
    · exact (keeps_scriptOf r).bind fun μ₁ script _ hscript =>
        keeps_runScript hE μ₁ none optional_none script hscript
    · exact ⟨hc.byName, hc.byType, hc.scopes, hc.errorStack⟩

/-- **Evaluation keeps an interpreter closed**, whatever the bound and the outcome.

**Proof sketch.** Induction on the bound: what is nested is evaluated with a smaller one. -/
theorem keeps_evaluate (bound : Nat) (μ : Marks) (r : Ref) :
    Keeps tidy μ Valid (evaluate bound r : EvalM Empty Ref) := by
  induction bound generalizing μ r with
  | zero => exact keeps_diverged
  | succ bound ih => exact keeps_evalNested ih r

end Interp

/-! ## What variables hold -/

namespace Store

variable {tidy : Prop} {μ : Marks} {s : Store} {r q : Ref}

/-- If lists are tidy, no part of a list or hash belongs to a script. -/
lemma Closed.free_of_mem_parts (hs : s.Closed tidy μ) (htidy : tidy)
    (hq : q ∈ (s.cell r).rep.parts) : μ.Free q := by
  have hform := hs.forms r
  cases hrep : (s.cell r).rep with
  | list items =>
    rw [hrep] at hform hq
    exact (hform q hq).2 htidy
  | hash entries =>
    rw [hrep] at hform hq
    exact hform q hq
  | _ =>
    rw [hrep] at hq
    cases hq

/-- If lists are tidy, nothing that a value holds belongs to a script. -/
lemma Closed.free_of_holds (hs : s.Closed tidy μ) (htidy : tidy) (hr : μ.Free r)
    (h : s.Holds r q) : μ.Free q := by
  cases h with
  | itself => exact hr
  | element _ hq => exact hs.free_of_mem_parts htidy hq

/-- A value that belongs to a script and is held is an element of a list. -/
lemma Closed.mem_list_of_holds (hs : s.Closed tidy μ) (hr : μ.Free r) (h : s.Holds r q)
    (hq : s.isLiteral q = true) :
    ∃ e items, s.Holds r e ∧ (s.cell e).rep = .list items ∧ q ∈ items.toList := by
  have hbound : ¬ μ.Free q := fun hfree => by
    rw [hs.isLiteral_of_free hfree] at hq
    cases hq
  cases h with
  | itself => exact absurd hr hbound
  | @element e _ he hpart =>
    have hform := hs.forms e
    cases hrep : (s.cell e).rep with
    | list items =>
      rw [hrep] at hpart
      exact ⟨e, items, he, hrep, hpart⟩
    | hash entries =>
      rw [hrep] at hform hpart
      exact absurd (hform q hpart) hbound
    | _ =>
      rw [hrep] at hpart
      cases hpart

end Store

namespace Interp

/-- Some variable in some frame has the value. -/
def Bound (s : Interp Empty) (r : Ref) : Prop :=
  ∃ place name, (s.context.scopes.frame place).find? name = some (.value r)

/-- An interpreter in which nothing has happened yet: there are no values, no variables and no
procedures. -/
structure Fresh (s : Interp Empty) : Prop where
  /-- There are no values. -/
  values : s.values = {}
  /-- There are no variables. -/
  scopes : s.context.scopes = {}
  /-- There was no error. -/
  errorStack : s.context.errorStack = .empty
  /-- No name stands for a procedure. -/
  byName : ∀ name p, s.context.commands.find? name ≠ some (.procedure p)
  /-- No procedure is found for a type. -/
  byType : ∀ tag p, (s.context.typeCommands.resolve tag).1 ≠ some (.procedure p)

/-- What a text makes of an interpreter when it is evaluated. -/
def afterText (bound : Nat) (script : String) (s : Interp Empty) : Interp Empty :=
  finalState ((do
    let r ← (Store.ofText script : StoreM Ref)
    evaluate bound r : EvalM Empty Ref) s)

/-- The states that evaluations lead to, one after another, of texts, of values, and at another
level, whether they have a result, raise an exception, end the program or are given up. -/
inductive Reached (start : Interp Empty) : Interp Empty → Prop
  /-- Nothing has happened yet. -/
  | start : Reached start start
  /-- A text is evaluated. -/
  | text {s : Interp Empty} (h : Reached start s) (bound : Nat) (script : String) :
    Reached start (afterText bound script s)
  /-- A value is evaluated. -/
  | value {s : Interp Empty} (h : Reached start s) (bound : Nat) (r : Ref) :
    Reached start (finalState (evaluate bound r s))
  /-- A value is evaluated at another level. -/
  | valueAt {s : Interp Empty} (h : Reached start s) (bound : Nat) (r : Ref) (level : Int) :
    Reached start (finalState (Builtin.evalAt (engine bound) r level s))

/-- An interpreter in which nothing has happened is closed; its lists may be asked to be tidy if it
lacks the commands that collect values. -/
lemma Fresh.closed {tidy : Prop} {start : Interp Empty} (h : start.Fresh)
    (htidy : tidy → ∀ b ∈ Builtin.collectors, start.Lacks b) : start.Closed tidy [] where
  values := h.values ▸ Store.closed_empty
  context :=
    { byName := by
        intro name command hfind
        cases command with
        | builtin b => exact fun ht hb => (htidy ht b hb).byName name hfind
        | host _ _ action => exact action.elim
        | procedure p => exact absurd hfind (h.byName name p)
        | invoke => trivial
      byType := by
        intro tag command hfound
        cases command with
        | builtin b => exact fun ht hb => (htidy ht b hb).byType tag hfound
        | host _ _ action => exact action.elim
        | procedure p => exact absurd hfound (h.byType tag p)
        | invoke => trivial
      scopes := h.scopes ▸ ScopeStack.closed_empty
      errorStack := by
        rw [h.errorStack]
        exact fun _ hr => nomatch hr }

/-- **Every state that evaluations lead to is closed.** -/
lemma Reached.closed {tidy : Prop} {start s : Interp Empty} (h : Reached start s)
    (hstart : start.Closed tidy []) : ∃ μ, s.Closed tidy μ := by
  induction h with
  | start => exact ⟨[], hstart⟩
  | text _ bound script ih =>
    obtain ⟨μ, hs⟩ := ih
    have hkeeps : Keeps tidy μ Valid (do
        let r ← (Store.ofText script : StoreM Ref)
        evaluate bound r) :=
      (Keeps.lift (Store.makes_ofText script)).bindAny fun μ' r => keeps_evaluate bound μ' r
    obtain ⟨μ', -, hs'⟩ := (hkeeps _ hs).closed
    exact ⟨μ', hs'⟩
  | value _ bound r ih =>
    obtain ⟨μ, hs⟩ := ih
    obtain ⟨μ', -, hs'⟩ := (keeps_evaluate bound μ r _ hs).closed
    exact ⟨μ', hs'⟩
  | valueAt _ bound r level ih =>
    obtain ⟨μ, hs⟩ := ih
    have hkeeps : Keeps tidy μ Valid (Builtin.evalAt (engine bound) r level) :=
      Builtin.keeps_evalAt (fun μ' r' => keeps_evaluate bound μ' r') r level
    obtain ⟨μ', -, hs'⟩ := (hkeeps _ hs).closed
    exact ⟨μ', hs'⟩

/-- In every state that evaluations lead to, values are written with older values. -/
lemma Reached.founded {start s : Interp Empty} (hstart : start.Fresh) (h : Reached start s) :
    s.values.Founded := by
  obtain ⟨μ, hclosed⟩ := h.closed (hstart.closed False.elim)
  exact hclosed.values.founded

/-- An interpreter with commands of the language only, and only the call of procedures by type. -/
lemma fresh_of_builtins {s : Interp Empty} {pairs : List (String × Builtin)}
    (hvalues : s.values = {}) (hscopes : s.context.scopes = {})
    (herrors : s.context.errorStack = .empty)
    (hnames : s.context.commands = Table.ofPairs (pairs.map fun e => (e.1, .builtin e.2)))
    (hfound : s.context.typeCommands.found = .empty)
    (htypes : s.context.typeCommands.entries = [(.proc, .invoke)]) : s.Fresh where
  values := hvalues
  scopes := hscopes
  errorStack := herrors
  byName := by
    intro name p hfind
    rw [hnames] at hfind
    obtain hmem | hfind := Table.mem_or_find?_of_find?_insertAll hfind
    · obtain ⟨e, -, heq⟩ := List.mem_map.1 hmem
      cases heq
    · cases hfind
  byType := by
    intro tag p hfind
    obtain ⟨u, hmem⟩ := TypeCommands.mem_of_resolve hfound hfind
    rw [htypes] at hmem
    cases List.mem_singleton.1 hmem

/-- The interpreter with the commands of the language is fresh. -/
lemma fresh_standard : (standard : Interp Empty).Fresh :=
  fresh_of_builtins rfl rfl rfl rfl rfl rfl

/-- So is one without some of them. -/
lemma fresh_without (removed : List Builtin) : (without removed).Fresh :=
  fresh_of_builtins rfl rfl rfl rfl rfl rfl

/-- **Values that belong to scripts stay apart from variables, but for lists.** In every state that
evaluations lead to, for every variable in every frame: its value belongs to no script. If what it
holds does, it is an element of a list, never of a hash. And if no command is at hand that collects
values, nothing that it holds belongs to a script, however deep. -/
theorem Reached.literals_apart {start s : Interp Empty} {r : Ref} (hstart : start.Fresh)
    (hs : Reached start s) (hr : s.Bound r) :
    s.values.isLiteral r = false ∧
    (∀ q, s.values.Holds r q → s.values.isLiteral q = true →
      ∃ e items, s.values.Holds r e ∧ (s.values.cell e).rep = .list items ∧ q ∈ items.toList) ∧
    ((∀ b ∈ Builtin.collectors, start.Lacks b) →
      ∀ q, s.values.Holds r q → s.values.isLiteral q = false) := by
  obtain ⟨μ, hclosed⟩ := hs.closed (hstart.closed id)
  obtain ⟨place, name, hfind⟩ := hr
  have hfree : μ.Free r := (hclosed.context.scopes.frame place).find? hfind
  refine ⟨hclosed.values.isLiteral_of_free hfree, fun q hq hliteral => ?_, fun htidy q hq => ?_⟩
  · exact hclosed.values.mem_list_of_holds hfree hq hliteral
  · exact hclosed.values.isLiteral_of_free (hclosed.values.free_of_holds htidy hfree hq)

/-- Where words were split, but nothing was collected: `x` has a list, with two elements. -/
def afterSplit : Interp Empty :=
  afterText 2 "set x {a b}; llength $x" (without Builtin.collectors)

/-- The elements of a list that was split off a text belong to no script. -/
theorem Reached.literals_apart_afterSplit :
    ∃ r, afterSplit.context.scopes.globals.find? "x" = some (.value r) ∧
      (afterSplit.values.cell r).rep.parts = [⟨6⟩, ⟨7⟩] ∧
      ∀ q, afterSplit.values.Holds r q → afterSplit.values.isLiteral q = false := by
  have hx : afterSplit.context.scopes.globals.find? "x" = some (.value ⟨5⟩) := by decide +kernel
  have hparts : (afterSplit.values.cell ⟨5⟩).rep.parts = [⟨6⟩, ⟨7⟩] := by decide +kernel
  have hs : Reached (without Builtin.collectors) afterSplit := Reached.start.text 2 _
  have hbound : afterSplit.Bound ⟨5⟩ := ⟨0, "x", hx⟩
  have hlacks : ∀ b ∈ Builtin.collectors, (without Builtin.collectors).Lacks b :=
    fun _ hb => lacks_without hb
  exact ⟨⟨5⟩, hx, hparts, (Reached.literals_apart (fresh_without _) hs hbound).2.2 hlacks⟩

/-- Where one word of a script was collected in two lists. -/
def afterCollect : Interp Empty :=
  afterText 3 "foreach v {x y} {set $v [list a]}" standard

/-- **Two variables share a value that belongs to a script.** The body of the loop is run for both
variables, and the list that it makes holds the word `a` of the body as it is, each time. -/
theorem Reached.literal_shared :
    (standard : Interp Empty).Fresh ∧ Reached standard afterCollect ∧ ∃ x y q, x ≠ y ∧
      afterCollect.context.scopes.globals.find? "x" = some (.value x) ∧
      afterCollect.context.scopes.globals.find? "y" = some (.value y) ∧
      afterCollect.values.Holds x q ∧ afterCollect.values.Holds y q ∧
      afterCollect.values.isLiteral q = true := by
  have hx : afterCollect.context.scopes.globals.find? "x" = some (.value ⟨11⟩) := by decide +kernel
  have hy : afterCollect.context.scopes.globals.find? "y" = some (.value ⟨12⟩) := by decide +kernel
  have hxa : ⟨10⟩ ∈ (afterCollect.values.cell ⟨11⟩).rep.parts := by decide +kernel
  have hya : ⟨10⟩ ∈ (afterCollect.values.cell ⟨12⟩).rep.parts := by decide +kernel
  have hliteral : afterCollect.values.isLiteral ⟨10⟩ = true := by decide +kernel
  exact ⟨fresh_standard, Reached.start.text 3 _, ⟨11⟩, ⟨12⟩, ⟨10⟩, by decide, hx, hy,
    .element .itself hxa, .element .itself hya, hliteral⟩

end Interp

end CommandScript

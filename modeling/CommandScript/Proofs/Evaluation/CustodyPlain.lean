import CommandScript.Proofs.Evaluation.Custody

/-!
# Plain commands keep what an interpreter has in its keeping

The results of the commands that run no script are there: they are new, or were found in a variable,
in a list or in a hash, or are one of the values that the command was given. The commands that
collect values need that lists are not to be tidy.

## Main results

* `Builtin.keeps_set`, `Builtin.keeps_list`, `Builtin.keeps_lappend` and others — one for each
  command.
* `Builtin.keeps_plain` — all of them.
-/

set_option autoImplicit false

namespace CommandScript

open Marks EvalM

/-- The thing is of this kind, if there is one. -/
def Marks.Optional {α : Type} (R : Marks → α → Prop) (μ : Marks) (x : Option α) : Prop :=
  ∀ a, x = some a → R μ a

/-- Nothing is of any kind. -/
lemma Marks.optional_none {α : Type} {R : Marks → α → Prop} {μ : Marks} : Optional R μ none := by
  rintro a ⟨⟩

namespace Builtin

variable {tidy : Prop} {μ : Marks} {argv : List Ref}

/-- A value that is there may be a result. -/
lemma keeps_some {r : Ref} (h : μ.Valid r) :
    Keeps tidy μ (Optional Valid) (pure (some r) : EvalM Empty (Option Ref)) := by
  refine .pure fun q hq => ?_
  cases hq
  exact h

/-- There may be no result. -/
lemma keeps_done : Keeps tidy μ (Optional Valid) done :=
  .pure optional_none

/-- A new value may be a result. -/
lemma keeps_result {m : StoreM Ref} (hm : m.Makes tidy μ Free) :
    Keeps tidy μ (Optional Valid) (result m) :=
  (Keeps.lift hm).bind fun _ _ _ hr => keeps_some hr.valid

/-- The result may be a text. -/
lemma keeps_textResult (text : String) :
    Keeps tidy μ (Optional Valid) (result (Store.ofText text)) :=
  keeps_result (Store.makes_ofText text)

/-- It may be an integer. -/
lemma keeps_intResult (n : Int32) : Keeps tidy μ (Optional Valid) (result (Store.ofInt n)) :=
  keeps_result (Store.makes_ofInt n)

/-- It may be a truth value. -/
lemma keeps_boolResult (b : Bool) : Keeps tidy μ (Optional Valid) (result (Store.ofBool b)) :=
  keeps_intResult _

/-- It may be an integer of 64 bits. -/
lemma keeps_longResult (n : Int64) : Keeps tidy μ (Optional Valid) (result (Store.ofLong n)) :=
  keeps_result (Store.makes_ofRep trivial nofun)

/-- It may be a list of texts. -/
lemma keeps_textsResult (texts : List String) :
    Keeps tidy μ (Optional Valid) (textsResult texts) :=
  keeps_result <| (Store.makes_ofTexts texts).bind fun _ _ _ hitems =>
    Store.makes_ofList fun r hr => (hitems r hr).part

/-! ## Variables, commands and types -/

/-- `set` gives a value that is there to the variable, or finds the value that it has. -/
lemma keeps_set (hargv : All Valid μ argv) : Keeps tidy μ (Optional Valid) (Builtin.set argv) := by
  unfold Builtin.set
  split
  · exact (keeps_text _).bindAny fun _ _ => (keeps_getVar _ _).bind fun _ _ _ hr =>
      keeps_some hr.valid
  next value =>
    refine (keeps_text _).bind fun μ₁ _ h₁ _ => ?_
    have hvalue : μ.Valid value := hargv value (by simp)
    exact (keeps_setVar _ (hvalue.mono h₁) _).bind fun _ _ _ hr => keeps_some hr.valid
  · exact keeps_fault

/-- `unset` has no result. -/
lemma keeps_unset (argv : List Ref) : Keeps tidy μ (Optional Valid) (Builtin.unset argv) := by
  unfold Builtin.unset
  split
  · exact (keeps_text _).bindAny fun _ _ => (keeps_unsetVar _ _).bindAny fun _ _ => keeps_done
  · exact keeps_fault

/-- `exists` has a new result. -/
lemma keeps_isSet (argv : List Ref) : Keeps tidy μ (Optional Valid) (isSet argv) := by
  unfold isSet
  split
  · exact (keeps_text _).bindAny fun _ _ => (keeps_hasVar _ _).bindAny fun _ _ =>
      keeps_boolResult _
  · exact keeps_fault

/-- `copy` has a new result. -/
lemma keeps_copy (hargv : All Valid μ argv) :
    Keeps tidy μ (Optional Valid) (Builtin.copy argv) := by
  unfold Builtin.copy
  split
  next value => exact keeps_result (Store.makes_copy (hargv value (by simp)))
  · exact keeps_fault

/-- `global` links variables of the global frame. -/
lemma keeps_global (argv : List Ref) : Keeps tidy μ (Optional Valid) (Builtin.global argv) := by
  unfold Builtin.global
  split
  · refine (Keeps.forM (fun _ name _ => ?_) _).bindAny fun _ _ => keeps_done
    exact (keeps_text name).bindAny fun _ _ => keeps_linkGlobal _
  · exact keeps_fault

/-- `proc` keeps its body and its defaults; they may be literals, so lists are not to be tidy. -/
lemma keeps_proc (htidy : ¬ tidy) (hargv : All Valid μ argv) :
    Keeps tidy μ (Optional Valid) (Builtin.proc argv) := by
  have hdefine : ∀ {μ' spec body}, μ <+: μ' → spec ∈ argv → body ∈ argv →
      Keeps tidy μ' (fun μ'' p => p.Valid μ'') (liftM (Procedure.define spec body)) :=
    fun hμ hspec hbody => .liftConv
      (Procedure.makes_define ((hargv _ hspec).mono hμ) ((hargv _ hbody).mono hμ))
  unfold Builtin.proc
  split
  · refine (hdefine List.prefix_rfl (by simp) (by simp)).bind fun μ₁ p _ hp => ?_
    have hobject : Object.Closed tidy μ₁ (.procedure p) := ⟨htidy, hp⟩
    exact keeps_result (Store.makes_ofObject hobject)
  · refine (keeps_text _).bind fun μ₁ name h₁ _ => ?_
    refine (hdefine h₁ (by simp) (by simp)).bind fun μ₂ p _ hp => ?_
    exact (keeps_addProcedure name htidy hp).bindAny fun _ _ => keeps_done
  · exact keeps_fault

/-- `rename` moves a command that is there. -/
lemma keeps_rename (argv : List Ref) : Keeps tidy μ (Optional Valid) (Builtin.rename argv) := by
  unfold Builtin.rename
  split
  · refine (keeps_text _).bindAny fun _ old => (keeps_text _).bindAny fun _ new => ?_
    exact (keeps_renameCommand old new).bindAny fun _ _ => keeps_done
  · exact keeps_fault

/-- `alias` gives it a further name. -/
lemma keeps_addAlias (argv : List Ref) :
    Keeps tidy μ (Optional Valid) (Builtin.addAlias argv) := by
  unfold Builtin.addAlias
  split
  · refine (keeps_text _).bindAny fun _ old => (keeps_text _).bindAny fun _ new => ?_
    exact (keeps_aliasCommand old new).bindAny fun _ _ => keeps_done
  · exact keeps_fault

/-- `intro` tells in new values what there is. -/
lemma keeps_intro (hargv : All Valid μ argv) :
    Keeps tidy μ (Optional Valid) (Builtin.intro argv) := by
  refine (keeps_subcommand hargv 1 topics).bind fun μ₁ topic h₁ _ => ?_
  cases topic with
  | commands =>
    refine (keeps_checkArgs _ _ _ _ _).bindAny fun _ _ => ?_
    exact .getContextBind fun _ _ => keeps_textsResult _
  | errorStack =>
    refine (keeps_checkArgs _ _ _ _ _).bindAny fun _ _ => .getContextBind fun c hc => ?_
    exact keeps_result (Store.makes_ofList fun r hr => (hc.errorStack r hr).part)
  | procCode =>
    refine (keeps_checkArgs _ _ _ _ _).bind fun μ₂ _ h₂ _ => ?_
    have hargv₂ : All Valid μ₂ argv := firm_valid.all (h₁.trans h₂) hargv
    refine (keeps_arg hargv₂ 2).bindAny fun _ r => (keeps_text r).bindAny fun _ name => ?_
    exact (keeps_procedureNamed name).bind fun _ _ _ hp => keeps_some hp.body
  | procs =>
    exact (keeps_checkArgs _ _ _ _ _).bindAny fun _ _ => keeps_procedureNames.bindAny fun _ _ =>
      keeps_textsResult _
  | vars =>
    refine (keeps_checkArgs _ _ _ _ _).bindAny fun _ _ => ?_
    split
    · refine (keeps_asInt _).bindAny fun _ level => ?_
      exact (keeps_varNames _).bindAny fun _ _ => keeps_textsResult _
    · exact (keeps_varNames _).bindAny fun _ _ => keeps_textsResult _

/-- `return` raises an exception with a value that is there. -/
lemma keeps_returnValue (hargv : All Valid μ argv) :
    Keeps tidy μ (Optional Valid) (returnValue argv) := by
  unfold returnValue
  split
  · refine (Keeps.lift (Store.makes_ofText _)).bind fun _ r _ hr => ?_
    exact keeps_raise (Exception.closed_ofReturn hr.valid)
  next value => exact keeps_raise (Exception.closed_ofReturn (hargv value (by simp)))
  · exact keeps_fault

/-- A message that belongs to a script becomes an element of a list when the error is noted. -/
lemma keeps_throwMessage (htidy : ¬ tidy) (hargv : All Valid μ argv) :
    Keeps tidy μ (Optional Valid) (throwMessage argv) := by
  have hparts := hargv.parts htidy
  unfold throwMessage
  split
  next message =>
    have hmessage : μ.Part tidy message := hparts message (by simp)
    exact (Keeps.lift (Exception.makes_thrown hmessage _)).bind fun _ _ _ he => keeps_raise he
  next message _ =>
    have hmessage : μ.Part tidy message := hparts message (by simp)
    refine (keeps_text _).bind fun μ₁ label h₁ _ => ?_
    have hthrown := Exception.makes_thrown (hmessage.mono h₁) (some label)
    exact (Keeps.lift hthrown).bind fun _ _ _ he => keeps_raise he
  · exact keeps_fault

/-- A signal has new values. -/
lemma keeps_signal (code : Code) : Keeps tidy μ (Optional Valid) (signal code) :=
  (Keeps.lift (Exception.makes_signal code)).bind fun _ _ _ he => keeps_raise he

/-- `classof` has a new result. -/
lemma keeps_classof (argv : List Ref) : Keeps tidy μ (Optional Valid) (classof argv) := by
  unfold classof
  split
  · exact (keeps_typeOf _).bindAny fun _ _ => keeps_textResult _
  · exact keeps_fault

/-- So has `hasclass`. -/
lemma keeps_hasclass (argv : List Ref) : Keeps tidy μ (Optional Valid) (hasclass argv) := by
  unfold hasclass
  split
  · exact (keeps_text _).bindAny fun _ _ => .getContextBind fun _ _ => keeps_boolResult _
  · exact keeps_fault

/-! ## Lists, hashes and integers -/

/-- The values are collected in a list. -/
lemma keeps_list (htidy : ¬ tidy) (hargv : All Valid μ argv) :
    Keeps tidy μ (Optional Valid) (list argv) := by
  have hparts := hargv.parts htidy
  unfold list
  split
  · exact keeps_result (Store.makes_ofList fun r hr => hparts r (List.mem_cons_of_mem _ hr))
  · exact keeps_fault

/-- So has `llength`. -/
lemma keeps_llength (argv : List Ref) : Keeps tidy μ (Optional Valid) (llength argv) := by
  unfold llength
  split
  · exact (Keeps.liftConv (Store.makes_asStack _)).bindAny fun _ _ => keeps_intResult _
  · exact keeps_fault

/-- An element is there, or an empty value is made. -/
lemma keeps_orBlank {r : Option Ref} (h : Optional Valid μ r) :
    Keeps tidy μ (Optional Valid) (orBlank r) := by
  cases r with
  | some r => exact keeps_some (h r rfl)
  | none => exact keeps_textResult _

/-- An element that is picked is one of the elements. -/
lemma mem_of_elementAt? {items : Stack Ref} {place : Int32} {r : Ref}
    (h : elementAt? items place = some r) : r ∈ items.toList := by
  unfold elementAt? at h
  split at h
  · cases h
  · rw [Stack.get?_eq] at h
    exact List.mem_of_getElem? h

/-- `lindex` picks an element, which is there. -/
lemma keeps_lindex (argv : List Ref) : Keeps tidy μ (Optional Valid) (lindex argv) := by
  unfold lindex
  split
  · refine (Keeps.liftConv (Store.makes_asStack _)).bind fun μ₁ items _ hitems => ?_
    refine (keeps_asInt _).bind fun μ₂ place h₂ _ => keeps_orBlank fun r hr => ?_
    exact (hitems r (mem_of_elementAt? hr)).1.mono h₂
  · exact keeps_fault

/-- The values are added to a list. -/
lemma keeps_lappend (htidy : ¬ tidy) (hargv : All Valid μ argv) :
    Keeps tidy μ (Optional Valid) (lappend argv) := by
  unfold lappend
  split
  next name added =>
    have hadded : All Valid μ added := fun r hr => hargv r (by simp [hr])
    refine (keeps_text _).bind fun μ₁ name h₁ _ => (keeps_hasVar _ _).bind fun μ₂ known h₂ _ => ?_
    have hstore : ∀ (μ' : Marks) (items : Stack Ref), μ <+: μ' → All (Part tidy) μ' items.toList →
        Keeps tidy μ' (Optional Valid) (do
          let r ← (Store.ofStack (items.pushAll added) : StoreM Ref)
          let r ← setVar name r (-1)
          return some r : EvalM Empty (Option Ref)) := by
      intro μ' items hμ hitems
      have hform : Rep.Closed tidy μ' (.list (items.pushAll added)) := by
        intro e he
        rw [Stack.toList_pushAll] at he
        obtain he | he := List.mem_append.1 he
        · exact hitems e he
        · exact (firm_valid.all hμ hadded).parts htidy e he
      refine (Keeps.lift (Store.makes_ofRep hform nofun)).bind fun _ r _ hr => ?_
      exact (keeps_setVar name hr.valid _).bind fun _ _ _ hr => keeps_some hr.valid
    dsimp only
    split
    · refine (keeps_getVar _ _).bind fun μ₃ r h₃ _ => ?_
      refine (Keeps.liftConv (Store.makes_asStack r)).bind fun μ₄ items h₄ hitems => ?_
      exact hstore μ₄ items (((h₁.trans h₂).trans h₃).trans h₄) hitems
    · have hempty : Keeps tidy μ₂ (fun μ' items => All (Part tidy) μ' items.toList)
          (pure .empty : EvalM Empty (Stack Ref)) := .pure fun _ he => nomatch he
      exact hempty.bind fun μ₃ items h₃ hitems =>
        hstore μ₃ items ((h₁.trans h₂).trans h₃) hitems
  · exact keeps_fault

/-- Sorting brings in no other values. -/
lemma makes_sorted {items : List Ref} (h : All (Part tidy) μ items) :
    StoreM.Makes tidy μ (All (Part tidy)) (sorted items) := by
  unfold sorted
  split
  · exact .pure h
  · exact .pure h
  · refine (Store.makes_texts items).bind fun μ₁ texts h₁ _ => .pure fun r hr => ?_
    obtain ⟨⟨text, q⟩, hq, rfl⟩ := List.mem_map.1 hr
    rw [List.mem_mergeSort] at hq
    exact (h q (List.of_mem_zip hq).2).mono h₁

/-- `sort` makes a list of the elements. -/
lemma keeps_sort (argv : List Ref) : Keeps tidy μ (Optional Valid) (sort argv) := by
  unfold sort
  split
  · refine (Keeps.liftConv (Store.makes_asList _)).bind fun _ items _ hitems => ?_
    refine (Keeps.lift (makes_sorted hitems)).bind fun _ _ _ hsorted => ?_
    exact keeps_result (Store.makes_ofList hsorted)
  · exact keeps_fault

/-- `hash` makes a hash of values that are there. -/
lemma keeps_hash (argv : List Ref) : Keeps tidy μ (Optional Valid) (Builtin.hash argv) := by
  unfold Builtin.hash
  split
  · refine (Keeps.liftConv (Store.makes_asHash _)).bind fun μ₁ entries _ hentries => ?_
    have hform : Rep.Closed tidy μ₁ (.hash entries) := hentries
    exact keeps_result (Store.makes_ofRep hform nofun)
  · exact keeps_fault

/-- `hget` finds a value that is there. -/
lemma keeps_hget (argv : List Ref) : Keeps tidy μ (Optional Valid) (hget argv) := by
  unfold hget
  split
  · refine (Keeps.liftConv (Store.makes_asHash _)).bind fun μ₁ entries _ hentries => ?_
    refine (keeps_text _).bind fun μ₂ key h₂ _ => keeps_orBlank fun r hr => ?_
    exact (hentries r (Table.mem_values_of_find? hr)).valid.mono h₂
  · exact keeps_fault

/-- `hkeys` makes a list of texts. -/
lemma keeps_hkeys (argv : List Ref) : Keeps tidy μ (Optional Valid) (hkeys argv) := by
  unfold hkeys
  split
  · exact (Keeps.liftConv (Store.makes_asHash _)).bindAny fun _ _ => keeps_textsResult _
  · exact keeps_fault

/-- Values are counted and nothing else. -/
lemma keeps_ints (rs : List Ref) : Keeps tidy μ Anything (liftM (ints rs)) := by
  have hints : ConvM.Makes tidy μ (All Anything) (ints rs) :=
    .mapM (fun _ _ _ _ _ => trivial) fun _ r _ _ => Store.makes_asInt r
  exact (Keeps.liftConv hints).imp fun _ _ _ _ => trivial

/-- `incr` gives a new integer to the variable. -/
lemma keeps_incr (hargv : All Valid μ argv) : Keeps tidy μ (Optional Valid) (incr argv) := by
  have hadd : ∀ (μ' : Marks) (step : Int32), μ <+: μ' → Keeps tidy μ' (Optional Valid) (do
      let name ← text (← arg argv 1)
      let current ← (Store.asInt (← getVar name (-1)) : ConvM Int32)
      let r ← (Store.ofInt (current + step) : StoreM Ref)
      let r ← setVar name r (-1)
      return some r : EvalM Empty (Option Ref)) := by
    intro μ' step hμ
    refine (keeps_arg (firm_valid.all hμ hargv) 1).bindAny fun _ r => ?_
    refine (keeps_text r).bindAny fun _ name => (keeps_getVar _ _).bindAny fun _ r => ?_
    refine (keeps_asInt r).bindAny fun _ current => ?_
    refine (Keeps.lift (Store.makes_ofInt _)).bind fun _ r _ hr => ?_
    exact (keeps_setVar name hr.valid _).bind fun _ _ _ hr => keeps_some hr.valid
  unfold incr
  dsimp only
  split
  · exact (keeps_asInt _).bind fun μ' step hμ _ => hadd μ' step hμ
  · exact (Keeps.pure (R := Anything) trivial).bind fun μ' step hμ _ => hadd μ' step hμ

/-- `+` has a new result. -/
lemma keeps_add (argv : List Ref) : Keeps tidy μ (Optional Valid) (Builtin.add argv) := by
  unfold Builtin.add
  split
  · exact (keeps_ints _).bindAny fun _ _ => keeps_intResult _
  · exact keeps_fault

/-- So has `-`. -/
lemma keeps_subtract (argv : List Ref) : Keeps tidy μ (Optional Valid) (subtract argv) := by
  unfold subtract
  split
  · exact (keeps_asInt _).bindAny fun _ _ => keeps_intResult _
  · exact (keeps_asInt _).bindAny fun _ _ => (keeps_ints _).bindAny fun _ _ => keeps_intResult _
  · exact keeps_fault

/-- So has `*`. -/
lemma keeps_multiply (argv : List Ref) : Keeps tidy μ (Optional Valid) (multiply argv) := by
  unfold multiply
  split
  · exact (keeps_ints _).bindAny fun _ _ => keeps_intResult _
  · exact keeps_fault

/-- So have comparisons. -/
lemma keeps_compare (holds : Int32 → Int32 → Bool) (argv : List Ref) :
    Keeps tidy μ (Optional Valid) (compare holds argv) := by
  unfold compare
  split
  · exact (keeps_asInt _).bindAny fun _ _ => (keeps_asInt _).bindAny fun _ _ => keeps_boolResult _
  · exact keeps_fault

/-! ## The machine -/

/-- `puts` has no result. -/
lemma keeps_puts (argv : List Ref) : Keeps tidy μ (Optional Valid) (puts argv) := by
  unfold puts
  split
  · exact (keeps_text _).bindAny fun _ _ => (keeps_writeLine _).bindAny fun _ _ => keeps_done
  · exact keeps_fault

/-- `exit` ends the program. -/
lemma keeps_exitProgram (argv : List Ref) : Keeps tidy μ (Optional Valid) (Builtin.exit argv) := by
  unfold Builtin.exit
  split
  · exact (keeps_asInt _).bindAny fun _ _ => keeps_exit _
  · exact keeps_exit _

/-- `clock` has a new result. -/
lemma keeps_clock (hargv : All Valid μ argv) : Keeps tidy μ (Optional Valid) (clock argv) := by
  refine (keeps_arg hargv 1).bindAny fun _ r => (keeps_text r).bindAny fun _ topic => ?_
  split
  · refine (keeps_checkArgs _ _ _ _ _).bindAny fun _ _ => ?_
    exact keeps_readClock.bindAny fun _ _ => keeps_longResult _
  · refine (keeps_checkArgs _ _ _ _ _).bindAny fun _ _ => ?_
    exact keeps_readClock.bindAny fun _ _ => keeps_longResult _
  · dsimp only
    split
    · exact (Keeps.liftConv (Store.makes_asLong _)).bindAny fun _ _ => keeps_textResult _
    · refine keeps_readClock.bindAny fun _ _ => ?_
      exact (Keeps.pure (R := Anything) trivial).bindAny fun _ _ => keeps_textResult _
  · exact keeps_fail _

/-- `system.getproperty` has a new result. -/
lemma keeps_getProperty (argv : List Ref) : Keeps tidy μ (Optional Valid) (getProperty argv) := by
  unfold getProperty
  split
  · exact (keeps_text _).bindAny fun _ _ => .getContextBind fun _ _ => keeps_textResult _
  · exact keeps_fault

/-- So has `system.hasproperty`. -/
lemma keeps_hasProperty (argv : List Ref) : Keeps tidy μ (Optional Valid) (hasProperty argv) := by
  unfold hasProperty
  split
  · exact (keeps_text _).bindAny fun _ _ => .getContextBind fun _ _ => keeps_boolResult _
  · exact keeps_fault

/-- **Plain commands** keep an interpreter closed. A command that collects values does so only if
lists are not to be tidy. -/
lemma keeps_plain (b : Plain) (hb : tidy → .plain b ∉ collectors) (hargv : All Valid μ argv) :
    Keeps tidy μ (Optional Valid) (b.run argv) := by
  have hcollects (h : Builtin.plain b ∈ collectors) : ¬ tidy := fun htidy => hb htidy h
  cases b with
  | set => exact keeps_set hargv
  | unset => exact keeps_unset argv
  | «exists» => exact keeps_isSet argv
  | copy => exact keeps_copy hargv
  | proc => exact keeps_proc (hcollects (by decide)) hargv
  | rename => exact keeps_rename argv
  | addAlias => exact keeps_addAlias argv
  | global => exact keeps_global argv
  | intro => exact keeps_intro hargv
  | «return» => exact keeps_returnValue hargv
  | throw => exact keeps_throwMessage (hcollects (by decide)) hargv
  | «break» => exact keeps_signal _
  | «continue» => exact keeps_signal _
  | classof => exact keeps_classof argv
  | hasclass => exact keeps_hasclass argv
  | list => exact keeps_list (hcollects (by decide)) hargv
  | llength => exact keeps_llength argv
  | lindex => exact keeps_lindex argv
  | lappend => exact keeps_lappend (hcollects (by decide)) hargv
  | sort => exact keeps_sort argv
  | hash => exact keeps_hash argv
  | hget => exact keeps_hget argv
  | hkeys => exact keeps_hkeys argv
  | incr => exact keeps_incr hargv
  | add => exact keeps_add argv
  | subtract => exact keeps_subtract argv
  | multiply => exact keeps_multiply argv
  | less => exact keeps_compare _ argv
  | greater => exact keeps_compare _ argv
  | equal => exact keeps_compare _ argv
  | puts => exact keeps_puts argv
  | exit => exact keeps_exitProgram argv
  | clock => exact keeps_clock hargv
  | collect => exact keeps_done
  | getProperty => exact keeps_getProperty argv
  | hasProperty => exact keeps_hasProperty argv
  | freeMemory => exact .getContextBind fun _ _ => keeps_longResult _
  | totalMemory => exact .getContextBind fun _ _ => keeps_longResult _

end Builtin

end CommandScript

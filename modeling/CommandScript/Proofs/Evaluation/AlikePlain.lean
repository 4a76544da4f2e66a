import CommandScript.Proofs.Evaluation.AlikeState

/-!
# Commands that run no script do alike

Each built-in command that runs no script uses values by their texts only, so it does alike in
interpreters that agree on texts. The commands that tell more than texts are left out; and one that
makes an object is said to do alike if it does not.

## Main results

* `Builtin.alike_set`, `Builtin.alike_lindex`, `Builtin.alike_sort` and others — one command each.
* `Builtin.alike_plain` — all of them.
-/

set_option autoImplicit false

namespace CommandScript

open EvalM
open Store (TextOf)

namespace Builtin

variable {W : World} {argv argv' : List Ref}

/-- Commands without a result have none on either side. -/
lemma alike_done : Alike W SameResult done done :=
  .pure .none

/-- Results that agree are passed on. -/
lemma alike_result {m n : StoreM Ref} (h : Alike W Same (liftM m) (liftM n)) :
    Alike W SameResult (result m) (result n) :=
  h.bind fun _ _ _ _ hr => .pure (.some hr)

/-- A text is the same result on both sides. -/
lemma alike_textResult (t : String) :
    Alike W SameResult (result (Store.ofText t)) (result (Store.ofText t)) :=
  alike_result (.lift (Store.denotes_ofText t) (Store.denotes_ofText t))

/-- So is an integer. -/
lemma alike_intResult (n : Int32) :
    Alike W SameResult (result (Store.ofInt n)) (result (Store.ofInt n)) :=
  alike_result (.lift (Store.denotes_ofInt n) (Store.denotes_ofInt n))

/-- So is a truth value. -/
lemma alike_boolResult (b : Bool) :
    Alike W SameResult (result (Store.ofBool b)) (result (Store.ofBool b)) :=
  alike_intResult _

/-- Lists of values that agree are results that agree. -/
lemma alike_listResult {rs qs : List Ref} (h : SameAll W rs qs) :
    Alike W SameResult (result (Store.ofList rs)) (result (Store.ofList qs)) := by
  obtain ⟨texts, hrs, hqs⟩ := sameAll_iff_both.1 h
  exact alike_result (.lift (Store.denotes_ofList hrs) (Store.denotes_ofList hqs))

/-- Lists of the same texts are, too. -/
lemma alike_textsResult (texts : List String) :
    Alike W SameResult (textsResult texts) (textsResult texts) := by
  have hlist : ∀ τ, (do
      let items ← Store.ofTexts texts
      Store.ofList items).Denotes τ TextOf (ListText.write texts) := fun τ =>
    (Store.denotes_ofTexts texts).bind fun _ _ _ hitems => Store.denotes_ofList hitems
  exact alike_result (.lift (hlist _) (hlist _))

/-! ## Variables -/

/-- `set` gives values that agree to the variable, or looks them up. -/
lemma alike_set (h : SameAll W argv argv') :
    Alike W SameResult (Builtin.set argv) (Builtin.set argv') := by
  obtain _ | ⟨-, _ | ⟨hname, _ | ⟨hvalue, _ | ⟨-, -⟩⟩⟩⟩ := h
  · exact alike_fault
  · exact alike_fault
  · refine (alike_text hname).bindEqual fun W₁ name _ => ?_
    exact (alike_getVar name _).bind fun _ _ _ _ hr => .pure (.some hr)
  · refine (alike_text hname).bindEqual fun W₁ name h₁ => ?_
    exact (alike_setVar name (hvalue.mono h₁) _).bind fun _ _ _ _ hr => .pure (.some hr)
  · exact alike_fault

/-- `unset` removes the variable on both sides. -/
lemma alike_unset (h : SameAll W argv argv') :
    Alike W SameResult (Builtin.unset argv) (Builtin.unset argv') := by
  obtain _ | ⟨-, _ | ⟨hname, _ | ⟨-, -⟩⟩⟩ := h
  · exact alike_fault
  · exact alike_fault
  · refine (alike_text hname).bindEqual fun W₁ name _ => ?_
    exact (alike_unsetVar name _).bind fun _ _ _ _ _ => alike_done
  · exact alike_fault

/-- `exists` tells the same on both sides. -/
lemma alike_isSet (h : SameAll W argv argv') :
    Alike W SameResult (isSet argv) (isSet argv') := by
  obtain _ | ⟨-, _ | ⟨hname, _ | ⟨-, -⟩⟩⟩ := h
  · exact alike_fault
  · exact alike_fault
  · refine (alike_text hname).bindEqual fun W₁ name _ => ?_
    refine (alike_hasVar name _).bindEqual fun W₂ b _ => ?_
    exact alike_boolResult b
  · exact alike_fault

/-- `copy` makes copies that agree. -/
lemma alike_copy (h : SameAll W argv argv') :
    Alike W SameResult (Builtin.copy argv) (Builtin.copy argv') := by
  obtain _ | ⟨-, _ | ⟨⟨t, hr, hq⟩, _ | ⟨-, -⟩⟩⟩ := h
  · exact alike_fault
  · exact alike_fault
  · exact alike_result (.lift (Store.denotes_copy hr) (Store.denotes_copy hq))
  · exact alike_fault

/-- `global` links the same variables. -/
lemma alike_global (h : SameAll W argv argv') :
    Alike W SameResult (Builtin.global argv) (Builtin.global argv') := by
  have hlinks : ∀ {W : World} {names names' : List Ref}, SameAll W names names' →
      Alike W Equal (names.forM fun name => do linkGlobal (← text name))
        (names'.forM fun name => do linkGlobal (← text name)) := by
    intro W names names' h
    induction names generalizing W names' with
    | nil =>
      cases h
      exact .pure rfl
    | cons name names ih =>
      cases h with
      | cons hname hnames =>
        refine (Alike.bind (R := Equal) ?_ fun W₁ _ _ h₁ _ => ih (SameAll.mono h₁ hnames))
        refine (alike_text hname).bindEqual fun W₁ t _ => ?_
        exact alike_linkGlobal t
  obtain _ | ⟨-, hnames⟩ := h
  · exact alike_fault
  · exact (hlinks hnames).bind fun _ _ _ _ _ => alike_done

/-! ## Commands and introspection -/

/-- A procedure without a name is an object. -/
lemma alikeObjectFree_ofObject (o o' : Object) :
    AlikeObjectFree W SameResult (result (Store.ofObject o)) (result (Store.ofObject o')) := by
  intro s t _ hfree
  have hpush : (s.values.objects.push o).size = 0 := congrArg Array.size hfree
  rw [Array.size_push] at hpush
  omega

/-- `proc` defines procedures that agree; as values they are objects, of which there must be
none. -/
lemma alike_proc (h : SameAll W argv argv') :
    AlikeObjectFree W SameResult (Builtin.proc argv) (Builtin.proc argv') := by
  have hdefine : ∀ {W : World} {spec spec' body body' : Ref}, Same W spec spec' →
      Same W body body' → Alike W SameProcedure (liftM (Procedure.define spec body))
        (liftM (Procedure.define spec' body')) := by
    rintro W spec spec' body body' ⟨t, hspec, hspec'⟩ ⟨u, hbody, hbody'⟩
    exact .liftConv (Procedure.denotes_define hspec hbody) (Procedure.denotes_define hspec' hbody')
  obtain _ | ⟨-, _ | ⟨hfirst, _ | ⟨hsecond, _ | ⟨hthird, _ | ⟨-, -⟩⟩⟩⟩⟩ := h
  · exact alike_fault.objectFree
  · exact alike_fault.objectFree
  · exact alike_fault.objectFree
  · exact (hdefine hfirst hsecond).bindObjectFree fun _ _ _ _ _ => alikeObjectFree_ofObject _ _
  · refine Alike.objectFree ((alike_text hfirst).bindEqual fun W₁ name h₁ => ?_)
    refine (hdefine (hsecond.mono h₁) (hthird.mono h₁)).bind fun W₂ p q _ hpq => ?_
    exact (alike_addProcedure name hpq).bind fun _ _ _ _ _ => alike_done
  · exact alike_fault.objectFree

/-- Renaming or aliasing: a change of the commands for two names. -/
lemma alike_twoNames {f : String → String → EvalM Empty Unit} {W : World} {old old' new new' : Ref}
    (hold : Same W old old') (hnew : Same W new new')
    (hf : ∀ {W : World} (old new : String), Alike W Equal (f old new) (f old new)) :
    Alike W SameResult
      (do
        let old ← text old
        let new ← text new
        f old new
        done)
      (do
        let old ← text old'
        let new ← text new'
        f old new
        done) := by
  refine (alike_text hold).bindEqual fun W₁ old h₁ => ?_
  refine (alike_text (hnew.mono h₁)).bindEqual fun W₂ new _ => ?_
  exact (hf old new).bind fun _ _ _ _ _ => alike_done

/-- `rename` gives the same name to commands that agree. -/
lemma alike_rename (h : SameAll W argv argv') :
    Alike W SameResult (Builtin.rename argv) (Builtin.rename argv') := by
  obtain _ | ⟨-, _ | ⟨hold, _ | ⟨hnew, _ | ⟨-, -⟩⟩⟩⟩ := h
  · exact alike_fault
  · exact alike_fault
  · exact alike_fault
  · exact alike_twoNames hold hnew alike_renameCommand
  · exact alike_fault

/-- `alias` gives a further name to them. -/
lemma alike_addAlias (h : SameAll W argv argv') :
    Alike W SameResult (Builtin.addAlias argv) (Builtin.addAlias argv') := by
  obtain _ | ⟨-, _ | ⟨hold, _ | ⟨hnew, _ | ⟨-, -⟩⟩⟩⟩ := h
  · exact alike_fault
  · exact alike_fault
  · exact alike_fault
  · exact alike_twoNames hold hnew alike_aliasCommand
  · exact alike_fault

/-- `intro` tells the same, or fails for the same reason. -/
lemma alike_intro (h : SameAll W argv argv') :
    Alike W SameResult (Builtin.intro argv) (Builtin.intro argv') := by
  refine (alike_subcommand h 1 topics).bindEqual fun W₁ topic h₁ => ?_
  have h' := SameAll.mono h₁ h
  cases topic with
  | commands =>
    refine (alike_checkArgs h' _ _ _ _).bind fun W₂ _ _ _ _ => ?_
    refine alike_getContext.bind fun W₃ c d _ hc => ?_
    rw [hc.commands.keys_eq]
    exact alike_textsResult _
  | errorStack =>
    refine (alike_checkArgs h' _ _ _ _).bind fun W₂ _ _ _ _ => ?_
    exact alike_getContext.bind fun _ _ _ _ hc => alike_listResult hc.errorStack
  | procCode =>
    refine (alike_checkArgs h' _ _ _ _).bind fun W₂ _ _ h₂ _ => ?_
    refine (alike_arg (SameAll.mono h₂ h') 2).bind fun W₃ _ _ _ hr => ?_
    refine (alike_text hr).bindEqual fun W₄ name _ => ?_
    refine (alike_procedureNamed name).bind fun W₅ p q _ hpq => ?_
    obtain ⟨x, hp, hq⟩ := hpq
    exact .pure (.some ⟨x.body, hp.body, hq.body⟩)
  | procs =>
    refine (alike_checkArgs h' _ _ _ _).bind fun W₂ _ _ _ _ => ?_
    refine alike_procedureNames.bindEqual fun W₃ names _ => ?_
    exact alike_textsResult names
  | vars =>
    refine (alike_checkArgs h' _ _ _ _).bind fun W₂ _ _ h₂ _ => ?_
    have hnames : ∀ {W : World} (level : Int), Alike W SameResult
        (varNames level >>= textsResult) (varNames level >>= textsResult) := by
      intro W level
      refine (alike_varNames level).bindEqual fun W₁ names _ => ?_
      exact alike_textsResult names
    have hlevel := (SameAll.mono h₂ h').getElem? 2
    generalize argv[2]? = x at hlevel ⊢
    generalize argv'[2]? = y at hlevel ⊢
    cases hlevel with
    | none => exact hnames _
    | some hr =>
      refine (alike_asInt hr).bindEqual fun W₃ level _ => ?_
      exact hnames _

/-! ## Signals -/

/-- `return` raises exceptions with values that agree. -/
lemma alike_returnValue (h : SameAll W argv argv') :
    Alike W SameResult (returnValue argv) (returnValue argv') := by
  have hraise : ∀ {W : World} {r q : Ref}, Same W r q →
      Alike W SameResult (raise (.ofReturn r)) (raise (.ofReturn q)) := by
    rintro W r q ⟨t, hr, hq⟩
    exact alike_raise ⟨⟨.returned, "", t, []⟩, ⟨rfl, rfl, hr, .nil⟩, rfl, rfl, hq, .nil⟩
  obtain _ | ⟨-, _ | ⟨hvalue, _ | ⟨-, -⟩⟩⟩ := h
  · exact alike_fault
  · exact (Alike.lift (Store.denotes_ofText "") (Store.denotes_ofText "")).bind
      fun _ _ _ _ hr => hraise hr
  · exact hraise hvalue
  · exact alike_fault

/-- `throw` raises exceptions with messages that agree. -/
lemma alike_throwMessage (h : SameAll W argv argv') :
    Alike W SameResult (throwMessage argv) (throwMessage argv') := by
  have hthrow : ∀ {W : World} {r q : Ref} (label : Option String), Same W r q →
      Alike W SameResult (liftM (Exception.thrown r label) >>= raise)
        (liftM (Exception.thrown q label) >>= raise) := by
    rintro W r q label ⟨t, hr, hq⟩
    refine (Alike.lift (Exception.denotes_thrown hr label)
      (Exception.denotes_thrown hq label)).bind fun _ _ _ _ he => alike_raise he
  obtain _ | ⟨-, _ | ⟨hmessage, _ | ⟨hlabel, _ | ⟨-, -⟩⟩⟩⟩ := h
  · exact alike_fault
  · exact alike_fault
  · exact hthrow none hmessage
  · refine (alike_text hlabel).bindEqual fun W₁ label h₁ => ?_
    exact hthrow (some label) (hmessage.mono h₁)
  · exact alike_fault

/-- The same signal is raised on both sides. -/
lemma alike_signal (code : Code) : Alike W SameResult (signal code) (signal code) :=
  (Alike.lift (Exception.denotes_signal code) (Exception.denotes_signal code)).bind
    fun _ _ _ _ he => alike_raise he

/-- `hasclass` knows the same types on both sides. -/
lemma alike_hasclass (h : SameAll W argv argv') :
    Alike W SameResult (hasclass argv) (hasclass argv') := by
  obtain _ | ⟨-, _ | ⟨hname, _ | ⟨-, -⟩⟩⟩ := h
  · exact alike_fault
  · exact alike_fault
  · refine (alike_text hname).bindEqual fun W₁ name _ => ?_
    refine alike_getContext.bind fun W₂ c d _ hc => ?_
    rw [hc.typeCommands, hc.typeCommands']
    exact alike_boolResult _
  · exact alike_fault

/-! ## Lists and hashes -/

/-- `list` makes lists that agree. -/
lemma alike_list (h : SameAll W argv argv') : Alike W SameResult (list argv) (list argv') := by
  obtain _ | ⟨-, hitems⟩ := h
  · exact alike_fault
  · exact alike_listResult hitems

/-- The elements of values that agree agree. -/
lemma alike_asStack {r q : Ref} (h : Same W r q) :
    Alike W (fun W items items' => SameAll W items.toList items'.toList) (liftM (Store.asStack r))
      (liftM (Store.asStack q)) := by
  obtain ⟨t, hr, hq⟩ := h
  refine (Alike.liftConv (Store.denotes_asStack hr) (Store.denotes_asStack hq)).imp ?_
  rintro W' items items' - ⟨texts, hitems, hitems'⟩
  exact sameAll_iff_both.2 ⟨texts, hitems, hitems'⟩

/-- `llength` counts as many. -/
lemma alike_llength (h : SameAll W argv argv') :
    Alike W SameResult (llength argv) (llength argv') := by
  obtain _ | ⟨-, _ | ⟨hvalue, _ | ⟨-, -⟩⟩⟩ := h
  · exact alike_fault
  · exact alike_fault
  · refine (alike_asStack hvalue).bind fun W₁ items items' _ hitems => ?_
    have hlength : lengthOf items = lengthOf items' := by
      unfold lengthOf
      rw [← Stack.length_toList, ← Stack.length_toList, List.Forall₂.length_eq hitems]
    rw [hlength]
    exact alike_intResult _
  · exact alike_fault

/-- An element that is not there is empty on both sides. -/
lemma alike_orBlank {r q : Option Ref} (h : SameResult W r q) :
    Alike W SameResult (orBlank r) (orBlank q) := by
  cases h with
  | none => exact alike_textResult ""
  | some hr => exact .pure (.some hr)

/-- `lindex` picks elements that agree. -/
lemma alike_lindex (h : SameAll W argv argv') :
    Alike W SameResult (lindex argv) (lindex argv') := by
  obtain _ | ⟨-, _ | ⟨hvalue, _ | ⟨hplace, _ | ⟨-, -⟩⟩⟩⟩ := h
  · exact alike_fault
  · exact alike_fault
  · exact alike_fault
  · refine (alike_asStack hvalue).bind fun W₁ items items' h₁ hitems => ?_
    refine (alike_asInt (hplace.mono h₁)).bindEqual fun W₂ place h₂ => ?_
    refine alike_orBlank ?_
    unfold elementAt?
    rw [Stack.get?_eq, Stack.get?_eq]
    split
    · exact .none
    · exact (SameAll.mono h₂ hitems).getElem? _
  · exact alike_fault

/-- A list with more elements is given to a variable. -/
lemma alike_setAppended (name : String) {items items' : Stack Ref} {added added' : List Ref}
    (hitems : SameAll W items.toList items'.toList) (hadded : SameAll W added added') :
    Alike W SameResult
      (do
        let r ← (Store.ofStack (items.pushAll added) : StoreM Ref)
        let r ← setVar name r (-1)
        return some r)
      (do
        let r ← (Store.ofStack (items'.pushAll added') : StoreM Ref)
        let r ← setVar name r (-1)
        return some r) := by
  have hall : SameAll W (items.pushAll added).toList (items'.pushAll added').toList := by
    rw [Stack.toList_pushAll, Stack.toList_pushAll]
    exact List.rel_append hitems hadded
  obtain ⟨texts, hleft, hright⟩ := sameAll_iff_both.1 hall
  refine (Alike.lift (Store.denotes_ofStack hleft) (Store.denotes_ofStack hright)).bind
    fun W₁ r q _ hr => ?_
  exact (alike_setVar name hr _).bind fun _ _ _ _ hr => .pure (.some hr)

/-- `lappend` appends values that agree to lists that agree. -/
lemma alike_lappend (h : SameAll W argv argv') :
    Alike W SameResult (lappend argv) (lappend argv') := by
  obtain _ | ⟨-, _ | ⟨hname, hadded⟩⟩ := h
  · exact alike_fault
  · exact alike_fault
  · refine (alike_text hname).bindEqual fun W₁ name h₁ => ?_
    refine (alike_hasVar name _).bindEqual fun W₂ known h₂ => ?_
    have hadded₂ := SameAll.mono (h₁.trans h₂) hadded
    dsimp only
    split
    · refine (alike_getVar name _).bind fun W₃ r q h₃ hr => ?_
      refine (alike_asStack hr).bind fun W₄ _ _ h₄ hitems => ?_
      exact alike_setAppended name hitems (SameAll.mono (h₃.trans h₄) hadded₂)
    · have hempty : SameAll W₂ (Stack.empty : Stack Ref).toList (Stack.empty : Stack Ref).toList :=
        .nil
      exact alike_setAppended name hempty hadded₂

/-- `sort` puts the elements into the same order, by their texts. -/
lemma alike_sort (h : SameAll W argv argv') : Alike W SameResult (sort argv) (sort argv') := by
  obtain _ | ⟨-, _ | ⟨hvalue, _ | ⟨-, -⟩⟩⟩ := h
  · exact alike_fault
  · exact alike_fault
  · refine (alike_asList hvalue).bind fun W₁ items items' _ hitems => ?_
    obtain ⟨texts, hleft, hright⟩ := sameAll_iff_both.1 hitems
    refine (Alike.lift (denotes_sorted hleft) (denotes_sorted hright)).bind
      fun W₂ items items' _ hitems => ?_
    exact alike_listResult (sameAll_iff_both.2 hitems)
  · exact alike_fault

/-- The entries of values that agree agree. -/
lemma alike_asHash {r q : Ref} (h : Same W r q) :
    Alike W (Both fun τ => Table.Related (TextOf τ)) (liftM (Store.asHash r))
      (liftM (Store.asHash q)) := by
  obtain ⟨t, hr, hq⟩ := h
  exact .liftConv (Store.denotes_asHash hr) (Store.denotes_asHash hq)

/-- `hash` makes hashes that agree. -/
lemma alike_hash (h : SameAll W argv argv') :
    Alike W SameResult (Builtin.hash argv) (Builtin.hash argv') := by
  obtain _ | ⟨-, _ | ⟨hvalue, _ | ⟨-, -⟩⟩⟩ := h
  · exact alike_fault
  · exact alike_fault
  · refine (alike_asHash hvalue).bind fun W₁ entries entries' _ hentries => ?_
    obtain ⟨table, hleft, hright⟩ := hentries
    exact alike_result (.lift (Store.denotes_ofHash hleft) (Store.denotes_ofHash hright))
  · exact alike_fault

/-- `hget` finds values that agree under the same key. -/
lemma alike_hget (h : SameAll W argv argv') : Alike W SameResult (hget argv) (hget argv') := by
  obtain _ | ⟨-, _ | ⟨hvalue, _ | ⟨hkey, _ | ⟨-, -⟩⟩⟩⟩ := h
  · exact alike_fault
  · exact alike_fault
  · exact alike_fault
  · refine (alike_asHash hvalue).bind fun W₁ entries entries' h₁ hentries => ?_
    refine (alike_text (hkey.mono h₁)).bindEqual fun W₂ key h₂ => ?_
    obtain ⟨table, hleft, hright⟩ := hentries
    refine alike_orBlank ?_
    have hl := hleft.find? key
    have hr := hright.find? key
    generalize entries.find? key = x at hl ⊢
    generalize entries'.find? key = y at hr ⊢
    generalize table.find? key = t at hl hr
    cases hl with
    | none =>
      cases hr
      exact .none
    | some hl =>
      cases hr with
      | some hr => exact .some (Same.mono h₂ ⟨_, hl, hr⟩)
  · exact alike_fault

/-- `hkeys` has the same keys. -/
lemma alike_hkeys (h : SameAll W argv argv') : Alike W SameResult (hkeys argv) (hkeys argv') := by
  obtain _ | ⟨-, _ | ⟨hvalue, _ | ⟨-, -⟩⟩⟩ := h
  · exact alike_fault
  · exact alike_fault
  · refine (alike_asHash hvalue).bind fun W₁ entries entries' _ hentries => ?_
    obtain ⟨table, hleft, hright⟩ := hentries
    rw [hleft.keys_eq, hright.keys_eq]
    exact alike_textsResult _
  · exact alike_fault

/-! ## Integers -/

/-- Values that agree are counted alike. -/
lemma alike_ints {rs qs : List Ref} (h : SameAll W rs qs) :
    Alike W Equal (liftM (ints rs)) (liftM (ints qs)) := by
  obtain ⟨texts, hrs, hqs⟩ := sameAll_iff_both.1 h
  exact .liftConvExactly (denotes_ints hrs) (denotes_ints hqs)

/-- `incr` increases the variable by the same. -/
lemma alike_incr (h : SameAll W argv argv') : Alike W SameResult (incr argv) (incr argv') := by
  have hadd : ∀ {W' : World} (step : Int32), W ≤ W' → Alike W' SameResult
      (do
        let name ← text (← arg argv 1)
        let current ← (Store.asInt (← getVar name (-1)) : ConvM Int32)
        let r ← (Store.ofInt (current + step) : StoreM Ref)
        let r ← setVar name r (-1)
        return some r)
      (do
        let name ← text (← arg argv' 1)
        let current ← (Store.asInt (← getVar name (-1)) : ConvM Int32)
        let r ← (Store.ofInt (current + step) : StoreM Ref)
        let r ← setVar name r (-1)
        return some r) := by
    intro W' step hW
    refine (alike_arg (SameAll.mono hW h) 1).bind fun W₁ _ _ _ hr => ?_
    refine (alike_text hr).bindEqual fun W₂ name _ => ?_
    refine (alike_getVar name _).bind fun W₃ _ _ _ hr => ?_
    refine (alike_asInt hr).bindEqual fun W₄ n _ => ?_
    refine (Alike.lift (Store.denotes_ofInt _) (Store.denotes_ofInt _)).bind fun W₅ _ _ _ hr => ?_
    exact (alike_setVar name hr _).bind fun _ _ _ _ hr => .pure (.some hr)
  have hstep := h.getElem? 2
  unfold incr
  dsimp only
  generalize argv[2]? = x at hstep ⊢
  generalize argv'[2]? = y at hstep ⊢
  cases hstep with
  | none => exact hadd 1 (le_refl W)
  | some hr =>
    refine (alike_asInt hr).bindEqual fun W₁ step h₁ => ?_
    exact hadd step h₁

/-- `+` has the same sum. -/
lemma alike_add (h : SameAll W argv argv') :
    Alike W SameResult (Builtin.add argv) (Builtin.add argv') := by
  obtain _ | ⟨-, hargs⟩ := h
  · exact alike_fault
  · refine (alike_ints hargs).bindEqual fun W₁ ns _ => ?_
    exact alike_intResult _

/-- `-` has the same difference. -/
lemma alike_subtract (h : SameAll W argv argv') :
    Alike W SameResult (subtract argv) (subtract argv') := by
  obtain _ | ⟨-, _ | ⟨hfirst, _ | ⟨hsecond, hrest⟩⟩⟩ := h
  · exact alike_fault
  · exact alike_fault
  · refine (alike_asInt hfirst).bindEqual fun W₁ n _ => ?_
    exact alike_intResult _
  · refine (alike_asInt hfirst).bindEqual fun W₁ n h₁ => ?_
    refine (alike_ints (SameAll.mono h₁ (.cons hsecond hrest))).bindEqual fun W₂ ns _ => ?_
    exact alike_intResult _

/-- `*` has the same product. -/
lemma alike_multiply (h : SameAll W argv argv') :
    Alike W SameResult (multiply argv) (multiply argv') := by
  obtain _ | ⟨-, hargs⟩ := h
  · exact alike_fault
  · refine (alike_ints hargs).bindEqual fun W₁ ns _ => ?_
    exact alike_intResult _

/-- Comparisons come to the same. -/
lemma alike_compare (holds : Int32 → Int32 → Bool) (h : SameAll W argv argv') :
    Alike W SameResult (compare holds argv) (compare holds argv') := by
  obtain _ | ⟨-, _ | ⟨hfirst, _ | ⟨hsecond, _ | ⟨-, -⟩⟩⟩⟩ := h
  · exact alike_fault
  · exact alike_fault
  · exact alike_fault
  · refine (alike_asInt hfirst).bindEqual fun W₁ m h₁ => ?_
    refine (alike_asInt (hsecond.mono h₁)).bindEqual fun W₂ n _ => ?_
    exact alike_boolResult _
  · exact alike_fault

/-! ## The machine -/

/-- `puts` writes the same line. -/
lemma alike_puts (h : SameAll W argv argv') : Alike W SameResult (puts argv) (puts argv') := by
  obtain _ | ⟨-, _ | ⟨hvalue, _ | ⟨-, -⟩⟩⟩ := h
  · exact alike_fault
  · exact alike_fault
  · refine (alike_text hvalue).bindEqual fun W₁ line _ => ?_
    exact (alike_writeLine line).bind fun _ _ _ _ _ => alike_done
  · exact alike_fault

/-- The properties of a machine depend on its environment only. -/
lemma property?_eq {c d : Context Empty} (h : SameContext W c d) (name : String) :
    c.platform.property? name = d.platform.property? name := by
  unfold Platform.property?
  rw [h.environment]

/-- `system.getproperty` finds the same property. -/
lemma alike_getProperty (h : SameAll W argv argv') :
    Alike W SameResult (getProperty argv) (getProperty argv') := by
  obtain _ | ⟨-, _ | ⟨hname, _ | ⟨-, -⟩⟩⟩ := h
  · exact alike_fault
  · exact alike_fault
  · refine (alike_text hname).bindEqual fun W₁ name _ => ?_
    refine alike_getContext.bind fun W₂ c d _ hc => ?_
    rw [property?_eq hc]
    exact alike_textResult _
  · exact alike_fault

/-- `system.hasproperty` tells the same. -/
lemma alike_hasProperty (h : SameAll W argv argv') :
    Alike W SameResult (hasProperty argv) (hasProperty argv') := by
  obtain _ | ⟨-, _ | ⟨hname, _ | ⟨-, -⟩⟩⟩ := h
  · exact alike_fault
  · exact alike_fault
  · refine (alike_text hname).bindEqual fun W₁ name _ => ?_
    refine alike_getContext.bind fun W₂ c d _ hc => ?_
    rw [property?_eq hc]
    exact alike_boolResult _
  · exact alike_fault

/-- **Every command that runs no script does alike**, unless it tells more than texts or makes an
object. -/
lemma alike_plain (b : Plain) (hb : .plain b ∉ telling) (h : SameAll W argv argv') :
    AlikeObjectFree W SameResult (b.run argv) (b.run argv') :=
  match b with
  | .set => (alike_set h).objectFree
  | .unset => (alike_unset h).objectFree
  | .exists => (alike_isSet h).objectFree
  | .copy => (alike_copy h).objectFree
  | .proc => alike_proc h
  | .rename => (alike_rename h).objectFree
  | .addAlias => (alike_addAlias h).objectFree
  | .global => (alike_global h).objectFree
  | .intro => (alike_intro h).objectFree
  | .return => (alike_returnValue h).objectFree
  | .throw => (alike_throwMessage h).objectFree
  | .break => (alike_signal .broke).objectFree
  | .continue => (alike_signal .continued).objectFree
  | .classof => absurd (by decide) hb
  | .hasclass => (alike_hasclass h).objectFree
  | .list => (alike_list h).objectFree
  | .llength => (alike_llength h).objectFree
  | .lindex => (alike_lindex h).objectFree
  | .lappend => (alike_lappend h).objectFree
  | .sort => (alike_sort h).objectFree
  | .hash => (alike_hash h).objectFree
  | .hget => (alike_hget h).objectFree
  | .hkeys => (alike_hkeys h).objectFree
  | .incr => (alike_incr h).objectFree
  | .add => (alike_add h).objectFree
  | .subtract => (alike_subtract h).objectFree
  | .multiply => (alike_multiply h).objectFree
  | .less => (alike_compare _ h).objectFree
  | .greater => (alike_compare _ h).objectFree
  | .equal => (alike_compare _ h).objectFree
  | .puts => (alike_puts h).objectFree
  | .exit => absurd (by decide) hb
  | .clock => absurd (by decide) hb
  | .collect => alike_done.objectFree
  | .getProperty => (alike_getProperty h).objectFree
  | .hasProperty => (alike_hasProperty h).objectFree
  | .freeMemory => absurd (by decide) hb
  | .totalMemory => absurd (by decide) hb

end Builtin

end CommandScript

import CommandScript.Proofs.Evaluation.Foreach
import CommandScript.Proofs.Evaluation.LiteralIsolation
import CommandScript.Proofs.Value.Count
import Mathlib.Algebra.BigOperators.Group.List.Basic
import Mathlib.Data.Int.ModEq
import Mathlib.Data.List.Forall2

/-!
# Integer commands

Sums, differences and products wrap around: what a command comes to is the one integer of 32 bits
that is congruent to the exact result. This makes sums and products independent of the order of the
arguments, and of how they are grouped, even if partial results are written down and read again in
between.

A command counts its arguments from left to right, and this leaves all values what they are. So the
first argument that counts nothing is the one that is complained about, and nothing else happens.
All that is asked of an interpreter is that values are written with older values. It is so in every
state that evaluations lead to (`Interp.Reached.founded`).

## Main definitions

* `Builtin.call` — a call of a command that runs no script.
* `Builtin.reckon` — what a command makes of integers.
* `Builtin.regrouped` — a command called with what it comes to for blocks of arguments, as texts.
* `Builtin.ComesTo`, `Builtin.Assigns`, `Builtin.FailsWith` — outcomes of commands.
* `Builtin.ComesToAnyhow` — the order and the grouping of the arguments do not matter.
* `Builtin.Increments` — how `incr` increases a variable.

## Main results

* `Builtin.eq_of_modEq` — a word is known if it is known modulo `2 ^ 32`.
* `Builtin.comesTo_call`, `Builtin.failsWith_call` — what a command does with its arguments.
* `Builtin.comesTo_regrouped` — partial results may be passed on as texts.
* `Builtin.integers_exact` — sums, products, differences and increments.
-/

set_option autoImplicit false

namespace CommandScript

open EvalM Number Store

namespace Builtin

/-! ## Words and integers -/

section Words

/-- Wrapping around changes an integer by a multiple of `2 ^ 32`. -/
lemma toInt_ofInt_modEq (x : ℤ) : (Int32.ofInt x).toInt ≡ x [ZMOD 4294967296] := by
  rw [Int32.toInt_ofInt]
  exact Int.bmod_emod

/-- **A word is known if it is known modulo `2 ^ 32`.** -/
lemma eq_of_modEq {m n : Int32} (h : m.toInt ≡ n.toInt [ZMOD 4294967296]) : m = n := by
  have hm := m.le_toInt
  have hm' := m.toInt_lt
  have hn := n.le_toInt
  have hn' := n.toInt_lt
  refine Int32.toInt_inj.1 ?_
  unfold Int.ModEq at h
  omega

/-- Wrapping around at every step comes to the same as doing so once. -/
lemma foldl_ofInt {f : Int32 → Int32 → Int32} {g : ℤ → ℤ → ℤ}
    (hfg : ∀ x y, Int32.ofInt (g x y) = f (Int32.ofInt x) (Int32.ofInt y)) (x : ℤ)
    (ns : List Int32) :
    ns.foldl f (Int32.ofInt x) = Int32.ofInt ((ns.map Int32.toInt).foldl g x) := by
  rw [List.foldl_map]
  refine List.foldl_hom Int32.ofInt fun y n => ?_
  rw [hfg, Int32.ofInt_toInt]

/-- To subtract one number after another is to subtract their sum. -/
lemma foldl_sub (ns : List ℤ) (n : ℤ) : ns.foldl (· - ·) n = n - ns.sum := by
  induction ns generalizing n with
  | nil => simp
  | cons m ns ih =>
    rw [List.foldl_cons, ih, List.sum_cons]
    omega

end Words

/-! ## What commands make of integers -/

/-- What a command makes of the integers that its arguments count. -/
def reckon : Plain → List Int32 → Int32
  | .add, ns => ns.foldl (· + ·) 0
  | .multiply, ns => ns.foldl (· * ·) 1
  | .subtract, [n] => -n
  | .subtract, n :: ns => ns.foldl (· - ·) n
  | _, _ => 0

/-- A first integer minus the sum of the others; the negation of an integer that is alone. -/
def difference : List ℤ → ℤ
  | [] => 0
  | [n] => -n
  | n :: ns => n - ns.sum

/-- The result of `+` is the sum, but for a multiple of the modulus. -/
lemma reckon_add_modEq (ns : List Int32) :
    (reckon .add ns).toInt ≡ (ns.map Int32.toInt).sum [ZMOD 4294967296] := by
  have hfold : reckon .add ns = Int32.ofInt ((ns.map Int32.toInt).foldl (· + ·) 0) :=
    foldl_ofInt Int32.ofInt_add 0 ns
  rw [hfold, List.sum_eq_foldl]
  exact toInt_ofInt_modEq _

/-- The result of `*` is the product, but for a multiple of the modulus. -/
lemma reckon_multiply_modEq (ns : List Int32) :
    (reckon .multiply ns).toInt ≡ (ns.map Int32.toInt).prod [ZMOD 4294967296] := by
  have hfold : reckon .multiply ns = Int32.ofInt ((ns.map Int32.toInt).foldl (· * ·) 1) :=
    foldl_ofInt Int32.ofInt_mul 1 ns
  rw [hfold, List.prod_eq_foldl]
  exact toInt_ofInt_modEq _

/-- The result of `-` is the difference, but for a multiple of the modulus. -/
lemma reckon_subtract_modEq (ns : List Int32) :
    (reckon .subtract ns).toInt ≡ difference (ns.map Int32.toInt) [ZMOD 4294967296] := by
  match ns with
  | [] => rfl
  | [n] =>
    have hneg : reckon .subtract [n] = Int32.ofInt (-n.toInt) := by
      rw [Int32.ofInt_neg, Int32.ofInt_toInt]
      rfl
    rw [hneg]
    exact toInt_ofInt_modEq _
  | n :: m :: ns =>
    have hfold := foldl_ofInt Int32.ofInt_sub n.toInt (m :: ns)
    rw [Int32.ofInt_toInt, foldl_sub] at hfold
    change (List.foldl _ n (m :: ns)).toInt ≡ n.toInt - ((m :: ns).map Int32.toInt).sum [ZMOD _]
    rw [hfold]
    exact toInt_ofInt_modEq _

/-- The order of the integers does not matter to the command, nor does it matter if it is used on
blocks of them first. -/
structure Gathers (b : Plain) : Prop where
  /-- The order does not matter. -/
  perm : ∀ ns ms : List Int32, ns.Perm ms → reckon b ns = reckon b ms
  /-- Blocks may be dealt with first. -/
  flatten : ∀ nss : List (List Int32), reckon b (nss.map (reckon b)) = reckon b nss.flatten

/-- What is accumulated may be accumulated in blocks. -/
lemma foldl_flatten_eq {f : Int32 → Int32 → Int32} {e : Int32} [Std.Associative f]
    [Std.LawfulIdentity f e] (nss : List (List Int32)) :
    (nss.map fun ns => ns.foldl f e).foldl f e = nss.flatten.foldl f e := by
  have hblock : ∀ (n : Int32) (ns : List Int32), f n (ns.foldl f e) = ns.foldl f n := by
    intro n ns
    have hright : f n e = n := Std.LawfulRightIdentity.right_id n
    have hassoc : ns.foldl f (f n e) = f n (ns.foldl f e) := List.foldl_assoc
    rw [← hassoc, hright]
  rw [List.foldl_flatten, List.foldl_map]
  simp only [hblock]

/-- Addition may be done in any order and in any groups. -/
lemma gathers_add : Gathers .add :=
  ⟨fun _ _ h => h.foldl_op_eq, foldl_flatten_eq (f := (· + ·)) (e := 0)⟩

/-- So may multiplication. -/
lemma gathers_multiply : Gathers .multiply :=
  ⟨fun _ _ h => h.foldl_op_eq, foldl_flatten_eq (f := (· * ·)) (e := 1)⟩

/-! ## Calls -/

section Lifts

variable {κ α β : Type}

/-- What fails raises the failure. -/
lemma liftConv_bind_of_error {m : ConvM α} {f : α → EvalM κ β} {s : Interp κ} {e : Failure}
    {v : Store} (h : m s.values = .error e v) :
    ((liftM m : EvalM κ α) >>= f) s = fail e ⟨v, s.context⟩ := by
  obtain ⟨values, c⟩ := s
  change EStateM.bind (liftM m) _ _ = _
  unfold EStateM.bind
  rw [liftConv_apply, show m values = .error e v from h]
  rfl

/-- One conversion after another. -/
lemma liftConv_bind (m : ConvM α) (f : α → ConvM β) :
    (liftM (m >>= f) : EvalM κ β) = (liftM m : EvalM κ α) >>= fun a => liftM (f a) := by
  funext ⟨v, c⟩
  rw [liftConv_apply]
  cases h : m v with
  | ok a u => rw [ConvM.bind_of_ok h, bind_of_ok (liftConv_of_ok h), liftConv_apply]
  | error e u =>
    rw [ConvM.bind_of_error h, liftConv_bind_of_error h]

end Lifts

section Calls

variable {κ : Type} [HostCommands κ] {i : Interp κ} {E : Engine κ} {b : Plain} {w : Ref}
  {args : List Ref} {ns : List Int32} {n : Int32}

/-- A call of a command that runs no script. -/
def call (E : Engine κ) (b : Plain) (argv : List Ref) : EvalM κ Ref :=
  Command.execute E argv (.builtin (.plain b))

/-- Calls a command with each block of arguments, and then with what it came to, as texts. -/
def regrouped (E : Engine κ) (b : Plain) (w : Ref) (blocks : List (List Ref)) : EvalM κ Ref := do
  let results ← blocks.mapM fun block => call E b (w :: block)
  let texts ← (Store.texts results : StoreM (List String))
  let passed ← (Store.ofTexts texts : StoreM (List Ref))
  call E b (w :: passed)

/-- The outcome of a command is a new value that is the integer `n`, written as integers are. All
values that were there are what they were, and nothing else has happened. -/
inductive ComesTo (i : Interp κ) (n : Int32) : EStateM.Result Stop (Interp κ) Ref → Prop
  | intro {r : Ref} {t : Store} (ht : Unaltered i.values t) (hnew : i.values.cells.size ≤ r.index)
    (hcounts : t.Counts r n) (hwording : t.wording r = writeInteger n.toInt) :
    ComesTo i n (.ok r ⟨t, i.context⟩)

/-- The outcome of a command is the error for a failure. All values that were there are what they
were, and nothing else has happened. -/
def FailsWith (i : Interp κ) (f : Failure) (o : EStateM.Result Stop (Interp κ) Ref) : Prop :=
  ∃ t, Unaltered i.values t ∧ o = fail f ⟨t, i.context⟩

/-- The commands that compute with any number of integers. -/
def reckoners : List Plain :=
  [.add, .subtract, .multiply]

/-- Counts some values, and makes a new integer of what they count. -/
def reckoned (b : Plain) (args : List Ref) : EvalM κ Ref := do
  let ns ← (ints args : ConvM (List Int32))
  (Store.ofInt (reckon b ns) : StoreM Ref)

/-- If there are as many arguments as a command takes, it is run. -/
lemma call_of_check (h : b.arity.check args.length = .ok ()) :
    call E b (w :: args) = b.run (w :: args) >>= Command.resultOf := by
  change (attempt (b.arity.check args.length) >>= fun _ =>
    b.run (w :: args) >>= Command.resultOf) = _
  rw [h]
  rfl

omit [HostCommands κ] in
/-- The first value is counted first. -/
lemma reckoned_cons (b : Plain) (r : Ref) (rs : List Ref) :
    (reckoned b (r :: rs) : EvalM κ Ref) = liftM (asInt r) >>= fun n =>
      liftM (ints rs) >>= fun ns => liftM (Store.ofInt (reckon b (n :: ns))) := by
  rw [reckoned, ints_cons]
  simp only [liftConv_bind, bind_assoc]
  rfl

/-- The commands count their arguments, and make a new integer of what these count. -/
lemma call_eq (hb : b ∈ reckoners) (hargs : args ≠ []) :
    call E b (w :: args) = reckoned b args := by
  obtain ⟨first, rest, rfl⟩ := List.exists_cons_of_ne_nil hargs
  simp only [reckoners, List.mem_cons, List.not_mem_nil, or_false] at hb
  have hcheck : b.arity.check (first :: rest).length = .ok () := by
    obtain rfl | rfl | rfl := hb
    all_goals
      simp [Plain.arity, Arity.atLeast, Arity.check]
  rw [call_of_check hcheck]
  obtain rfl | rfl | rfl := hb
  · change (liftM (ints (first :: rest)) >>= _) >>= _ = _
    rw [bind_assoc]
    rfl
  · cases rest with
    | nil =>
      change (liftM (asInt first) >>= _) >>= _ = _
      rw [bind_assoc, reckoned_cons]
      rfl
    | cons second rest =>
      change (liftM (asInt first) >>= _) >>= _ = _
      rw [bind_assoc, reckoned_cons]
      simp only [ints_cons, liftConv_bind, bind_assoc]
      rfl
  · change (liftM (ints (first :: rest)) >>= _) >>= _ = _
    rw [bind_assoc]
    rfl

/-- **A command whose arguments count something** comes to what it makes of that. -/
lemma comesTo_call (hi : i.values.Founded) (hb : b ∈ reckoners) (hne : args ≠ [])
    (hargs : List.Forall₂ i.values.Counts args ns) :
    ComesTo i (reckon b ns) (call E b (w :: args) i) := by
  obtain ⟨u, hints, hu⟩ := ints_of_counts (.refl hi) hargs
  have hnew := unaltered_ofInt hu.founded (reckon b ns)
  rw [call_eq hb hne, reckoned, bind_of_ok (liftConv_of_ok hints)]
  exact .intro (hu.trans hnew) hu.size (counts_ofInt hu.founded _) (wording_ofInt hu.founded _)

/-- **A command complains about the first argument** that counts nothing. -/
lemma failsWith_call {before after : List Ref} {r : Ref} (hi : i.values.Founded)
    (hb : b ∈ reckoners) (hbefore : ∀ q ∈ before, ∃ n, i.values.Counts q n)
    (hr : r.index < i.values.cells.size) (hnone : ∀ n, ¬ i.values.Counts r n) :
    FailsWith i (.notInteger (i.values.wording r)) (call E b (w :: (before ++ r :: after)) i) := by
  obtain ⟨u, hints, hu⟩ := ints_of_not_counts after hi (.refl hi) hbefore hr hnone
  refine ⟨u, hu, ?_⟩
  rw [call_eq hb (List.append_ne_nil_of_right_ne_nil _ (List.cons_ne_nil _ _)), reckoned]
  exact liftConv_bind_of_error hints

/-! ## Partial results -/

omit [HostCommands κ] in
/-- What values are before a command does not matter, as long as they are unaltered. -/
lemma ComesTo.of_unaltered {v : Store} {o : EStateM.Result Stop (Interp κ) Ref}
    (h : Unaltered i.values v) (ho : ComesTo ⟨v, i.context⟩ n o) : ComesTo i n o := by
  cases ho with
  | intro ht hnew hcounts hwording =>
    exact .intro (h.trans ht) (Nat.le_trans h.size hnew) hcounts hwording

/-- A command is called with one block of arguments after another.

**Proof sketch.** Induction on the blocks. What the first call comes to is a new value; the other
calls leave it unaltered. -/
lemma mapM_call {s v : Store} {c : Context κ} {blocks : List (List Ref)} {nss : List (List Int32)}
    (h : Unaltered s v) (hb : b ∈ reckoners) (hne : ∀ block ∈ blocks, block ≠ [])
    (hblocks : List.Forall₂ (List.Forall₂ s.Counts) blocks nss) :
    ∃ rs u, blocks.mapM (fun block => call E b (w :: block)) ⟨v, c⟩ = .ok rs ⟨u, c⟩ ∧
      Unaltered v u ∧
      rs.map u.wording = written (nss.map (reckon b)) := by
  induction hblocks generalizing v with
  | nil => exact ⟨[], v, rfl, .refl h.founded, rfl⟩
  | @cons block ns blocks nss hblock _ ih =>
    have hcounts : List.Forall₂ v.Counts block ns := hblock.imp fun _ _ hr => hr.mono h
    have hfirst := comesTo_call (i := ⟨v, c⟩) (E := E) (w := w) h.founded hb
      (hne block List.mem_cons_self) hcounts
    generalize hcall : call E b (w :: block) ⟨v, c⟩ = o at hfirst
    cases hfirst with
    | @intro r t ht _ hr hwording =>
      obtain ⟨rs, u, hrest, hu, hwordings⟩ :=
        ih (h.trans ht) fun block' hmem => hne block' (List.mem_cons_of_mem block hmem)
      refine ⟨r :: rs, u, ?_, ht.trans hu, ?_⟩
      · rw [List.mapM_cons, bind_of_ok hcall, bind_of_ok hrest]
        rfl
      · rw [List.map_cons, hwordings, hu.wording r hr.1, hwording]
        rfl

/-- **Partial results may be passed on as texts.** -/
lemma comesTo_regrouped {blocks : List (List Ref)} {nss : List (List Int32)}
    (hi : i.values.Founded) (hb : b ∈ reckoners) (hgathers : Gathers b) (hblocks : blocks ≠ [])
    (hne : ∀ block ∈ blocks, block ≠ [])
    (hcounts : List.Forall₂ (List.Forall₂ i.values.Counts) blocks nss) :
    ComesTo i (reckon b nss.flatten) (regrouped E b w blocks i) := by
  obtain ⟨rs, u, hcalls, hu, hwordings⟩ :=
    mapM_call (c := i.context) (E := E) (w := w) (.refl hi) hb hne hcounts
  -- to ask for the texts of the partial results alters nothing
  obtain ⟨htexts, htold⟩ := tells_texts hu.founded rs
  rw [hwordings] at htexts
  have ht := htold.unaltered hu.founded
  have hpassed := counts_ofTexts ht.founded (nss.map (reckon b))
  have hnew := unaltered_ofTexts ht.founded (written (nss.map (reckon b)))
  unfold regrouped
  rw [bind_of_ok hcalls, liftBind_apply, liftBind_apply]
  dsimp only
  rw [htexts, ← hgathers.flatten]
  refine .of_unaltered ((hu.trans ht).trans hnew) (comesTo_call hnew.founded hb ?_ hpassed)
  intro hnone
  rw [hnone] at hpassed
  have hempty : nss = [] := List.map_eq_nil_iff.1 (List.forall₂_nil_left_iff.1 hpassed)
  exact hblocks (List.forall₂_nil_right_iff.1 (hempty ▸ hcounts))

/-- What related lists are cut into is related. -/
lemma exists_blocks {α β : Type} {R : α → β → Prop} {blocks : List (List α)} {bs : List β}
    (h : List.Forall₂ R blocks.flatten bs) :
    ∃ bss : List (List β), List.Forall₂ (List.Forall₂ R) blocks bss ∧ bss.flatten = bs := by
  induction blocks generalizing bs with
  | nil => exact ⟨[], .nil, (List.forall₂_nil_left_iff.1 h).symm⟩
  | cons block blocks ih =>
    rw [List.flatten_cons] at h
    have hfirst := List.forall₂_take block.length h
    have hrest := List.forall₂_drop block.length h
    rw [List.take_left] at hfirst
    rw [List.drop_left] at hrest
    obtain ⟨bss, hbss, hflatten⟩ := ih hrest
    refine ⟨bs.take block.length :: bss, .cons hfirst hbss, ?_⟩
    rw [List.flatten_cons, hflatten, List.take_append_drop]

/-- The command comes to `n` for some arguments in any order, and in any blocks. -/
structure ComesToAnyhow (E : Engine κ) (b : Plain) (w : Ref) (args : List Ref) (i : Interp κ)
    (n : Int32) : Prop where
  /-- The order of the arguments does not matter. -/
  perm : ∀ args', args'.Perm args → ComesTo i n (call E b (w :: args') i)
  /-- Blocks of arguments may be dealt with first. -/
  regroup : ∀ blocks : List (List Ref), (∀ block ∈ blocks, block ≠ []) →
    blocks.flatten.Perm args → ComesTo i n (regrouped E b w blocks i)

/-- **Neither the order nor the grouping of the arguments matters** to sums and products. -/
lemma comesToAnyhow (E : Engine κ) (w : Ref) (hi : i.values.Founded) (hb : b ∈ reckoners)
    (hgathers : Gathers b) (hne : args ≠ []) (hargs : List.Forall₂ i.values.Counts args ns) :
    ComesToAnyhow E b w args i (reckon b ns) where
  perm args' hperm := by
    obtain ⟨ms, hms, hsame⟩ := List.perm_comp_forall₂ hperm hargs
    have hne' : args' ≠ [] := fun hnil => hne (List.nil_perm.1 (hnil ▸ hperm))
    rw [← hgathers.perm ms ns hsame]
    exact comesTo_call hi hb hne' hms
  regroup blocks hblocks hperm := by
    obtain ⟨ms, hms, hsame⟩ := List.perm_comp_forall₂ hperm hargs
    obtain ⟨nss, hnss, rfl⟩ := exists_blocks hms
    have hne' : blocks ≠ [] := by
      rintro rfl
      exact hne (List.nil_perm.1 hperm)
    rw [← hgathers.perm _ ns hsame]
    exact comesTo_regrouped hi hb hgathers hne' hblocks hnss

/-! ## Increments -/

/-- The outcome of a command is a new value that is the integer `n`, and the variable has it. All
values that were there are what they were, and nothing else has happened. -/
inductive Assigns (i : Interp κ) (name : String) (n : Int32) :
    EStateM.Result Stop (Interp κ) Ref → Prop
  | intro {r : Ref} {t : Store} {scopes : ScopeStack} (ht : Unaltered i.values t)
    (hnew : i.values.cells.size ≤ r.index) (hcounts : t.Counts r n)
    (hwording : t.wording r = writeInteger n.toInt)
    (hset : i.context.scopes.set name r (-1) = .ok scopes)
    (hget : scopes.get name (-1) = .ok r) :
    Assigns i name n (.ok r ⟨t, { i.context with scopes }⟩)

/-- Gives a variable a value that is greater by `n`. -/
def increase (name : String) (n : Int32) : EvalM κ Ref := do
  let r ← getVar name (-1)
  let current ← (asInt r : ConvM Int32)
  let r ← (Store.ofInt (current + n) : StoreM Ref)
  setVar name r (-1)

/-- By how much `incr` is to increase: by what it is given, or by one. -/
def Increment (s : Store) (step : Option Ref) (n : Int32) : Prop :=
  match step with
  | some q => s.Counts q n
  | none => n = 1

/-- By how much it is to increase is found out first. -/
lemma call_incr (name : Ref) (step : Option Ref) :
    call E .incr (w :: name :: step.toList) =
      (match step with
        | some q => liftM (asInt q)
        | none => Pure.pure 1) >>= fun n => EvalM.text name >>= fun name => increase name n := by
  have hcheck : Plain.incr.arity.check (name :: step.toList).length = .ok () := by
    cases step with
    | some q => rfl
    | none => rfl
  have harg : ∀ rest, (arg (w :: name :: rest) 1 : EvalM κ Ref) = Pure.pure name := fun _ => rfl
  have hresult : ∀ r, (Command.resultOf (some r) : EvalM κ Ref) = Pure.pure r := fun _ => rfl
  rw [call_of_check hcheck]
  change incr _ >>= _ = _
  unfold incr increase
  cases step with
  | some q =>
    change (liftM (asInt q) >>= _) >>= _ = _
    simp only [harg, hresult, bind_assoc, pure_bind, bind_pure]
  | none =>
    change (Pure.pure (1 : Int32) >>= _) >>= _ = _
    simp only [harg, hresult, bind_assoc, pure_bind, bind_pure]

end Calls

section Increase

variable {κ : Type} {i : Interp κ} {name : String} {n : Int32} {v : Ref}

/-- A variable that there is not cannot be increased. -/
lemma increase_of_error {f : Failure} (h : i.context.scopes.get name (-1) = .error f) :
    increase name n i = fail f i := by
  have hget : (getVar name (-1) : EvalM κ Ref) i = fail f i := by
    change attempt (i.context.scopes.get name (-1)) i = _
    rw [h]
    rfl
  exact bind_of_error hget

/-- A variable whose value counts for nothing cannot be increased; it is named by its text. -/
lemma failsWith_increase (hi : i.values.Founded) (h : i.context.scopes.get name (-1) = .ok v)
    (hv : v.index < i.values.cells.size) (hnone : ∀ m, ¬ i.values.Counts v m) :
    FailsWith i (.notInteger (i.values.wording v)) (increase name n i) := by
  obtain ⟨u, hcount, hu⟩ := asInt_of_not_counts hi (.refl hi) hv hnone
  refine ⟨u, hu, ?_⟩
  unfold increase
  rw [bind_of_ok (getVar_apply h)]
  exact liftConv_bind_of_error hcount

/-- **A variable that counts something** gets a value that is greater. -/
lemma assigns_increase {m : Int32} (hi : i.values.Founded)
    (h : i.context.scopes.get name (-1) = .ok v) (hv : i.values.Counts v m) :
    Assigns i name (m + n) (increase name n i) := by
  obtain ⟨u, hcount, hu⟩ := asInt_of_counts (.refl hi) hv
  have hnew := unaltered_ofInt hu.founded (m + n)
  have hcell : (ofInt (m + n) u).2.cell (ofInt (m + n) u).1 =
      { text := none, rep := .int (m + n) } := cell_alloc_self _ u
  have hown : own (ofInt (m + n) u).1 (ofInt (m + n) u).2 = ofInt (m + n) u :=
    own_of_not_literal (by rw [isLiteral, hcell])
  have hset : ∃ scopes, i.context.scopes.set name (ofInt (m + n) u).1 (-1) = .ok scopes := by
    unfold ScopeStack.set
    rw [ScopeStack.place?_top]
    exact ⟨_, rfl⟩
  obtain ⟨scopes, hscopes⟩ := hset
  have hstored : i.context.scopes.set name (own (ofInt (m + n) u).1 (ofInt (m + n) u).2).1 (-1) =
      .ok scopes := hown.symm ▸ hscopes
  unfold increase
  rw [bind_of_ok (getVar_apply h), bind_of_ok (liftConv_of_ok hcount), liftBind_apply]
  refine (ScopeStack.setVar_apply hstored).symm ▸ ?_
  rw [hown]
  exact .intro (hu.trans hnew) hu.size (counts_ofInt hu.founded _) (wording_ofInt hu.founded _)
    hscopes (ScopeStack.get_of_set_top hscopes)

end Increase

/-! ## The laws -/

section Laws

variable {κ : Type} [HostCommands κ] {E : Engine κ} {w : Ref} {i : Interp κ} {name : Ref}
  {step : Option Ref}

/-- **How `incr` increases a variable**, by what a value counts or by one. -/
structure Increments (E : Engine κ) (w : Ref) (i : Interp κ) (name : Ref) (step : Option Ref) :
    Prop where
  /-- The increment counts nothing. -/
  noStep : ∀ q ∈ step, (∀ n, ¬ i.values.Counts q n) →
    FailsWith i (.notInteger (i.values.wording q)) (call E .incr (w :: name :: step.toList) i)
  /-- There is no such variable. -/
  noVariable : ∀ n f, Increment i.values step n →
    i.context.scopes.get (i.values.wording name) (-1) = .error f →
    FailsWith i f (call E .incr (w :: name :: step.toList) i)
  /-- The variable counts nothing. -/
  noValue : ∀ n v, Increment i.values step n →
    i.context.scopes.get (i.values.wording name) (-1) = .ok v → v.index < i.values.cells.size →
    (∀ m, ¬ i.values.Counts v m) →
    FailsWith i (.notInteger (i.values.wording v)) (call E .incr (w :: name :: step.toList) i)
  /-- The variable gets the integer that is congruent to the exact sum. -/
  sum : ∀ n v m, Increment i.values step n →
    i.context.scopes.get (i.values.wording name) (-1) = .ok v → i.values.Counts v m →
    ∃ k : Int32, k.toInt ≡ m.toInt + n.toInt [ZMOD 4294967296] ∧
      Assigns i (i.values.wording name) k (call E .incr (w :: name :: step.toList) i)

/-- Once it is known by how much, `incr` increases the variable. -/
lemma call_incr_apply (E : Engine κ) (w : Ref) (hi : i.values.Founded)
    (hname : name.index < i.values.cells.size) {n : Int32} (h : Increment i.values step n) :
    ∃ u, Unaltered i.values u ∧ call E .incr (w :: name :: step.toList) i =
      increase (i.values.wording name) n ⟨u, i.context⟩ := by
  have hstep : ∃ u, (match step with
      | some q => liftM (asInt q)
      | none => Pure.pure 1 : EvalM κ Int32) i = .ok n ⟨u, i.context⟩ ∧ Unaltered i.values u := by
    cases step with
    | some q =>
      obtain ⟨u, hcount, hu⟩ := asInt_of_counts (.refl hi) h
      exact ⟨u, liftConv_of_ok hcount, hu⟩
    | none =>
      obtain rfl : n = 1 := h
      exact ⟨i.values, rfl, .refl hi⟩
  obtain ⟨u, hcount, hu⟩ := hstep
  obtain ⟨hword, htold⟩ := tells_text hu.founded name
  refine ⟨_, hu.trans (htold.unaltered hu.founded), ?_⟩
  rw [call_incr, bind_of_ok hcount, ← hu.wording name hname, ← hword]
  rfl

omit [HostCommands κ] in
/-- A command that fails from values that are unaltered fails from those before, too. -/
lemma FailsWith.of_unaltered {f : Failure} {u : Store} {o : EStateM.Result Stop (Interp κ) Ref}
    (h : Unaltered i.values u) (ho : FailsWith ⟨u, i.context⟩ f o) : FailsWith i f o := by
  obtain ⟨t, ht, rfl⟩ := ho
  exact ⟨t, h.trans ht, rfl⟩

omit [HostCommands κ] in
/-- So it is with a command that assigns. -/
lemma Assigns.of_unaltered {x : String} {n : Int32} {u : Store}
    {o : EStateM.Result Stop (Interp κ) Ref} (h : Unaltered i.values u)
    (ho : Assigns ⟨u, i.context⟩ x n o) : Assigns i x n o := by
  cases ho with
  | intro ht hnew hcounts hwording hset hget =>
    exact .intro (h.trans ht) (Nat.le_trans h.size hnew) hcounts hwording hset hget

/-- The increase of a variable, in each of its cases. -/
lemma increments_call (E : Engine κ) (w : Ref) (hi : i.values.Founded)
    (hname : name.index < i.values.cells.size)
    (hstep : ∀ q ∈ step, q.index < i.values.cells.size) : Increments E w i name step where
  noStep q hq hnone := by
    obtain rfl := Option.mem_def.1 hq
    obtain ⟨u, hcount, hu⟩ := asInt_of_not_counts hi (.refl hi) (hstep q hq) hnone
    refine ⟨u, hu, ?_⟩
    rw [call_incr]
    exact liftConv_bind_of_error hcount
  noVariable n f h hget := by
    obtain ⟨u, hu, hcall⟩ := call_incr_apply E w hi hname h
    rw [hcall]
    exact ⟨u, hu, increase_of_error (i := ⟨u, i.context⟩) hget⟩
  noValue n v h hget hv hnone := by
    obtain ⟨u, hu, hcall⟩ := call_incr_apply E w hi hname h
    have hnone' : ∀ m, ¬ u.Counts v m := fun m hm => hnone m ⟨hv, (hu.count v hv).symm.trans hm.2⟩
    rw [hcall, ← hu.wording v hv]
    refine .of_unaltered hu ?_
    exact failsWith_increase (i := ⟨u, i.context⟩) hu.founded hget (hu.lt hv) hnone'
  sum n v m h hget hv := by
    obtain ⟨u, hu, hcall⟩ := call_incr_apply E w hi hname h
    refine ⟨m + n, ?_, ?_⟩
    · rw [Int32.toInt_add]
      exact Int.bmod_emod
    · rw [hcall]
      exact .of_unaltered hu (assigns_increase (i := ⟨u, i.context⟩) hu.founded hget (hv.mono hu))

/-- **Integer commands are exact modulo `2 ^ 32`**, in every interpreter whose values are written
with older values:

* if all arguments count something, `+` comes to the integer that is congruent to the exact sum, and
  `*` to that for the exact product, whatever the order of the arguments, and also if they are
  first dealt with in blocks and the partial results are passed on as texts; `-` comes to the
  integer for the exact difference;
* if not, all three complain about the first argument that counts nothing;
* `incr` gives a variable, and comes to, the integer for its value plus the increment, or complains
  about the increment, the variable or its value, in this order. -/
theorem integers_exact (E : Engine κ) (w : Ref) (hi : i.values.Founded) :
    (∀ args ns, args ≠ [] → List.Forall₂ i.values.Counts args ns →
      (∃ n : Int32, n.toInt ≡ (ns.map Int32.toInt).sum [ZMOD 4294967296] ∧
        ComesToAnyhow E .add w args i n) ∧
      (∃ n : Int32, n.toInt ≡ (ns.map Int32.toInt).prod [ZMOD 4294967296] ∧
        ComesToAnyhow E .multiply w args i n) ∧
      ∃ n : Int32, n.toInt ≡ difference (ns.map Int32.toInt) [ZMOD 4294967296] ∧
        ComesTo i n (call E .subtract (w :: args) i)) ∧
    (∀ b ∈ reckoners, ∀ before r after, (∀ q ∈ before, ∃ n, i.values.Counts q n) →
      r.index < i.values.cells.size → (∀ n, ¬ i.values.Counts r n) →
      FailsWith i (.notInteger (i.values.wording r))
        (call E b (w :: (before ++ r :: after)) i)) ∧
    ∀ (name : Ref) (step : Option Ref), name.index < i.values.cells.size →
      (∀ q ∈ step, q.index < i.values.cells.size) → Increments E w i name step := by
  have hadd : Plain.add ∈ reckoners := by decide
  have hmultiply : Plain.multiply ∈ reckoners := by decide
  have hsubtract : Plain.subtract ∈ reckoners := by decide
  refine ⟨fun args ns hne hargs => ⟨?sum, ?product, ?difference⟩, ?first, ?increment⟩
  case sum =>
    exact ⟨_, reckon_add_modEq ns, comesToAnyhow E w hi hadd gathers_add hne hargs⟩
  case product =>
    exact ⟨_, reckon_multiply_modEq ns, comesToAnyhow E w hi hmultiply gathers_multiply hne hargs⟩
  case difference =>
    exact ⟨_, reckon_subtract_modEq ns, comesTo_call hi hsubtract hne hargs⟩
  case first =>
    intro b hb before r after hbefore hr hnone
    exact failsWith_call hi hb hbefore hr hnone
  case increment =>
    intro name step hname hstep
    exact increments_call E w hi hname hstep

end Laws

/-- An interpreter with two variables, of which one has the largest integer. -/
def afterCounts : Interp Empty :=
  Interp.afterText 2 "set n 2147483647; set m 1" Interp.standard

/-- The least integer is passed on as a text; a name counts nothing; and the largest integer is
increased to the least. -/
theorem integers_exact_afterCounts :
    afterCounts.values.Founded ∧
      ComesTo afterCounts (-2147483647)
        (regrouped (Interp.engine 0) .add ⟨1⟩ [[⟨3⟩, ⟨6⟩], [⟨6⟩]] afterCounts) ∧
      FailsWith afterCounts (.notInteger "m")
        (call (Interp.engine 0) .multiply [⟨1⟩, ⟨6⟩, ⟨5⟩, ⟨2⟩] afterCounts) ∧
      Assigns afterCounts "n" (-2147483648)
        (call (Interp.engine 0) .incr [⟨1⟩, ⟨2⟩] afterCounts) := by
  have hfounded : afterCounts.values.Founded :=
    Interp.Reached.founded Interp.fresh_standard (.text .start 2 _)
  have hsize : afterCounts.values.cells.size = 9 := by decide +kernel
  have hthere : ∀ k < 9, (⟨k⟩ : Ref).index < afterCounts.values.cells.size :=
    fun k hk => hsize.symm ▸ hk
  have hlargest : afterCounts.values.Counts ⟨3⟩ 2147483647 :=
    ⟨hthere 3 (by decide), by decide +kernel⟩
  have hone : afterCounts.values.Counts ⟨6⟩ 1 := ⟨hthere 6 (by decide), by decide +kernel⟩
  have hvariable : afterCounts.values.Counts ⟨7⟩ 2147483647 :=
    ⟨hthere 7 (by decide), by decide +kernel⟩
  have hname : afterCounts.values.count ⟨5⟩ = .error (.notInteger "m") := by decide +kernel
  have hnone : ∀ n, ¬ afterCounts.values.Counts ⟨5⟩ n := by
    intro n hcounts
    have hok := hname.symm.trans hcounts.2
    cases hok
  have hm : afterCounts.values.wording ⟨5⟩ = "m" := by decide +kernel
  have hn : afterCounts.values.wording ⟨2⟩ = "n" := by decide +kernel
  have hget : afterCounts.context.scopes.get "n" (-1) = .ok ⟨7⟩ := by decide +kernel
  obtain ⟨hexact, hfirst, hincr⟩ := integers_exact (Interp.engine 0) ⟨1⟩ hfounded
  refine ⟨hfounded, ?_, ?_, ?_⟩
  · obtain ⟨⟨n, hn, hcomes⟩, -⟩ :=
      hexact [⟨3⟩, ⟨6⟩, ⟨6⟩] [2147483647, 1, 1] (List.cons_ne_nil _ _)
        (.cons hlargest (.cons hone (.cons hone .nil)))
    obtain rfl : n = -2147483647 := eq_of_modEq (hn.trans (by decide))
    exact hcomes.regroup _ (by decide) (.refl _)
  · have hcomplains := hfirst .multiply (by decide) [⟨6⟩] ⟨5⟩ [⟨2⟩] (by simpa using ⟨1, hone⟩)
      (hthere 5 (by decide)) hnone
    rwa [hm] at hcomplains
  · have hsum := (hincr ⟨2⟩ none (hthere 2 (by decide)) nofun).sum 1 ⟨7⟩ 2147483647 rfl
    rw [hn] at hsum
    obtain ⟨n, hn, hassigns⟩ := hsum hget hvariable
    obtain rfl : n = -2147483648 := eq_of_modEq (hn.trans (by decide))
    exact hassigns

end Builtin

end CommandScript

import CommandScript.Proofs.Evaluation.Isolation
import CommandScript.Proofs.Evaluation.Signals
import CommandScript.Proofs.Value.Additions

/-!
# Parameters and arguments

A procedure is called with any number of arguments. They go to the parameters in order, whether a
parameter has a default or not; parameters for which no argument is left take their defaults. A last
parameter called `args` takes what is left, however much it is. So the call fits if every parameter
that has no default gets an argument, and if no argument is left over where none of the parameters
takes the rest. A default before a parameter without one is never used.

Names may be repeated. The parameters are bound in order, so a name stands for what its last
occurrence was bound to.

## Main definitions

* `Procedure.TakesRest`, `Procedure.Needs`, `Procedure.Fits` — whether the arguments of a call are
  as many as the parameters ask for.
* `Procedure.Given` — what a variable holds that was given a value.
* `Procedure.Supplied` — what the parameter at a place is bound to.
* `Procedure.Entered` — the interpreter in which the body is evaluated.
* `Procedure.Refused` — the error of a call that does not fit.

## Main results

* `Procedure.bindParams_apply` — what binding does, parameter by parameter.
* `Procedure.call_binding` — a call that fits evaluates the body with its parameters bound; one that
  does not raises an error and evaluates nothing.
-/

set_option autoImplicit false

namespace CommandScript

namespace Procedure

/-! ## Calls that fit -/

/-- The parameter at the place takes all arguments that are left. -/
def TakesRest (params : List Parameter) (i : Nat) : Prop :=
  i + 1 = params.length ∧ ∃ p, params[i]? = some p ∧ isRest p = true

/-- The parameter at the place needs an argument: it has no default, and it does not take the rest,
for which none has to be left. -/
def Needs (params : List Parameter) (i : Nat) : Prop :=
  ∃ p, params[i]? = some p ∧ p.fallback = none ∧ ¬ TakesRest params i

/-- A number of arguments is what the parameters ask for: it reaches the last parameter that needs
one, and it does not go beyond the last parameter of all unless that one takes the rest. -/
def Fits (params : List Parameter) (count : Nat) : Prop :=
  (∀ i, Needs params i → i < count) ∧ ((∃ i, TakesRest params i) ∨ count ≤ params.length)

section Fits

variable {p : Parameter} {params : List Parameter} {count i : Nat}

/-- Only the last parameter takes the rest. -/
lemma takesRest_zero_iff : TakesRest (p :: params) 0 ↔ params = [] ∧ isRest p = true := by
  simp [TakesRest]

/-- What the first parameter takes does not count for the others. -/
lemma takesRest_succ_iff : TakesRest (p :: params) (i + 1) ↔ TakesRest params i := by
  simp [TakesRest]

/-- Where there are no parameters, none takes the rest. -/
lemma not_takesRest_nil : ¬ TakesRest [] i := by
  rintro ⟨-, p, hp, -⟩
  simp at hp

/-- The first parameter needs an argument unless it has a default or takes the rest. -/
lemma needs_zero_iff :
    Needs (p :: params) 0 ↔ p.fallback = none ∧ ¬ TakesRest (p :: params) 0 := by
  simp [Needs]

/-- What the first parameter needs does not count for the others. -/
lemma needs_succ_iff : Needs (p :: params) (i + 1) ↔ Needs params i := by
  simp [Needs, takesRest_succ_iff]

/-- Where there are no parameters, only no arguments fit. -/
lemma fits_nil_iff : Fits [] count ↔ count = 0 := by
  simp [Fits, Needs, not_takesRest_nil]

/-- A last parameter that takes the rest is content with any number of arguments. -/
lemma fits_of_takesRest (h : TakesRest (p :: params) 0) : Fits (p :: params) count := by
  refine ⟨fun i hi => ?_, .inl ⟨0, h⟩⟩
  obtain ⟨rfl, -⟩ := takesRest_zero_iff.1 h
  cases i with
  | zero => exact absurd h (needs_zero_iff.1 hi).2
  | succ i =>
    obtain ⟨q, hq, -⟩ := needs_succ_iff.1 hi
    simp at hq

/-- If the first parameter does not take the rest, one of the others does or none. -/
lemma exists_takesRest_iff (h : ¬ TakesRest (p :: params) 0) :
    (∃ i, TakesRest (p :: params) i) ↔ ∃ i, TakesRest params i := by
  constructor
  · rintro ⟨i, hi⟩
    cases i with
    | zero => exact absurd hi h
    | succ i => exact ⟨i, takesRest_succ_iff.1 hi⟩
  · rintro ⟨i, hi⟩
    exact ⟨i + 1, takesRest_succ_iff.2 hi⟩

/-- The first argument goes to the first parameter. -/
lemma fits_succ_iff (h : ¬ TakesRest (p :: params) 0) :
    Fits (p :: params) (count + 1) ↔ Fits params count := by
  unfold Fits
  rw [exists_takesRest_iff h, List.length_cons, Nat.add_le_add_iff_right]
  refine and_congr_left fun _ => ⟨fun hall i hi => ?_, fun hall i hi => ?_⟩
  · exact Nat.lt_of_succ_lt_succ (hall (i + 1) (needs_succ_iff.2 hi))
  · cases i with
    | zero => exact Nat.succ_pos count
    | succ i => exact Nat.succ_lt_succ (hall i (needs_succ_iff.1 hi))

/-- Without arguments, every parameter needs a default. -/
lemma fits_zero_iff (h : ¬ TakesRest (p :: params) 0) :
    Fits (p :: params) 0 ↔ p.fallback ≠ none ∧ Fits params 0 := by
  unfold Fits
  simp only [Nat.zero_le, or_true, and_true, Nat.not_lt_zero, imp_false]
  constructor
  · intro hall
    exact ⟨fun hnone => hall 0 (needs_zero_iff.2 ⟨hnone, h⟩),
      fun i hi => hall (i + 1) (needs_succ_iff.2 hi)⟩
  · rintro ⟨hdefault, hall⟩ i hi
    cases i with
    | zero => exact hdefault (needs_zero_iff.1 hi).1
    | succ i => exact hall i (needs_succ_iff.1 hi)

/-- Whether a call fits can be found out. -/
instance decidableFits : (params : List Parameter) → (count : Nat) → Decidable (Fits params count)
  | [], _ => decidable_of_iff _ fits_nil_iff.symm
  | p :: params, count =>
    if h : params = [] ∧ isRest p = true then .isTrue (fits_of_takesRest (takesRest_zero_iff.2 h))
    else
      have hrest : ¬ TakesRest (p :: params) 0 := mt takesRest_zero_iff.1 h
      match count with
      | 0 =>
        have := decidableFits params 0
        decidable_of_iff _ (fits_zero_iff hrest).symm
      | count + 1 =>
        have := decidableFits params count
        decidable_of_iff _ (fits_succ_iff hrest).symm

-- a default before the last parameter, which takes the rest
example : Fits [⟨"a", none⟩, ⟨"b", some ⟨0⟩⟩, ⟨"args", none⟩] 1 := by decide

-- a default is of no use before a parameter without one
example : ¬ Fits [⟨"a", some ⟨0⟩⟩, ⟨"b", none⟩] 1 := by decide

end Fits

/-! ## What a parameter is bound to -/

/-- **What a variable holds that was given the value `a`** between the stores `v` and `w`: the value
itself; or, if it belongs to a script, a copy of it that was made in between. `R` says what may have
happened to the values before and after that. -/
inductive Given (R : Store → Store → Prop) (v w : Store) (a : Ref) : Ref → Prop
  /-- The value belongs to no script. -/
  | itself (h : v.isLiteral a = false) : Given R v w a a
  /-- The value belongs to a script. -/
  | copied {u : Store} (h : v.isLiteral a = true) (hu : R v u) (hw : R (Store.copy a u).2 w) :
    Given R v w a (Store.copy a u).1

/-- **What the parameter at a place is bound to**: the argument at the same place, if there is one;
otherwise its default; and if it takes the rest, a new list of the arguments from its place on. -/
inductive Supplied (v w : Store) (params : List Parameter) (args : List Ref) (i : Nat) :
    Ref → Prop
  /-- It takes the rest. -/
  | rest {r : Ref} (h : TakesRest params i) (hnew : v.cells.size ≤ r.index)
    (hcell : w.cell r = { text := none, rep := .list (.ofList (args.drop i)) }) :
    Supplied v w params args i r
  /-- There is an argument for it. -/
  | actual {a r : Ref} (h : ¬ TakesRest params i) (ha : args[i]? = some a)
    (hr : Given Store.Enlarged v w a r) : Supplied v w params args i r
  /-- There is none. -/
  | fallback {p : Parameter} {d r : Ref} (h : ¬ TakesRest params i) (ha : args[i]? = none)
    (hp : params[i]? = some p) (hd : p.fallback = some d) (hr : Given Store.Enlarged v w d r) :
    Supplied v w params args i r

section Given

variable {R : Store → Store → Prop} {u v v' w w' : Store} {a r : Ref}

/-- A variable that is given a value holds what it can hold of it. -/
lemma given_own (hliteral : u.isLiteral a = v.isLiteral a) (hu : R v u)
    (hw : R (Store.own a u).2 w) : Given R v w a (Store.own a u).1 := by
  cases h : v.isLiteral a with
  | false =>
    rw [Store.own_of_not_literal (hliteral.trans h)]
    exact .itself h
  | true =>
    rw [Store.own_of_literal (hliteral.trans h)] at hw ⊢
    exact .copied h hu hw

/-- More may have happened before and after. -/
lemma Given.mono (hR : ∀ s t u, R s t → R t u → R s u) (hliteral : v'.isLiteral a = v.isLiteral a)
    (hv : R v v') (hw : R w w') (h : Given R v' w a r) : Given R v w' a r := by
  cases h with
  | itself h => exact .itself (hliteral ▸ h)
  | copied h hu hw' => exact .copied (hliteral ▸ h) (hR _ _ _ hv hu) (hR _ _ _ hw' hw)

/-- Values may have been made before. -/
lemma Given.enlarge (h : v.Enlarged v') (hr : Given Store.Enlarged v' w a r) :
    Given Store.Enlarged v w a r :=
  hr.mono (fun _ _ _ => .trans) (h.isLiteral_eq a) h (.refl w)

end Given

/-- The parameter at a place of the others is at the next place of all. -/
lemma Supplied.succ {v v' w : Store} {p : Parameter} {params : List Parameter} {args : List Ref}
    {i : Nat} {r : Ref} (h : v.Enlarged v') (hr : Supplied v' w params args.tail i r) :
    Supplied v w (p :: params) args (i + 1) r := by
  have htail : ∀ j, args.tail[j]? = args[j + 1]? := fun j => by rw [List.getElem?_tail]
  cases hr with
  | rest hrest hnew hcell =>
    rw [List.drop_tail] at hcell
    exact .rest (takesRest_succ_iff.2 hrest) (Nat.le_trans h.size hnew) hcell
  | actual hrest ha hr =>
    exact .actual (mt takesRest_succ_iff.1 hrest) (htail i ▸ ha) (hr.enlarge h)
  | fallback hrest ha hp hd hr =>
    exact .fallback (mt takesRest_succ_iff.1 hrest) (htail i ▸ ha) hp hd (hr.enlarge h)

/-! ## Binding, parameter by parameter -/

section Binding

variable {κ : Type} {s t u : Interp κ}

/-- What a name stands for in the top frame. -/
def atTop (s : Interp κ) (name : String) : Option Binding :=
  (s.context.scopes.frame (s.context.scopes.depth - 1)).find? name

/-- What binding may do besides binding names in the top frame: it makes values. -/
structure Binds (s t : Interp κ) : Prop where
  /-- Values are made, perhaps. -/
  values : s.values.Enlarged t.values
  /-- Nothing changes but variables. -/
  context : t.context = { s.context with scopes := t.context.scopes }
  /-- There are as many frames as before. -/
  depth : t.context.scopes.depth = s.context.scopes.depth
  /-- The frames below the top one are as before. -/
  below : ∀ i, i + 1 < s.context.scopes.depth →
    t.context.scopes.frame i = s.context.scopes.frame i
  /-- No name becomes a link. -/
  unlinked : t.context.scopes.Unlinked

/-- To do nothing is to bind nothing. -/
lemma Binds.refl (hs : s.context.scopes.Unlinked) : Binds s s :=
  ⟨.refl _, rfl, rfl, fun _ _ => rfl, hs⟩

/-- To bind, and to bind again, is to bind. -/
lemma Binds.trans (h : Binds s t) (h' : Binds t u) : Binds s u where
  values := h.values.trans h'.values
  context := by rw [h'.context, h.context]
  depth := h'.depth.trans h.depth
  below i hi := (h'.below i (h.depth ▸ hi)).trans (h.below i hi)
  unlinked := h'.unlinked

/-- A variable of the top frame, where no name is a link. -/
lemma exists_setVar (hs : s.context.scopes.Unlinked) (name : String) (a : Ref) :
    ∃ t, EvalM.setVar name a (-1) s = .ok (Store.own a s.values).1 t ∧ Binds s t ∧
      t.values = (Store.own a s.values).2 ∧
      ∀ other, atTop t other =
        if other = name then some (.value (Store.own a s.values).1) else atTop s other := by
  obtain ⟨v, c⟩ := s
  have hplace := ScopeStack.place?_top c.scopes
  -- the name is no link, so the variable is in the top frame itself
  have hslot : c.scopes.slot name (c.scopes.depth - 1) = c.scopes.depth - 1 := hs.slot_eq name
  obtain ⟨scopes, hset⟩ : ∃ t, c.scopes.set name (Store.own a v).1 (-1) = .ok t := by
    unfold ScopeStack.set
    rw [hplace]
    exact ⟨_, rfl⟩
  have hdepth := ScopeStack.depth_of_set hset
  have hfind := ScopeStack.find?_frame_of_set hplace hset
  have htop : ∀ other, (scopes.frame (scopes.depth - 1)).find? other =
      if other = name then some (.value (Store.own a v).1)
      else (c.scopes.frame (c.scopes.depth - 1)).find? other := by
    intro other
    rw [hdepth, hfind, hslot]
    simp only [and_true]
  refine ⟨_, ScopeStack.setVar_apply hset,
    ⟨Store.enlarges_own a v, rfl, hdepth, fun i hi => ?_, fun other => ?_⟩, rfl, htop⟩
  · refine ScopeStack.frame_of_set hplace hset ?_
    change i + 1 < c.scopes.depth at hi
    change i ≠ c.scopes.slot name (c.scopes.depth - 1)
    omega
  · rw [htop]
    split
    · exact nofun
    · exact hs other

/-- **What the names of the parameters stand for in the top frame**, after they have been bound in
order: each what its last occurrence is bound to, all others what they stood for before. -/
structure BoundAtTop (s t : Interp κ) (params : List Parameter) (args : List Ref) : Prop where
  /-- The last parameter of a name is the one that counts. -/
  bound : ∀ i p, params[i]? = some p →
    (∀ j q, i < j → params[j]? = some q → q.name ≠ p.name) →
    ∃ r, atTop t p.name = some (.value r) ∧ Supplied s.values t.values params args i r
  /-- Other names are left alone. -/
  other : ∀ name, (∀ p ∈ params, p.name ≠ name) → atTop t name = atTop s name

/-- Where there are no parameters, nothing is bound. -/
lemma boundAtTop_nil (args : List Ref) : BoundAtTop s s [] args := by
  refine ⟨fun i p hp => ?_, fun _ _ => rfl⟩
  simp at hp

/-- The first parameter is bound, and then the others. -/
lemma BoundAtTop.cons {p : Parameter} {params : List Parameter} {args : List Ref} {r : Ref}
    (hst : s.values.Enlarged t.values)
    (hp : ∀ other, atTop t other = if other = p.name then some (.value r) else atTop s other)
    (hr : Supplied s.values u.values (p :: params) args 0 r)
    (h : BoundAtTop t u params args.tail) : BoundAtTop s u (p :: params) args where
  bound i q hq hlast := by
    cases i with
    | zero =>
      obtain rfl : p = q := by simpa using hq
      have hnone : ∀ q ∈ params, q.name ≠ p.name := by
        intro q hmem
        obtain ⟨j, hj⟩ := List.mem_iff_getElem?.1 hmem
        exact hlast (j + 1) q (Nat.succ_pos j) hj
      refine ⟨r, ?_, hr⟩
      rw [h.other p.name hnone, hp, if_pos rfl]
    | succ i =>
      obtain ⟨r', hfind, hr'⟩ := h.bound i q hq fun j q' hij hj =>
        hlast (j + 1) q' (Nat.succ_lt_succ hij) hj
      exact ⟨r', hfind, hr'.succ hst⟩
  other name hname := by
    have hne : name ≠ p.name := fun h => hname p List.mem_cons_self h.symm
    rw [h.other name fun q hq => hname q (List.mem_cons_of_mem p hq), hp, if_neg hne]

/-- What binding comes to: it goes through if the call fits, and then every name is bound to what
the last parameter of that name is given. -/
def BindsParams (params : List Parameter) (args : List Ref) (s : Interp κ) : Prop :=
  ∃ t, Binds s t ∧
    (Fits params args.length ∧ bindParams params args s = .ok true t ∧ BoundAtTop s t params args ∨
      ¬ Fits params args.length ∧ bindParams params args s = .ok false t)

/-- The last parameter takes the rest: a new list, which belongs to no script. -/
lemma bindsParams_rest {p : Parameter} {params : List Parameter}
    (hrest : TakesRest (p :: params) 0) (args : List Ref) (hs : s.context.scopes.Unlinked) :
    BindsParams (p :: params) args s := by
  obtain ⟨rfl, hname⟩ := takesRest_zero_iff.1 hrest
  obtain ⟨v, c⟩ := s
  have hcell : (Store.ofList args v).2.cell (Store.ofList args v).1 =
      { text := none, rep := .list (.ofList args) } := Store.cell_alloc_self _ v
  have hown : Store.own (Store.ofList args v).1 (Store.ofList args v).2 = Store.ofList args v :=
    Store.own_of_not_literal (by rw [Store.isLiteral, hcell])
  obtain ⟨t, hset, hbinds, hvalues, htop⟩ :=
    exists_setVar (s := ⟨(Store.ofList args v).2, c⟩) hs p.name (Store.ofList args v).1
  dsimp only at hset hvalues htop
  rw [hown] at hset hvalues htop
  have hlist : Binds ⟨v, c⟩ ⟨(Store.ofList args v).2, c⟩ :=
    ⟨Store.enlarges_alloc rfl v, rfl, rfl, fun _ _ => rfl, hs⟩
  refine ⟨t, hlist.trans hbinds, .inl ⟨fits_of_takesRest hrest, ?_, ?_⟩⟩
  · have hrun : bindParams [p] args (⟨v, c⟩ : Interp κ) =
        (EvalM.setVar p.name (Store.ofList args v).1 (-1) >>= fun _ => pure true)
          ⟨(Store.ofList args v).2, c⟩ := by
      simp only [bindParams, hname]
      rfl
    rw [hrun, EvalM.bind_of_ok hset]
    rfl
  · have hfinal : t.values.cell (Store.ofList args v).1 =
        { text := none, rep := .list (.ofList args) } := by rw [hvalues, hcell]
    exact .cons (hlist.trans hbinds).values htop (.rest hrest (Nat.le_refl _) hfinal)
      (boundAtTop_nil args.tail)

/-- A parameter that does not take the rest is given a value, and the others are bound to the
arguments that are left. -/
lemma bindsParams_next {p : Parameter} {params : List Parameter} {args : List Ref} {a : Ref}
    (hs : s.context.scopes.Unlinked)
    (ih : ∀ t : Interp κ, t.context.scopes.Unlinked → BindsParams params args.tail t)
    (hstep : bindParams (p :: params) args s =
      (EvalM.setVar p.name a (-1) >>= fun _ => bindParams params args.tail) s)
    (hfits : Fits (p :: params) args.length ↔ Fits params args.tail.length)
    (ha : ∀ w r, Given Store.Enlarged s.values w a r → Supplied s.values w (p :: params) args 0 r) :
    BindsParams (p :: params) args s := by
  obtain ⟨t, hset, hst, hvalues, htop⟩ := exists_setVar hs p.name a
  obtain ⟨u, htu, hcases⟩ := ih t hst.unlinked
  have hrest : bindParams (p :: params) args s = bindParams params args.tail t := by
    rw [hstep, EvalM.bind_of_ok hset]
  have hgiven : Given Store.Enlarged s.values u.values a (Store.own a s.values).1 :=
    given_own rfl (.refl _) (hvalues ▸ htu.values)
  refine ⟨u, hst.trans htu, ?_⟩
  rw [hfits, hrest]
  refine hcases.imp_left fun ⟨h, hrun, hbound⟩ => ⟨h, hrun, ?_⟩
  exact .cons hst.values htop (ha u.values _ hgiven) hbound

/-- **Binding goes through if the call fits**, and then every name is bound to what the last
parameter of that name is given; if the call does not fit, it ends with nothing but a part of that.

**Proof sketch.** Induction on the parameters. The first argument goes to the first parameter, and
the others fit the other parameters; where no argument is left, the first parameter needs a default,
and none are left for the others. -/
lemma bindParams_apply (params : List Parameter) (args : List Ref)
    (hs : s.context.scopes.Unlinked) : BindsParams params args s := by
  induction params generalizing args s with
  | nil =>
    refine ⟨s, .refl hs, ?_⟩
    rw [fits_nil_iff]
    cases args with
    | nil => exact .inl ⟨rfl, rfl, boundAtTop_nil []⟩
    | cons a args => exact .inr ⟨nofun, rfl⟩
  | cons p params ih =>
    by_cases hrest : TakesRest (p :: params) 0
    · exact bindsParams_rest hrest args hs
    -- a parameter that does not take the rest takes one argument, or its default
    · have hno : (params.isEmpty && isRest p) = false := by
        simpa [takesRest_zero_iff] using hrest
      cases args with
      | cons a args =>
        refine bindsParams_next hs (fun t => ih args) ?_ (fits_succ_iff hrest)
          fun w r hr => .actual hrest rfl hr
        simp only [bindParams, hno]
        rfl
      | nil =>
        cases hd : p.fallback with
        | some d =>
          refine bindsParams_next (a := d) hs (fun t => ih []) ?_ ?_
            fun w r hr => .fallback hrest rfl rfl hd hr
          · simp only [bindParams, hno, hd]
            rfl
          · simp [fits_zero_iff hrest, hd]
        | none =>
          refine ⟨s, .refl hs, .inr ⟨?_, ?_⟩⟩
          · simp [fits_zero_iff hrest, hd]
          · simp only [bindParams, hno, hd]
            rfl

/-! ## Calls -/

/-- What a call does when its parameters are bound: the body is evaluated, the frame of the call
goes, and the outcome is settled. -/
def runBody (E : Engine κ) (p : Procedure) : EvalM κ Ref := do
  let result ← EvalM.observe (E.eval p.body)
  EvalM.modifyContext fun c => { c with scopes := c.scopes.pop.2 }
  EvalM.settle result

/-- **The interpreter in which the body is evaluated**, after a call from another one: there is one
frame more, and the names in it are those of the parameters, each bound as its last occurrence is
supplied. -/
structure Entered (p : Procedure) (args : List Ref) (s t : Interp κ) : Prop where
  /-- Values are made, perhaps; what was there is as it was. -/
  values : s.values.Enlarged t.values
  /-- Nothing changes but variables. -/
  context : t.context = { s.context with scopes := t.context.scopes }
  /-- The call has a frame of its own. -/
  depth : t.context.scopes.depth = s.context.scopes.depth + 1
  /-- The frames below it are as before. -/
  below : ∀ i, i < s.context.scopes.depth →
    t.context.scopes.frame i = s.context.scopes.frame i
  /-- The names of the parameters are bound. -/
  bound : ∀ i q, p.params[i]? = some q →
    (∀ j q', i < j → p.params[j]? = some q' → q'.name ≠ q.name) →
    ∃ r, (t.context.scopes.frame s.context.scopes.depth).find? q.name = some (.value r) ∧
      Supplied s.values t.values p.params args i r
  /-- No other names are. -/
  only : ∀ name, (∀ q ∈ p.params, q.name ≠ name) →
    (t.context.scopes.frame s.context.scopes.depth).find? name = none

/-- **The error of a call that does not fit**: it reminds of the form of the call, and all frames
are as they were before. -/
structure Refused (p : Procedure) (name : Ref) (s : Interp κ) (e : Exception) (t : Interp κ) :
    Prop where
  /-- It is an error. -/
  code : e.code = .error
  /-- Values are made, perhaps. Then the text of the name is asked for, and the error is made, whose
  message says how the call should be written. -/
  values : ∃ v, s.values.Enlarged v ∧ (e, t.values) =
    Exception.ofFailure (.usage ((Store.text name v).1 ++ formOf p.params)) (Store.text name v).2
  /-- The message is its value. -/
  value : (t.values.cell e.value).text = some e.message
  /-- It was made here. -/
  isNew : e.frames = []
  /-- Nothing changes but the number of changes of variables. -/
  context : t.context = { s.context with scopes := t.context.scopes }
  /-- There are as many frames as before. -/
  depth : t.context.scopes.depth = s.context.scopes.depth
  /-- They are as they were. -/
  frames : ∀ i, i < s.context.scopes.depth →
    t.context.scopes.frame i = s.context.scopes.frame i

/-- The interpreter with a new frame on top. -/
def pushed (s : Interp κ) : Interp κ :=
  ⟨s.values, { s.context with scopes := s.context.scopes.push }⟩

/-- In a new frame nothing is bound. -/
lemma atTop_pushed (s : Interp κ) (name : String) : atTop (pushed s) name = none := by
  have htop : s.context.scopes.push.frame s.context.scopes.depth = .empty :=
    ScopeStack.frame_push_top s.context.scopes
  change (s.context.scopes.push.frame s.context.scopes.depth).find? name = none
  rw [htop]
  rfl

/-- A call observes what comes of binding and the body, in a new frame. -/
lemma call_apply (E : Engine κ) (p : Procedure) (argv : List Ref) (s : Interp κ) :
    p.call E argv s =
      (EvalM.observe (p.bind argv >>= fun _ => E.eval p.body) >>= fun result => do
        EvalM.modifyContext fun c => { c with scopes := c.scopes.pop.2 }
        EvalM.settle result) (pushed s) := rfl

/-- What comes after a result is what is observed. -/
lemma observe_bind_of_ok {α β : Type} {m : EvalM κ α} {f : α → EvalM κ β} {a : α}
    (h : m s = .ok a t) : EvalM.observe (m >>= f) s = EvalM.observe (f a) t := by
  unfold EvalM.observe
  rw [EvalM.bind_of_ok h]

/-- What comes first counts by its outcome only. -/
lemma bind_congr {α β : Type} {m n : EvalM κ α} {f : α → EvalM κ β} (h : m s = n t) :
    (m >>= f) s = (n >>= f) t := by
  change EStateM.bind m f s = EStateM.bind n f t
  unfold EStateM.bind
  rw [h]

section Ways

variable {p : Procedure} {name : Ref} {args : List Ref}

/-- A call whose arguments fit is bound. -/
lemma bind_of_bound (h : bindParams p.params args s = .ok true t) :
    p.bind (name :: args) s = .ok () t := by
  simp only [bind]
  rw [EvalM.bind_of_ok h]
  rfl

/-- Where binding goes through, the body is evaluated. -/
lemma call_of_bound (h : bindParams p.params args (pushed s) = .ok true t) (E : Engine κ) :
    p.call E (name :: args) s = runBody E p t := by
  rw [call_apply]
  exact bind_congr (observe_bind_of_ok (bind_of_bound h))

/-- The error that reminds of the form of a call, as it is made in an interpreter. -/
def reminder (p : Procedure) (name : Ref) (t : Interp κ) : Exception × Store :=
  let (text, values) := Store.text name t.values
  Exception.ofFailure (.usage (text ++ formOf p.params)) values

/-- A call whose arguments do not fit comes to the reminder of its form. -/
lemma bind_of_unbound (h : bindParams p.params args s = .ok false t) :
    p.bind (name :: args) s =
      .error (.raised (reminder p name t).1) ⟨(reminder p name t).2, t.context⟩ := by
  simp only [bind]
  rw [EvalM.bind_of_ok h]
  rfl

/-- Where binding does not go through, the call ends with the reminder, whatever the body is. -/
lemma call_of_unbound (h : bindParams p.params args (pushed s) = .ok false t) (E : Engine κ) :
    p.call E (name :: args) s = .error (.raised (reminder p name t).1)
      ⟨(reminder p name t).2, { t.context with scopes := t.context.scopes.pop.2 }⟩ := by
  have hobserve : EvalM.observe (p.bind (name :: args) >>= fun _ => E.eval p.body) (pushed s) =
      .ok (.error (reminder p name t).1) ⟨(reminder p name t).2, t.context⟩ := by
    unfold EvalM.observe
    rw [EvalM.bind_of_error (bind_of_unbound h)]
  rw [call_apply, EvalM.bind_of_ok hobserve]
  rfl

/-- Once its parameters are bound, a call has entered its frame. -/
lemma entered_of_bound (hst : Binds (pushed s) t)
    (hbound : BoundAtTop (pushed s) t p.params args) : Entered p args s t := by
  have hdepth : t.context.scopes.depth = s.context.scopes.depth + 1 := hst.depth
  have htop : ∀ name, atTop t name =
      (t.context.scopes.frame s.context.scopes.depth).find? name := by
    intro name
    rw [atTop, hdepth, Nat.add_sub_cancel]
  refine ⟨hst.values, hst.context, hdepth, fun i hi => ?_, fun i q hq hlast => ?_,
    fun name hname => ?_⟩
  · rw [hst.below i (Nat.succ_lt_succ hi)]
    exact ScopeStack.frame_push hi
  · rw [← htop]
    exact hbound.bound i q hq hlast
  · rw [← htop, hbound.other name hname, atTop_pushed]

/-- A call that is not bound leaves all frames as they were. -/
lemma refused_of_unbound (hst : Binds (pushed s) t) (name : Ref) :
    Refused p name s (reminder p name t).1
      ⟨(reminder p name t).2, { t.context with scopes := t.context.scopes.pop.2 }⟩ where
  code := rfl
  values := ⟨t.values, hst.values, rfl⟩
  value := congrArg Cell.text (Store.cell_alloc_self _ _)
  isNew := rfl
  context := by rw [hst.context]; rfl
  depth := ScopeStack.depth_pop_of_depth_push hst.depth
  frames i hi := by
    have hdepth : t.context.scopes.depth = s.context.scopes.depth + 1 := hst.depth
    have hbelow : t.context.scopes.frame i = s.context.scopes.push.frame i :=
      hst.below i (Nat.succ_lt_succ hi)
    dsimp only
    rw [ScopeStack.frame_pop (by omega), hbelow, ScopeStack.frame_push hi]

end Ways

/-- **Arguments are bound to parameters.** Whatever the parameters and the arguments of a call are,
one of two things is the case.

* The call fits: every parameter that has no default and does not take the rest has an argument, and
  no argument is left over, unless the last parameter is called `args`. Then binding goes through,
  and the call is the evaluation of the body in a new frame, in which exactly the names of the
  parameters are bound, each to what its last occurrence is supplied with.
* It does not fit. Then binding fails, and the call ends with the error that reminds of its form.
  The body is not evaluated, since the outcome is the same whatever evaluates it, and all frames are
  as they were before. -/
theorem call_binding (s : Interp κ) (p : Procedure) (name : Ref) (args : List Ref) :
    Fits p.params args.length ∧
        (∃ t, p.bind (name :: args) (pushed s) = .ok () t ∧ Entered p args s t ∧
          ∀ E, p.call E (name :: args) s = runBody E p t) ∨
      ¬ Fits p.params args.length ∧
        (∃ e t, p.bind (name :: args) (pushed s) = .error (.raised e) t) ∧
        ∃ e t, Refused p name s e t ∧ ∀ E, p.call E (name :: args) s = .error (.raised e) t := by
  have hunlinked : (pushed s).context.scopes.Unlinked :=
    ScopeStack.unlinked_push s.context.scopes
  obtain ⟨t, hst, ⟨hfits, hrun, hbound⟩ | ⟨hfits, hrun⟩⟩ :=
    bindParams_apply p.params args hunlinked
  · exact .inl ⟨hfits, t, bind_of_bound hrun, entered_of_bound hst hbound, call_of_bound hrun⟩
  · exact .inr ⟨hfits, ⟨_, _, bind_of_unbound hrun⟩, _, _, refused_of_unbound hst name,
      call_of_unbound hrun⟩

end Binding

end Procedure

end CommandScript

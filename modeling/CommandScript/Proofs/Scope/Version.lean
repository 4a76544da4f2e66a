import CommandScript.Proofs.Scope.Variables
import CommandScript.Proofs.Value.Growth

/-!
# The version of the variables

Whoever remembers something about variables remembers the version it was read at. That is safe if
the version tells every change: an operation that does something to the frames moves the version by
one, and an operation that fails, finds nothing to do or only reads leaves the frames and the
version alone. The version wraps around, so the same version is seen again after as many changes as
there are versions, but not before.

Equal versions then say more than that all variables read alike. Nothing at all has happened in
between: each operation moved the version by one or not at all, and the moves add up to less than a
full turn, so there was none.

## Main definitions

* `ScopeStack.Operation`, `ScopeStack.Operation.perform` — the operations on the stack of frames,
  what they yield and what they leave.
* `ScopeStack.Operation.isChange` — whether an operation has something to do.
* `ScopeStack.after`, `ScopeStack.changes` — a run of operations, and how many of them are changes.

## Main results

* `ScopeStack.version_perform_of_isChange`, `ScopeStack.perform_of_not_isChange` — one operation.
* `ScopeStack.version_after` — a run of operations.
* `ScopeStack.after_eq_of_version_eq` — equal versions, equal frames.
* `ScopeStack.version_detects` — the version tells every change.
-/

set_option autoImplicit false

namespace CommandScript

namespace ScopeStack

/-! ## Operations -/

/-- An operation on the stack of frames. -/
inductive Operation where
  /-- Puts a new frame on top. -/
  | push
  /-- Puts a frame on top, for instance one that was taken off before. -/
  | pushFrame (f : Frame)
  /-- Takes the top frame off. -/
  | pop
  /-- Gives a variable a value. -/
  | set (name : String) (r : Ref) (level : Int)
  /-- Removes a variable. -/
  | unset (name : String) (level : Int)
  /-- Makes a name in the top frame a link. -/
  | linkGlobal (name : String)
  /-- Reads a variable. -/
  | get (name : String) (level : Int)
  /-- Asks whether there is a variable. -/
  | has (name : String) (level : Int)
  /-- Asks for the names in a frame. -/
  | names (level : Int)
  /-- Asks which frame a level means. -/
  | place (level : Int)

/-- What an operation yields, if it does not fail. -/
inductive Yield where
  /-- Nothing. -/
  | done
  /-- The frame that was taken off, unless only the global one was there. -/
  | frame (f : Option Frame)
  /-- The value of a variable. -/
  | value (r : Ref)
  /-- Whether there is a variable. -/
  | answer (b : Bool)
  /-- The names in a frame. -/
  | names (names : List String)
  /-- The place of a frame. -/
  | place (place : Nat)

/-- The stack becomes the new one, or it stays as it is and the operation fails. -/
def replacedBy (s : ScopeStack) : Except Failure ScopeStack → Except Failure Yield × ScopeStack
  | .ok t => (.ok .done, t)
  | .error e => (.error e, s)

/-- What an operation yields, and the stack that it leaves. -/
def Operation.perform (s : ScopeStack) : Operation → Except Failure Yield × ScopeStack
  | .push => (.ok .done, s.push)
  | .pushFrame f => (.ok .done, s.pushFrame f)
  | .pop => (.ok (.frame s.pop.1), s.pop.2)
  | .set name r level => s.replacedBy (s.set name r level)
  | .unset name level => s.replacedBy (s.unset name level)
  | .linkGlobal name => (.ok .done, s.linkGlobal name)
  | .get name level => ((s.get name level).map .value, s)
  | .has name level => (.ok (.answer (s.has name level)), s)
  | .names level => ((s.names level).map .names, s)
  | .place level => ((s.place? level).map .place, s)

/-- Whether an operation has something to do: a frame is put on top, a frame comes off, a variable
is written or removed and that does not fail, or a name is linked in a frame other than the global
one. -/
def Operation.isChange (s : ScopeStack) : Operation → Bool
  | .push | .pushFrame _ => true
  | .pop => s.pop.1.isSome
  | .set name r level => (s.set name r level).isOk
  | .unset name level => (s.unset name level).isOk
  | .linkGlobal _ => 1 < s.depth
  | .get _ _ | .has _ _ | .names _ | .place _ => false

/-- The stack that a run of operations leaves. -/
def after (s : ScopeStack) (ops : List Operation) : ScopeStack :=
  ops.foldl (fun s o => (o.perform s).2) s

/-- How many operations of a run have something to do. -/
def changes : ScopeStack → List Operation → Nat
  | _, [] => 0
  | s, o :: ops => (o.isChange s).toNat + changes (o.perform s).2 ops

/-! ## One operation -/

section Operations

variable {s t : ScopeStack} {name : String} {r : Ref} {level : Int}

/-- To replace a frame does not count. -/
lemma version_setFrame (s : ScopeStack) (place : Nat) (f : Frame) :
    (s.setFrame place f).version = s.version := by
  cases place with
  | zero => rfl
  | succ place => rfl

/-- To set a variable counts once. -/
lemma version_of_set (h : s.set name r level = .ok t) : t.version = s.version + 1 := by
  unfold set at h
  split at h
  · cases h
  · cases h
    exact congrArg (· + 1) (version_setFrame s _ _)

/-- So does removing one. -/
lemma version_of_unset (h : s.unset name level = .ok t) : t.version = s.version + 1 := by
  unfold unset at h
  split at h
  · cases h
  · split at h
    · cases h
    next b _ =>
      cases h
      cases b with
      | value r => exact congrArg (· + 1) (version_setFrame s _ _)
      | link => exact congrArg (· + 1) (version_setFrame s _ _)

/-- So does a link, made in a local frame. -/
lemma version_linkGlobal (h : 1 < s.depth) (name : String) :
    (s.linkGlobal name).version = s.version + 1 := by
  unfold linkGlobal
  cases hpop : s.locals.pop with
  | none =>
    have hdepth : s.depth = 0 + 1 := congrArg (· + 1) (Stack.height_of_pop_eq_none hpop)
    omega
  | some top => rfl

/-- So does leaving a frame. -/
lemma version_pop (h : s.pop.1.isSome = true) : s.pop.2.version = s.version + 1 := by
  unfold pop at h ⊢
  cases hpop : s.locals.pop with
  | none =>
    rw [hpop] at h
    cases h
  | some top => rfl

/-- A pop that yields no frame does nothing. -/
lemma pop_of_isSome_eq_false (h : s.pop.1.isSome = false) : s.pop.2 = s := by
  obtain ⟨hpop, -⟩ | ⟨f, u, hpop, -⟩ := pop_cases s
  · rw [hpop]
  · rw [hpop] at h
    cases h

/-- If it does not fail, a replacement changes the version as the new stack does. -/
lemma version_replacedBy {x : Except Failure ScopeStack} (h : x.isOk = true)
    (hx : ∀ t, x = .ok t → t.version = s.version + 1) :
    (s.replacedBy x).2.version = s.version + 1 := by
  cases x with
  | ok t => exact hx t rfl
  | error e => cases h

/-- An operation that fails changes nothing. -/
lemma replacedBy_of_not_isOk {x : Except Failure ScopeStack} (h : x.isOk = false) :
    (s.replacedBy x).2 = s := by
  cases x with
  | ok t => cases h
  | error e => rfl

/-- **An operation that has something to do** moves the version by one. -/
lemma version_perform_of_isChange {o : Operation} (h : o.isChange s = true) :
    (o.perform s).2.version = s.version + 1 := by
  cases o with
  | push => rfl
  | pushFrame f => rfl
  | pop => exact version_pop h
  | set name r level => exact version_replacedBy h fun _ => version_of_set
  | unset name level => exact version_replacedBy h fun _ => version_of_unset
  | linkGlobal name => exact version_linkGlobal (of_decide_eq_true h) name
  | get name level => cases h
  | has name level => cases h
  | names level => cases h
  | place level => cases h

/-- **An operation that has nothing to do**, because it fails or only reads, leaves the frames and
the version as they are. -/
lemma perform_of_not_isChange {o : Operation} (h : o.isChange s = false) : (o.perform s).2 = s := by
  cases o with
  | push => cases h
  | pushFrame f => cases h
  | pop => exact pop_of_isSome_eq_false h
  | set name r level => exact replacedBy_of_not_isOk h
  | unset name level => exact replacedBy_of_not_isOk h
  | linkGlobal name => exact linkGlobal_of_depth_le_one (of_decide_eq_false h) name
  | get name level => rfl
  | has name level => rfl
  | names level => rfl
  | place level => rfl

end Operations

/-! ## Runs of operations -/

section Runs

variable {s : ScopeStack} {ops : List Operation}

/-- Every operation changes something once at most. -/
lemma changes_le_length (s : ScopeStack) (ops : List Operation) : s.changes ops ≤ ops.length := by
  induction ops generalizing s with
  | nil => exact Nat.le_refl 0
  | cons o ops ih =>
    have hrest := ih (o.perform s).2
    have hone := Bool.toNat_le (o.isChange s)
    change (o.isChange s).toNat + changes (o.perform s).2 ops ≤ ops.length + 1
    omega

/-- **The version counts the changes**, and starts again when all versions have been used. -/
lemma version_after (s : ScopeStack) (ops : List Operation) :
    (s.after ops).version = s.version + UInt64.ofNat (s.changes ops) := by
  induction ops generalizing s with
  | nil => exact (UInt64.add_zero _).symm
  | cons o ops ih =>
    change ((o.perform s).2.after ops).version = _
    rw [ih, changes, UInt64.ofNat_add, ← UInt64.add_assoc]
    congr 1
    cases hchange : o.isChange s with
    | true => exact version_perform_of_isChange hchange
    | false =>
      rw [perform_of_not_isChange hchange]
      exact (UInt64.add_zero _).symm

/-- A run without changes does nothing. -/
lemma after_of_changes_eq_zero (h : s.changes ops = 0) : s.after ops = s := by
  induction ops with
  | nil => rfl
  | cons o ops ih =>
    obtain ⟨hone, hrest⟩ := Nat.add_eq_zero_iff.1 h
    have hsame : (o.perform s).2 = s := by
      apply perform_of_not_isChange
      exact Bool.toNat_eq_zero.1 hone
    change (o.perform s).2.after ops = s
    rw [hsame] at hrest ⊢
    exact ih hrest

/-- **Equal versions, equal frames.** If the version is the same at two points of a run that are
fewer operations apart than there are versions, the frames are the same, too.

**Proof sketch.** The version has moved by the number of changes, which is less than a full turn. As
it is back where it was, there was no change. -/
lemma after_eq_of_version_eq (hlength : ops.length < UInt64.size)
    (hversion : (s.after ops).version = s.version) : s.after ops = s := by
  apply after_of_changes_eq_zero
  have hsize : UInt64.size = 18446744073709551616 := rfl
  have hle := changes_le_length s ops
  have hsmall := s.version.toNat_lt_size
  have hmoved : s.version.toNat = (s.version.toNat + s.changes ops) % UInt64.size := by
    have hnat := congrArg UInt64.toNat (version_after s ops)
    rw [hversion, UInt64.toNat_add, UInt64.toNat_ofNat_of_lt' (by omega)] at hnat
    exact hnat
  rw [hsize] at hmoved hlength hsmall
  omega

end Runs

/-! ## The operations of an interpreter -/

section Interpreter

variable {κ : Type}

/-- An attempt, failed or not, leaves the context as it is. -/
lemma context_attempt {α : Type} (x : Except Failure α) (i : Interp κ) :
    (finalState (EvalM.attempt x i)).context = i.context := by
  cases x with
  | ok a => rfl
  | error e => rfl

/-- Variables are replaced by an operation, or an exception is raised and they stay. -/
lemma scopes_updateScopes (f : ScopeStack → Except Failure ScopeStack) (i : Interp κ) :
    (finalState (EvalM.updateScopes f i)).context.scopes =
      (i.context.scopes.replacedBy (f i.context.scopes)).2 := by
  change (finalState ((EvalM.attempt (f i.context.scopes) >>= _ : EvalM κ Unit) i)).context.scopes
    = _
  cases f i.context.scopes with
  | ok t => rfl
  | error e => rfl

/-- Setting a variable in the interpreter is the operation on its frames, with the value copied
first. -/
lemma scopes_setVar (name : String) (r : Ref) (level : Int) (i : Interp κ) :
    (finalState (EvalM.setVar name r level i)).context.scopes =
      ((Operation.set name (Store.own r i.values).1 level).perform i.context.scopes).2 := by
  obtain ⟨v, c⟩ := i
  change _ = (c.scopes.replacedBy (c.scopes.set name (Store.own r v).1 level)).2
  cases hset : c.scopes.set name (Store.own r v).1 level with
  | ok t =>
    rw [setVar_apply hset]
    rfl
  | error e =>
    -- the level is looked at before the value is copied
    have hplace : ∃ e, c.scopes.place? level = .error e := by
      cases hplace : c.scopes.place? level with
      | error e => exact ⟨e, rfl⟩
      | ok place =>
        unfold set at hset
        rw [hplace] at hset
        cases hset
    obtain ⟨e, hplace⟩ := hplace
    change (finalState ((EvalM.attempt (c.scopes.place? level) >>= _ : EvalM κ Ref)
      ⟨v, c⟩)).context.scopes = _
    rw [hplace]
    rfl

/-- Reading leaves the context as it is. -/
lemma context_getVar (name : String) (level : Int) (i : Interp κ) :
    (finalState (EvalM.getVar name level i)).context = i.context :=
  context_attempt _ i

/-- To ask for the names of the variables changes nothing. -/
lemma context_varNames (level : Int) (i : Interp κ) :
    (finalState (EvalM.varNames level i)).context = i.context :=
  context_attempt _ i

end Interpreter

/-- **The version tells every change.**

* An operation moves the version by one if it puts a frame on top, takes one off, writes or removes
  a variable without failing, or links a name in a frame other than the global one. Any other
  operation leaves the frames and the version as they are.
* If the version is the same at two points of a run, and fewer operations lie between them than
  there are versions, every operation yields the same at both. So each variable reads alike, or is
  missing at both, and the same names are bound in each frame.
* What an interpreter does with its variables are these operations. The value that it stores is the
  one it is given, or a copy of it if it belongs to a script. -/
theorem version_detects {κ : Type} :
    (∀ (s : ScopeStack) (o : Operation),
      (o.isChange s = true → (o.perform s).2.version = s.version + 1) ∧
      (o.isChange s = false → (o.perform s).2 = s)) ∧
    (∀ (s : ScopeStack) (ops : List Operation), ops.length < UInt64.size →
      (s.after ops).version = s.version →
        (∀ o : Operation, (o.perform (s.after ops)).1 = (o.perform s).1) ∧
        ∀ name level, (s.after ops).get name level = s.get name level ∧
          (s.after ops).has name level = s.has name level ∧
          (s.after ops).names level = s.names level) ∧
    ∀ (i : Interp κ) name r level,
      (finalState (EvalM.setVar name r level i)).context.scopes =
        ((Operation.set name (Store.own r i.values).1 level).perform i.context.scopes).2 ∧
      (finalState (EvalM.unsetVar name level i)).context.scopes =
        ((Operation.unset name level).perform i.context.scopes).2 ∧
      (finalState (EvalM.linkGlobal name i)).context.scopes =
        ((Operation.linkGlobal name).perform i.context.scopes).2 ∧
      (finalState (EvalM.getVar name level i)).context.scopes = i.context.scopes ∧
      (finalState (EvalM.hasVar name level i)).context.scopes = i.context.scopes ∧
      (finalState (EvalM.varNames level i)).context.scopes = i.context.scopes := by
  refine ⟨fun s o => ⟨version_perform_of_isChange, perform_of_not_isChange⟩, ?_, ?_⟩
  · intro s ops hlength hversion
    rw [after_eq_of_version_eq hlength hversion]
    exact ⟨fun o => rfl, fun name level => ⟨rfl, rfl, rfl⟩⟩
  · intro i name r level
    refine ⟨scopes_setVar name r level i, scopes_updateScopes _ i, rfl, ?_, rfl, ?_⟩
    · rw [context_getVar]
    · rw [context_varNames]

/-- Between two points at which the version is the same, a frame could not be taken off, a missing
variable could not be removed, and a level that means no frame was not written at. -/
theorem version_detects_failures :
    ∃ s ops, s = after {} [.set "x" ⟨7⟩ 0] ∧
      ops = [.pop, .unset "y" (-1), .set "x" ⟨8⟩ 3, .linkGlobal "x", .get "x" 0] ∧
      (s.after ops).version = s.version ∧ (s.after ops).get "x" 0 = .ok ⟨7⟩ := by
  obtain ⟨-, hsame, -⟩ := version_detects (κ := Empty)
  have hversion : ((after {} [.set "x" ⟨7⟩ 0]).after
      [.pop, .unset "y" (-1), .set "x" ⟨8⟩ 3, .linkGlobal "x", .get "x" 0]).version =
        (after {} [.set "x" ⟨7⟩ 0]).version := rfl
  have hget := ((hsame _ _ (by decide) hversion).2 "x" 0).1
  exact ⟨_, _, rfl, rfl, hversion, hget⟩

end ScopeStack

end CommandScript

import CommandScript.Proofs.Evaluation.KnownTexts

/-!
# The branches of a condition

The words of `if` are a chain of branches, with `elseif` between them, and what comes after the
chain. The conditions of the branches are asked one after another, each in the state that the one
before has left, until one of them holds or stops the evaluation. Only if none does, it matters what
comes after: nothing, or `else` with a last body, and anything else is an error.

So it does not matter for the branches how the words go on after them, and a mistake in the words is
found only when it is reached. When that is depends on the conditions; hence what the words between
the branches read is asked of them where they are reached. If their texts are known in advance, as
those of words that were written down are, then they read the same there.

## Main definitions

* `Builtin.Branches` — a chain of branches.
* `Builtin.PassedOver` — no condition of the branches holds.
* `Builtin.Decided` — one condition holds, or stops the evaluation.
* `Builtin.Branches.Linked`, `Builtin.Branches.Longest` — the branches are branches of these words,
  and there are no more of them.
* `Builtin.Otherwise` — what is done when no condition holds.

## Main results

* `Builtin.decided_or_passedOver` — the conditions of branches are asked in one of two ways.
* `Builtin.if_branches` — what `if` does with words of any form.
-/

set_option autoImplicit false

namespace CommandScript.Builtin

open EvalM

variable {κ : Type}

/-! ## Branches -/

/-- A chain of branches. -/
inductive Branches where
  /-- The last one, which is a condition and a body. -/
  | last (cond body : Ref)
  /-- A condition and a body, and after a word between them more branches. -/
  | more (cond body word : Ref) (rest : Branches)

namespace Branches

/-- The words that a chain of branches is written in. -/
def words : Branches → List Ref
  | last cond body => [cond, body]
  | more cond body word rest => cond :: body :: word :: rest.words

/-- The words between the branches. -/
def links : Branches → List Ref
  | last _ _ => []
  | more _ _ word rest => word :: rest.links

/-- The condition of the first branch. -/
def cond : Branches → Ref
  | last cond _ => cond
  | more cond _ _ _ => cond

/-- The body of the first branch. -/
def body : Branches → Ref
  | last _ body => body
  | more _ body _ _ => body

end Branches

/-- What a word reads. -/
def reading (word : Ref) (s : Interp κ) : String :=
  (Store.text word s.values).1

/-- The interpreter after it was asked what a word reads. -/
def asked (word : Ref) (s : Interp κ) : Interp κ :=
  ⟨(Store.text word s.values).2, s.context⟩

/-- **No condition of the branches holds.** They are asked in turn, each in the state that the one
before has left, where it was asked only for the word between them. -/
inductive PassedOver (E : Engine κ) : Branches → Interp κ → Interp κ → Prop
  /-- The last condition does not hold. -/
  | last {cond body : Ref} {s t : Interp κ} (hcond : condition E cond s = .ok false t) :
    PassedOver E (.last cond body) s t
  /-- The first condition does not hold, and none of the others does after it. -/
  | more {cond body word : Ref} {rest : Branches} {s t u : Interp κ}
    (hcond : condition E cond s = .ok false t) (hrest : PassedOver E rest (asked word t) u) :
    PassedOver E (.more cond body word rest) s u

/-- **One of the conditions decides.** The ones before it do not hold and were asked in turn. It
holds, and the outcome is what its body evaluates to in the state that it has left; or it stops, and
that is the outcome. -/
inductive Decided (E : Engine κ) :
    Branches → Interp κ → EStateM.Result Stop (Interp κ) (Option Ref) → Prop
  /-- The first condition holds. -/
  | holds {bs : Branches} {s t : Interp κ} (hcond : condition E bs.cond s = .ok true t) :
    Decided E bs s ((some <$> E.eval bs.body) t)
  /-- The first condition stops. -/
  | stops {bs : Branches} {s t : Interp κ} {stop : Stop}
    (hcond : condition E bs.cond s = .error stop t) : Decided E bs s (.error stop t)
  /-- The first condition does not hold, and one of the others decides. -/
  | later {cond body word : Ref} {rest : Branches} {s t : Interp κ}
    {outcome : EStateM.Result Stop (Interp κ) (Option Ref)}
    (hcond : condition E cond s = .ok false t) (hrest : Decided E rest (asked word t) outcome) :
    Decided E (.more cond body word rest) s outcome

/-- **The words between the branches read `elseif`**, those of them that are reached. -/
def Branches.Linked (E : Engine κ) : Branches → Interp κ → Prop
  | .last _ _, _ => True
  | .more cond _ word rest, s => ∀ t, condition E cond s = .ok false t →
    reading word t = "elseif" ∧ rest.Linked E (asked word t)

/-- The words begin with one more branch, after the word that links it. -/
def Links (words : List Ref) (s : Interp κ) : Prop :=
  ∃ word cond body rest, words = word :: cond :: body :: rest ∧ reading word s = "elseif"

/-- **There are no more branches** in what comes after the branches. -/
def Branches.Longest (E : Engine κ) (bs : Branches) (rest : List Ref) (s : Interp κ) : Prop :=
  ∀ t, PassedOver E bs s t → ¬ Links rest t

/-- **What is done when no condition holds**, according to the words after the branches. -/
inductive Otherwise (E : Engine κ) :
    List Ref → Interp κ → EStateM.Result Stop (Interp κ) (Option Ref) → Prop
  /-- There are none, and there is no result. -/
  | nothing {s : Interp κ} : Otherwise E [] s (.ok none s)
  /-- They are `else` and a body, which is evaluated. -/
  | orElse {word body : Ref} {s : Interp κ} (hword : reading word s = "else") :
    Otherwise E [word, body] s ((some <$> E.eval body) (asked word s))
  /-- They are something else, and no body is evaluated. -/
  | misplaced {word : Ref} {rest : List Ref} {s : Interp κ}
    (hword : ¬ (reading word s = "else" ∧ rest.length = 1)) :
    Otherwise E (word :: rest) s (fail (.usage ifForm) (asked word s))

example : (Failure.usage ifForm).message =
    "wrong # args: should be \"if cond body ?elseif cond body ...? ?else body?\"" := rfl

section Branches

variable {E : Engine κ} {cond body word : Ref} {bs : Branches} {rest : List Ref} {s t : Interp κ}
  {outcome : EStateM.Result Stop (Interp κ) (Option Ref)}

/-! ## Asking the conditions -/

/-- **Either one of the conditions decides, or none holds.** -/
lemma decided_or_passedOver (E : Engine κ) (bs : Branches) (s : Interp κ) :
    (∃ outcome, Decided E bs s outcome) ∨ ∃ t, PassedOver E bs s t := by
  induction bs generalizing s with
  | last cond body =>
    cases hcond : condition E cond s with
    | error stop t => exact .inl ⟨_, .stops hcond⟩
    | ok holds t =>
      cases holds with
      | true => exact .inl ⟨_, .holds hcond⟩
      | false => exact .inr ⟨t, .last hcond⟩
  | more cond body word rest ih =>
    cases hcond : condition E cond s with
    | error stop t => exact .inl ⟨_, .stops hcond⟩
    | ok holds t =>
      cases holds with
      | true => exact .inl ⟨_, .holds hcond⟩
      | false =>
        obtain ⟨outcome, hrest⟩ | ⟨u, hrest⟩ := ih (asked word t)
        · exact .inl ⟨outcome, .later hcond hrest⟩
        · exact .inr ⟨u, .more hcond hrest⟩

/-! ## Known texts -/

/-- Nor does a condition take a known text away. -/
lemma retained_condition {holds : Bool} (hE : E.Retains)
    (hcond : condition E cond s = .ok holds t) : s.values.Retained t.values := by
  have hretained := retains_condition hE cond s
  rwa [hcond] at hretained

/-- Nor does it to ask a word what it reads. -/
lemma retained_asked (word : Ref) (s : Interp κ) : s.values.Retained (asked word s).values :=
  (Store.adds_text word s.values).retained

/-- Asking the conditions takes no known text away. -/
lemma PassedOver.retained (hE : E.Retains) (h : PassedOver E bs s t) :
    s.values.Retained t.values := by
  induction h with
  | last hcond => exact retained_condition hE hcond
  | @more _ _ word _ _ t _ hcond _ ih =>
    exact ((retained_condition hE hcond).trans (retained_asked word t)).trans ih

/-- A text that is known is what the word reads wherever it is reached. -/
lemma reading_of_retained {text : String} (h : s.values.Retained t.values)
    (hword : word.index < s.values.cells.size) (htext : (s.values.cell word).text = some text) :
    reading word t = text := by
  rw [reading, Store.text_apply, h.text word text hword htext]

/-- Whether words that are known link the branches can be read off them. -/
lemma linked_of_known (hE : E.Retains)
    (hlinks : ∀ word ∈ bs.links, word.index < s.values.cells.size ∧
      (s.values.cell word).text = some "elseif") : bs.Linked E s := by
  induction bs generalizing s with
  | last cond body => trivial
  | more cond body word rest ih =>
    intro t hcond
    have hst := retained_condition hE hcond
    obtain ⟨hword, htext⟩ := hlinks word List.mem_cons_self
    refine ⟨reading_of_retained hst hword htext, ih fun q hq => ?_⟩
    obtain ⟨hq', htext'⟩ := hlinks q (List.mem_cons_of_mem word hq)
    have hsu := hst.trans (retained_asked word t)
    exact ⟨Nat.lt_of_lt_of_le hq' hsu.cells, hsu.text q _ hq' htext'⟩

/-! ## One branch -/

/-- A body is evaluated, and what it evaluates to is the result. -/
lemma evalResult_eq (E : Engine κ) (body : Ref) : evalResult E body = some <$> E.eval body :=
  (map_eq_pure_bind some (E.eval body)).symm

/-- Where the condition holds, the body is evaluated, and nothing else. -/
lemma ifChain_of_true (hcond : condition E cond s = .ok true t) (body : Ref) (rest : List Ref) :
    ifChain E (cond :: body :: rest) s = (some <$> E.eval body) t := by
  unfold ifChain
  rw [bind_of_ok hcond, if_pos rfl, evalResult_eq]

/-- Where the condition stops, so does the command. -/
lemma ifChain_of_error {stop : Stop} (hcond : condition E cond s = .error stop t) (body : Ref)
    (rest : List Ref) : ifChain E (cond :: body :: rest) s = .error stop t := by
  unfold ifChain
  exact bind_of_error hcond

/-- After a condition that does not hold, the next word is asked what it reads. -/
lemma ifChain_of_false (hcond : condition E cond s = .ok false t) (body word : Ref)
    (rest : List Ref) :
    ifChain E (cond :: body :: word :: rest) s =
      (if reading word t = "elseif" then ifChain E rest
      else
        match reading word t, rest with
        | "else", [body] => some <$> E.eval body
        | _, _ => fail (.usage ifForm) : EvalM κ (Option Ref)) (asked word t) := by
  rw [ifChain, bind_of_ok hcond, if_neg Bool.false_ne_true]
  simp only [← evalResult_eq]
  rfl

/-- Where the word links one more branch, it goes on there. -/
lemma ifChain_of_links (hcond : condition E cond s = .ok false t)
    (hword : reading word t = "elseif") (body : Ref) (rest : List Ref) :
    ifChain E (cond :: body :: word :: rest) s = ifChain E rest (asked word t) := by
  rw [ifChain_of_false hcond, if_pos hword]

/-- Where neither a branch nor a last body follows, that is an error. -/
lemma ifChain_of_misplaced (hcond : condition E cond s = .ok false t)
    (hlinks : ¬ Links (word :: rest) t) (helse : ¬ (reading word t = "else" ∧ rest.length = 1))
    (body : Ref) :
    ifChain E (cond :: body :: word :: rest) s = fail (.usage ifForm) (asked word t) := by
  rw [ifChain_of_false hcond]
  refine congrFun ?_ (asked word t)
  split
  next hlink =>
    -- there are too few words for a branch
    rcases rest with _ | ⟨cond, _ | ⟨body, rest⟩⟩
    · rfl
    · rfl
    · exact absurd ⟨word, cond, body, rest, rfl, hlink⟩ hlinks
  next =>
    split
    next hword => exact absurd ⟨hword, rfl⟩ helse
    next => rfl

/-- Where no branch follows, the words say what to do. -/
lemma otherwise_ifChain (hcond : condition E cond s = .ok false t) (body : Ref)
    (hrest : ¬ Links rest t) : Otherwise E rest t (ifChain E (cond :: body :: rest) s) := by
  cases rest with
  | nil =>
    have hdone : ifChain E [cond, body] s = .ok none t := by
      rw [ifChain, bind_of_ok hcond, if_neg Bool.false_ne_true]
      rfl
    exact hdone ▸ .nothing
  | cons word rest =>
    by_cases helse : reading word t = "else" ∧ rest.length = 1
    · obtain ⟨hword, hlength⟩ := helse
      obtain ⟨last, rfl⟩ := List.length_eq_one_iff.1 hlength
      have hlink : reading word t ≠ "elseif" := hword ▸ by decide
      rw [ifChain_of_false hcond, if_neg hlink, hword]
      exact .orElse hword
    · rw [ifChain_of_misplaced hcond hrest helse]
      exact .misplaced helse

/-! ## All branches -/

/-- A condition that decides does so whatever comes after the branches. -/
lemma Decided.ifChain_eq (h : Decided E bs s outcome) (hlinked : bs.Linked E s) (rest : List Ref) :
    ifChain E (bs.words ++ rest) s = outcome := by
  induction h with
  | @holds bs s t hcond =>
    cases bs with
    | last cond body => exact ifChain_of_true hcond body _
    | more cond body word more => exact ifChain_of_true hcond body _
  | @stops bs s t stop hcond =>
    cases bs with
    | last cond body => exact ifChain_of_error hcond body _
    | more cond body word more => exact ifChain_of_error hcond body _
  | @later cond body word more s t outcome hcond _ ih =>
    obtain ⟨hword, hmore⟩ := hlinked t hcond
    exact (ifChain_of_links hcond hword body _).trans (ih hmore)

/-- If no condition holds, what is done is said by what comes after the branches. -/
lemma PassedOver.otherwise (h : PassedOver E bs s t) (hlinked : bs.Linked E s)
    (hrest : ¬ Links rest t) : Otherwise E rest t (ifChain E (bs.words ++ rest) s) := by
  induction h with
  | last hcond => exact otherwise_ifChain hcond _ hrest
  | @more cond body word more s t u hcond _ ih =>
    obtain ⟨hword, hmore⟩ := hlinked t hcond
    have hnext : ifChain E ((Branches.more cond body word more).words ++ rest) s =
        ifChain E (more.words ++ rest) (asked word t) := ifChain_of_links hcond hword body _
    rw [hnext]
    exact ih hmore hrest

/-- **All words begin with branches**, and then with as many as there are.

**Proof sketch.** Induction on the words, which are taken away three at a time for as long as the
conditions do not hold and the words link one more branch. -/
lemma exists_branches (E : Engine κ) (cond body : Ref) (rest : List Ref) (s : Interp κ) :
    ∃ bs left, cond :: body :: rest = Branches.words bs ++ left ∧ bs.Linked E s ∧
      bs.Longest E left s := by
  induction hlength : rest.length using Nat.strongRecOn generalizing cond body rest s with
  | ind length ih =>
    by_cases hmore : ∃ t, condition E cond s = .ok false t ∧ Links rest t
    · obtain ⟨t, hcond, word, cond', body', rest', rfl, hword⟩ := hmore
      simp only [List.length_cons] at hlength
      obtain ⟨bs, left, hwords, hlinked, hlongest⟩ :=
        ih rest'.length (by omega) cond' body' rest' (asked word t) rfl
      refine ⟨.more cond body word bs, left, ?_, fun u hu => ?_, fun u hu => ?_⟩
      · rw [hwords]
        rfl
      · cases hcond.symm.trans hu
        exact ⟨hword, hlinked⟩
      · cases hu with
        | more hcond' hrest =>
          cases hcond.symm.trans hcond'
          exact hlongest u hrest
    · refine ⟨.last cond body, rest, rfl, trivial, fun t ht hlinks => ?_⟩
      cases ht with
      | last hcond => exact hmore ⟨t, hcond, hlinks⟩

/-- **The first branch whose condition holds is run.** Whatever evaluates the conditions and bodies,
and in every state:

* all words, if they are two or more, begin with branches, and with a longest chain of them;
* one of the conditions of the branches decides, or none holds;
* if one decides, the outcome is the same whatever comes after the branches: it is what the body of
  the first condition that holds evaluates to, or the outcome of a condition that stops;
* if none holds and there are no more branches, it depends on what comes after them. If nothing
  does, there is no result; if `else` and a body do, the outcome is what the body evaluates to; and
  otherwise it is the error that reminds of the form of `if`, without any body evaluated.

What the words between the branches read is asked of them when they are reached. If evaluation takes
no known text away, it is their text if that is known from the start.

**Proof sketch.** Induction on the branches, where one branch is a case distinction on the outcome
of its condition and on the word after it. -/
theorem if_branches (E : Engine κ) (name : Ref) (s : Interp κ) :
    (∀ words : List Ref, 2 ≤ words.length → ∃ bs rest, words = Branches.words bs ++ rest ∧
      bs.Linked E s ∧ bs.Longest E rest s) ∧
    (∀ bs : Branches, bs.Linked E s →
      ((∃ outcome, Decided E bs s outcome) ∨ ∃ t, PassedOver E bs s t) ∧
      (∀ outcome rest, Decided E bs s outcome →
        Control.if.run E (name :: (bs.words ++ rest)) s = outcome) ∧
      ∀ t rest, PassedOver E bs s t → ¬ Links rest t →
        Otherwise E rest t (Control.if.run E (name :: (bs.words ++ rest)) s)) ∧
    (E.Retains → ∀ bs : Branches,
      ((∀ word ∈ bs.links, word.index < s.values.cells.size ∧
        (s.values.cell word).text = some "elseif") → bs.Linked E s) ∧
      ∀ t word text, PassedOver E bs s t → word.index < s.values.cells.size →
        (s.values.cell word).text = some text → reading word t = text) := by
  refine ⟨fun words hwords => ?_, fun bs hlinked => ⟨decided_or_passedOver E bs s, ?_, ?_⟩,
    fun hE bs => ⟨linked_of_known hE, ?_⟩⟩
  · match words, hwords with
    | cond :: body :: rest, _ => exact exists_branches E cond body rest s
  · intro outcome rest hdecided
    exact hdecided.ifChain_eq hlinked rest
  · intro t rest hpassed hrest
    exact hpassed.otherwise hlinked hrest
  · intro t word text hpassed hword htext
    exact reading_of_retained (hpassed.retained hE) hword htext

/-- A condition that does not hold and one that holds, with the words and bodies around them. -/
def chainOfTwo : Interp Empty where
  values := { cells := #[{ text := some "if" }, { text := some "0" }, { text := some "set x 1" },
    { text := some "elseif" }, { text := some "1" }, { text := some "set x 2" }] }

/-- The second branch is run, and where the words end too early, none is. -/
theorem if_branches_chainOfTwo :
    (∃ bs rest, [(⟨1⟩ : Ref), ⟨2⟩, ⟨3⟩] = Branches.words bs ++ rest ∧
      bs.Linked (Interp.engine 5) chainOfTwo ∧ bs.Longest (Interp.engine 5) rest chainOfTwo) ∧
    Control.if.run (Interp.engine 5) [⟨0⟩, ⟨1⟩, ⟨2⟩, ⟨3⟩, ⟨4⟩, ⟨5⟩] chainOfTwo =
      (some <$> (Interp.engine 5).eval ⟨5⟩) chainOfTwo ∧
    Otherwise (Interp.engine 5) [⟨3⟩] chainOfTwo
      (Control.if.run (Interp.engine 5) [⟨0⟩, ⟨1⟩, ⟨2⟩, ⟨3⟩] chainOfTwo) := by
  have hE : (Interp.engine 5 : Engine Empty).Retains :=
    Interp.retains_engine HostCommands.retain_empty 5
  have hfalse : condition (Interp.engine 5) ⟨1⟩ chainOfTwo = .ok false chainOfTwo := rfl
  have htrue : condition (Interp.engine 5) ⟨4⟩ chainOfTwo = .ok true chainOfTwo := rfl
  let both : Branches := .more ⟨1⟩ ⟨2⟩ ⟨3⟩ (.last ⟨4⟩ ⟨5⟩)
  obtain ⟨hwords, hbranches, hknown⟩ := if_branches (Interp.engine 5) ⟨0⟩ chainOfTwo
  refine ⟨hwords _ (Nat.le_succ 2), ?_, ?_⟩
  · have hlinked : both.Linked (Interp.engine 5) chainOfTwo :=
      (hknown hE both).1 fun word hword => by
        obtain rfl := List.mem_singleton.1 hword
        exact ⟨by decide, rfl⟩
    exact (hbranches both hlinked).2.1 _ [] (.later hfalse (.holds htrue))
  · refine (hbranches (.last ⟨1⟩ ⟨2⟩) trivial).2.2 chainOfTwo [⟨3⟩] (.last hfalse) ?_
    rintro ⟨word, cond, body, rest, hwords, -⟩
    cases hwords

end Branches

end CommandScript.Builtin

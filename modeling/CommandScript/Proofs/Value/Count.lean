import CommandScript.Proofs.Number.Grammar
import CommandScript.Proofs.Value.Wording

/-!
# The integers of values

What a value counts as an integer can be read off the store: the integer that it is held as, a long
integer that fits, or what its text stands for. Counting values keeps texts, and gives the values
forms that count the same. So it does not matter in which order values are counted, how often, or
whether other values have been made meanwhile.

## Main definitions

* `Store.count` — the integer that a value is taken as, or why it cannot be.
* `Store.Unaltered` — all values that were there are worded and counted as before.
* `Store.Counts` — the value is there, and it is taken as some integer.

## Main results

* `Store.count_eq` — the form and the text of a value tell what it counts.
* `Store.unaltered_asInt`, `Store.unaltered_alloc` — what leaves values unaltered.
* `Store.counts_ofTexts` — integers that are passed on as texts count what they counted.
* `Builtin.ints_of_counts`, `Builtin.ints_of_not_counts` — counting several values.
-/

set_option autoImplicit false

namespace CommandScript

open Number

namespace Store

variable {s t u : Store} {r q : Ref}

/-! ## Counting a value -/

/-- The integer that a value is taken as, or why it cannot be. -/
def count (s : Store) (r : Ref) : Except Failure Int32 :=
  ConvM.outcome (asInt r s)

/-- What a value with the text `t` counts that is held in a form. -/
def countIn (t : String) : Rep → Except Failure Int32
  | .int n => .ok n
  | .long n =>
    match toInt32? n.toInt with
    | some n => .ok n
    | none => intOf t
  | _ => intOf t

/-- Reading the text of a value is reading what it is worded as. -/
lemma Founded.outcome_readAs (hs : s.Founded) {α : Type} {read? : String → Option α}
    {rep : α → Rep} {failure : String → Failure} :
    ConvM.outcome (readAs r read? rep failure s) = readOr read? failure (s.wording r) := by
  rw [← (tells_text hs r).1]
  unfold readAs readOr
  rw [ConvM.liftBind_apply]
  cases read? (text r s).1 with
  | some a => rfl
  | none => rfl

/-- **The form and the text of a value tell what it counts.** -/
lemma count_eq (hs : s.Founded) (r : Ref) : s.count r = countIn (s.wording r) (s.cell r).rep := by
  have hread : ConvM.outcome (readAs r readInt? .int .notInteger s) = intOf (s.wording r) :=
    hs.outcome_readAs
  unfold count asInt countIn
  rw [ConvM.getBind_apply]
  cases (s.cell r).rep with
  | int n => rfl
  | long n =>
    dsimp only
    cases toInt32? n.toInt with
    | some m => rfl
    | none => exact hread
  | _ => exact hread

/-- A value that cannot be counted is named by its text. -/
lemma eq_notInteger_of_count {f : Failure} (hs : s.Founded) (h : s.count r = .error f) :
    f = .notInteger (s.wording r) := by
  have hintOf : ∀ g, intOf (s.wording r) = .error g → g = .notInteger (s.wording r) := by
    intro g hg
    unfold intOf readOr at hg
    split at hg
    · cases hg
    · exact (Except.error.inj hg).symm
  rw [count_eq hs] at h
  unfold countIn at h
  split at h
  · cases h
  · split at h
    · cases h
    · exact hintOf f h
  · exact hintOf f h

/-! ## Unaltered values -/

/-- All values that were there in `s` are there in `t`, and are worded and counted as before. -/
structure Unaltered (s t : Store) : Prop where
  /-- What texts are written with is older. -/
  founded : t.Founded
  /-- No cell is lost. -/
  size : s.cells.size ≤ t.cells.size
  /-- Values are worded as before. -/
  wording : ∀ r, r.index < s.cells.size → t.wording r = s.wording r
  /-- Values are counted as before. -/
  count : ∀ r, r.index < s.cells.size → t.count r = s.count r

/-- A founded store is unaltered from itself. -/
lemma Unaltered.refl (hs : s.Founded) : Unaltered s s :=
  ⟨hs, Nat.le_refl _, fun _ _ => rfl, fun _ _ => rfl⟩

/-- What was there is there still. -/
lemma Unaltered.lt (h : Unaltered s t) (hr : r.index < s.cells.size) : r.index < t.cells.size :=
  Nat.lt_of_lt_of_le hr h.size

/-- Stores may be compared by way of a third one. -/
lemma Unaltered.trans (h : Unaltered s t) (h' : Unaltered t u) : Unaltered s u where
  founded := h'.founded
  size := Nat.le_trans h.size h'.size
  wording r hr := (h'.wording r (h.lt hr)).trans (h.wording r hr)
  count r hr := (h'.count r (h.lt hr)).trans (h.count r hr)

/-- Values are counted as before if they are worded as before and held in the same forms. -/
lemma count_congr (hs : s.Founded) (ht : t.Founded) (hwording : t.wording r = s.wording r)
    (hrep : (t.cell r).rep = (s.cell r).rep) : t.count r = s.count r := by
  rw [count_eq ht, count_eq hs, hwording, hrep]

/-- To fix texts changes no count. -/
lemma Told.count_eq {P : Ref → Prop} (h : Told P s t) (hs : s.Founded) (r : Ref) :
    t.count r = s.count r :=
  count_congr hs (h.founded hs) (h.wording_eq hs r) (h.rep r)

/-- Making texts known leaves values unaltered. -/
lemma Told.unaltered {P : Ref → Prop} (h : Told P s t) (hs : s.Founded) : Unaltered s t where
  founded := h.founded hs
  size := Nat.le_of_eq h.size.symm
  wording r _ := h.wording_eq hs r
  count r _ := h.count_eq hs r

/-- A new value that is written with values that are there. -/
lemma unaltered_alloc (hs : s.Founded) {c : Cell}
    (hsources : ∀ e ∈ s.sources c.rep, e.index < s.cells.size)
    (hobject : ∀ o, c.rep = .object o → ∃ x, s.object? o = some x) : Unaltered s (alloc c s).2 := by
  have ht := hs.alloc (fun _ => hsources) hobject
  have hcell : ∀ q, q.index < s.cells.size → (alloc c s).2.cell q = s.cell q :=
    fun q hq => cell_alloc_of_lt hq
  have hwordings : SameWording s (alloc c s).2 :=
    ⟨fun _ _ => id, fun q hq => text_eq_or_of_cell_eq (hcell q hq)⟩
  refine ⟨ht, ?_, fun q hq => hwordings.wording_eq hs ht hq, fun q hq => ?_⟩
  · rw [size_alloc]
    exact Nat.le_succ _
  · exact count_congr hs ht (hwordings.wording_eq hs ht hq) (congrArg Cell.rep (hcell q hq))

/-- A new text alters nothing. -/
lemma unaltered_ofText (hs : s.Founded) (t : String) : Unaltered s (ofText t s).2 :=
  unaltered_alloc hs nofun nofun

/-- Nor does a new integer. -/
lemma unaltered_ofInt (hs : s.Founded) (n : Int32) : Unaltered s (ofInt n s).2 :=
  unaltered_alloc hs nofun nofun

/-- A value whose text is known may be held as the integer that it counts. -/
lemma unaltered_setRep (hs : s.Founded) (hr : (s.cell r).text ≠ none) {n : Int32}
    (hcount : s.count r = .ok n) : Unaltered s (setRep r (.int n) s).2 := by
  have ht : (setRep r (.int n) s).2.Founded := hs.setRep hr nofun
  have hwordings : SameWording s (setRep r (.int n) s).2 := by
    refine ⟨fun _ _ => id, fun q _ => ?_⟩
    obtain hsame | ⟨rfl, hgiven⟩ := cell_setRep s r (.int n) q
    · exact text_eq_or_of_cell_eq hsame
    · obtain ⟨text, htext⟩ := Option.ne_none_iff_exists'.1 hr
      rw [hgiven]
      exact .inl (htext.trans (congrArg some (wording_of_text htext).symm))
  refine ⟨ht, Nat.le_of_eq Array.size_modify.symm, fun q hq => hwordings.wording_eq hs ht hq,
    fun q hq => ?_⟩
  obtain hsame | ⟨rfl, hgiven⟩ := cell_setRep s r (.int n) q
  · exact count_congr hs ht (hwordings.wording_eq hs ht hq) (congrArg Cell.rep hsame)
  · rw [hcount, count_eq ht, hgiven]
    rfl

/-- **Counting leaves values unaltered.**

**Proof sketch.** A number is taken as it is. Otherwise the text is asked for and read; what is read
is what the value counts, and the value may be held as that. -/
lemma unaltered_asInt (hs : s.Founded) (r : Ref) : Unaltered s (finalState (asInt r s)) := by
  obtain ⟨hsame, -⟩ | hread := asInt_taken r s
  · rw [hsame]
    exact .refl hs
  obtain ⟨hword, htold⟩ := tells_text hs r
  have htext := htold.unaltered hs
  have hknown : ((text r s).2.cell r).text = some (text r s).1 := cell_text_text r s
  have hagain : (text r (text r s).2).2 = (text r s).2 := by rw [text_apply, hknown]
  rw [hread, finalState_readAs]
  cases hread? : readInt? (text r s).1 with
  | none => exact htext
  | some n =>
    dsimp only
    cases hobject : (text r s).2.objectOf? r with
    | some o => rwa [cache_of_object (hagain.symm ▸ hobject), hagain]
    | none =>
      rw [cache_apply (hagain.symm ▸ hobject), hagain]
      have hcount : (text r s).2.count r = .ok n := by
        rw [htold.count_eq hs, count, hread, hs.outcome_readAs, readOr_eq_ok_iff, ← hword, hread?]
      refine htext.trans (unaltered_setRep htext.founded ?_ hcount)
      rw [hknown]
      exact Option.some_ne_none _

/-! ## Values that count something -/

/-- The value is there, and it is taken as the integer `n`. -/
def Counts (s : Store) (r : Ref) (n : Int32) : Prop :=
  r.index < s.cells.size ∧ s.count r = .ok n

/-- What counts for an integer does so later. -/
lemma Counts.mono {n : Int32} (hr : s.Counts r n) (h : Unaltered s t) : t.Counts r n :=
  ⟨h.lt hr.1, (h.count r hr.1).trans hr.2⟩

/-- Counting a value that counts something, whatever has been counted before. -/
lemma asInt_of_counts {n : Int32} (h : Unaltered s t) (hr : s.Counts r n) :
    ∃ u, asInt r t = .ok n u ∧ Unaltered s u := by
  have hcount : ConvM.outcome (asInt r t) = .ok n := (h.count r hr.1).trans hr.2
  have hkept := h.trans (unaltered_asInt h.founded r)
  cases hresult : asInt r t with
  | ok m u =>
    rw [hresult] at hcount hkept
    cases hcount
    exact ⟨u, rfl, hkept⟩
  | error f u =>
    rw [hresult] at hcount
    cases hcount

/-- Counting a value that counts nothing. -/
lemma asInt_of_not_counts (hs : s.Founded) (h : Unaltered s t) (hr : r.index < s.cells.size)
    (hnone : ∀ n, ¬ s.Counts r n) :
    ∃ u, asInt r t = .error (.notInteger (s.wording r)) u ∧ Unaltered s u := by
  have hcount : ConvM.outcome (asInt r t) = s.count r := h.count r hr
  have hkept := h.trans (unaltered_asInt h.founded r)
  cases hresult : asInt r t with
  | ok n u =>
    rw [hresult] at hcount
    exact absurd ⟨hr, hcount.symm⟩ (hnone n)
  | error f u =>
    rw [hresult] at hcount hkept
    rw [eq_notInteger_of_count hs hcount.symm]
    exact ⟨u, rfl, hkept⟩

/-- A new integer. -/
lemma counts_ofInt (hs : s.Founded) (n : Int32) : (ofInt n s).2.Counts (ofInt n s).1 n := by
  have hcell : (ofInt n s).2.cell (ofInt n s).1 = { text := none, rep := .int n } :=
    cell_alloc_self _ s
  refine ⟨?_, ?_⟩
  · change s.cells.size < (alloc _ s).2.cells.size
    rw [size_alloc]
    exact Nat.lt_succ_self _
  · rw [count_eq (unaltered_ofInt hs n).founded]
    exact congrArg (countIn _) (congrArg Cell.rep hcell)

/-- A new integer is written in the one way that integers are written. -/
lemma wording_ofInt (hs : s.Founded) (n : Int32) :
    (ofInt n s).2.wording (ofInt n s).1 = writeInteger n.toInt := by
  have hcell : (ofInt n s).2.cell (ofInt n s).1 = { text := none, rep := .int n } :=
    cell_alloc_self _ s
  rw [(unaltered_ofInt hs n).founded.wording_of_none (congrArg Cell.text hcell)]
  exact congrArg (writtenForm _ _) (congrArg Cell.rep hcell)

/-- A new value counts what its text stands for. -/
lemma counts_ofText (hs : s.Founded) {text : String} {n : Int32} (h : readInt? text = some n) :
    (ofText text s).2.Counts (ofText text s).1 n := by
  have hcell : (ofText text s).2.cell (ofText text s).1 = { text := some text } :=
    cell_alloc_self _ s
  refine ⟨?_, ?_⟩
  · change s.cells.size < (alloc _ s).2.cells.size
    rw [size_alloc]
    exact Nat.lt_succ_self _
  · rw [count_eq (unaltered_ofText hs text).founded, wording_of_text (congrArg Cell.text hcell)]
    refine (congrArg (countIn _) (congrArg Cell.rep hcell)).trans ?_
    exact readOr_eq_ok_iff.2 h

/-- New texts alter nothing, however many. -/
lemma unaltered_ofTexts (hs : s.Founded) (texts : List String) :
    Unaltered s (ofTexts texts s).2 := by
  induction texts generalizing s with
  | nil => exact .refl hs
  | cons text texts ih =>
    have hfirst := unaltered_ofText hs text
    rw [ofTexts_cons]
    exact hfirst.trans (ih hfirst.founded)

/-- Integers as texts. -/
def written (ns : List Int32) : List String :=
  ns.map fun n => writeInteger n.toInt

/-- **Integers that are passed on as texts** count what they counted. -/
lemma counts_ofTexts (hs : s.Founded) (ns : List Int32) :
    List.Forall₂ (ofTexts (written ns) s).2.Counts (ofTexts (written ns) s).1 ns := by
  induction ns generalizing s with
  | nil => exact .nil
  | cons n ns ih =>
    have hfirst := unaltered_ofText hs (writeInteger n.toInt)
    have hrest := unaltered_ofTexts hfirst.founded (written ns)
    have hcounts := counts_ofText hs (readInt?_writeInteger n)
    rw [written, List.map_cons, ofTexts_cons]
    exact .cons (hcounts.mono hrest) (ih hfirst.founded)

end Store

open Store

/-! ## Counting several values -/

namespace ConvM

variable {α β : Type} {m : ConvM α} {f : α → ConvM β} {s t : Store}

/-- A conversion that comes out is followed by the next. -/
lemma bind_of_ok {a : α} (h : m s = .ok a t) : (m >>= f) s = f a t := by
  change EStateM.bind m f s = _
  unfold EStateM.bind
  rw [h]

/-- A conversion that fails is not. -/
lemma bind_of_error {e : Failure} (h : m s = .error e t) : (m >>= f) s = .error e t := by
  change EStateM.bind m f s = _
  unfold EStateM.bind
  rw [h]

end ConvM

namespace Builtin

variable {s t : Store} {r : Ref} {args before : List Ref} {ns : List Int32}

/-- Values are counted from left to right. -/
lemma ints_cons (r : Ref) (rs : List Ref) :
    ints (r :: rs) = asInt r >>= fun n => ints rs >>= fun ns => Pure.pure (n :: ns) :=
  List.mapM_cons

/-- Values that count something. -/
lemma ints_of_counts (h : Unaltered s t) (hargs : List.Forall₂ s.Counts args ns) :
    ∃ u, ints args t = .ok ns u ∧ Unaltered s u := by
  induction hargs generalizing t with
  | nil => exact ⟨t, rfl, h⟩
  | cons hr _ ih =>
    obtain ⟨u, hfirst, hu⟩ := asInt_of_counts h hr
    obtain ⟨v, hrest, hv⟩ := ih hu
    refine ⟨v, ?_, hv⟩
    rw [ints_cons, ConvM.bind_of_ok hfirst, ConvM.bind_of_ok hrest]
    rfl

/-- **The first value that counts nothing** is named by the failure. -/
lemma ints_of_not_counts (after : List Ref) (hs : s.Founded) (h : Unaltered s t)
    (hbefore : ∀ q ∈ before, ∃ n, s.Counts q n) (hr : r.index < s.cells.size)
    (hnone : ∀ n, ¬ s.Counts r n) :
    ∃ u, ints (before ++ r :: after) t = .error (.notInteger (s.wording r)) u ∧
      Unaltered s u := by
  induction before generalizing t with
  | nil =>
    obtain ⟨u, hfirst, hu⟩ := asInt_of_not_counts hs h hr hnone
    exact ⟨u, (congrFun (ints_cons r after) t).trans (ConvM.bind_of_error hfirst), hu⟩
  | cons q before ih =>
    obtain ⟨n, hq⟩ := hbefore q List.mem_cons_self
    obtain ⟨u, hfirst, hu⟩ := asInt_of_counts h hq
    obtain ⟨v, hrest, hv⟩ := ih hu fun p hp => hbefore p (List.mem_cons_of_mem q hp)
    refine ⟨v, ?_, hv⟩
    rw [List.cons_append, ints_cons, ConvM.bind_of_ok hfirst, ConvM.bind_of_error hrest]

end Builtin

end CommandScript

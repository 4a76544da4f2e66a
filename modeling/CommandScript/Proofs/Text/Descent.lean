import Mathlib.Tactic.Lemma
import CommandScript.Text.Braces
import CommandScript.Text.Escape

/-!
# Reading by recursive descent

A reader by recursive descent is called at a place in the text. It takes the characters that belong
to what it reads, calls other readers for the parts, and leaves the rest of the text to its caller.
What may be there any number of times is read in a loop, and nothing in a loop as such makes it come
to an end: a turn may leave the text as it was. So a loop is given a number of turns, and it is
*unfinished* if they do not suffice.

Two properties of such readers carry over from the parts to the whole. A reader leaves an end of the
text, and a shorter one if one of its parts consumes something. And a reader may *agree* with
another account of the same text, one that reads it from left to right to its end, say: that account
comes to the same as reading the part first and going on from there. A loop agrees if its turns do,
and it is finished as soon as it has more turns than the text has characters, if every turn that is
not the last one consumes a character.

## Main definitions

* `Text.Descent` — what comes of reading the beginning of a text.
* `Text.Turn`, `Text.loop` — loops.
* `Text.Consumed`, `Text.Descent.Leaves` — what is left of the text.
* `Text.Descent.Agrees` — a reader does a part of what another account of the text does.
* `Text.Escape.read`, `Text.escape`, `Text.Braced.read` — escapes and text in braces, read to their
  end.

## Main results

* `Text.loop_leaves`, `Text.consumed_of_loop` — what a loop leaves.
* `Text.Descent.Agrees.bind`, `Text.Descent.Agrees.loop` — readers that agree are put together.
-/

set_option autoImplicit false

namespace CommandScript.Text

/-- What comes of reading the beginning of a text. -/
inductive Descent (ε α : Type) where
  /-- Something was read, and this is the rest of the text. -/
  | read (result : α) (rest : List Char)
  /-- The text is wrong. -/
  | failed (error : ε)
  /-- Reading has not come to an end in the turns that were given. -/
  | unfinished

/-- What comes of one turn of a loop. -/
inductive Turn (σ α : Type) where
  /-- The loop goes on from this state. -/
  | again (state : σ)
  /-- The loop is over. -/
  | finished (result : α)

variable {ε σ α β γ : Type}

namespace Descent

/-- Goes on with what was read and the rest of the text. -/
def bind (m : Descent ε α) (f : α → List Char → Descent ε β) : Descent ε β :=
  match m with
  | .read a rest => f a rest
  | .failed e => .failed e
  | .unfinished => .unfinished

/-- What comes of reading a whole text. -/
def ofExcept : Except ε α → Descent ε α
  | .ok a => .read a []
  | .error e => .failed e

/-- Makes something else of what was read. -/
def map (f : α → β) (m : Descent ε α) : Descent ε β :=
  m.bind fun a => .read (f a)

/-- What was read is passed on. -/
@[simp] lemma bind_read (a : α) (rest : List Char) (f : α → List Char → Descent ε β) :
    (read a rest).bind f = f a rest := rfl

/-- After a failure nothing is read. -/
@[simp] lemma bind_failed (e : ε) (f : α → List Char → Descent ε β) :
    (failed e).bind f = failed e := rfl

/-- Nor is anything read when the turns have run out. -/
@[simp] lemma bind_unfinished (f : α → List Char → Descent ε β) :
    unfinished.bind f = unfinished := rfl

/-- Something is read in two parts if the first is read and then the second. -/
lemma bind_eq_read_iff {m : Descent ε α} {f : α → List Char → Descent ε β} {b : β}
    {rest : List Char} :
    m.bind f = read b rest ↔ ∃ a between, m = read a between ∧ f a between = read b rest := by
  cases m <;> simp [and_assoc]

/-- What is made of what was read leaves the same text. -/
lemma map_eq_read_iff {m : Descent ε α} {f : α → β} {b : β} {rest : List Char} :
    m.map f = read b rest ↔ ∃ a, m = read a rest ∧ f a = b := by
  constructor
  · intro h
    obtain ⟨a, between, hm, hb⟩ := bind_eq_read_iff.1 h
    cases hb
    exact ⟨a, hm, rfl⟩
  · rintro ⟨a, rfl, rfl⟩
    rfl

end Descent

/-- Does the one thing to the state that a loop goes on from, the other to its result. -/
def Turn.elim (again : σ → γ) (finished : α → γ) : Turn σ α → γ
  | .again s => again s
  | .finished a => finished a

/-- A loop: turns are taken, each from the state and the place that the one before has left, until
one is the last or the number of turns is used up. -/
def loop (turn : σ → List Char → Descent ε (Turn σ α)) : Nat → σ → List Char → Descent ε α
  | 0, _, _ => .unfinished
  | turns + 1, s, text => (turn s text).bind (Turn.elim (loop turn turns) .read)

/-! ## What is left of the text -/

/-- At least one character was consumed between the one place and the other. -/
def Consumed (text rest : List Char) : Prop :=
  rest <:+ text ∧ rest.length < text.length

section Consumed

variable {c : Char} {text rest left : List Char}

/-- What is left after the first character leaves that character behind. -/
lemma consumed_cons (h : rest <:+ text) : Consumed (c :: text) rest := by
  refine ⟨h.trans (List.suffix_cons c text), ?_⟩
  have hle : rest.length ≤ text.length := h.length_le
  simp only [List.length_cons]
  omega

/-- A part of what is left is less than the text, too. -/
lemma Consumed.trans_suffix (h : Consumed text rest) (h' : left <:+ rest) : Consumed text left :=
  ⟨h'.trans h.1, Nat.lt_of_le_of_lt h'.length_le h.2⟩

/-- So is what is left of a part. -/
lemma Consumed.of_suffix (h : rest <:+ text) (h' : Consumed rest left) : Consumed text left :=
  ⟨h'.1.trans h, Nat.lt_of_lt_of_le h'.2 h.length_le⟩

/-- What is left is the same text, or something was consumed. -/
lemma eq_or_consumed (h : rest <:+ text) : rest = text ∨ Consumed text rest := by
  obtain hlt | hge := Nat.lt_or_ge rest.length text.length
  · exact .inr ⟨h, hlt⟩
  · exact .inl (h.eq_of_length_le hge)

/-- What is left when characters are dropped does not begin with one of them. -/
lemma eq_false_of_dropWhile {p : Char → Bool} (h : text.dropWhile p = c :: rest) :
    p c = false := by
  have hhead := List.head?_dropWhile_not p text
  rw [h] at hhead
  exact hhead

/-- A scan that takes no notice of some characters comes to the same if they are dropped. -/
lemma foldl_dropWhile {p : Char → Bool} {f : σ → Char → σ} {s : σ}
    (h : ∀ c, p c = true → f s c = s) (text : List Char) :
    (text.dropWhile p).foldl f s = text.foldl f s := by
  induction text with
  | nil => rfl
  | cons c text ih =>
    cases hc : p c with
    | false => rw [List.dropWhile_cons_of_neg (by simp [hc])]
    | true => rw [List.dropWhile_cons_of_pos hc, List.foldl_cons, h c hc, ih]

end Consumed

/-- What is left is an end of the text. -/
def Descent.Leaves (text : List Char) (m : Descent ε α) : Prop :=
  ∀ a rest, m = .read a rest → rest <:+ text

namespace Descent

variable {text : List Char}

/-- To read nothing leaves the whole text. -/
lemma leaves_read (a : α) : (read a text : Descent ε α).Leaves text := by
  intro b rest h
  cases h
  exact List.suffix_rfl

/-- A failure leaves nothing to be said. -/
lemma leaves_failed (e : ε) : (failed e : Descent ε α).Leaves text :=
  nofun

/-- What leaves a part of a part leaves a part. -/
lemma Leaves.of_suffix {m : Descent ε α} {rest : List Char} (hm : m.Leaves rest)
    (h : rest <:+ text) : m.Leaves text :=
  fun a left ha => (hm a left ha).trans h

/-- One thing after another leaves a part of the text, if each does. -/
lemma Leaves.bind {m : Descent ε α} {f : α → List Char → Descent ε β} (hm : m.Leaves text)
    (hf : ∀ a rest, (f a rest).Leaves rest) : (m.bind f).Leaves text := by
  intro b rest h
  obtain ⟨a, between, ha, hb⟩ := bind_eq_read_iff.1 h
  exact (hf a between b rest hb).trans (hm a between ha)

/-- What is made of what was read makes no difference. -/
lemma Leaves.map {m : Descent ε α} (f : α → β) (hm : m.Leaves text) : (m.map f).Leaves text :=
  hm.bind fun a _ => leaves_read (f a)

end Descent

/-! ## What a loop leaves -/

section Loop

variable {turn : σ → List Char → Descent ε (Turn σ α)} {s : σ} {text rest : List Char} {a : α}
  {turns : Nat}

/-- A loop that came to an end did so in a turn that was the last one, at an end of the text. -/
lemma exists_finished_of_loop (hturn : ∀ s text, (turn s text).Leaves text)
    (h : loop turn turns s text = .read a rest) :
    ∃ s' text', text' <:+ text ∧ turn s' text' = .read (.finished a) rest := by
  induction turns generalizing s text with
  | zero => cases h
  | succ turns ih =>
    obtain ⟨t, between, hfirst, hrest⟩ := Descent.bind_eq_read_iff.1 h
    have hbetween : between <:+ text := hturn s text t between hfirst
    cases t with
    | again s' =>
      obtain ⟨s'', text', hsuffix, hlast⟩ := ih hrest
      exact ⟨s'', text', hsuffix.trans hbetween, hlast⟩
    | finished b =>
      cases hrest
      exact ⟨s, text, List.suffix_rfl, hfirst⟩

/-- A loop leaves a part of the text, if its turns do. -/
lemma loop_leaves (hturn : ∀ s text, (turn s text).Leaves text) :
    (loop turn turns s text).Leaves text := by
  intro a rest h
  obtain ⟨s', text', hsuffix, hlast⟩ := exists_finished_of_loop hturn h
  exact (hturn s' text' _ rest hlast).trans hsuffix

/-- If the first turn of a loop consumes something, so does the loop. -/
lemma consumed_of_loop (hturn : ∀ s text, (turn s text).Leaves text)
    (hfirst : ∀ t rest, turn s text = .read t rest → Consumed text rest)
    (h : loop turn turns s text = .read a rest) : Consumed text rest := by
  cases turns with
  | zero => cases h
  | succ turns =>
    obtain ⟨t, between, ht, hrest⟩ := Descent.bind_eq_read_iff.1 h
    have hbetween : Consumed text between := hfirst t between ht
    cases t with
    | again s' => exact hbetween.trans_suffix (loop_leaves hturn a rest hrest)
    | finished b =>
      cases hrest
      exact hbetween

end Loop

/-! ## Agreement with another account of the text -/

namespace Descent

/-- **A reader does a part of what another account of the text does**: that account comes to what
was read and what `k` makes of it. If the reader is unfinished, it has to be so only if it was given
enough turns, and then the other account does not come to an end either. -/
def Agrees (enough : Prop) (m : Descent ε α) (x : Descent ε β)
    (k : α → List Char → Descent ε β) : Prop :=
  (m = .unfinished → enough) → x = m.bind k

namespace Agrees

variable {enough enough' : Prop} {m : Descent ε α} {x : Descent ε β}
  {k : α → List Char → Descent ε β}

/-- What was read is read by the other account. -/
lemma read {a : α} {rest : List Char} (h : x = k a rest) : Agrees enough (.read a rest) x k :=
  fun _ => h

/-- A failure is a failure of the other account. -/
lemma failed {e : ε} (h : x = .failed e) : Agrees enough (.failed e) x k :=
  fun _ => h

/-- Fewer turns may be enough. -/
lemma mono (h : Agrees enough m x k) (himp : enough' → enough) : Agrees enough' m x k :=
  fun hm => h fun hunfinished => himp (hm hunfinished)

/-- Two readers one after the other agree with the two accounts, one after the other. -/
lemma bind {f : γ → List Char → Descent ε α} {n : Descent ε γ}
    {k' : γ → List Char → Descent ε β} (hn : Agrees enough n x k')
    (hf : ∀ c rest, n = .read c rest → Agrees enough (f c rest) (k' c rest) k) :
    Agrees enough (n.bind f) x k := by
  intro h
  cases n with
  | read c rest =>
    have hx : x = k' c rest := hn nofun
    exact hx.trans (hf c rest rfl h)
  | failed e => exact hn nofun
  | unfinished => exact hn fun _ => h rfl

/-- What is made of what was read may be part of the other account. -/
lemma map {f : γ → α} {n : Descent ε γ} (hn : Agrees enough n x fun c => k (f c)) :
    Agrees enough (n.map f) x k :=
  hn.bind fun _ _ _ => read rfl

/-- **A loop agrees if its turns do.** Every turn that is not the last one has to consume a
character, unless the other account does not come to an end from there. Then as many turns suffice
as the text has characters, and one more.

**Proof sketch.** Induction on the number of turns. After a turn that consumes a character, one turn
less is enough for the rest of the text. After one that consumes none there is nothing to show about
an unfinished loop, since the other account is unfinished, too. -/
lemma loop {turn : σ → List Char → Descent ε (Turn σ α)} {x : σ → List Char → Descent ε β}
    {n : Nat}
    (hturn : ∀ s text, Agrees (text.length ≤ n) (turn s text) (x s text) (Turn.elim x k))
    (hprogress : ∀ s text s' rest, turn s text = .read (.again s') rest →
      Consumed text rest ∨ x s text = .unfinished)
    (s : σ) (text : List Char) :
    Agrees (text.length ≤ n) (loop turn (n + 1) s text) (x s text) k := by
  have hloop : ∀ turns ≤ n + 1, ∀ s text,
      Agrees (text.length < turns) (Text.loop turn turns s text) (x s text) k := by
    intro turns
    induction turns with
    | zero => exact fun _ s text h => absurd (h rfl) (Nat.not_lt_zero _)
    | succ turns ih =>
      intro hle s text h
      have henough : Text.loop turn (turns + 1) s text = .unfinished → text.length ≤ n := by
        intro hunfinished
        have hlt : text.length < turns + 1 := h hunfinished
        omega
      have hx := hturn s text
      have hmore := hprogress s text
      simp only [Text.loop] at h henough ⊢
      cases ht : turn s text with
      | failed e =>
        rw [ht] at hx
        exact hx nofun
      | unfinished =>
        rw [ht] at hx henough
        exact hx fun _ => henough rfl
      | read t rest =>
        rw [ht] at hx h
        have hread : x s text = Turn.elim x k t rest := hx nofun
        cases t with
        | finished a => exact hread
        | again s' =>
          have hrest := ih (by omega) s' rest
          -- the turn has consumed a character, or the other account comes to no end, either
          obtain ⟨-, hlt⟩ | hstuck := hmore s' rest ht
          · refine hread.trans (hrest fun hunfinished => ?_)
            have hlt' : text.length < turns + 1 := h hunfinished
            omega
          · by_cases hunfinished : Text.loop turn turns s' rest = .unfinished
            · simp only [bind_read, Turn.elim, hunfinished, bind_unfinished]
              exact hstuck
            · exact hread.trans (hrest fun h => absurd h hunfinished)
  exact (hloop (n + 1) (Nat.le_refl _) s text).mono Nat.lt_succ_of_le

end Agrees

end Descent

/-! ## Escapes and braces -/

/-- Reads an escape to its end: the character that it stands for and the rest of the text. -/
def Escape.read (e : Escape) : List Char → Char × List Char
  | [] => (e.close, [])
  | c :: rest =>
    match e.step c with
    | .more e => e.read rest
    | .last d => (d, rest)
    | .before d => (d, c :: rest)

/-- An escape leaves a part of the text. -/
lemma Escape.read_suffix (e : Escape) (text : List Char) : (e.read text).2 <:+ text := by
  induction text generalizing e with
  | nil => exact List.suffix_rfl
  | cons c rest ih =>
    have hrest : rest <:+ c :: rest := List.suffix_cons c rest
    unfold Escape.read
    split
    next e' _ => exact (ih e').trans hrest
    next => exact hrest
    next => exact List.suffix_rfl

/-- The continuation of a line ends where the indent does. -/
lemma Escape.read_continuation (text : List Char) :
    (Escape.continuation.read text).2 = text.dropWhile isIndent := by
  induction text with
  | nil => rfl
  | cons c text ih =>
    cases hc : isIndent c with
    | false => simp [Escape.read, Escape.step, hc]
    | true => simp [Escape.read, Escape.step, hc, ih]

/-- Reads an escape after its backslash. -/
def escape (text : List Char) : Descent ε Char :=
  .read (Escape.start.read text).1 (Escape.start.read text).2

/-- So it does within the descent. -/
lemma escape_leaves (text : List Char) : (escape text : Descent ε Char).Leaves text := by
  intro d rest h
  cases h
  exact Escape.start.read_suffix text

/-- Reads text in braces to the closing brace, if there is one: the text between the braces and the
rest of the text. -/
def Braced.read (b : Braced) : List Char → Option (List Char × List Char)
  | [] => none
  | c :: rest =>
    match b.step c with
    | .ok b => b.read rest
    | .error inner => some (inner, rest)

/-- So does a braced text. -/
lemma Braced.read_suffix {b : Braced} {text inner rest : List Char}
    (h : b.read text = some (inner, rest)) : rest <:+ text := by
  induction text generalizing b with
  | nil => cases h
  | cons c text ih =>
    have htext : text <:+ c :: text := List.suffix_cons c text
    unfold Braced.read at h
    split at h
    · exact (ih h).trans htext
    · cases h
      exact htext

end CommandScript.Text

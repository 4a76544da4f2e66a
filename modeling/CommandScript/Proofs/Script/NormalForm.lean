import Mathlib.Data.List.Chain
import CommandScript.Proofs.Script.Built

/-!
# The normal form of scripts

A word could be written down in many ways as parts that are put together: a text can be cut
anywhere, an empty one can stand anywhere, and words that are put together can be put together
again. The reader yields one of these ways. A word without substitutions is one fixed text. A word
that is a single substitution is this substitution. Only what is left is put together, from at least
two parts, of which one is substituted at least, and the fixed texts are as long as they can be:
none is empty, and no two stand side by side.

The reader gathers a word from left to right. It holds the fixed text that it has read last apart
from the parts before it, and makes it a part when a substitution comes or the word is over, but
only if it is not empty. So the last of the parts is always a substitution while a word is gathered,
and this is why no two texts meet.

What stands in the place of the fixed texts does not matter here, as long as it tells its text: the
reader leaves strings there, an interpreter values.

## Main definitions

* `Word.parts` — what a word is put together from.
* `Script.Neat`, `Script.Composed` — parts that are put together as they should be.
* `Script.nested` — the words of a script, at every depth.
* `Script.NormalForm` — a script all of whose words are as they should be.
* `Word.content` — the characters and substitutions that a word consists of.
* `Script.map` — the script with other things in the place of its fixed texts.

## Main results

* `Word.Proper.eq_of_content` — a word of a single substitution is this substitution.
* `Word.Proper.exists_literal_of_content` — a word without substitutions is one fixed text.
* `Word.exists_joined_of_content` — every other word is put together.
* `Script.Pieces.NormalForm.finish` — the word that has been gathered.
* `Script.normalForm_of_read` — every script that was read is in normal form.
* `Script.normalForm_map` — what stands in the place of the texts does not matter.
-/

set_option autoImplicit false

namespace CommandScript

/-! ## Words and their parts -/

namespace Word

variable {α : Type}

/-- Whether the word is fixed text. -/
def isFixed : Word α → Bool
  | .literal _ => true
  | _ => false

/-- Whether the word is a variable or a script in brackets. -/
def isSubstituted : Word α → Bool
  | .var _ | .substitution _ => true
  | _ => false

/-- What the word is put together from: itself alone, unless it is joined. -/
def parts : Word α → List (Word α)
  | .joined parts => parts
  | w => [w]

end Word

namespace Script

variable {α β : Type} {text? : α → Option String}

/-! ## The normal form -/

/-- Parts, perhaps of the beginning of a word, that could not be put together more closely. -/
structure Neat (text? : α → Option String) (parts : List (Word α)) : Prop where
  /-- None is put together itself. -/
  flat : ∀ inner, .joined inner ∉ parts
  /-- No fixed text is empty. -/
  nonempty : ∀ a, .literal a ∈ parts → ∃ text, text? a = some text ∧ text ≠ ""
  /-- No two fixed texts stand side by side. -/
  apart : parts.IsChain fun v w => ¬ (v.isFixed = true ∧ w.isFixed = true)

/-- Parts that have to be put together. -/
structure Composed (text? : α → Option String) (parts : List (Word α)) : Prop
    extends Neat text? parts where
  /-- There are at least two. -/
  several : 2 ≤ parts.length
  /-- At least one is a variable or a script in brackets. -/
  substituted : ∃ w ∈ parts, w.isSubstituted = true

mutual

/-- The word, and all words in it. -/
def wordNested : Word α → List (Word α)
  | .literal a => [.literal a]
  | .var name => [.var name]
  | .substitution script => .substitution script :: nested script
  | .joined parts => .joined parts :: wordsNested parts

/-- The words, and all words in them. -/
def wordsNested : List (Word α) → List (Word α)
  | [] => []
  | w :: ws => wordNested w ++ wordsNested ws

/-- The words of a script, and all words in them. -/
def nested : List (List (Word α)) → List (Word α)
  | [] => []
  | c :: cs => wordsNested c ++ nested cs

end

end Script

/-- The word is as it should be, the words in it apart. -/
def Word.Proper {α : Type} (text? : α → Option String) : Word α → Prop
  | .literal a => (text? a).isSome = true
  | .var _ => True
  | .substitution script => [] ∉ script
  | .joined parts => Script.Composed text? parts

/-- The word is as it should be, and so are all words in it. -/
def Word.NormalForm {α : Type} (text? : α → Option String) (w : Word α) : Prop :=
  ∀ v ∈ Script.wordNested w, v.Proper text?

/-- **The normal form of a script**: no command is empty, and all words are as they should be, at
every depth. -/
structure Script.NormalForm {α : Type} (text? : α → Option String)
    (script : List (List (Word α))) : Prop where
  /-- Every command has a word. -/
  commands : [] ∉ script
  /-- Every word is as it should be, in every nested script too. -/
  words : ∀ w ∈ nested script, w.Proper text?

namespace Script

variable {α β : Type} {text? : α → Option String}

/-! ### From words to scripts -/

/-- The words within many words are those within each of them. -/
lemma forall_wordsNested_iff {P : Word α → Prop} {ws : List (Word α)} :
    (∀ v ∈ wordsNested ws, P v) ↔ ∀ w ∈ ws, ∀ v ∈ wordNested w, P v := by
  induction ws with
  | nil => simp [wordsNested]
  | cons w ws ih => simp only [wordsNested, List.forall_mem_append, List.forall_mem_cons, ih]

/-- The words within a script are those within the words of its commands. -/
lemma forall_nested_iff {P : Word α → Prop} {script : List (List (Word α))} :
    (∀ v ∈ nested script, P v) ↔ ∀ c ∈ script, ∀ w ∈ c, ∀ v ∈ wordNested w, P v := by
  induction script with
  | nil => simp [nested]
  | cons c cs ih =>
    simp only [nested, List.forall_mem_append, List.forall_mem_cons, forall_wordsNested_iff, ih]

/-- A script is in normal form if its commands have words, and these are in normal form. -/
lemma normalForm_iff {script : List (List (Word α))} :
    NormalForm text? script ↔ ∀ c ∈ script, c ≠ [] ∧ ∀ w ∈ c, w.NormalForm text? := by
  constructor
  · intro h c hc
    refine ⟨?_, forall_nested_iff.1 h.words c hc⟩
    rintro rfl
    exact h.commands hc
  · intro h
    exact ⟨fun hnil => (h [] hnil).1 rfl, forall_nested_iff.2 fun c hc => (h c hc).2⟩

/-- A literal that has a text is in normal form. -/
lemma normalForm_literal {a : α} (h : (text? a).isSome = true) :
    (Word.literal a).NormalForm text? := by
  simp only [Word.NormalForm, wordNested, List.mem_singleton, forall_eq]
  exact h

/-- So is a variable. -/
lemma normalForm_var (name : String) : (Word.var name : Word α).NormalForm text? := by
  simp only [Word.NormalForm, wordNested, List.mem_singleton, forall_eq]
  trivial

/-- So is a substitution of a script in normal form. -/
lemma normalForm_substitution {script : List (List (Word α))} (h : NormalForm text? script) :
    (Word.substitution script).NormalForm text? := by
  simp only [Word.NormalForm, wordNested, List.forall_mem_cons]
  exact ⟨h.commands, h.words⟩

/-- So is a word that is composed of such words. -/
lemma normalForm_joined {parts : List (Word α)} (hcomposed : Composed text? parts)
    (h : ∀ w ∈ parts, w.NormalForm text?) : (Word.joined parts).NormalForm text? := by
  simp only [Word.NormalForm, wordNested, List.forall_mem_cons]
  exact ⟨hcomposed, forall_wordsNested_iff.2 h⟩

/-! ### Parts in another order -/

/-- Parts that were gathered backwards. -/
lemma Neat.reverse {parts : List (Word α)} (h : Neat text? parts) : Neat text? parts.reverse where
  flat inner hmem := h.flat inner (List.mem_reverse.1 hmem)
  nonempty a hmem := h.nonempty a (List.mem_reverse.1 hmem)
  apart := by
    rw [List.isChain_reverse]
    exact h.apart.imp fun v w hvw ⟨hw, hv⟩ => hvw ⟨hv, hw⟩

/-- A part may be added that is not fixed text, or not next to one. -/
lemma Neat.cons {w : Word α} {parts : List (Word α)} (h : Neat text? parts)
    (hflat : ∀ inner, w ≠ .joined inner)
    (hnonempty : ∀ a, w = .literal a → ∃ text, text? a = some text ∧ text ≠ "")
    (hapart : ∀ v ∈ parts.head?, ¬ (w.isFixed = true ∧ v.isFixed = true)) :
    Neat text? (w :: parts) where
  flat inner hmem := by
    obtain hw | hmem := List.mem_cons.1 hmem
    · exact hflat inner hw.symm
    · exact h.flat inner hmem
  nonempty a hmem := by
    obtain hw | hmem := List.mem_cons.1 hmem
    · exact hnonempty a hw.symm
    · exact h.nonempty a hmem
  apart := List.isChain_cons.2 ⟨hapart, h.apart⟩

end Script

/-! ## What a word consists of -/

namespace Word

variable {α : Type} {text? : α → Option String} {w v : Word α}

/-- What a part of a word consists of: a fixed text of its characters, a substitution of itself. -/
def items (text? : α → Option String) : Word α → List (Char ⊕ Word α)
  | .literal a => ((text? a).getD "").toList.map .inl
  | w => [.inr w]

/-- The characters and substitutions that a word consists of, however they are grouped. -/
def content (text? : α → Option String) (w : Word α) : List (Char ⊕ Word α) :=
  w.parts.flatMap (items text?)

/-- No part of a word is there for nothing. -/
lemma items_ne_nil {parts : List (Word α)} (hparts : Script.Neat text? parts) (hw : w ∈ parts) :
    w.items text? ≠ [] := by
  cases w with
  | literal a =>
    obtain ⟨text, htext, hne⟩ := hparts.nonempty a hw
    simpa [items, htext] using hne
  | _ => simp [items]

/-- **A word that consists of a single substitution is this substitution**, and nothing is put
together. -/
lemma Proper.eq_of_content (hw : w.Proper text?) (h : w.content text? = [.inr v]) : w = v := by
  cases w with
  | literal a =>
    have hmem : (.inr v : Char ⊕ Word α) ∈ (literal a).content text? := by simp [h]
    simp [content, parts, items] at hmem
  | var name => simpa [content, parts, items] using h
  | substitution script => simpa [content, parts, items] using h
  | joined parts =>
    have hne : ∀ u ∈ parts, u.items text? ≠ [] := fun u hu => items_ne_nil hw.toNeat hu
    have hseveral := hw.several
    -- Two parts already yield two things.
    rcases parts with _ | ⟨u₁, _ | ⟨u₂, rest⟩⟩
    · simp at hseveral
    · simp at hseveral
    · have h₁ := hne u₁ (by simp)
      have h₂ := hne u₂ (by simp)
      simp [content, Word.parts, List.append_eq_singleton_iff, h₁, h₂] at h

/-- **A word that consists of characters only is one fixed text.** -/
lemma Proper.exists_literal_of_content (hw : w.Proper text?)
    (h : ∀ i ∈ w.content text?, i.isLeft = true) : ∃ a, w = .literal a := by
  cases w with
  | literal a => exact ⟨a, rfl⟩
  | var name => simp [content, parts, items] at h
  | substitution script => simp [content, parts, items] at h
  | joined parts =>
    obtain ⟨u, hu, hsubstituted⟩ := hw.substituted
    have hitems : u.items text? = [.inr u] := by
      cases u with
      | literal a => cases hsubstituted
      | _ => rfl
    have hmem : .inr u ∈ (joined parts).content text? := by
      refine List.mem_flatMap.2 ⟨u, hu, ?_⟩
      simp [hitems]
    cases h _ hmem

/-- **A word that consists of several things, a substitution among them, is put together.** -/
lemma exists_joined_of_content (hseveral : 2 ≤ (w.content text?).length)
    (h : ∃ i ∈ w.content text?, i.isRight = true) : ∃ parts, w = .joined parts := by
  cases w with
  | literal a =>
    obtain ⟨i, hi, hright⟩ := h
    obtain ⟨c, -, rfl⟩ : ∃ c ∈ ((text? a).getD "").toList, .inl c = i := by
      simpa [content, parts, items] using hi
    cases hright
  | var name => simp [content, parts, items] at hseveral
  | substitution script => simp [content, parts, items] at hseveral
  | joined parts => exact ⟨parts, rfl⟩

end Word

/-! ## Words and scripts under construction -/

/-- What is substituted is not fixed. -/
lemma Word.isFixed_eq_false {α : Type} {w : Word α} (h : w.isSubstituted = true) :
    w.isFixed = false := by
  cases w with
  | literal a => cases h
  | _ => rfl

/-- What is substituted is no composition. -/
lemma Word.ne_joined {α : Type} {w : Word α} (h : w.isSubstituted = true)
    (inner : List (Word α)) : w ≠ .joined inner := by
  rintro rfl
  cases h

namespace Script

/-- The word under construction is in normal form as far as it goes. The part that was added last is
substituted: the fixed text after it has not been made a part yet. -/
structure Pieces.NormalForm (p : Pieces) : Prop where
  /-- The parts are in normal form. -/
  words : ∀ w ∈ p.parts, w.NormalForm some
  /-- They could not be put together more closely. -/
  neat : Neat some p.parts
  /-- The last one is substituted. -/
  latest : ∀ w ∈ p.parts.head?, w.isSubstituted = true

namespace Pieces.NormalForm

variable {p : Pieces}

/-- No pieces are in normal form. -/
lemma empty : Pieces.NormalForm {} where
  words := by simp
  neat := ⟨by simp, by simp, .nil⟩
  latest := by simp

/-- So are such pieces with a further character. -/
lemma char (hp : p.NormalForm) (c : Char) : (p.char c).NormalForm :=
  ⟨hp.words, hp.neat, hp.latest⟩

/-- So are the words that such pieces come to. -/
lemma flush_words (hp : p.NormalForm) : ∀ w ∈ p.flush, w.NormalForm some := by
  unfold flush
  split_ifs
  · exact hp.words
  · exact List.forall_mem_cons.2 ⟨normalForm_literal rfl, hp.words⟩

/-- The fixed text becomes a part only if it is not empty, and it does not meet another text, as the
part before it is substituted. -/
lemma flush_neat (hp : p.NormalForm) : Neat some p.flush := by
  unfold flush
  split_ifs with htext
  · exact hp.neat
  · refine hp.neat.cons nofun (fun a ha => ?_) fun v hv => ?_
    · cases ha
      refine ⟨_, rfl, ?_⟩
      simpa using htext
    · simp [Word.isFixed_eq_false (hp.latest v hv)]

/-- A substituted word in normal form may be added. -/
lemma word (hp : p.NormalForm) {w : Word String} (hw : w.NormalForm some)
    (hsubstituted : w.isSubstituted = true) : (p.word w).NormalForm where
  words := List.forall_mem_cons.2 ⟨hw, hp.flush_words⟩
  neat := by
    have hfixed : w.isFixed = false := Word.isFixed_eq_false hsubstituted
    refine hp.flush_neat.cons (Word.ne_joined hsubstituted) (fun a ha => ?_) fun v _ => ?_
    · subst ha
      cases hsubstituted
    · simp [hfixed]
  latest v hv := by
    obtain rfl : w = v := by simpa [Pieces.word] using hv
    exact hsubstituted

/-- Pieces that are more than text contain something substituted. -/
lemma exists_substituted (hp : p.NormalForm) (h : ¬ p.parts.isEmpty = true) :
    ∃ w ∈ p.flush, w.isSubstituted = true := by
  obtain ⟨w, ws, hparts⟩ := List.exists_cons_of_ne_nil (by simpa using h)
  have hw : w.isSubstituted = true := hp.latest w (by simp [hparts])
  refine ⟨w, ?_, hw⟩
  unfold flush
  split_ifs <;> simp [hparts]

/-- **The word that has been gathered is in normal form.** It is fixed text if there is no part; one
part alone is the word; and otherwise there are several, with a substituted one among them. -/
lemma finish (hp : p.NormalForm) : p.finish.NormalForm some := by
  unfold Pieces.finish
  split_ifs with hempty
  · exact normalForm_literal rfl
  · obtain ⟨v, hv, hsubstituted⟩ := hp.exists_substituted hempty
    have hwords := hp.flush_words
    split
    next w hw =>
      rw [hw] at hwords
      exact hwords w List.mem_cons_self
    next hnot =>
      refine normalForm_joined ⟨hp.flush_neat.reverse, ?_, v, List.mem_reverse.2 hv, hsubstituted⟩
        fun w hw => hwords w (List.mem_reverse.1 hw)
      have hne : p.flush.length ≠ 1 := fun h => by
        obtain ⟨w, hw⟩ := List.length_eq_one_iff.1 h
        exact hnot w hw
      have hpos : 0 < p.flush.length := List.length_pos_of_mem hv
      simp only [List.length_reverse]
      omega

end Pieces.NormalForm

/-- The script under construction is in normal form, but for the end of the command that is being
read. -/
structure Draft.NormalForm (d : Draft) : Prop where
  /-- The finished commands. -/
  commands : Script.NormalForm some d.commands
  /-- The words of the command that is being read. -/
  words : ∀ w ∈ d.words, w.NormalForm some

namespace Draft.NormalForm

variable {d : Draft}

/-- A draft without commands is in normal form. -/
lemma empty : Draft.NormalForm {} :=
  ⟨normalForm_iff.2 (by simp), by simp⟩

/-- A word in normal form may be added to it. -/
lemma word (hd : d.NormalForm) {w : Word String} (hw : w.NormalForm some) :
    (d.word w).NormalForm :=
  ⟨hd.commands, List.forall_mem_cons.2 ⟨hw, hd.words⟩⟩

/-- The command that ends has a word, or there is none. -/
lemma endCommand (hd : d.NormalForm) : d.endCommand.NormalForm := by
  unfold Draft.endCommand
  split_ifs with hempty
  · exact hd
  · refine ⟨normalForm_iff.2 (List.forall_mem_cons.2 ⟨⟨?_, fun w hw => ?_⟩, ?_⟩), by simp⟩
    · simpa using hempty
    · exact hd.words w (List.mem_reverse.1 hw)
    · exact normalForm_iff.1 hd.commands

/-- A draft in normal form comes to a script in normal form. -/
lemma finish (hd : d.NormalForm) : Script.NormalForm some d.finish := by
  refine normalForm_iff.2 fun c hc => ?_
  exact normalForm_iff.1 hd.endCommand.commands c (List.mem_reverse.1 hc)

end Draft.NormalForm

/-! ## Scripts that are read -/

mutual

/-- However a word is built, it is in normal form as far as it goes. -/
lemma BuiltPieces.normalForm : ∀ {p : Pieces}, BuiltPieces p → p.NormalForm
  | _, .empty => .empty
  | _, .char hp c => hp.normalForm.char c
  | _, .var hp name => hp.normalForm.word (normalForm_var name) rfl
  | _, .substitution hp hd =>
    hp.normalForm.word (normalForm_substitution hd.normalForm.finish) rfl

/-- However a script is built, it is in normal form as far as it goes. -/
lemma BuiltDraft.normalForm : ∀ {d : Draft}, BuiltDraft d → d.NormalForm
  | _, .empty => .empty
  | _, .text hd text => hd.normalForm.word (normalForm_literal rfl)
  | _, .word hd hp => hd.normalForm.word hp.normalForm.finish
  | _, .endCommand hd => hd.normalForm.endCommand

end

/-- **Every script that was read is in normal form.** -/
lemma normalForm_of_read {text : String} {script : Script String} (h : read text = .done script) :
    NormalForm some script := by
  obtain ⟨d, hd, rfl⟩ := exists_built_of_read h
  exact hd.normalForm.finish

/-! ## Other things in the place of texts -/

section Map

variable {α β : Type}

mutual

/-- The word with other things in the place of its fixed texts. -/
def mapWord (f : α → β) : Word α → Word β
  | .literal a => .literal (f a)
  | .var name => .var name
  | .substitution script => .substitution (map f script)
  | .joined parts => .joined (mapWords f parts)

/-- The words with other things in the place of their fixed texts. -/
def mapWords (f : α → β) : List (Word α) → List (Word β)
  | [] => []
  | w :: ws => mapWord f w :: mapWords f ws

/-- The script with other things in the place of its fixed texts. -/
def map (f : α → β) : List (List (Word α)) → List (List (Word β))
  | [] => []
  | c :: cs => mapWords f c :: map f cs

end

variable (f : α → β) {text? : β → Option String}

/-- The words of a command are mapped one by one. -/
lemma mapWords_eq (ws : List (Word α)) : mapWords f ws = ws.map (mapWord f) := by
  induction ws with
  | nil => rfl
  | cons w ws ih => simp [mapWords, ih]

/-- So are the commands of a script. -/
lemma map_eq (script : List (List (Word α))) : map f script = List.map (mapWords f) script := by
  induction script with
  | nil => rfl
  | cons c cs ih => simp [map, ih]

mutual

/-- The words within a mapped word are those within the word, mapped. -/
lemma wordNested_mapWord : ∀ w : Word α, wordNested (mapWord f w) = (wordNested w).map (mapWord f)
  | .literal _ => rfl
  | .var _ => rfl
  | .substitution script => by
    simp only [mapWord, wordNested, nested_map script, List.map_cons]
  | .joined parts => by
    simp only [mapWord, wordNested, wordsNested_mapWords parts, List.map_cons]

/-- So are those within many words. -/
lemma wordsNested_mapWords : ∀ ws : List (Word α),
    wordsNested (mapWords f ws) = (wordsNested ws).map (mapWord f)
  | [] => rfl
  | w :: ws => by
    simp only [mapWords, wordsNested, wordNested_mapWord w, wordsNested_mapWords ws,
      List.map_append]

/-- The words in the script are those that there were, with the other things in their place. -/
lemma nested_map : ∀ script : List (List (Word α)),
    nested (map f script) = (nested script).map (mapWord f)
  | [] => rfl
  | c :: cs => by
    simp only [map, nested, wordsNested_mapWords c, nested_map cs, List.map_append]

end

/-- A mapped word is fixed if the word is. -/
lemma isFixed_mapWord (w : Word α) : (mapWord f w).isFixed = w.isFixed := by
  cases w <;> rfl

/-- It is substituted if the word is. -/
lemma isSubstituted_mapWord (w : Word α) : (mapWord f w).isSubstituted = w.isSubstituted := by
  cases w <;> rfl

/-- It is a literal if the word is one. -/
lemma mapWord_eq_literal {w : Word α} {b : β} :
    mapWord f w = .literal b ↔ ∃ a, w = .literal a ∧ f a = b := by
  cases w <;> simp [mapWord]

/-- It is a composition if the word is one. -/
lemma mapWord_eq_joined {w : Word α} {inner : List (Word β)} :
    mapWord f w = .joined inner ↔ ∃ ws, w = .joined ws ∧ mapWords f ws = inner := by
  cases w <;> simp [mapWord]

/-- Mapped words are neat if the words are. -/
lemma neat_map {parts : List (Word α)} :
    Neat text? (mapWords f parts) ↔ Neat (text? ∘ f) parts := by
  rw [mapWords_eq]
  constructor
  · intro h
    refine ⟨fun inner hmem => ?_, fun a hmem => ?_, ?_⟩
    · exact h.flat (mapWords f inner) (List.mem_map.2 ⟨_, hmem, rfl⟩)
    · exact h.nonempty (f a) (List.mem_map.2 ⟨_, hmem, rfl⟩)
    · simpa only [List.isChain_map, isFixed_mapWord] using h.apart
  · intro h
    refine ⟨fun inner hmem => ?_, fun b hmem => ?_, ?_⟩
    · obtain ⟨w, hw, heq⟩ := List.mem_map.1 hmem
      obtain ⟨ws, rfl, -⟩ := (mapWord_eq_joined f).1 heq
      exact h.flat ws hw
    · obtain ⟨w, hw, heq⟩ := List.mem_map.1 hmem
      obtain ⟨a, rfl, rfl⟩ := (mapWord_eq_literal f).1 heq
      exact h.nonempty a hw
    · simpa only [List.isChain_map, isFixed_mapWord] using h.apart

/-- They are composed if the words are. -/
lemma composed_map {parts : List (Word α)} :
    Composed text? (mapWords f parts) ↔ Composed (text? ∘ f) parts := by
  have hseveral : 2 ≤ (mapWords f parts).length ↔ 2 ≤ parts.length := by
    rw [mapWords_eq, List.length_map]
  have hsubstituted : (∃ w ∈ mapWords f parts, w.isSubstituted = true) ↔
      ∃ w ∈ parts, w.isSubstituted = true := by
    simp [mapWords_eq, isSubstituted_mapWord]
  exact ⟨fun h => ⟨(neat_map f).1 h.toNeat, hseveral.1 h.several, hsubstituted.1 h.substituted⟩,
    fun h => ⟨(neat_map f).2 h.toNeat, hseveral.2 h.several, hsubstituted.2 h.substituted⟩⟩

/-- An empty command stays empty, and no other becomes so. -/
lemma nil_mem_map {script : List (List (Word α))} : [] ∈ map f script ↔ [] ∈ script := by
  simp [map_eq, mapWords_eq]

/-- A mapped word is proper if the word is. -/
lemma proper_mapWord (w : Word α) : (mapWord f w).Proper text? ↔ w.Proper (text? ∘ f) := by
  cases w with
  | literal a => rfl
  | var name => rfl
  | substitution script => exact not_congr (nil_mem_map f)
  | joined parts => exact composed_map f

/-- **The normal form does not depend on what stands in the place of the fixed texts**, as long as
it tells the texts. -/
lemma normalForm_map {script : List (List (Word α))} :
    NormalForm text? (map f script) ↔ NormalForm (text? ∘ f) script := by
  have hcommands : [] ∉ map f script ↔ [] ∉ script := not_congr (nil_mem_map f)
  have hwords : (∀ w ∈ nested (map f script), w.Proper text?) ↔
      ∀ w ∈ nested script, w.Proper (text? ∘ f) := by
    simp only [nested_map, List.forall_mem_map, proper_mapWord]
  exact ⟨fun h => ⟨hcommands.1 h.commands, hwords.1 h.words⟩,
    fun h => ⟨hcommands.2 h.commands, hwords.2 h.words⟩⟩

end Map

end Script

end CommandScript

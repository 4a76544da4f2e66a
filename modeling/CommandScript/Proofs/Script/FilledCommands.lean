import CommandScript.Proofs.Script.Built

/-!
# Commands have words

A command without words is none: the reader drops it. So every command of a script that was read has
a word, which names the command when it is run, and so has every command of the scripts in
brackets, however deep.

## Main definitions

* `Script.FilledWord`, `Script.FilledWords`, `Script.Filled` — all commands have words.
* `Script.Pieces.Filled`, `Script.Draft.Filled` — the same of what is under construction.

## Main results

* `Script.BuiltPieces.filled`, `Script.BuiltDraft.filled` — however it is built.
* `Script.filled_of_read` — all commands of a script that was read have words.
-/

set_option autoImplicit false

namespace CommandScript.Script

/-! ## Scripts without empty commands -/

mutual

/-- All commands in the word have words. -/
inductive FilledWord {α : Type} : Word α → Prop
  | literal (text : α) : FilledWord (.literal text)
  | var (name : String) : FilledWord (.var name)
  | substitution {script : List (List (Word α))} (h : Filled script) :
    FilledWord (.substitution script)
  | joined {parts : List (Word α)} (h : FilledWords parts) : FilledWord (.joined parts)

/-- All commands in the words have words. -/
inductive FilledWords {α : Type} : List (Word α) → Prop
  | nil : FilledWords []
  | cons {w : Word α} {ws : List (Word α)} (h : FilledWord w) (hs : FilledWords ws) :
    FilledWords (w :: ws)

/-- All commands of the script have words, and so do those in their words. -/
inductive Filled {α : Type} : List (List (Word α)) → Prop
  | nil : Filled []
  | cons {w : Word α} {ws : List (Word α)} {cs : List (List (Word α))}
    (h : FilledWords (w :: ws)) (hs : Filled cs) : Filled ((w :: ws) :: cs)

end

variable {α : Type}

/-- What is said of words is said of the first and of the others. -/
lemma FilledWords.of_cons {w : Word α} {ws : List (Word α)} (h : FilledWords (w :: ws)) :
    FilledWord w ∧ FilledWords ws := by
  cases h with
  | cons h hs => exact ⟨h, hs⟩

/-- What is said of a script is said of the first command and of the others. -/
lemma Filled.of_cons {c : List (Word α)} {cs : List (List (Word α))} (h : Filled (c :: cs)) :
    c ≠ [] ∧ FilledWords c ∧ Filled cs := by
  cases h with
  | cons h hs => exact ⟨List.cons_ne_nil _ _, h, hs⟩

/-- What is said of a bracket is said of the script in it. -/
lemma FilledWord.of_substitution {script : List (List (Word α))}
    (h : FilledWord (.substitution script)) : Filled script := by
  cases h with
  | substitution h => exact h

/-- What is said of a word is said of its parts. -/
lemma FilledWord.of_joined {parts : List (Word α)} (h : FilledWord (.joined parts)) :
    FilledWords parts := by
  cases h with
  | joined h => exact h

/-- Words are filled if each of them is. -/
lemma filledWords_iff {ws : List (Word α)} : FilledWords ws ↔ ∀ w ∈ ws, FilledWord w := by
  induction ws with
  | nil => simp [FilledWords.nil]
  | cons w ws ih =>
    rw [List.forall_mem_cons, ← ih]
    constructor
    · rintro (_ | ⟨h, hs⟩)
      exact ⟨h, hs⟩
    · rintro ⟨h, hs⟩
      exact .cons h hs

/-- A script is filled if each of its commands has a word, and its words are filled. -/
lemma filled_iff {cs : List (List (Word α))} :
    Filled cs ↔ ∀ c ∈ cs, c ≠ [] ∧ FilledWords c := by
  induction cs with
  | nil => simp [Filled.nil]
  | cons c cs ih =>
    rw [List.forall_mem_cons, ← ih]
    constructor
    · rintro (_ | ⟨h, hs⟩)
      exact ⟨⟨List.cons_ne_nil _ _, h⟩, hs⟩
    · rintro ⟨⟨hne, h⟩, hs⟩
      obtain ⟨w, ws, rfl⟩ := List.exists_cons_of_ne_nil hne
      exact .cons h hs

/-! ## Words and scripts under construction -/

/-- All commands in the word under construction have words. -/
def Pieces.Filled (p : Pieces) : Prop :=
  FilledWords p.parts

namespace Pieces.Filled

variable {p : Pieces}

/-- No pieces are filled. -/
lemma empty : Pieces.Filled {} :=
  .nil

/-- A further character leaves filled pieces filled. -/
lemma char (hp : p.Filled) (c : Char) : (p.char c).Filled :=
  hp

/-- So are the words that filled pieces come to. -/
lemma flush (hp : p.Filled) : FilledWords p.flush := by
  unfold Pieces.flush
  split
  · exact hp
  · exact .cons (.literal _) hp

/-- A filled word may be added. -/
lemma word (hp : p.Filled) {w : Word String} (hw : FilledWord w) : (p.word w).Filled :=
  .cons hw hp.flush

/-- Filled pieces come to a filled word. -/
lemma finish (hp : p.Filled) : FilledWord p.finish := by
  have hflush := filledWords_iff.1 hp.flush
  unfold Pieces.finish
  split
  · exact .literal _
  · split
    next w hw =>
      rw [hw] at hflush
      exact hflush w List.mem_cons_self
    next =>
      refine .joined (filledWords_iff.2 fun w hw => ?_)
      exact hflush w (List.mem_reverse.1 hw)

end Pieces.Filled

/-- All commands of the script under construction have words, but for the one that is being read. -/
structure Draft.Filled (d : Draft) : Prop where
  /-- The finished commands have words. -/
  commands : Script.Filled d.commands
  /-- All commands in the words of the command that is being read have words. -/
  words : FilledWords d.words

namespace Draft.Filled

variable {d : Draft}

/-- A draft without commands is filled. -/
lemma empty : Draft.Filled {} :=
  ⟨.nil, .nil⟩

/-- A filled word may be added to it. -/
lemma word (hd : d.Filled) {w : Word String} (hw : FilledWord w) : (d.word w).Filled :=
  ⟨hd.commands, .cons hw hd.words⟩

/-- The command that ends has a word, or there is none. -/
lemma endCommand (hd : d.Filled) : d.endCommand.Filled := by
  unfold Draft.endCommand
  split
  · exact hd
  next hne =>
    refine ⟨filled_iff.2 (List.forall_mem_cons.2 ⟨⟨?_, ?_⟩, filled_iff.1 hd.commands⟩), .nil⟩
    · simpa using hne
    · refine filledWords_iff.2 fun w hw => ?_
      exact filledWords_iff.1 hd.words w (List.mem_reverse.1 hw)

/-- A filled draft comes to a filled script. -/
lemma finish (hd : d.Filled) : Script.Filled d.finish := by
  refine filled_iff.2 fun c hc => ?_
  exact filled_iff.1 hd.endCommand.commands c (List.mem_reverse.1 hc)

end Draft.Filled

/-! ## Scripts that are read -/

mutual

/-- Whatever pieces are built are filled. -/
lemma BuiltPieces.filled : ∀ {p : Pieces}, BuiltPieces p → p.Filled
  | _, .empty => .empty
  | _, .char hp c => hp.filled.char c
  | _, .var hp name => hp.filled.word (.var name)
  | _, .substitution hp hd => hp.filled.word (.substitution hd.filled.finish)

/-- Whatever draft is built is filled. -/
lemma BuiltDraft.filled : ∀ {d : Draft}, BuiltDraft d → d.Filled
  | _, .empty => .empty
  | _, .text hd text => hd.filled.word (.literal text)
  | _, .word hd hp => hd.filled.word hp.filled.finish
  | _, .endCommand hd => hd.filled.endCommand

end

/-- **All commands of a script that was read have words.** -/
lemma filled_of_read {text : String} {script : Script String} (h : read text = .done script) :
    Filled script := by
  obtain ⟨d, hd, rfl⟩ := exists_built_of_read h
  exact hd.filled.finish

end CommandScript.Script

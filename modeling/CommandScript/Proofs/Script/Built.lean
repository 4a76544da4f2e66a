import Mathlib.Tactic.Lemma
import Mathlib.Tactic.SplitIfs
import CommandScript.Script.Reader

/-!
# How scripts are built

The reader does few things to the words and scripts that it is building. A character is added to a
word, or a variable, or the script of a bracket that is closed. A word is added to a command, either
finished or taken as it stands between braces, and a command is ended. Whatever else the reader goes
through decides *which* of these comes next, but not what comes of it.

So what can be said of all scripts that are read, of whatever text, need not follow the reader. It
is enough to go through the ways of building, and the reader is followed here once and for all.

## Main definitions

* `Script.BuiltPieces`, `Script.BuiltDraft` — words and scripts that are built in these ways.
* `Script.Reader.Built` — all that the reader has in hand is built so.

## Main results

* `Script.Reader.Built.step`, `Script.Reader.Built.run` — reading on keeps to these ways.
* `Script.exists_built_of_read` — a script that was read is built so.
-/

set_option autoImplicit false

namespace CommandScript.Script

/-! ## The ways of building -/

mutual

/-- A word under construction, as it comes about. -/
inductive BuiltPieces : Pieces → Prop
  /-- The word is begun. -/
  | empty : BuiltPieces {}
  /-- A character of fixed text is added. -/
  | char {p : Pieces} (hp : BuiltPieces p) (c : Char) : BuiltPieces (p.char c)
  /-- A variable is added. -/
  | var {p : Pieces} (hp : BuiltPieces p) (name : String) : BuiltPieces (p.word (.var name))
  /-- The script of a bracket is added. -/
  | substitution {p : Pieces} {d : Draft} (hp : BuiltPieces p) (hd : BuiltDraft d) :
    BuiltPieces (p.word (.substitution d.finish))

/-- A script under construction, as it comes about. -/
inductive BuiltDraft : Draft → Prop
  /-- The script is begun. -/
  | empty : BuiltDraft {}
  /-- A fixed text is added to the command that is being read. -/
  | text {d : Draft} (hd : BuiltDraft d) (text : String) : BuiltDraft (d.word (.literal text))
  /-- A word is finished, and added to the command. -/
  | word {d : Draft} {p : Pieces} (hd : BuiltDraft d) (hp : BuiltPieces p) :
    BuiltDraft (d.word p.finish)
  /-- The command is ended. -/
  | endCommand {d : Draft} (hd : BuiltDraft d) : BuiltDraft d.endCommand

end

/-- The word that is being read is built so. -/
def Mode.Built : Mode → Prop
  | .plain _ pieces _ => BuiltPieces pieces
  | _ => True

/-- What waits for a bracket is built so. -/
structure Suspended.Built (s : Suspended) : Prop where
  /-- The script that the word belongs to. -/
  draft : BuiltDraft s.draft
  /-- The word up to the bracket. -/
  pieces : BuiltPieces s.pieces

/-- All that the reader has in hand is built so. -/
def Reader.Built : Reader → Prop
  | .reading draft mode outer => BuiltDraft draft ∧ mode.Built ∧ ∀ s ∈ outer, s.Built
  | .failed _ => True
  | .stuck => True

/-! ## The scan -/

namespace Reader

variable {draft : Draft} {pieces : Pieces} {outer : List Suspended}

/-- The reader starts with nothing, and that is built. -/
lemma built_start : start.Built :=
  ⟨.empty, trivial, by simp⟩

/-- The end of a bracket hands over what is built. -/
lemma built_close (hd : BuiltDraft draft) (ho : ∀ s ∈ outer, s.Built) :
    (close draft outer).Built := by
  cases outer with
  | nil => exact ⟨hd, trivial, ho⟩
  | cons s outer =>
    obtain ⟨hs, ho⟩ := List.forall_mem_cons.1 ho
    exact ⟨hs.draft, hs.pieces.substitution hd, ho⟩

/-- A piece of a word keeps what is built. -/
lemma built_pieceStep (hd : BuiltDraft draft) (quoted : Bool) (hp : BuiltPieces pieces)
    (ho : ∀ s ∈ outer, s.Built) (c : Char) : (pieceStep draft quoted pieces outer c).Built := by
  unfold pieceStep
  split_ifs
  · exact ⟨.empty, trivial, List.forall_mem_cons.2 ⟨⟨hd, hp⟩, ho⟩⟩
  · exact ⟨hd, hp, ho⟩
  · exact ⟨hd, hp, ho⟩
  · exact ⟨hd, hp.char c, ho⟩

/-- So does a character between words. -/
lemma built_gapStep (hd : BuiltDraft draft) (ho : ∀ s ∈ outer, s.Built) (c : Char) :
    (gapStep draft outer c).Built := by
  unfold gapStep
  split_ifs
  · exact ⟨hd, trivial, ho⟩
  · exact ⟨hd.endCommand, trivial, ho⟩
  · exact built_close hd ho
  · exact ⟨hd, trivial, ho⟩
  · exact ⟨hd, trivial, ho⟩
  · exact ⟨hd, .empty, ho⟩
  · trivial
  · exact built_pieceStep hd false .empty ho c

/-- So does a character of a word that nothing is pending before. -/
lemma built_plainStep (hd : BuiltDraft draft) (quoted : Bool) (hp : BuiltPieces pieces)
    (ho : ∀ s ∈ outer, s.Built) (c : Char) : (plainStep draft quoted pieces outer c).Built := by
  unfold plainStep
  split_ifs
  · exact ⟨hd.word hp, trivial, ho⟩
  · exact built_pieceStep hd true hp ho c
  · exact built_gapStep (hd.word hp) ho c
  · exact built_pieceStep hd false hp ho c

/-- So does a character after a backslash. -/
lemma built_escapeStep (hd : BuiltDraft draft) (quoted : Bool) (hp : BuiltPieces pieces)
    (e : Text.Escape) (ho : ∀ s ∈ outer, s.Built) (c : Char) :
    (escapeStep draft quoted pieces e outer c).Built := by
  unfold escapeStep
  split
  · exact ⟨hd, hp, ho⟩
  · exact ⟨hd, hp.char _, ho⟩
  · exact built_plainStep hd quoted (hp.char _) ho c

/-- So does a character of a word, whatever is pending. -/
lemma built_wordStep (hd : BuiltDraft draft) (quoted : Bool) (hp : BuiltPieces pieces)
    (pending : Pending) (ho : ∀ s ∈ outer, s.Built) (c : Char) :
    (wordStep draft quoted pieces pending outer c).Built := by
  unfold wordStep
  cases pending with
  | none => exact built_plainStep hd quoted hp ho c
  | escape e => exact built_escapeStep hd quoted hp e ho c
  | dollar =>
    dsimp only
    split_ifs
    · exact ⟨hd, hp, ho⟩
    · exact ⟨hd, hp, ho⟩
    · exact built_plainStep hd quoted (hp.char _) ho c
  | name taken =>
    dsimp only
    split_ifs
    · exact ⟨hd, hp, ho⟩
    · exact built_plainStep hd quoted (hp.var _) ho c
  | nameInBraces taken =>
    dsimp only
    split_ifs
    · exact ⟨hd, hp.var _, ho⟩
    · exact ⟨hd, hp, ho⟩

/-- **With any character, the reader keeps to the ways of building.** -/
lemma Built.step {r : Reader} (hr : r.Built) (c : Char) : (r.step c).Built := by
  cases r with
  | failed e => trivial
  | stuck => trivial
  | reading draft mode outer =>
    obtain ⟨hd, hm, ho⟩ := hr
    unfold Reader.step
    cases mode with
    | between =>
      dsimp only
      unfold betweenStep
      split_ifs
      · exact ⟨hd, trivial, ho⟩
      · exact ⟨hd, trivial, ho⟩
      · exact built_gapStep hd ho c
    | comment escaped =>
      cases escaped with
      | true => exact ⟨hd, trivial, ho⟩
      | false =>
        dsimp only
        split_ifs
        all_goals exact ⟨hd, trivial, ho⟩
    | gap => exact built_gapStep hd ho c
    | gapEscape =>
      dsimp only
      split_ifs
      · exact ⟨hd, trivial, ho⟩
      · exact built_escapeStep hd false .empty .start ho c
    | braced inner =>
      dsimp only
      split
      · exact ⟨hd, trivial, ho⟩
      · exact ⟨hd.text _, trivial, ho⟩
    | plain quoted pieces pending => exact built_wordStep hd quoted hm pending ho c
    | closed after =>
      dsimp only
      split_ifs
      · exact built_gapStep hd ho c
      · trivial

/-- Whatever is read, what is there is built. -/
lemma Built.run {r : Reader} (hr : r.Built) (cs : List Char) : (r.run cs).Built := by
  induction cs generalizing r with
  | nil => exact hr
  | cons c cs ih => exact ih (hr.step c)

end Reader

/-! ## The end of the text -/

/-- So it is when the text ends and something is pending. -/
lemma built_of_pendingFinish {pieces pieces' : Pieces} (hp : BuiltPieces pieces)
    {pending : Pending} (h : pending.finish pieces = .ok pieces') : BuiltPieces pieces' := by
  cases pending with
  | none =>
    cases h
    exact hp
  | escape e =>
    cases h
    exact hp.char _
  | dollar =>
    cases h
    exact hp.char _
  | name taken =>
    cases h
    exact hp.var _
  | nameInBraces taken => cases h

/-- So it is when the text ends within a word. -/
lemma built_of_modeFinish {draft draft' : Draft} {mode : Mode} (hd : BuiltDraft draft)
    (hm : mode.Built) (h : mode.finish draft = .ok draft') : BuiltDraft draft' := by
  cases mode with
  | gapEscape =>
    cases h
    exact hd.text _
  | braced inner => cases h
  | plain quoted pieces pending =>
    unfold Mode.finish at h
    dsimp only at h
    split at h
    · cases h
    next pieces' hpieces =>
      split at h
      · cases h
      · cases h
        exact hd.word (built_of_pendingFinish hm hpieces)
  | _ =>
    cases h
    exact hd

/-- **A script that was read was built in these ways**, whatever the text. -/
lemma exists_built_of_read {text : String} {script : Script String} (h : read text = .done script) :
    ∃ d, BuiltDraft d ∧ d.finish = script := by
  have hr := Reader.built_start.run text.toList
  unfold read at h
  generalize Reader.start.run text.toList = r at hr h
  cases r with
  | failed e => cases h
  | stuck => cases h
  | reading draft mode outer =>
    obtain ⟨hd, hm, -⟩ := hr
    unfold Reader.finish at h
    dsimp only at h
    split at h
    · cases h
    next draft' hdraft =>
      split at h
      · cases h
        exact ⟨draft', built_of_modeFinish hd hm hdraft, rfl⟩
      · cases h

end CommandScript.Script

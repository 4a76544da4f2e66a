import Mathlib.Data.String.Basic
import Mathlib.Tactic.Lemma
import CommandScript.ListText.Reader
import CommandScript.Script.Reader

/-!
# Tokens are cut out of the text

Some of what a reader reads it takes over as it stands: text in braces, the name of a variable, the
digits of an escape. Such a token is a piece of the text, from a mark up to where the reader stands.
Texts are stored as bytes, and a character may take several of them; so the two places have to lie
between characters for the token to be cut out of the bytes. They do: a reader moves by characters,
and a token that is open is always the end of what has been read.

## Main definitions

* `Text.Cut` — the token is what stands between two places of a text.
* `Text.Escape.Digits`, `ListText.Mode.Tokens`, `Script.Mode.Tokens` — what holds of the token that
  a reader is in the middle of, if there is one.

## Main results

* `Text.exists_cut` — the end of what has been read can be cut out of the text.
* `ListText.Reader.Tokens.run`, `Script.Reader.Tokens.run` — a token that is open is the end of what
  has been read.
* `ListText.tokensCut`, `Script.tokensCut` — the tokens of both readers are cut out of the text.
-/

set_option autoImplicit false

namespace CommandScript

namespace Text

/-! ## Places in a text -/

/-- The token is what the text has between the places. Both lie between two of its characters, and
the text from the mark to its end may be cut out as well. -/
structure Cut (text : String) (mark here : String.Pos.Raw) (token : List Char) : Prop where
  /-- No character is cut by the mark. -/
  mark_valid : mark.IsValid text
  /-- No character is cut by the other place. -/
  here_valid : here.IsValid text
  /-- The mark is not behind the other place. -/
  le : mark ≤ here
  /-- What is between them. -/
  token_eq : String.Pos.Raw.extract text mark here = String.ofList token
  /-- What is behind the mark begins with it. -/
  tail_eq : ∃ rest, String.Pos.Raw.extract text mark text.rawEndPos = String.ofList (token ++ rest)

/-- **What a reader has read last can be cut out of the text**, up to where the reader stands. -/
lemma exists_cut {text : String} {cs rest token : List Char} (htext : text.toList = cs ++ rest)
    (htoken : token <:+ cs) : ∃ mark, Cut text mark (String.ofList cs).rawEndPos token := by
  obtain ⟨before, rfl⟩ := htoken
  obtain rfl : text = String.ofList (before ++ token ++ rest) := by
    rw [← htext, String.ofList_toList]
  refine ⟨(String.ofList before).rawEndPos, ?_, ?_, ?_, ?_, rest, ?_⟩
  · rw [String.Pos.Raw.isValid_iff_exists_append]
    refine ⟨String.ofList before, String.ofList (token ++ rest), ?_, rfl⟩
    rw [← String.ofList_append, List.append_assoc]
  · rw [String.Pos.Raw.isValid_iff_exists_append]
    refine ⟨String.ofList (before ++ token), String.ofList rest, ?_, rfl⟩
    rw [← String.ofList_append]
  · rw [String.rawEndPos_ofList, String.rawEndPos_ofList, String.utf8Len_append]
    exact Nat.le_add_right _ _
  · rw [String.rawEndPos_ofList, String.rawEndPos_ofList, String.utf8Len_append]
    exact String.extract_of_valid before token rest
  · rw [String.rawEndPos_ofList, String.rawEndPos_ofList, List.append_assoc, String.utf8Len_append]
    have hall := String.extract_of_valid before (token ++ rest) []
    rw [List.append_nil] at hall
    exact hall

/-! ## Escapes and braces -/

/-- The number that hexadecimal digits stand for, if there is a digit. -/
def codeOf (digits : List Char) : Option Nat :=
  digits.foldl (fun value c => some (value.getD 0 * 16 + (hexValue? c).getD 0)) none

namespace Escape

/-- How many digits the letter may be followed by. -/
def width (letter : Char) : Nat :=
  if letter = 'u' then 4 else 2

/-- If digits are being read, this holds of them; they are no more than there may be, and the code
so far is what they stand for. -/
def Digits (P : List Char → Prop) : Escape → Prop
  | .code letter room value => ∃ digits, P digits ∧ (∀ c ∈ digits, (hexValue? c).isSome) ∧
      digits.length + room = width letter ∧ value = codeOf digits
  | _ => True

/-- What is said of the digits of an escape may be weakened. -/
lemma Digits.imp {P Q : List Char → Prop} (hPQ : ∀ token, P token → Q token) {e : Escape}
    (h : e.Digits P) : e.Digits Q := by
  cases e with
  | start => trivial
  | continuation => trivial
  | code letter room value =>
    obtain ⟨digits, hdigits, hrest⟩ := h
    exact ⟨digits, hPQ digits hdigits, hrest⟩

/-- One more digit is one more character at the end of what has been read. -/
lemma Digits.step {cs : List Char} {e e' : Escape} {c : Char} (h : e.Digits (· <:+ cs))
    (hstep : e.step c = .more e') : e'.Digits (· <:+ cs ++ [c]) := by
  cases e with
  | start =>
    unfold Escape.step afterBackslash at hstep
    dsimp only at hstep
    -- only a newline and the two letters open something longer
    split at hstep <;> cases hstep
    · trivial
    · exact ⟨[], List.nil_suffix, by simp, rfl, rfl⟩
    · exact ⟨[], List.nil_suffix, by simp, rfl, rfl⟩
  | continuation =>
    unfold Escape.step at hstep
    dsimp only at hstep
    split at hstep <;> cases hstep
    trivial
  | code letter room value =>
    obtain ⟨digits, hsuffix, hhex, hlength, rfl⟩ := h
    unfold Escape.step at hstep
    dsimp only at hstep
    split at hstep <;> cases hstep
    next room d hd =>
      refine ⟨digits ++ [c], ?_, fun c' hc' => ?_, ?_, ?_⟩
      · obtain ⟨before, rfl⟩ := hsuffix
        exact ⟨before, by simp⟩
      · obtain hc' | hc' := List.mem_append.1 hc'
        · exact hhex c' hc'
        · rw [List.mem_singleton.1 hc', hd]
          rfl
      · rw [List.length_append, List.length_singleton]
        omega
      · rw [codeOf, codeOf, List.foldl_append, List.foldl_cons, List.foldl_nil, hd]
        rfl

end Escape

/-- One more character of a text in braces is one more character at the end of what has been
read. -/
lemma Braced.suffix_step {cs : List Char} {b b' : Braced} {c : Char}
    (h : b.taken.reverse <:+ cs) (hstep : b.step c = .ok b') :
    b'.taken.reverse <:+ cs ++ [c] := by
  have htaken : b'.taken = c :: b.taken := by
    unfold Braced.step at hstep
    repeat' split at hstep
    all_goals cases hstep
    all_goals rfl
  obtain ⟨before, rfl⟩ := h
  exact ⟨before, by rw [htaken, List.reverse_cons, List.append_assoc]⟩

end Text

open Text

/-! ## Lists -/

namespace ListText

/-- What holds of the token that is open, if there is one. -/
def Mode.Tokens (P : List Char → Prop) : Mode → Prop
  | .braced inner => P inner.taken.reverse
  | .plain _ _ (some e) => e.Digits P
  | _ => True

namespace Reader

/-- What holds of the token that is open, if there is one. -/
def Tokens (P : List Char → Prop) : Reader → Prop
  | .reading _ mode => mode.Tokens P
  | .failed _ => True

variable {P : List Char → Prop} {items : List String} {c : Char}

/-- After an ordinary character no token is open. -/
lemma tokens_plainStep (quoted : Bool) (taken : List Char) :
    (plainStep items quoted taken c).Tokens P := by
  unfold plainStep
  repeat' split
  all_goals trivial

/-- After a character between items no more is open than an empty token. -/
lemma tokens_gapStep (hP : P []) : (gapStep items c).Tokens P := by
  unfold gapStep
  split
  · trivial
  · split
    · exact hP
    · split
      · trivial
      · exact tokens_plainStep _ _

/-- **One more character is added to the token that is open**, or there is none then, or a new one,
which is still empty. -/
lemma Tokens.step {cs : List Char} {r : Reader} (h : r.Tokens (· <:+ cs)) (c : Char) :
    (r.step c).Tokens (· <:+ cs ++ [c]) := by
  cases r with
  | failed e => trivial
  | reading items mode =>
    cases mode with
    | gap => exact tokens_gapStep List.nil_suffix
    | braced inner =>
      unfold Reader.step
      dsimp only
      split
      next inner' hstep => exact Braced.suffix_step h hstep
      next => trivial
    | plain quoted taken escape =>
      cases escape with
      | none => exact tokens_plainStep _ _
      | some e =>
        unfold Reader.step
        dsimp only
        split
        next e' hstep => exact Escape.Digits.step h hstep
        next => trivial
        next => exact tokens_plainStep _ _
    | closed after =>
      unfold Reader.step
      dsimp only
      split
      · trivial
      · trivial

/-- A token that is open is the end of what has been read. -/
lemma Tokens.run {cs : List Char} {r : Reader} (h : r.Tokens (· <:+ cs)) (ds : List Char) :
    (r.run ds).Tokens (· <:+ cs ++ ds) := by
  induction ds generalizing cs r with
  | nil =>
    rw [List.append_nil]
    exact h
  | cons c ds ih =>
    have hrest := ih (h.step c)
    rw [List.append_assoc] at hrest
    exact hrest

end Reader

/-- Wherever the reader of a list text stands, the token that is open is cut out of the text. -/
def TokensCut (text : String) : Prop :=
  ∀ cs rest items mode, text.toList = cs ++ rest → Reader.start.run cs = .reading items mode →
    mode.Tokens fun token => ∃ mark, Cut text mark (String.ofList cs).rawEndPos token

/-- **The tokens of a list are cut out of its text.** -/
lemma tokensCut (text : String) : TokensCut text := by
  intro cs rest items mode htext hread
  have hstart : Reader.start.Tokens (· <:+ []) := trivial
  have htokens := hstart.run cs
  rw [hread, List.nil_append] at htokens
  cases mode with
  | gap => trivial
  | closed after => trivial
  | braced inner => exact exists_cut htext htokens
  | plain quoted taken escape =>
    cases escape with
    | none => trivial
    | some e => exact Escape.Digits.imp (fun _ => exists_cut htext) htokens

end ListText

/-! ## Scripts -/

namespace Script

/-- What holds of the token that is open, if there is one. -/
def Mode.Tokens (P : List Char → Prop) : Mode → Prop
  | .braced inner => P inner.taken.reverse
  | .plain _ _ (.name taken) => P taken.reverse
  | .plain _ _ (.nameInBraces taken) => P taken.reverse
  | .plain _ _ (.escape e) => e.Digits P
  | _ => True

namespace Reader

/-- What holds of the token that is open, if there is one. -/
def Tokens (P : List Char → Prop) : Reader → Prop
  | .reading _ mode _ => mode.Tokens P
  | _ => True

variable {P : List Char → Prop} {draft : Draft} {outer : List Suspended} {quoted : Bool} {c : Char}

/-- After a character that belongs to a word no token is open yet. -/
lemma tokens_pieceStep (pieces : Pieces) : (pieceStep draft quoted pieces outer c).Tokens P := by
  unfold pieceStep
  repeat' split
  all_goals trivial

/-- Nor is one after the end of a bracket. -/
lemma tokens_close : (close draft outer).Tokens P := by
  cases outer with
  | nil => trivial
  | cons s outer => trivial

/-- After a character between words no more is open than an empty token. -/
lemma tokens_gapStep (hP : P []) : (gapStep draft outer c).Tokens P := by
  unfold gapStep
  split
  · trivial
  split
  · trivial
  split
  · exact tokens_close
  split
  · trivial
  split
  · exact hP
  split
  · trivial
  split
  · trivial
  · exact tokens_pieceStep _

/-- So it is after a character of a word that nothing is pending before. -/
lemma tokens_plainStep {pieces : Pieces} (hP : P []) :
    (plainStep draft quoted pieces outer c).Tokens P := by
  unfold plainStep
  split
  · split
    · trivial
    · exact tokens_pieceStep _
  · split
    · exact tokens_gapStep hP
    · exact tokens_pieceStep _

/-- The digits after a backslash are the end of what has been read. -/
lemma tokens_escapeStep {cs : List Char} {e : Escape} (h : e.Digits (· <:+ cs))
    (pieces : Pieces) : (escapeStep draft quoted pieces e outer c).Tokens (· <:+ cs ++ [c]) := by
  unfold escapeStep
  split
  next e' hstep => exact Escape.Digits.step h hstep
  next => trivial
  next => exact tokens_plainStep List.nil_suffix

/-- The end of what has been read, with the next character, is the end of what has been read
then. -/
lemma suffix_cons_reverse {cs taken : List Char} (h : taken.reverse <:+ cs) :
    (c :: taken).reverse <:+ cs ++ [c] := by
  obtain ⟨before, rfl⟩ := h
  exact ⟨before, by rw [List.reverse_cons, List.append_assoc]⟩

/-- Whatever token is open within a word, it is the end of what has been read. -/
lemma tokens_wordStep {cs : List Char} {pieces : Pieces} {pending : Pending}
    (h : (Mode.plain quoted pieces pending).Tokens (· <:+ cs)) :
    (wordStep draft quoted pieces pending outer c).Tokens (· <:+ cs ++ [c]) := by
  cases pending with
  | none => exact tokens_plainStep List.nil_suffix
  | escape e => exact tokens_escapeStep h _
  | dollar =>
    unfold wordStep
    dsimp only
    split
    · exact List.nil_suffix
    · split
      · exact List.suffix_append cs [c]
      · exact tokens_plainStep List.nil_suffix
  | name taken =>
    unfold wordStep
    dsimp only
    split
    · exact suffix_cons_reverse h
    · exact tokens_plainStep List.nil_suffix
  | nameInBraces taken =>
    unfold wordStep
    dsimp only
    split
    · trivial
    · exact suffix_cons_reverse h

/-- **One more character is added to the token that is open**, or there is none then, or a new
one. -/
lemma Tokens.step {cs : List Char} {r : Reader} (h : r.Tokens (· <:+ cs)) (c : Char) :
    (r.step c).Tokens (· <:+ cs ++ [c]) := by
  cases r with
  | failed e => trivial
  | stuck => trivial
  | reading draft mode outer =>
    cases mode with
    | between =>
      change (betweenStep draft outer c).Tokens _
      unfold betweenStep
      repeat' split
      · trivial
      · trivial
      · exact tokens_gapStep List.nil_suffix
    | comment escaped =>
      cases escaped with
      | true => trivial
      | false =>
        unfold Reader.step
        dsimp only
        repeat' split
        all_goals trivial
    | gap => exact tokens_gapStep List.nil_suffix
    | gapEscape =>
      unfold Reader.step
      dsimp only
      split
      · trivial
      · exact tokens_escapeStep (e := .start) trivial _
    | braced inner =>
      unfold Reader.step
      dsimp only
      split
      next inner' hstep => exact Braced.suffix_step h hstep
      next => trivial
    | plain quoted pieces pending => exact tokens_wordStep h
    | closed after =>
      unfold Reader.step
      dsimp only
      split
      · exact tokens_gapStep List.nil_suffix
      · trivial

/-- A token that is open is the end of what has been read. -/
lemma Tokens.run {cs : List Char} {r : Reader} (h : r.Tokens (· <:+ cs)) (ds : List Char) :
    (r.run ds).Tokens (· <:+ cs ++ ds) := by
  induction ds generalizing cs r with
  | nil =>
    rw [List.append_nil]
    exact h
  | cons c ds ih =>
    have hrest := ih (h.step c)
    rw [List.append_assoc] at hrest
    exact hrest

end Reader

/-- Wherever the reader of a script text stands, the token that is open is cut out of the text. -/
def TokensCut (text : String) : Prop :=
  ∀ cs rest draft mode outer, text.toList = cs ++ rest →
    Reader.start.run cs = .reading draft mode outer →
    mode.Tokens fun token => ∃ mark, Cut text mark (String.ofList cs).rawEndPos token

/-- **The tokens of a script are cut out of its text.** -/
lemma tokensCut (text : String) : TokensCut text := by
  intro cs rest draft mode outer htext hread
  have hstart : Reader.start.Tokens (· <:+ []) := trivial
  have htokens := hstart.run cs
  rw [hread, List.nil_append] at htokens
  cases mode with
  | braced inner => exact exists_cut htext htokens
  | plain quoted pieces pending =>
    cases pending with
    | name taken => exact exists_cut htext htokens
    | nameInBraces taken => exact exists_cut htext htokens
    | escape e => exact Escape.Digits.imp (fun _ => exists_cut htext) htokens
    | none => trivial
    | dollar => trivial
  | _ => trivial

end Script

end CommandScript

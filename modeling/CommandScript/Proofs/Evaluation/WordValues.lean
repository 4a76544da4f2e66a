import CommandScript.Proofs.Evaluation.Signals
import CommandScript.Proofs.Script.NormalForm
import CommandScript.Proofs.Value.Wording

/-!
# The values of words

When a script has been read, a value is made for each of its fixed texts. The value belongs to the
script, and its text is known. So nothing is lost of the normal form: it can be told from the values
as it could from the texts.

What the normal form is good for shows when words are evaluated. A word that is a single
substitution evaluates to the very value that the variable holds, or that the script in the brackets
comes to, with whatever form and object it has. Only a word that has to be put together evaluates to
a new value, of which nothing is known but its text.

## Main definitions

* `Store.literalText?` — the text of a value that belongs to a script.
* `Interp.PutTogether` — what several values are put together to.
* `Interp.Valued` — a word evaluates as what it consists of says.

## Main results

* `Script.map_load` — the script that was read, with a value for each text.
* `Script.normalForm_load` — it is in normal form.
* `Interp.evalWord_joined` — what is put together is a new value.
* `Interp.valued_of_proper` — a word in normal form evaluates as what it consists of says.
* `Interp.parsed_normalForm` — every script that was read is in normal form, with literal values for
  its texts, and its words evaluate accordingly.
-/

set_option autoImplicit false

namespace CommandScript

/-! ## Scripts with values in them -/

namespace Store

variable {s t : Store} {r : Ref} {text : String}

/-- The text of a value that belongs to a script, if it is known. -/
def literalText? (s : Store) (r : Ref) : Option String :=
  if s.isLiteral r = true then (s.cell r).text else none

/-- A reference stands for a literal text if it is marked as a literal and has that text. -/
lemma literalText?_eq_some_iff :
    s.literalText? r = some text ↔ s.isLiteral r = true ∧ (s.cell r).text = some text := by
  unfold literalText?
  split_ifs with h
  · simp [h]
  · simp [h]

/-- No value outside the store belongs to a script. -/
lemma lt_of_literalText? (h : s.literalText? r = some text) : r.index < s.cells.size := by
  by_contra hge
  obtain ⟨hliteral, -⟩ := literalText?_eq_some_iff.1 h
  rw [isLiteral, cell_of_size_le (Nat.le_of_not_lt hge)] at hliteral
  cases hliteral

/-- Literals keep their texts when cells are appended. -/
lemma Appended.literalText? (h : Appended s t) (hr : s.literalText? r = some text) :
    t.literalText? r = some text := by
  have hcell : t.cell r = s.cell r := h.old r (lt_of_literalText? hr)
  unfold Store.literalText? isLiteral at hr ⊢
  rwa [hcell]

/-- A new literal stands for its text. -/
lemma literalText?_ofLiteral (text : String) (s : Store) :
    (ofLiteral text s).2.literalText? (ofLiteral text s).1 = some text := by
  refine literalText?_eq_some_iff.2 ?_
  have hcell : (ofLiteral text s).2.cell (ofLiteral text s).1 =
      { text := some text, literal := true } := cell_alloc_self _ s
  exact ⟨congrArg Cell.literal hcell, congrArg Cell.text hcell⟩

end Store

namespace Script

open Store

mutual

/-- A word that has been loaded is, up to its literals, the word that was read. -/
lemma mapWord_loadWord : ∀ (w : Word String) {s t : Store}, Appended (loadWord w s).2 t →
    mapWord t.literalText? (loadWord w s).1 = mapWord some w
  | .literal text, s, _, h =>
    congrArg Word.literal (h.literalText? (literalText?_ofLiteral text s))
  | .var _, _, _, _ => rfl
  | .substitution script, _, _, h => congrArg Word.substitution (map_loadAppended script h)
  | .joined parts, _, _, h => congrArg Word.joined (mapWords_loadWords parts h)

/-- So are the words of a command. -/
lemma mapWords_loadWords : ∀ (ws : List (Word String)) {s t : Store},
    Appended (loadWords ws s).2 t → mapWords t.literalText? (loadWords ws s).1 = mapWords some ws
  | [], _, _, _ => rfl
  | w :: rest, s, _, h =>
    have hrest := appends_loadWords rest (loadWord w s).2
    congrArg₂ List.cons (mapWord_loadWord w (hrest.trans h)) (mapWords_loadWords rest h)

/-- The values are there still when more have been made. -/
lemma map_loadAppended : ∀ (script : List (List (Word String))) {s t : Store},
    Appended (load script s).2 t → map t.literalText? (load script s).1 = map some script
  | [], _, _, _ => rfl
  | c :: rest, s, _, h =>
    have hrest := appends_load rest (loadWords c s).2
    congrArg₂ List.cons (mapWords_loadWords c (hrest.trans h)) (map_loadAppended rest h)

end

/-- **A script that is loaded is the script that was read**, with a value in the place of each text
that has this text and belongs to a script. -/
lemma map_load (script : List (List (Word String))) (s : Store) :
    map (load script s).2.literalText? (load script s).1 = map some script :=
  map_loadAppended script (.refl _)

/-- **A script that is loaded is in normal form** if it was before. -/
lemma normalForm_load {script : List (List (Word String))} (h : NormalForm some script)
    (s : Store) : NormalForm (load script s).2.literalText? (load script s).1 := by
  -- Both are the same script if only the texts are looked at.
  have htexts : NormalForm id (map some script) := (normalForm_map some).2 h
  rw [← map_load script s] at htexts
  exact (normalForm_map (load script s).2.literalText?).1 htexts

end Script

/-! ## Evaluating words -/

namespace Interp

open EvalM

section Words

variable {κ : Type} [HostCommands κ] {E : Engine κ} {s t : Interp κ} {r : Ref}

/-- What several values are put together to: a new value of which nothing is known but its text. -/
structure PutTogether (rs : List Ref) (before after : Store) (r : Ref) : Prop where
  /-- The value was not there before. -/
  new : before.cells.size ≤ r.index
  /-- Its text is that of the values, one after the other. -/
  cell : after.cell r = { text := some ((Store.texts rs before).1.foldr (· ++ ·) "") }

/-- **A word of several parts evaluates to a new value**, with the texts of the values of its parts
one after the other. -/
lemma evalWord_joined {parts : List (Word Ref)} (hseveral : 2 ≤ parts.length)
    (h : evalWord E (.joined parts) s = .ok r t) :
    ∃ rs u, evalWords E parts s = .ok rs u ∧ PutTogether rs u.values t.values r := by
  obtain ⟨rs, u, hwords, h⟩ := ok_of_bind h
  refine ⟨rs, u, hwords, ?_⟩
  have hlength : 2 ≤ rs.length := length_of_evalWords hwords ▸ hseveral
  split at h
  next r => simp at hlength
  next =>
    cases h
    exact ⟨(Store.grows_texts rs u.values).cells, Store.cell_alloc_self _ _⟩

/-- **A word evaluates as what it consists of says.** Nothing is made unless there is something to
put together. -/
structure Valued (text? : Ref → Option String) (E : Engine κ) (w : Word Ref) : Prop where
  /-- A word of characters only is a value with this text, and evaluates to this value. -/
  fixed : (∀ i ∈ w.content text?, i.isLeft = true) → ∃ r text, w = .literal r ∧
    text? r = some text ∧ w.content text? = text.toList.map .inl ∧ ∀ s, evalWord E w s = .ok r s
  /-- A word of one variable evaluates to the very value that the variable has. -/
  lookup : ∀ name, w.content text? = [.inr (.var name)] → w = .var name ∧
    ∀ s r, s.context.scopes.get name (-1) = .ok r → evalWord E w s = .ok r s
  /-- A word of one script in brackets evaluates to the very value that the script comes to. -/
  script : ∀ inner, w.content text? = [.inr (.substitution inner)] → w = .substitution inner ∧
    ∀ s, evalWord E w s = runScript E none inner s
  /-- A word of several things, a substitution among them, is put together. -/
  joined : 2 ≤ (w.content text?).length → (∃ i ∈ w.content text?, i.isRight = true) →
    ∃ parts, w = .joined parts ∧ ∀ s r t, evalWord E w s = .ok r t →
      ∃ rs u, evalWords E parts s = .ok rs u ∧ PutTogether rs u.values t.values r

/-- Words that are as they should be evaluate accordingly. -/
lemma valued_of_proper {text? : Ref → Option String} {w : Word Ref} (hw : w.Proper text?) :
    Valued text? E w where
  fixed hfixed := by
    obtain ⟨r, rfl⟩ := hw.exists_literal_of_content hfixed
    obtain ⟨text, htext⟩ := Option.isSome_iff_exists.1 hw
    refine ⟨r, text, rfl, htext, ?_, fun _ => rfl⟩
    simp [Word.content, Word.parts, Word.items, htext]
  lookup name hcontent := by
    obtain rfl := hw.eq_of_content hcontent
    exact ⟨rfl, fun _ _ hget => getVar_apply hget⟩
  script inner hcontent := by
    obtain rfl := hw.eq_of_content hcontent
    exact ⟨rfl, fun _ => rfl⟩
  joined hseveral hsubstituted := by
    obtain ⟨parts, rfl⟩ := Word.exists_joined_of_content hseveral hsubstituted
    exact ⟨parts, rfl, fun _ _ _ h => evalWord_joined hw.several h⟩

/-- **Every script that was read is in normal form.** Let a text be read as a script, and values be
made for the fixed texts in it:

* the script is the one that was read, with a value that belongs to it in the place of each text;
* it is in normal form: at every depth, commands have words, fixed texts are such values, and what
  is put together are at least two parts, among them a variable or a script in brackets, none of
  them put together itself, none an empty text, and no two texts side by side;
* at every depth, words evaluate as what they consist of says. A single substitution is not put
  together with anything, so the word evaluates to the very value that is substituted.

**Proof sketch.** What the reader has at any moment is built step by step, and by induction on the
steps the word that is gathered and the script are in normal form as far as they go. A loaded script
tells the same texts as the one that was read, so it is in normal form too. Each part of a word in
normal form contributes something to it; so a word of a single thing does not have two parts. -/
theorem parsed_normalForm (E : Engine κ) {text : String} {script : Script String}
    (h : Script.read text = .done script) (values : Store) :
    Script.map (Script.load script values).2.literalText? (Script.load script values).1 =
        Script.map some script ∧
      Script.NormalForm (Script.load script values).2.literalText?
        (Script.load script values).1 ∧
      ∀ w ∈ Script.nested (Script.load script values).1,
        Valued (Script.load script values).2.literalText? E w := by
  have hnormal := Script.normalForm_load (Script.normalForm_of_read h) values
  exact ⟨Script.map_load script values, hnormal, fun w hw => valued_of_proper (hnormal.words w hw)⟩

/-- A script with single substitutions, in quotes and not, and with words that have to be put
together, one of them inside another. -/
def mixedScript : Script String :=
  [[.literal "f", .var "x",
    .joined [.literal "a", .var "y",
      .substitution [[.literal "g", .literal "",
        .joined [.substitution [[.literal "h"]], .var "z"]]],
      .literal "b"]]]

/-- The quotes around a single variable make no difference, and a word in the inner brackets is put
together without any text. -/
theorem parsed_normalForm_mixedScript :
    Script.read "f \"$x\" a$y[g \x7b\x7d \"[h]$z\"]b" = .done mixedScript ∧
      Script.NormalForm (Script.load mixedScript {}).2.literalText?
        (Script.load mixedScript {}).1 ∧
      ∀ w ∈ Script.nested (Script.load mixedScript {}).1,
        Valued (Script.load mixedScript {}).2.literalText? (engine 1 : Engine Empty) w := by
  have hread : Script.read "f \"$x\" a$y[g \x7b\x7d \"[h]$z\"]b" = .done mixedScript := rfl
  obtain ⟨-, hnormal, hvalued⟩ := parsed_normalForm (engine 1 : Engine Empty) hread {}
  exact ⟨hread, hnormal, hvalued⟩

end Words

end Interp

end CommandScript

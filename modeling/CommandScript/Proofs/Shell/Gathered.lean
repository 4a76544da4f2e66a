import CommandScript.Proofs.Evaluation.ReadOnce
import CommandScript.Proofs.Script.Trimmed
import CommandScript.Shell.Prompt

/-!
# The scripts that are put together at the prompt

The prompt gathers lines until they are a complete script, and evaluates the script without the
blanks at its ends. Whether the script is complete was found with the blanks. The two agree, unless
the text ends in a blank after a backslash: the blank is part of the last word of what was typed,
but not of what is evaluated, where the backslash takes its place.

## Main definitions

* `Shell.joined`, `Shell.pendingAfter` — a line added to the pending text, and what is pending then.
* `Shell.gathered` — the text that a line ends, after other lines.
* `Shell.evaluateGathered` — what is done with it.
* `Shell.respond` — a conversation, told by the texts that are gathered.

## Main results

* `Shell.accept_eq`, `Shell.converse_eq` — a conversation goes by the texts that are gathered.
* `Interp.alikeOutcome_of_read_eq` — texts that are read as the same script have the same effect.
* `Shell.evaluated_as_typed` — what is evaluated is what was typed, unless an escaped blank is lost.
-/

set_option autoImplicit false

namespace CommandScript

open CommandScript.Text
open EvalM
open Script (EscapedBlank PlainBlanks)

/-! ## Texts that are read alike -/

namespace Interp

/-- **Texts that are read as the same script have the same effect**, in interpreters that agree on
texts, if no object is made. -/
lemma alikeOutcome_of_read_eq {W : World} {s t : Interp Empty} (hst : SameInterp W s t)
    (bound : Nat) {text text' : String} (hread : Script.read text = Script.read text')
    (hfree : (finalState (evaluateText bound text s)).values.objects = #[]) :
    AlikeOutcome W Same (evaluateText bound text s) (evaluateText bound text' t) := by
  have hnew : Alike W SameScript (liftM (Store.ofText text)) (liftM (Store.ofText text')) := by
    rintro ⟨v, c⟩ ⟨w, d⟩ hst
    obtain ⟨σ, hσ, hleft, hr⟩ := Store.denotes_ofText text v hst.left
    obtain ⟨τ, hτ, hright, hq⟩ := Store.denotes_ofText text' w hst.right
    have hW : W ≤ ⟨σ, τ⟩ := ⟨hσ, hτ⟩
    exact .ok hW ⟨hleft, hright, hst.context.mono hW⟩ ⟨text, text', hr, hq, hread⟩
  exact hnew.bindObjectFree (fun _ _ _ _ h => alike_evaluate bound h) s t hst hfree

end Interp

namespace Shell

/-! ## Lines that are put together -/

/-- The pending text with one more line. -/
def joined (pending line : String) : String :=
  if pending.isEmpty then line else pending ++ "\n" ++ line

/-- What is pending after one more line: nothing, if the line completes the text. -/
def pendingAfter (pending line : String) : String :=
  if Script.isComplete (joined pending line) then "" else joined pending line

/-- The text that a line ends, which comes after other lines. -/
def gathered (lines : List String) (line : String) : String :=
  joined (lines.foldl pendingAfter "") line

/-- Evaluates a text without the blanks at its ends, if it is complete and not blank. -/
def evaluateGathered (text : String) : EvalM Empty Unit := do
  if Script.isComplete text = true ∧ trim text ≠ "" then evalAndPrint (trim text)

/-- What happens with lines that are texts, each of them read after the prompt for it. -/
def respond (pending : String) : List String → EvalM Empty Unit
  | [] => do
    let _ ← prepare pending
  | line :: rest => do
    let _ ← prepare pending
    evaluateGathered (joined pending line)
    respond (pendingAfter pending line) rest

/-- What happens with a line: the text that it ends is evaluated, or remains pending. -/
lemma accept_eq (pending line : String) :
    accept pending line = (do
      evaluateGathered (joined pending line)
      return pendingAfter pending line) := by
  have haccept : accept pending line =
      if Script.isComplete (joined pending line) = true then do
        unless (trim (joined pending line)).isEmpty do evalAndPrint (trim (joined pending line))
        return ""
      else return joined pending line := rfl
  rw [haccept, evaluateGathered, pendingAfter]
  generalize joined pending line = text
  by_cases hcomplete : Script.isComplete text = true
  · rw [if_pos hcomplete, if_pos hcomplete]
    by_cases hblank : trim text = ""
    · have hempty : (trim text).isEmpty = true := by rw [hblank]; rfl
      rw [if_pos hempty, if_neg fun h => h.2 hblank, pure_bind]
    · have hempty : ¬ (trim text).isEmpty = true := by simpa using hblank
      rw [if_neg hempty, if_pos ⟨hcomplete, hblank⟩]
  · rw [if_neg hcomplete, if_neg hcomplete, if_neg fun h => hcomplete h.1, pure_bind]

/-- **A conversation goes by the texts that are gathered**, if all lines are texts and their
backspaces can be carried out. -/
lemma converse_eq {lines : List (List UInt8)} {meant : List String}
    (h : List.Forall₂
      (fun bytes line => ∃ t, lineText bytes = .ok t ∧ applyBackspaces t = some line) lines meant)
    (pending : String) : converse pending lines = respond pending meant := by
  induction h generalizing pending with
  | nil => rfl
  | @cons bytes line lines meant hline _ ih =>
    obtain ⟨t, htext, hmeant⟩ := hline
    unfold converse respond
    refine bind_congr fun _ => ?_
    simp only [htext, meantLine, hmeant, pure_bind, accept_eq, bind_assoc, ih]

/-! ## What is evaluated -/

/-- The blanks of a text that is put together are plain ones, if those of its parts are. -/
lemma plainBlanks_joined {pending line : String} (hpending : PlainBlanks pending)
    (hline : PlainBlanks line) : PlainBlanks (joined pending line) := by
  intro c hc hblank
  unfold joined at hc
  split at hc
  · exact hline c hc hblank
  · simp only [String.toList_append, List.mem_append] at hc
    rcases hc with (hc | hc) | hc
    · exact hpending c hc hblank
    · obtain rfl : c = '\n' := List.mem_singleton.1 hc
      decide
    · exact hline c hc hblank

/-- The blanks of what is pending are plain ones, if those of the lines are. -/
lemma plainBlanks_pending {lines : List String} (hlines : ∀ line ∈ lines, PlainBlanks line)
    {pending : String} (hpending : PlainBlanks pending) :
    PlainBlanks (lines.foldl pendingAfter pending) := by
  induction lines generalizing pending with
  | nil => exact hpending
  | cons line lines ih =>
    obtain ⟨hline, hlines⟩ := List.forall_mem_cons.1 hlines
    refine ih hlines ?_
    unfold pendingAfter
    split
    · exact nofun
    · exact plainBlanks_joined hpending hline

/-- **What is evaluated is what was typed, unless an escaped blank is lost.** Take lines whose
blanks are newlines, spaces, tabs, carriage returns, vertical tabs and form feeds, and a line after
them that makes the gathered text complete, the text not being blank. What happens with the line is
that the text is evaluated without the blanks at its ends, and nothing is pending then. The text
without these blanks is read as the same script as the text itself, or as wrong for the same reason,
if and only if the text does not end in a blank that an escape takes. If it is read as the same
script, it has the same effect as the text itself, whatever the bound: what is run is the same
script, with the same values in it, in interpreters that differ in nothing but the text of the value
that was made to be evaluated; and in interpreters that agree on texts the outcomes agree on texts,
too, if no object is made. -/
theorem evaluated_as_typed (lines : List String) (line : String)
    (hplain : ∀ l ∈ lines ++ [line], PlainBlanks l)
    (hcomplete : Script.isComplete (gathered lines line) = true)
    (hblank : trim (gathered lines line) ≠ "") :
    (accept (lines.foldl pendingAfter "") line = do
      evalAndPrint (trim (gathered lines line))
      return "") ∧
    (Script.read (trim (gathered lines line)) = Script.read (gathered lines line) ↔
      ¬ EscapedBlank (gathered lines line)) ∧
    (¬ EscapedBlank (gathered lines line) → ∀ (s : Interp Empty) (bound : Nat),
      s.context.level < s.context.limit →
      Interp.SameRun bound (trim (gathered lines line)) (gathered lines line) s) ∧
    (¬ EscapedBlank (gathered lines line) → ∀ (W : World) (s t : Interp Empty) (bound : Nat),
      SameInterp W s t →
      (finalState (Interp.evaluateText bound (trim (gathered lines line)) s)).values.objects = #[] →
      AlikeOutcome W Same (Interp.evaluateText bound (trim (gathered lines line)) s)
        (Interp.evaluateText bound (gathered lines line) t)) := by
  have hblanks : PlainBlanks (gathered lines line) := by
    refine plainBlanks_joined (plainBlanks_pending (fun l hl => ?_) nofun) (hplain line (by simp))
    exact hplain l (List.mem_append_left _ hl)
  have hread := Script.read_trim_eq_iff hblanks
  refine ⟨?_, hread, fun hescaped s bound hlevel => ?_, fun hescaped W s t bound hst hfree => ?_⟩
  · have hgathered : joined (lines.foldl pendingAfter "") line = gathered lines line := rfl
    rw [accept_eq, evaluateGathered, pendingAfter, hgathered, if_pos hcomplete,
      if_pos ⟨hcomplete, hblank⟩]
  · exact Interp.sameRun_of_read_eq bound (hread.2 hescaped).symm hlevel
  · exact Interp.alikeOutcome_of_read_eq hst bound (hread.2 hescaped) hfree

/-- A word in braces goes over two lines, and the second line ends in a comment and blanks. What is
evaluated has the same effect as what was typed. -/
theorem evaluated_as_typed_comment :
    gathered ["set x \x7ba"] "b\x7d ; # \\ \t" = "set x \x7ba\nb\x7d ; # \\ \t" ∧
      (∀ l ∈ ["set x \x7ba"] ++ ["b\x7d ; # \\ \t"], PlainBlanks l) ∧
      Script.isComplete (gathered ["set x \x7ba"] "b\x7d ; # \\ \t") = true ∧
      trim (gathered ["set x \x7ba"] "b\x7d ; # \\ \t") ≠ "" ∧
      ¬ EscapedBlank (gathered ["set x \x7ba"] "b\x7d ; # \\ \t") ∧
      Script.read (trim (gathered ["set x \x7ba"] "b\x7d ; # \\ \t")) =
        Script.read (gathered ["set x \x7ba"] "b\x7d ; # \\ \t") ∧
      Interp.SameRun 1 (trim (gathered ["set x \x7ba"] "b\x7d ; # \\ \t"))
        (gathered ["set x \x7ba"] "b\x7d ; # \\ \t") (Interp.holding "7" .none) ∧
      AlikeOutcome ⟨["7"], ["7"]⟩ Same
        (Interp.evaluateText 1 (trim (gathered ["set x \x7ba"] "b\x7d ; # \\ \t"))
          (Interp.holding "7" (.int 7)))
        (Interp.evaluateText 1 (gathered ["set x \x7ba"] "b\x7d ; # \\ \t")
          (Interp.holding "7" .none)) := by
  have hplain : ∀ l ∈ ["set x \x7ba"] ++ ["b\x7d ; # \\ \t"], PlainBlanks l := by
    have hall : (["set x \x7ba"] ++ ["b\x7d ; # \\ \t"]).all
        (fun l => (l.toList.filter isBlank).all isPlainBlank) = true := by
      decide +kernel
    intro l hl c hc hblank
    exact List.all_eq_true.1 (List.all_eq_true.1 hall l hl) c (List.mem_filter.2 ⟨hc, hblank⟩)
  have hgathered : gathered ["set x \x7ba"] "b\x7d ; # \\ \t" = "set x \x7ba\nb\x7d ; # \\ \t" := by
    decide +kernel
  have hcomplete : Script.isComplete (gathered ["set x \x7ba"] "b\x7d ; # \\ \t") = true := by
    decide +kernel
  have hblank : trim (gathered ["set x \x7ba"] "b\x7d ; # \\ \t") ≠ "" := by decide +kernel
  have hescaped : ¬ EscapedBlank (gathered ["set x \x7ba"] "b\x7d ; # \\ \t") := by
    rintro ⟨-, hopen⟩
    have hcomment : ∃ draft, Script.Reader.start.run
        (trimmed (gathered ["set x \x7ba"] "b\x7d ; # \\ \t").toList) =
          .reading draft (.comment true) [] :=
      ⟨_, rfl⟩
    obtain ⟨draft, hcomment⟩ := hcomment
    rw [hcomment] at hopen
    cases hopen
  have hseven : Store.readInt? "7" = some 7 := by decide +kernel
  obtain ⟨-, hread, hrun, halike⟩ :=
    evaluated_as_typed ["set x \x7ba"] "b\x7d ; # \\ \t" hplain hcomplete hblank
  refine ⟨hgathered, hplain, hcomplete, hblank, hescaped, hread.2 hescaped,
    hrun hescaped _ 1 (by decide), ?_⟩
  exact halike hescaped _ _ _ 1 (Interp.sameInterp_holding hseven trivial) (by decide +kernel)

/-- A line ends in a space after a backslash. The space is the end of a word in what was typed, and
what is evaluated has a backslash there. -/
theorem escapedSpace_lost :
    PlainBlanks "set x a\\ " ∧ Script.isComplete (gathered [] "set x a\\ ") = true ∧
      trim (gathered [] "set x a\\ ") ≠ "" ∧
      Script.read (gathered [] "set x a\\ ") =
        .done [[.literal "set", .literal "x", .literal "a "]] ∧
      Script.read (trim (gathered [] "set x a\\ ")) =
        .done [[.literal "set", .literal "x", .literal "a\\"]] ∧
      Script.read (trim (gathered [] "set x a\\ ")) ≠ Script.read (gathered [] "set x a\\ ") := by
  have hplain : ("set x a\\ ".toList.filter isBlank).all isPlainBlank = true := by decide +kernel
  have htyped : Script.read (gathered [] "set x a\\ ") =
      .done [[.literal "set", .literal "x", .literal "a "]] := rfl
  have hevaluated : Script.read (trim (gathered [] "set x a\\ ")) =
      .done [[.literal "set", .literal "x", .literal "a\\"]] := rfl
  refine ⟨fun c hc hblank => List.all_eq_true.1 hplain c (List.mem_filter.2 ⟨hc, hblank⟩),
    by decide +kernel, by decide +kernel, htyped, hevaluated, ?_⟩
  rw [htyped, hevaluated]
  simp

end Shell

end CommandScript

import CommandScript.ListText.Reader
import CommandScript.Proofs.Text.Descent

/-!
# Reading list text by recursive descent

A list can be read by three loops: one over the elements, and in it one over the characters of a
quoted element and one over those of a bare element. The scan of list text reads every character
exactly once and so comes to an end by its form. The loops do not: that they come to an end is a
property of their turns. Every turn that is not the last one consumes a character. Therefore as many
turns suffice as the text has characters, and one more, and what the loops read is what the scan
reads.

## Main definitions

* `ListText.quotedTurn`, `ListText.bareTurn`, `ListText.itemsTurn` — a turn of each loop.
* `ListText.descend` — the elements of a list text, read by loops.
* `ListText.Progress` — what the turns consume.

## Main results

* `ListText.progress` — every turn that is not the last one consumes a character.
* `ListText.descend_eq` — for every list text, the loops come to an end and read what the scan
  reads.
-/

set_option autoImplicit false

namespace CommandScript.ListText

open CommandScript.Text

/-! ## The loops -/

/-- After the closing brace or quote of an element the text must end or a blank follow. -/
def itemEnd (after : Error) (item : String) : List Char → Descent Error String
  | [] => .read item []
  | c :: rest => if isBlank c then .read item (c :: rest) else .failed after

/-- Reads an element in braces after its opening brace. -/
def bracedItem (text : List Char) : Descent Error String :=
  match Braced.read {} text with
  | none => .failed .openBrace
  | some (inner, rest) => itemEnd .afterBrace (String.ofList inner) rest

/-- A turn of the loop over a quoted element, of which these characters were taken, the latest
first. -/
def quotedTurn (taken : List Char) : List Char → Descent Error (Turn (List Char) String)
  | [] => .failed .openQuote
  | c :: rest =>
    if c = '\\' then (escape rest).map fun d => .again (d :: taken)
    else if c = '"' then (itemEnd .afterQuote (String.ofList taken.reverse) rest).map .finished
    else .read (.again (c :: taken)) rest

/-- A turn of the loop over a bare element. -/
def bareTurn (taken : List Char) : List Char → Descent Error (Turn (List Char) String)
  | [] => .read (.finished (String.ofList taken.reverse)) []
  | c :: rest =>
    if isBlank c then .read (.finished (String.ofList taken.reverse)) (c :: rest)
    else if c = '\\' then (escape rest).map fun d => .again (d :: taken)
    else .read (.again (c :: taken)) rest

/-- Reads an element that begins with the character. -/
def item (turns : Nat) (c : Char) (rest : List Char) : Descent Error String :=
  if c = '{' then bracedItem rest
  else if c = '"' then loop quotedTurn turns [] rest
  else loop bareTurn turns [] (c :: rest)

/-- A turn of the loop over the elements, the latest first. The loops within the turn are given
`turns` turns. -/
def itemsTurn (turns : Nat) (items : List String) (text : List Char) :
    Descent Error (Turn (List String) (List String)) :=
  match text.dropWhile isBlank with
  | [] => .read (.finished items.reverse) []
  | c :: rest => (item turns c rest).map fun i => .again (i :: items)

/-- The elements of a list text, each loop being given that many turns. -/
def descend (turns : Nat) (text : String) : Descent Error (List String) :=
  loop (itemsTurn turns) turns [] text.toList

/-! ## Consumption -/

section Consumption

variable {c : Char} {text rest : List Char} {turns : Nat}

/-- The end of an item leaves a part of the text. -/
lemma itemEnd_leaves (after : Error) (i : String) (text : List Char) :
    (itemEnd after i text).Leaves text := by
  cases text with
  | nil => exact Descent.leaves_read i
  | cons c rest =>
    simp only [itemEnd]
    split
    · exact Descent.leaves_read i
    · exact Descent.leaves_failed after

/-- So does a braced item. -/
lemma bracedItem_leaves (text : List Char) : (bracedItem text).Leaves text := by
  unfold bracedItem
  split
  next => exact Descent.leaves_failed _
  next inner rest h => exact (itemEnd_leaves _ _ rest).of_suffix (Braced.read_suffix h)

/-- So does a turn within quotes. -/
lemma quotedTurn_leaves (taken text : List Char) : (quotedTurn taken text).Leaves text := by
  cases text with
  | nil => exact Descent.leaves_failed _
  | cons c rest =>
    have hrest : rest <:+ c :: rest := List.suffix_cons c rest
    simp only [quotedTurn]
    repeat' split
    · exact ((escape_leaves rest).map _).of_suffix hrest
    · exact ((itemEnd_leaves _ _ rest).map _).of_suffix hrest
    · exact (Descent.leaves_read _).of_suffix hrest

/-- In a quoted element, every turn that is not the last one consumes a character. -/
lemma quotedTurn_consumed {taken taken' : List Char}
    (h : quotedTurn taken text = .read (.again taken') rest) : Consumed text rest := by
  cases text with
  | nil => cases h
  | cons c text =>
    simp only [quotedTurn] at h
    split at h
    · exact consumed_cons ((escape_leaves text).map _ _ rest h)
    · split at h
      · obtain ⟨i, -, hi⟩ := Descent.map_eq_read_iff.1 h
        cases hi
      · cases h
        exact consumed_cons List.suffix_rfl

/-- A bare element takes the character it begins with. -/
lemma bareTurn_cons {taken : List Char} (hc : isBlank c = false) {t : Turn (List Char) String}
    (h : bareTurn taken (c :: text) = .read t rest) : Consumed (c :: text) rest := by
  simp only [bareTurn, hc] at h
  split at h
  · contradiction
  · split at h
    · exact consumed_cons ((escape_leaves text).map _ t rest h)
    · cases h
      exact consumed_cons List.suffix_rfl

/-- In a bare element, every turn that is not the last one consumes a character. -/
lemma bareTurn_consumed {taken taken' : List Char}
    (h : bareTurn taken text = .read (.again taken') rest) : Consumed text rest := by
  cases text with
  | nil => cases h
  | cons c text =>
    cases hc : isBlank c with
    | true =>
      simp only [bareTurn, hc] at h
      cases h
    | false => exact bareTurn_cons hc h

/-- So does a turn of a bare item. -/
lemma bareTurn_leaves (taken text : List Char) : (bareTurn taken text).Leaves text := by
  intro t rest h
  cases text with
  | nil =>
    cases h
    exact List.suffix_rfl
  | cons c text =>
    cases hc : isBlank c with
    | true =>
      simp only [bareTurn, hc] at h
      cases h
      exact List.suffix_rfl
    | false => exact (bareTurn_cons hc h).1

/-- Every element consumes a character. -/
lemma item_consumed (hc : isBlank c = false) {i : String}
    (h : item turns c text = .read i rest) : Consumed (c :: text) rest := by
  unfold item at h
  split at h
  · exact consumed_cons (bracedItem_leaves text i rest h)
  · split at h
    · exact consumed_cons (loop_leaves quotedTurn_leaves i rest h)
    · exact consumed_of_loop bareTurn_leaves (fun t rest => bareTurn_cons hc) h

/-- Between elements, every turn that is not the last one consumes a character. -/
lemma itemsTurn_consumed {items items' : List String}
    (h : itemsTurn turns items text = .read (.again items') rest) : Consumed text rest := by
  have hblanks : text.dropWhile isBlank <:+ text := List.dropWhile_suffix _
  unfold itemsTurn at h
  split at h
  next => cases h
  next c text' htext =>
    obtain ⟨i, hi, -⟩ := Descent.map_eq_read_iff.1 h
    rw [htext] at hblanks
    exact Consumed.of_suffix hblanks (item_consumed (eq_false_of_dropWhile htext) hi)

/-- **Every turn consumes a character** that is not the last one of its loop, wherever it is
taken. -/
structure Progress (text : List Char) : Prop where
  /-- The loop over the elements. -/
  items : ∀ turns items items' rest,
    itemsTurn turns items text = .read (.again items') rest → Consumed text rest
  /-- The loop over a quoted element. -/
  quoted : ∀ taken taken' rest, quotedTurn taken text = .read (.again taken') rest →
    Consumed text rest
  /-- The loop over a bare element. -/
  bare : ∀ taken taken' rest, bareTurn taken text = .read (.again taken') rest →
    Consumed text rest

/-- Every turn of the descent takes some of the text, or is the last. -/
lemma progress (text : List Char) : Progress text where
  items _ _ _ _ := itemsTurn_consumed
  quoted _ _ _ := quotedTurn_consumed
  bare _ _ _ := bareTurn_consumed

end Consumption

/-! ## Agreement with the scan -/

/-- What the scan makes of the rest of a text. -/
def Reader.account (r : Reader) (text : List Char) : Descent Error (List String) :=
  .ofExcept (r.run text).finish

section Agreement

variable {enough : Prop} {c : Char} {n : Nat}

/-- A failed reader stays so, whatever follows. -/
lemma account_failed (e : Error) (text : List Char) :
    (Reader.failed e).account text = .failed e := by
  rw [Reader.account, Reader.run_failed]
  rfl

/-- Blanks between elements are dropped. -/
lemma account_dropWhile (items : List String) (text : List Char) :
    (Reader.reading items .gap).account (text.dropWhile isBlank) =
      (Reader.reading items .gap).account text := by
  have hrun : (Reader.reading items .gap).run (text.dropWhile isBlank) =
      (Reader.reading items .gap).run text :=
    foldl_dropWhile (fun c hc => by simp [Reader.step, Reader.gapStep, hc]) text
  rw [Reader.account, hrun, Reader.account]

/-- The scan reads an escape as it is read on its own. -/
lemma account_escape (items : List String) (quoted : Bool) (taken : List Char) (e : Escape)
    (text : List Char) :
    (Reader.reading items (.plain quoted taken (some e))).account text =
      (Reader.reading items (.plain quoted ((e.read text).1 :: taken) none)).account
        (e.read text).2 := by
  induction text generalizing e with
  | nil => cases quoted <;> rfl
  | cons c text ih =>
    simp only [Reader.account, Reader.run_cons, Reader.step, Escape.read] at ih ⊢
    cases hc : e.step c with
    | more e' => exact ih e'
    | last d => rfl
    | before d => rfl

/-- The scan takes text in braces as it is read on its own. -/
lemma account_braced (items : List String) (b : Braced) (text : List Char) :
    (Reader.reading items (.braced b)).account text =
      match b.read text with
      | none => .failed .openBrace
      | some (inner, rest) =>
        (Reader.reading (String.ofList inner :: items) (.closed .afterBrace)).account rest := by
  induction text generalizing b with
  | nil => rfl
  | cons c text ih =>
    simp only [Reader.account, Reader.run_cons, Reader.step, Braced.read] at ih ⊢
    cases hc : b.step c with
    | ok b' => exact ih b'
    | error inner => rfl

/-- The end of an item is read as the scan reads it. -/
lemma itemEnd_agrees (after : Error) (items : List String) (i : String) (text : List Char) :
    (itemEnd after i text).Agrees enough
      ((Reader.reading (i :: items) (.closed after)).account text)
      fun i => (Reader.reading (i :: items) .gap).account := by
  cases text with
  | nil => exact .read rfl
  | cons c rest =>
    simp only [itemEnd]
    split
    next hc =>
      refine .read ?_
      simp only [Reader.account, Reader.run_cons, Reader.step, Reader.gapStep, hc, if_true]
    next hc =>
      refine .failed ?_
      have hstep : (Reader.reading (i :: items) (.closed after)).step c = .failed after := by
        simp [Reader.step, hc]
      rw [← account_failed after rest, ← hstep]
      rfl

/-- So is a braced item. -/
lemma bracedItem_agrees (items : List String) (text : List Char) :
    (bracedItem text).Agrees enough ((Reader.reading items (.braced {})).account text)
      fun i => (Reader.reading (i :: items) .gap).account := by
  rw [account_braced, bracedItem]
  cases Braced.read {} text with
  | none => exact .failed rfl
  | some read => exact itemEnd_agrees _ items _ _

/-- The loop over a quoted element agrees with the scan. -/
lemma quoted_agrees (items : List String) (taken text : List Char) :
    (loop quotedTurn (n + 1) taken text).Agrees (text.length ≤ n)
      ((Reader.reading items (.plain true taken none)).account text)
      fun i => (Reader.reading (i :: items) .gap).account := by
  refine Descent.Agrees.loop
    (x := fun taken => (Reader.reading items (.plain true taken none)).account)
    (fun taken text => ?_) (fun taken text taken' rest h => .inl (quotedTurn_consumed h)) taken text
  cases text with
  | nil => exact .failed rfl
  | cons c rest =>
    simp only [quotedTurn]
    split
    next hc =>
      subst hc
      exact Descent.Agrees.map (.read (account_escape items true taken .start rest))
    next hc =>
      split
      next hquote =>
        subst hquote
        exact Descent.Agrees.map (itemEnd_agrees _ items _ rest)
      next hquote =>
        refine .read ?_
        simp only [Reader.account, Reader.run_cons, Reader.step, Reader.plainStep, hc, hquote,
          if_false, if_true, Turn.elim]

/-- The loop over a bare element agrees with the scan. -/
lemma bare_agrees (items : List String) (taken text : List Char) :
    (loop bareTurn (n + 1) taken text).Agrees (text.length ≤ n)
      ((Reader.reading items (.plain false taken none)).account text)
      fun i => (Reader.reading (i :: items) .gap).account := by
  refine Descent.Agrees.loop
    (x := fun taken => (Reader.reading items (.plain false taken none)).account)
    (fun taken text => ?_) (fun taken text taken' rest h => .inl (bareTurn_consumed h)) taken text
  cases text with
  | nil => exact .read rfl
  | cons c rest =>
    simp only [bareTurn]
    split
    next hc =>
      have hbackslash : c ≠ '\\' := by
        rintro rfl
        exact absurd hc (by decide)
      refine .read ?_
      simp [Reader.account, Reader.step, Reader.plainStep, Reader.gapStep, hc, hbackslash,
        Turn.elim, Reader.push]
    next hc =>
      split
      next hbackslash =>
        subst hbackslash
        exact Descent.Agrees.map (.read (account_escape items false taken .start rest))
      next hbackslash =>
        refine .read ?_
        simp [Reader.account, Reader.step, Reader.plainStep, hc, hbackslash, Turn.elim]

/-- So is an item of any kind. -/
lemma item_agrees (items : List String) (hc : isBlank c = false) (rest : List Char) :
    (item (n + 1) c rest).Agrees ((c :: rest).length ≤ n)
      ((Reader.reading items .gap).account (c :: rest))
      fun i => (Reader.reading (i :: items) .gap).account := by
  have hshorter : (c :: rest).length ≤ n → rest.length ≤ n := by
    intro hlength
    simp only [List.length_cons] at hlength
    omega
  unfold item
  split
  next hbrace =>
    subst hbrace
    exact bracedItem_agrees items rest
  next hbrace =>
    split
    next hquote =>
      subst hquote
      exact (quoted_agrees items [] rest).mono hshorter
    next hquote =>
      have hstep : (Reader.reading items .gap).step c =
          (Reader.reading items (.plain false [] none)).step c := by
        simp [Reader.step, Reader.gapStep, hc, hbrace, hquote]
      have hx : (Reader.reading items .gap).account (c :: rest) =
          (Reader.reading items (.plain false [] none)).account (c :: rest) := by
        simp only [Reader.account, Reader.run_cons, hstep]
      rw [hx]
      exact bare_agrees items [] (c :: rest)

/-- The loop over the elements agrees with the scan. -/
lemma items_agrees (items : List String) (text : List Char) :
    (loop (itemsTurn (n + 1)) (n + 1) items text).Agrees (text.length ≤ n)
      ((Reader.reading items .gap).account text) .read := by
  refine Descent.Agrees.loop (x := fun items => (Reader.reading items .gap).account)
    (fun items text => ?_) (fun items text items' rest h => .inl (itemsTurn_consumed h)) items text
  have hblanks : (text.dropWhile isBlank).length ≤ text.length :=
    (List.dropWhile_suffix isBlank).length_le
  rw [← account_dropWhile]
  unfold itemsTurn
  split
  next h =>
    rw [h]
    exact .read rfl
  next c rest h =>
    rw [h] at hblanks ⊢
    refine Descent.Agrees.map ?_
    exact (item_agrees items (eq_false_of_dropWhile h) rest).mono (Nat.le_trans hblanks)

end Agreement

/-- **Reading a list by loops comes to an end**, for every text, as soon as every loop has more
turns than the text has characters. It reads what the scan reads: the elements, with nothing left of
the text, or the same error. -/
lemma descend_eq {text : String} {turns : Nat} (h : text.toList.length < turns) :
    descend turns text = .ofExcept (read text) := by
  obtain ⟨n, rfl⟩ : ∃ n, turns = n + 1 := ⟨turns - 1, by omega⟩
  have hagrees : Reader.start.account text.toList = (descend (n + 1) text).bind .read :=
    items_agrees [] text.toList fun _ => Nat.le_of_lt_succ h
  have hbind : (descend (n + 1) text).bind .read = descend (n + 1) text := by
    cases descend (n + 1) text <;> rfl
  rw [← hbind, ← hagrees]
  rfl

end CommandScript.ListText

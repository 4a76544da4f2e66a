import Mathlib.Data.List.Infix
import Mathlib.Tactic.Lemma
import CommandScript.Command.ByType
import CommandScript.Workbench.Specimen

/-!
# The most specific command

Commands are registered for types, and a value is run by the command for the most specific type that
it belongs to: the first one on the way up from its own type that has a command. The table finds it
by going through all registrations in the order in which they were made, keeping the better of two,
and remembers the answer. Neither the order nor what was asked before can be told from the answers.

Types are told apart by their names, so this is about types of which names tell everything: no two
of them have the same name and different ancestors.

## Main definitions

* `TypeTag.ToldByName` — among the types and their ancestors, the name tells the type.
* `TypeCommands.Event`, `TypeCommands.after` — what can happen to a table, and the table afterwards.
* `TypeCommands.registered?` — the command that is registered for exactly a type.
* `TypeCommands.Faithful` — a table holds what was registered, and remembers no wrong answer.

## Main results

* `TypeTag.mem_lineage_total` — on the way up from a type, of two types one is above the other.
* `TypeCommands.findSome?_entryFor?` — the best entry is the one for the most specific type.
* `TypeCommands.Faithful.apply` — every event keeps the table faithful.
* `TypeCommands.resolve_after` — what is found after any events.
-/

set_option autoImplicit false

namespace CommandScript

/-! ## The way up from a type -/

namespace TypeTag

/-- Among the types and their ancestors, the name of a type tells which one it is. -/
def ToldByName (tags : List TypeTag) : Prop :=
  ∀ t ∈ tags.flatMap lineage, ∀ u ∈ tags.flatMap lineage, t.name = u.name → t = u

/-- A lineage begins with the type itself. -/
lemma exists_lineage_eq_cons (t : TypeTag) : ∃ above, t.lineage = t :: above := by
  obtain ⟨name, ancestors⟩ := t
  cases ancestors with
  | nil => exact ⟨[], rfl⟩
  | cons parent rest => exact ⟨lineageOf parent rest, rfl⟩

/-- A type is in its own lineage. -/
lemma mem_lineage_self (t : TypeTag) : t ∈ t.lineage := by
  obtain ⟨above, h⟩ := t.exists_lineage_eq_cons
  rw [h]
  exact List.mem_cons_self

/-- The way up from an ancestor is the rest of the way. -/
lemma lineage_suffix_of_mem {t u : TypeTag} (h : u ∈ t.lineage) : u.lineage <:+ t.lineage := by
  obtain ⟨name, ancestors⟩ := t
  induction ancestors generalizing name with
  | nil =>
    obtain rfl := List.mem_singleton.1 h
    exact List.suffix_rfl
  | cons parent rest ih =>
    obtain rfl | h := List.mem_cons.1 h
    · exact List.suffix_rfl
    · exact (ih parent h).trans (List.suffix_cons _ _)

/-- What is above something above is above. -/
lemma mem_lineage_trans {t u v : TypeTag} (h : u ∈ t.lineage) (h' : v ∈ u.lineage) :
    v ∈ t.lineage :=
  (lineage_suffix_of_mem h).subset h'

/-- Of two types on the way up from a type, one is on the way up from the other. -/
lemma mem_lineage_total {t u v : TypeTag} (hu : u ∈ t.lineage) (hv : v ∈ t.lineage) :
    v ∈ u.lineage ∨ u ∈ v.lineage := by
  obtain h | h := List.suffix_or_suffix_of_suffix (lineage_suffix_of_mem hu)
    (lineage_suffix_of_mem hv)
  · exact .inr (h.subset u.mem_lineage_self)
  · exact .inl (h.subset v.mem_lineage_self)

/-- The ancestors of a type on the way up are fewer at each step. -/
lemma length_ancestors_of_mem_lineageOf {name : String} {ancestors : List String} {u : TypeTag}
    (h : u ∈ lineageOf name ancestors) : u.ancestors.length ≤ ancestors.length := by
  induction ancestors generalizing name with
  | nil =>
    obtain rfl := List.mem_singleton.1 h
    exact Nat.le_refl _
  | cons parent rest ih =>
    obtain rfl | h := List.mem_cons.1 h
    · exact Nat.le_refl _
    · exact Nat.le_succ_of_le (ih h)

/-- No type is met twice on the way up. -/
lemma nodup_lineage (t : TypeTag) : t.lineage.Nodup := by
  obtain ⟨name, ancestors⟩ := t
  change (lineageOf name ancestors).Nodup
  induction ancestors generalizing name with
  | nil => exact List.nodup_cons.2 ⟨List.not_mem_nil, List.nodup_nil⟩
  | cons parent rest ih =>
    refine List.nodup_cons.2 ⟨fun h => ?_, ih parent⟩
    exact absurd (length_ancestors_of_mem_lineageOf h) (Nat.not_succ_le_self _)

namespace ToldByName

variable {tags : List TypeTag} {t u : TypeTag}

/-- What is above one of the types that are told by name is one of them. -/
lemma mem_of_mem_lineage (ht : t ∈ tags.flatMap lineage) (hu : u ∈ t.lineage) :
    u ∈ tags.flatMap lineage := by
  obtain ⟨v, hv, htv⟩ := List.mem_flatMap.1 ht
  exact List.mem_flatMap.2 ⟨v, hv, mem_lineage_trans htv hu⟩

/-- A type is another one if the other is on the way up from it. -/
lemma isA_iff (htags : ToldByName tags) (ht : t ∈ tags.flatMap lineage)
    (hu : u ∈ tags.flatMap lineage) : t.isA u = true ↔ u ∈ t.lineage := by
  constructor
  · intro h
    obtain ⟨v, hv, hsame⟩ := List.any_eq_true.1 h
    obtain rfl : v = u := htags v (mem_of_mem_lineage ht hv) u hu (beq_iff_eq.1 hsame)
    exact hv
  · intro h
    exact List.any_eq_true.2 ⟨u, h, beq_iff_eq.2 rfl⟩

end ToldByName

end TypeTag

namespace TypeCommands

open TypeTag

variable {α : Type}

/-! ## Registrations -/

/-- The entries, by the names of their types. -/
def byName (entries : List (TypeTag × α)) : List (String × α) :=
  entries.map fun e => (e.1.name, e.2)

/-- The names of the entries, from the first on. -/
lemma byName_cons (e : TypeTag × α) (entries : List (TypeTag × α)) :
    byName (e :: entries) = (e.1.name, e.2) :: byName entries :=
  rfl

/-- The command of the entry for exactly the type. -/
def entryFor? (entries : List (TypeTag × α)) (t : TypeTag) : Option α :=
  (byName entries).lookup t.name

/-- No two entries are for types of the same name. -/
def NoneTwice (entries : List (TypeTag × α)) : Prop :=
  ((byName entries).map Prod.fst).Nodup

/-- An entry that is found is there, for a type of the same name. -/
lemma exists_mem_of_entryFor? {entries : List (TypeTag × α)} {t : TypeTag} {command : α}
    (h : entryFor? entries t = some command) :
    ∃ u, (u, command) ∈ entries ∧ u.name = t.name := by
  obtain ⟨before, after, hsplit, -⟩ := List.lookup_eq_some_iff.1 h
  have hmem : (t.name, command) ∈ byName entries :=
    hsplit ▸ List.mem_append_right _ List.mem_cons_self
  obtain ⟨⟨u, _⟩, hentry, heq⟩ := List.mem_map.1 hmem
  obtain ⟨hname, rfl⟩ := Prod.mk.inj heq
  exact ⟨u, hentry, hname⟩

/-- An entry is the one for its type. -/
lemma entryFor?_of_mem {entries : List (TypeTag × α)} (hnone : NoneTwice entries)
    {e : TypeTag × α} (he : e ∈ entries) : entryFor? entries e.1 = some e.2 := by
  induction entries with
  | nil => exact absurd he List.not_mem_nil
  | cons f entries ih =>
    obtain ⟨hnew, hnone⟩ := List.nodup_cons.1 hnone
    obtain rfl | he := List.mem_cons.1 he
    · exact List.lookup_cons_self
    · have hne : (e.1.name == f.1.name) = false := by
        refine beq_eq_false_iff_ne.2 fun heq => hnew ?_
        exact List.mem_map.2 ⟨_, List.mem_map.2 ⟨e, he, rfl⟩, heq⟩
      rw [entryFor?, byName_cons, List.lookup_cons, hne]
      exact ih hnone he

/-- By the names, replacing the command for a type is binding its name. -/
lemma byName_replace (tag : TypeTag) (command : α) (entries : List (TypeTag × α)) :
    byName (replace tag command entries) =
      Table.insertEntry tag.name command (byName entries) := by
  induction entries with
  | nil => rfl
  | cons e entries ih =>
    have hsame : e.1.same tag = true ↔ e.1.name = tag.name := beq_iff_eq
    by_cases h : e.1.name = tag.name
    · rw [replace, if_pos (hsame.2 h), byName_cons, byName_cons, Table.insertEntry, if_pos h, h]
    · rw [replace, if_neg (mt hsame.1 h), byName_cons, byName_cons, Table.insertEntry, if_neg h, ih]

/-- By the names, removing the command for a type is removing its name. -/
lemma byName_eraseP (tag : TypeTag) {entries : List (TypeTag × α)} (hnone : NoneTwice entries) :
    byName (entries.eraseP fun e => e.1.same tag) =
      (byName entries).filter fun e => e.1 != tag.name := by
  induction entries with
  | nil => rfl
  | cons e entries ih =>
    obtain ⟨hnew, hnone⟩ := List.nodup_cons.1 hnone
    rw [List.eraseP_cons]
    by_cases h : e.1.name = tag.name
    · rw [show e.1.same tag = true from beq_iff_eq.2 h, cond_true, byName_cons,
        List.filter_cons_of_neg (by simpa using h)]
      refine (List.filter_eq_self.2 fun f hf => bne_iff_ne.2 fun heq => hnew ?_).symm
      exact List.mem_map.2 ⟨f, hf, heq.trans h.symm⟩
    · rw [show e.1.same tag = false from beq_eq_false_iff_ne.2 h, cond_false, byName_cons,
        byName_cons, List.filter_cons_of_pos (by simpa using h), ih hnone]

/-- To replace a command leaves no type twice. -/
lemma NoneTwice.replace {entries : List (TypeTag × α)} (h : NoneTwice entries) (tag : TypeTag)
    (command : α) : NoneTwice (replace tag command entries) := by
  unfold NoneTwice
  rw [byName_replace]
  exact Table.nodup_insertEntry tag.name command h

/-- Nor does taking an entry out. -/
lemma NoneTwice.eraseP {entries : List (TypeTag × α)} (h : NoneTwice entries) (tag : TypeTag) :
    NoneTwice (entries.eraseP fun e => e.1.same tag) := by
  unfold NoneTwice
  rw [byName_eraseP tag h]
  exact (Table.erase ⟨byName entries, h⟩ tag.name).nodup_names

/-- A type is the same as another one if the other's name is its own. -/
lemma name_eq_iff_same {tag t : TypeTag} : t.name = tag.name ↔ tag.same t = true :=
  eq_comm.trans beq_iff_eq.symm

/-- After a command has been replaced, it is found for its type, and nothing else has changed. -/
lemma entryFor?_replace (tag t : TypeTag) (command : α) (entries : List (TypeTag × α)) :
    entryFor? (replace tag command entries) t =
      if tag.same t then some command else entryFor? entries t := by
  unfold entryFor?
  rw [byName_replace, Table.lookup_insertEntry]
  exact if_congr name_eq_iff_same rfl rfl

/-- After a command has been taken out, none is found for its type, and nothing else has changed. -/
lemma entryFor?_eraseP (tag t : TypeTag) {entries : List (TypeTag × α)} (h : NoneTwice entries) :
    entryFor? (entries.eraseP fun e => e.1.same tag) t =
      if tag.same t then none else entryFor? entries t := by
  unfold entryFor?
  rw [byName_eraseP tag h, ← if_congr name_eq_iff_same rfl rfl]
  exact Table.find?_erase ⟨byName entries, h⟩ tag.name t.name

/-- The entries after a replacement are for the type at hand or were there before. -/
lemma mem_of_mem_replace {tag : TypeTag} {command : α} {entries : List (TypeTag × α)}
    {e : TypeTag × α} (h : e ∈ replace tag command entries) :
    e.1 = tag ∨ ∃ f ∈ entries, f.1 = e.1 := by
  induction entries with
  | nil => exact .inl (congrArg Prod.fst (List.mem_singleton.1 h))
  | cons f entries ih =>
    unfold TypeCommands.replace at h
    split at h
    · obtain rfl | h := List.mem_cons.1 h
      · exact .inr ⟨f, List.mem_cons_self, rfl⟩
      · exact .inr ⟨e, List.mem_cons_of_mem _ h, rfl⟩
    · obtain rfl | h := List.mem_cons.1 h
      · exact .inr ⟨e, List.mem_cons_self, rfl⟩
      · obtain heq | ⟨g, hg, heq⟩ := ih h
        · exact .inl heq
        · exact .inr ⟨g, List.mem_cons_of_mem _ hg, heq⟩

/-! ## The best entry -/

section Best

variable {tags : List TypeTag} {c : TypeTag}

/-- Of the entries, this is the one for the first type on the way up from `c`. -/
def IsBest (c : TypeTag) (entries : List (TypeTag × α)) : Option (TypeTag × α) → Prop
  | none => ∀ e ∈ entries, e.1 ∉ c.lineage
  | some b => b ∈ entries ∧ b.1 ∈ c.lineage ∧ ∀ e ∈ entries, e.1 ∈ c.lineage → e.1 ∈ b.1.lineage

/-- One more entry, and the better of the two. -/
lemma IsBest.better (htags : ToldByName tags) (hc : c ∈ tags.flatMap lineage)
    {entries : List (TypeTag × α)} {b : Option (TypeTag × α)} (hb : IsBest c entries b)
    {e : TypeTag × α} (he : e.1 ∈ tags.flatMap lineage) :
    IsBest c (e :: entries) (better c b e) := by
  unfold TypeCommands.better
  by_cases hup : e.1 ∈ c.lineage
  · rw [if_pos ((htags.isA_iff hc he).2 hup)]
    cases b with
    | none =>
      refine ⟨List.mem_cons_self, hup, List.forall_mem_cons.2 ⟨fun _ => e.1.mem_lineage_self, ?_⟩⟩
      exact fun f hf hfup => absurd hfup (hb f hf)
    | some b =>
      obtain ⟨hmem, hbup, hleast⟩ := hb
      dsimp only
      have hisA : e.1.isA b.1 = true ↔ b.1 ∈ e.1.lineage :=
        htags.isA_iff he (ToldByName.mem_of_mem_lineage hc hbup)
      -- both are above the type, so one of them is above the other
      by_cases hbelow : b.1 ∈ e.1.lineage
      · rw [if_pos (hisA.2 hbelow)]
        refine ⟨List.mem_cons_self, hup, List.forall_mem_cons.2 ⟨fun _ => e.1.mem_lineage_self, ?_⟩⟩
        exact fun f hf hfup => mem_lineage_trans hbelow (hleast f hf hfup)
      · rw [if_neg (mt hisA.1 hbelow)]
        refine ⟨List.mem_cons_of_mem _ hmem, hbup, List.forall_mem_cons.2 ⟨fun _ => ?_, hleast⟩⟩
        exact (mem_lineage_total hbup hup).resolve_right hbelow
  · rw [if_neg (mt (htags.isA_iff hc he).1 hup)]
    cases b with
    | none => exact List.forall_mem_cons.2 ⟨hup, hb⟩
    | some b =>
      obtain ⟨hmem, hbup, hleast⟩ := hb
      exact ⟨List.mem_cons_of_mem _ hmem, hbup,
        List.forall_mem_cons.2 ⟨fun h => absurd h hup, hleast⟩⟩

/-- Going through the entries finds the best one, in whatever order they are. -/
lemma isBest_foldl (htags : ToldByName tags) (hc : c ∈ tags.flatMap lineage)
    {entries seen : List (TypeTag × α)} (hentries : ∀ e ∈ entries, e.1 ∈ tags.flatMap lineage)
    {b : Option (TypeTag × α)} (hb : IsBest c seen b) :
    IsBest c (entries.reverse ++ seen) (entries.foldl (TypeCommands.better c) b) := by
  induction entries generalizing seen b with
  | nil => exact hb
  | cons e entries ih =>
    obtain ⟨he, hentries⟩ := List.forall_mem_cons.1 hentries
    rw [List.reverse_cons, List.append_assoc]
    exact ih hentries (hb.better htags hc he)

/-- **The command of the best entry** is the command for the first type on the way up that has
one.

**Proof sketch.** The way up from `c` comes to the type of the best entry, and goes on as the way up
from there. An entry for a type before it would be one for a type that comes after it, and no type
is met twice. -/
lemma findSome?_entryFor? (htags : ToldByName tags) (hc : c ∈ tags.flatMap lineage)
    {entries : List (TypeTag × α)} (hentries : ∀ e ∈ entries, e.1 ∈ tags.flatMap lineage)
    (hnone : NoneTwice entries) :
    c.lineage.findSome? (entryFor? entries) = (best c entries).map Prod.snd := by
  have hbest : IsBest c (entries.reverse ++ []) (best c entries) :=
    isBest_foldl htags hc hentries fun _ h => absurd h List.not_mem_nil
  rw [List.append_nil] at hbest
  -- an entry for a type on the way up that is told by its name
  have hentry : ∀ t ∈ c.lineage, ∀ command, entryFor? entries t = some command →
      ∃ e ∈ entries, e.1 = t := by
    intro t ht command h
    obtain ⟨u, hu, hname⟩ := exists_mem_of_entryFor? h
    exact ⟨_, hu, htags u (hentries _ hu) t (ToldByName.mem_of_mem_lineage hc ht) hname⟩
  cases hb : best c entries with
  | none =>
    rw [hb] at hbest
    refine List.findSome?_eq_none_iff.2 fun t ht => Option.eq_none_iff_forall_ne_some.2 ?_
    intro command h
    obtain ⟨e, he, rfl⟩ := hentry t ht command h
    exact hbest e (List.mem_reverse.2 he) ht
  | some b =>
    rw [hb] at hbest
    obtain ⟨hmem, hup, hleast⟩ := hbest
    obtain ⟨before, hsplit⟩ := lineage_suffix_of_mem hup
    have hnodupLine := c.nodup_lineage
    rw [← hsplit] at hnodupLine
    have hbefore : before.findSome? (entryFor? entries) = none := by
      refine List.findSome?_eq_none_iff.2 fun t ht => Option.eq_none_iff_forall_ne_some.2 ?_
      intro command h
      have htup : t ∈ c.lineage := hsplit ▸ List.mem_append_left _ ht
      obtain ⟨e, he, rfl⟩ := hentry t htup command h
      have hafter := hleast e (List.mem_reverse.2 he) htup
      exact (List.nodup_append.1 hnodupLine).2.2 _ ht _ hafter rfl
    obtain ⟨above, habove⟩ := b.1.exists_lineage_eq_cons
    rw [← hsplit, List.findSome?_append, hbefore, Option.none_or, habove, List.findSome?_cons,
      entryFor?_of_mem hnone (List.mem_reverse.1 hmem)]
    rfl

end Best

/-! ## Histories -/

/-- What can happen to a table of commands by type. -/
inductive Event (α : Type) where
  /-- A command is registered for a type. -/
  | register (tag : TypeTag) (command : α)
  /-- The command for a type is removed. -/
  | remove (tag : TypeTag)
  /-- A type is made known. -/
  | declare (tag : TypeTag)
  /-- The command for values of a type is looked for. -/
  | resolve (tag : TypeTag)

namespace Event

/-- The type that an event is about. -/
def tag : Event α → TypeTag
  | .register tag _ => tag
  | .remove tag => tag
  | .declare tag => tag
  | .resolve tag => tag

/-- The table after an event. -/
def apply (t : TypeCommands α) : Event α → TypeCommands α
  | .register tag command => t.register tag command
  | .remove tag => t.remove tag
  | .declare tag => t.declare tag
  | .resolve tag => (t.resolve tag).2

/-- Whether the event changes what is registered for exactly the type. -/
def changes (t : TypeTag) : Event α → Bool
  | .register tag _ => tag.same t
  | .remove tag => tag.same t
  | .declare _ => false
  | .resolve _ => false

/-- What is registered for exactly the type after an event, given what was before. -/
def registers (t : TypeTag) (before : Option α) : Event α → Option α
  | .register tag command => if tag.same t then some command else before
  | .remove tag => if tag.same t then none else before
  | .declare _ => before
  | .resolve _ => before

end Event

/-- The table after some events, there being nothing in it at first. -/
def after (events : List (Event α)) : TypeCommands α :=
  events.foldl Event.apply {}

/-- The command that is registered for exactly the type after some events: the one that was
registered last, if it was not removed since. -/
def registered? (events : List (Event α)) (t : TypeTag) : Option α :=
  events.foldl (Event.registers t) none

/-- The table holds what was registered, for types of `tags` and their ancestors, and what it
remembers is what it would find. -/
structure Faithful (tags : List TypeTag) (events : List (Event α)) (t : TypeCommands α) : Prop where
  /-- The registrations are for types of `tags` and their ancestors. -/
  told : ∀ e ∈ t.entries, e.1 ∈ tags.flatMap lineage
  /-- No two of them are for the same type. -/
  noneTwice : NoneTwice t.entries
  /-- They are what was registered last. -/
  current : ∀ u, entryFor? t.entries u = registered? events u
  /-- What is remembered for a type is the command for the first type on the way up. -/
  remembered : ∀ u ∈ tags.flatMap lineage, ∀ command, t.found.find? u.name = some command →
    u.lineage.findSome? (entryFor? t.entries) = some command

section Histories

variable {tags : List TypeTag} {events : List (Event α)} {t : TypeCommands α}

/-- The last event decides last. -/
lemma registered?_concat (events : List (Event α)) (e : Event α) (u : TypeTag) :
    registered? (events ++ [e]) u = e.registers u (registered? events u) :=
  List.foldl_concat ..

/-- **What is found** in a faithful table, whether it is remembered or not. -/
lemma Faithful.resolve_eq (h : Faithful tags events t) (htags : ToldByName tags) {c : TypeTag}
    (hc : c ∈ tags.flatMap lineage) :
    (t.resolve c).1 = c.lineage.findSome? (entryFor? t.entries) := by
  unfold resolve
  split
  next command hfound => exact (h.remembered c hc command hfound).symm
  next =>
    rw [findSome?_entryFor? htags hc h.told h.noneTwice]
    split
    next hbest =>
      rw [hbest]
      rfl
    next hbest =>
      rw [hbest]
      rfl

/-- Finding a command changes what is remembered, and nothing else. -/
lemma Faithful.resolve (h : Faithful tags events t) (htags : ToldByName tags) {c : TypeTag}
    (hc : c ∈ tags.flatMap lineage) : Faithful tags events (t.resolve c).2 := by
  have hfind := h.resolve_eq htags hc
  unfold TypeCommands.resolve at hfind ⊢
  split
  · exact h
  next hnew =>
    rw [hnew] at hfind
    dsimp only at hfind
    split
    · exact h
    next command hbest =>
      rw [hbest] at hfind
      refine ⟨h.told, h.noneTwice, h.current, fun u hu command' hfound => ?_⟩
      rw [Table.find?_insert] at hfound
      split at hfound
      next hname =>
        obtain rfl := htags u hu c hc hname
        cases hfound
        exact hfind.symm
      next => exact h.remembered u hu command' hfound

/-- **Every event keeps the table faithful.** -/
lemma Faithful.apply (h : Faithful tags events t) (htags : ToldByName tags) {e : Event α}
    (he : e.tag ∈ tags.flatMap lineage) : Faithful tags (events ++ [e]) (e.apply t) := by
  cases e with
  | register tag command =>
    refine ⟨fun e hmem => ?_, h.noneTwice.replace tag command, fun u => ?_, fun _ _ _ => nofun⟩
    · obtain heq | ⟨f, hf, heq⟩ := mem_of_mem_replace hmem
      · exact heq ▸ he
      · exact heq ▸ h.told f hf
    · rw [registered?_concat, ← h.current u]
      exact entryFor?_replace tag u command t.entries
  | remove tag =>
    refine ⟨fun e hmem => h.told e (List.mem_of_mem_eraseP hmem), h.noneTwice.eraseP tag,
      fun u => ?_, fun _ _ _ => nofun⟩
    rw [registered?_concat, ← h.current u]
    exact entryFor?_eraseP tag u h.noneTwice
  | declare tag =>
    refine ⟨h.told, h.noneTwice, fun u => ?_, h.remembered⟩
    rw [registered?_concat]
    exact h.current u
  | resolve tag =>
    have ht := h.resolve htags he
    refine ⟨ht.told, ht.noneTwice, fun u => ?_, ht.remembered⟩
    rw [registered?_concat]
    exact ht.current u

/-- The table is faithful after any events. -/
lemma faithful_after (htags : ToldByName tags)
    (hevents : ∀ e ∈ events, e.tag ∈ tags.flatMap lineage) :
    Faithful tags events (after events) := by
  induction events using List.reverseRecOn with
  | nil => exact ⟨fun _ => nofun, List.nodup_nil, fun _ => rfl, fun _ _ _ => nofun⟩
  | append_singleton events e ih =>
    have hlast := hevents e (List.mem_append_right _ List.mem_cons_self)
    rw [after, List.foldl_concat]
    exact (ih fun f hf => hevents f (List.mem_append_left _ hf)).apply htags hlast

/-- What is registered for a type is made of what was done for that type alone. -/
lemma registered?_filter (events : List (Event α)) (u : TypeTag) :
    registered? (events.filter (Event.changes u)) u = registered? events u := by
  unfold registered?
  rw [List.foldl_filter]
  congr
  funext before e
  cases e with
  | register tag command =>
    simp only [Event.changes, Event.registers]
    split
    · rfl
    · rfl
  | remove tag =>
    simp only [Event.changes, Event.registers]
    split
    · rfl
    · rfl
  | declare tag => rfl
  | resolve tag => rfl

end Histories

/-- **The most specific command is found, whatever happened before.** After any registrations,
removals, declarations and searches, for types that are told by their names: what is found for a
type is the command that is registered for the first type on the way up from it that has one, and
nothing is found exactly if none has one. What was registered for which type is all that matters:
after other events that did the same for each type on the way up, in whatever order and with
whatever searches in between, the same is found. -/
theorem resolve_after (events : List (Event α)) (c : TypeTag)
    (htags : ToldByName (c :: events.map Event.tag)) :
    ((after events).resolve c).1 = c.lineage.findSome? (registered? events) ∧
    (((after events).resolve c).1 = none ↔ ∀ t ∈ c.lineage, registered? events t = none) ∧
    ∀ events' : List (Event α), ToldByName (c :: events'.map Event.tag) →
      (∀ t ∈ c.lineage, events.filter (Event.changes t) = events'.filter (Event.changes t)) →
      ((after events').resolve c).1 = ((after events).resolve c).1 := by
  have hfind : ∀ events : List (Event α), ToldByName (c :: events.map Event.tag) →
      ((after events).resolve c).1 = c.lineage.findSome? (registered? events) := by
    intro events htags
    have hc : c ∈ (c :: events.map Event.tag).flatMap lineage :=
      List.mem_flatMap.2 ⟨c, List.mem_cons_self, c.mem_lineage_self⟩
    have hevents : ∀ e ∈ events, e.tag ∈ (c :: events.map Event.tag).flatMap lineage := by
      intro e he
      exact List.mem_flatMap.2 ⟨e.tag, List.mem_cons_of_mem _ (List.mem_map_of_mem he),
        e.tag.mem_lineage_self⟩
    have hfaithful := faithful_after htags hevents
    rw [hfaithful.resolve_eq htags hc, funext hfaithful.current]
  refine ⟨hfind events htags, ?_, fun events' htags' hsame => ?_⟩
  · rw [hfind events htags, List.findSome?_eq_none_iff]
  · rw [hfind events htags, hfind events' htags', ← List.head?_filterMap, ← List.head?_filterMap]
    refine congrArg List.head? (List.filterMap_congr fun t ht => ?_)
    rw [← registered?_filter events, ← registered?_filter events', hsame t ht]

open Workbench (shape circle) in
/-- Commands are registered for circles and for shapes, one is found for a circle, and then the one
for circles is removed. -/
def circleRemoved : List (Event String) :=
  [.register circle "circle", .register shape "shape", .resolve circle, .remove circle]

/-- A circle is run by the command for shapes once the one for circles is removed, though that one
was found before. -/
theorem resolve_after_circleRemoved :
    ToldByName (Workbench.circle :: circleRemoved.map Event.tag) ∧
      ((after circleRemoved).resolve Workbench.circle).1 = some "shape" := by
  have htags : ToldByName (Workbench.circle :: circleRemoved.map Event.tag) := by
    unfold ToldByName
    decide
  obtain ⟨hfind, -⟩ := resolve_after circleRemoved Workbench.circle htags
  exact ⟨htags, hfind.trans (by decide)⟩

end TypeCommands

end CommandScript

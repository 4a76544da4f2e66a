import CommandScript.Command.Registry
import CommandScript.Proofs.Table.Members
import Mathlib.Data.List.Induction
import Mathlib.Logic.Function.Basic
import Mathlib.Order.Basic
import Mathlib.Order.Nat
import Mathlib.Tactic.Lemma

/-!
# The table of commands, whatever was done to it

Commands are added, removed, renamed and given further names, in any sequence. Two things can be
asked of the table then: which command a name stands for, and in which order the names are listed.

What a name stands for is told without the table, by a function on names that each event changes at
one name or at two. The order is told by when a name was bound: a name may be bound and removed
again any number of times, and what counts is the event that bound it last while it was not bound.
Overwriting a name, with a command of its own or with that of another name, is no such event.

The order is proved one event at a time: the names after an event are the names before it that are
still bound, in the same order, and at most one more at the end.

## Main definitions

* `Registry.Event`, `Registry.after` — what is done to a table, and the table afterwards.
* `Registry.bindings` — which command a name stands for, told without the table.
* `Registry.Created` — the event that bound a name, it being bound ever since.
* `Registry.Event.Touches` — the names that an event changes.
* `Registry.Step` — what an event can do, told once for all of them.
* `Registry.Renamed`, `Registry.Aliased` — what a successful `rename` and `alias` do.

## Main results

* `Registry.step_event` — every event is such a step.
* `Registry.find?_after` — the table holds the bindings.
* `Registry.Step.keys_eq` — the names after a step.
* `Registry.created_concat` — the event that bound a name, from one event to the next.
* `Registry.pairwise_keys_after` — the names are in the order in which they were bound.
* `Registry.bindings_append_of_not_touches` — events on other names leave a name alone.
* `Registry.ordered_after` — the table after any events.
-/

set_option autoImplicit false

namespace CommandScript

namespace Registry

variable {α : Type}

/-! ## Events -/

/-- What is done to a table of commands. -/
inductive Event (α : Type) where
  /-- A name is bound to a command. -/
  | add (name : String) (command : α)
  /-- A name is removed. -/
  | remove (name : String)
  /-- A command is moved to another name. -/
  | rename (old new : String)
  /-- A command gets another name, too. -/
  | addAlias (old new : String)

namespace Event

/-- What comes of an event: another table, or an error. -/
def apply (r : Registry α) : Event α → Except Failure (Registry α)
  | .add name command => .ok (Registry.add r name command)
  | .remove name => .ok (Registry.remove r name)
  | .rename old new => Registry.rename r old new
  | .addAlias old new => Registry.addAlias r old new

/-- The table after an event. An error leaves the table as it is. -/
def after (r : Registry α) (e : Event α) : Registry α :=
  match e.apply r with
  | .ok r' => r'
  | .error _ => r

/-- Which commands names stand for after an event, given what they stood for before. -/
def bind (f : String → Option α) : Event α → String → Option α
  | .add name command => Function.update f name (some command)
  | .remove name => Function.update f name none
  | .rename old new =>
    if f old = none ∨ old = new then f
    else Function.update (Function.update f new (f old)) old none
  | .addAlias old new => if f old = none then f else Function.update f new (f old)

/-- The event binds the name, or removes it. -/
def Touches (name : String) : Event α → Prop
  | .add other _ => name = other
  | .remove other => name = other
  | .rename old new => old ≠ new ∧ (name = old ∨ name = new)
  | .addAlias _ new => name = new

end Event

/-- The table after some events, there being nothing in it at first. -/
def after (events : List (Event α)) : Registry α :=
  events.foldl Event.after Table.empty

/-- Which commands names stand for after some events. -/
def bindings (events : List (Event α)) : String → Option α :=
  events.foldl Event.bind fun _ => none

/-- The event at the place `n` created the current binding of the name: the name was not bound
before it, and is bound ever since. -/
structure Created (events : List (Event α)) (name : String) (n : Nat) : Prop where
  /-- There is such an event. -/
  lt_length : n < events.length
  /-- The name was not bound before it. -/
  before : bindings (events.take n) name = none
  /-- The name is bound at all times after it. -/
  since : ∀ m, n < m → m ≤ events.length → bindings (events.take m) name ≠ none

/-! ## Single events -/

section Events

variable {r : Registry α} {events : List (Event α)} {name old new : String} {command : α}

/-- A name that is not there cannot be changed. -/
lemma rename_of_none (h : r.find? old = none) : rename r old new = .error (.noCommand old) := by
  rw [rename, h]

/-- Nor can it get another name beside it. -/
lemma addAlias_of_none (h : r.find? old = none) :
    addAlias r old new = .error (.noCommand old) := by
  rw [addAlias, h]

/-- A name that is there is changed: the command gets the new name, and then loses the old one. -/
lemma rename_of_find? (h : r.find? old = some command) :
    rename r old new = .ok (if old = new then r else remove (add r new command) old) := by
  rw [rename, h]

/-- The command gets the other name beside the one it has. -/
lemma addAlias_of_find? (h : r.find? old = some command) :
    addAlias r old new = .ok (add r new command) := by
  rw [addAlias, h]

/-- What an event can do to a table, and to what names stand for. -/
inductive Step (r : Registry α) : Registry α → (String → Option α) → Prop where
  /-- Nothing changes. -/
  | same : Step r r r.find?
  /-- A name is bound. -/
  | bind (name : String) (command : α) :
    Step r (add r name command) (Function.update r.find? name (some command))
  /-- A name is removed. -/
  | remove (name : String) : Step r (remove r name) (Function.update r.find? name none)
  /-- A name is bound, and another one is removed. -/
  | move {old new : String} (hne : old ≠ new) (command : α) :
    Step r (Registry.remove (add r new command) old)
      (Function.update (Function.update r.find? new (some command)) old none)

/-- **Every event does one of these things**, both to the table and to the bindings. -/
lemma step_event (r : Registry α) (e : Event α) : Step r (e.after r) (e.bind r.find?) := by
  cases e with
  | add name command => exact .bind name command
  | remove name => exact .remove name
  | rename old new =>
    rw [Event.after, Event.apply, Event.bind]
    cases hold : r.find? old with
    | none =>
      rw [rename_of_none hold, if_pos (.inl rfl)]
      exact .same
    | some command =>
      rw [rename_of_find? hold]
      by_cases heq : old = new
      · rw [if_pos heq, if_pos (.inr heq)]
        exact .same
      · rw [if_neg heq, if_neg (by simp [heq])]
        exact .move heq command
  | addAlias old new =>
    rw [Event.after, Event.apply, Event.bind]
    cases hold : r.find? old with
    | none =>
      rw [addAlias_of_none hold, if_pos rfl]
      exact .same
    | some command =>
      rw [addAlias_of_find? hold, if_neg (by simp)]
      exact .bind new command

/-! ## Look-ups -/

/-- The table holds what a step says that names stand for. -/
lemma Step.find?_eq {r' : Registry α} {f : String → Option α} (h : Step r r' f) :
    r'.find? = f := by
  funext other
  cases h with
  | same => rfl
  | bind name command => rw [add, Table.find?_insert, Function.update_apply]
  | remove name => rw [Registry.remove, Table.find?_erase, Function.update_apply]
  | move hne command =>
    rw [Registry.remove, add, Table.find?_erase, Table.find?_insert, Function.update_apply,
      Function.update_apply]

/-- The last event happens last. -/
lemma after_concat (events : List (Event α)) (e : Event α) :
    after (events ++ [e]) = e.after (after events) :=
  List.foldl_append

/-- The last event binds last. -/
lemma bindings_concat (events : List (Event α)) (e : Event α) :
    bindings (events ++ [e]) = e.bind (bindings events) :=
  List.foldl_append

/-- **The table holds the bindings**, after any events. -/
theorem find?_after (events : List (Event α)) : (after events).find? = bindings events := by
  induction events using List.reverseRecOn with
  | nil => rfl
  | append_singleton events e ih =>
    rw [after_concat, bindings_concat, (step_event _ e).find?_eq, ih]

/-- An event leaves the names alone that it does not touch. -/
lemma bind_of_not_touches {e : Event α} (f : String → Option α) (h : ¬ e.Touches name) :
    e.bind f name = f name := by
  cases e with
  | add other command => exact Function.update_of_ne h ..
  | remove other => exact Function.update_of_ne h ..
  | rename old new =>
    simp only [Event.bind]
    split
    · rfl
    · next hmoves =>
      have hne : old ≠ new := fun heq => hmoves (.inr heq)
      rw [Function.update_of_ne fun hold => h ⟨hne, .inl hold⟩,
        Function.update_of_ne fun hnew => h ⟨hne, .inr hnew⟩]
  | addAlias old new =>
    simp only [Event.bind]
    split
    · rfl
    · exact Function.update_of_ne h ..

/-- Events leave the names alone that none of them touches. -/
lemma bindings_append_of_not_touches {later : List (Event α)} (h : ∀ e ∈ later, ¬ e.Touches name) :
    bindings (events ++ later) name = bindings events name := by
  induction later using List.reverseRecOn with
  | nil => rw [List.append_nil]
  | append_singleton later e ih =>
    rw [← List.append_assoc, bindings_concat, bind_of_not_touches _ (h e (by simp)),
      ih fun e he => h e (List.mem_append_left _ he)]

/-! ## The order of names -/

/-- The names after a name was bound: it keeps its place, or comes last. -/
lemma keys_add (r : Registry α) (name : String) (command : α) :
    ∃ fresh : Option String, (∀ other ∈ fresh, other = name ∧ name ∉ r.keys) ∧
      (add r name command).keys = r.keys ++ fresh.toList := by
  rw [add, Table.keys_insert]
  by_cases hmem : name ∈ r.keys
  · exact ⟨none, by simp, by rw [if_pos hmem, Option.toList_none, List.append_nil]⟩
  · refine ⟨some name, ?_, by rw [if_neg hmem, Option.toList_some]⟩
    rintro other ⟨⟩
    exact ⟨rfl, hmem⟩

/-- Names that stay bound stay listed. -/
lemma filter_keys_eq_self {f : String → Option α}
    (h : ∀ name, r.find? name ≠ none → f name ≠ none) :
    r.keys.filter (fun name => f name ≠ none) = r.keys := by
  rw [List.filter_eq_self]
  intro name hname
  exact decide_eq_true (h name (Table.mem_keys_iff.1 hname))

/-- The names but one are those that are bound if that one is not. -/
lemma filter_keys_ne (r : Registry α) (name : String) {f : String → Option α}
    (hname : f name = none) (h : ∀ other ≠ name, r.find? other ≠ none → f other ≠ none) :
    r.keys.filter (fun other => f other ≠ none) = r.keys.filter (fun other => other != name) := by
  apply List.filter_congr
  intro other hother
  by_cases heq : other = name
  · simp [heq, hname]
  · have hbound := h other heq (Table.mem_keys_iff.1 hother)
    simp [heq, hbound]

/-- **The names after a step** are those before it that are still bound, in their order, and at most
one more at the end. -/
lemma Step.keys_eq {r' : Registry α} {f : String → Option α} (h : Step r r' f) :
    ∃ fresh : Option String, (∀ name ∈ fresh, name ∉ r.keys) ∧
      r'.keys = r.keys.filter (fun name => f name ≠ none) ++ fresh.toList := by
  cases h with
  | same =>
    refine ⟨none, by simp, ?_⟩
    rw [filter_keys_eq_self fun _ h => h, Option.toList_none, List.append_nil]
  | bind name command =>
    obtain ⟨fresh, hfresh, hkeys⟩ := keys_add r name command
    refine ⟨fresh, fun other hother => (hfresh other hother).1 ▸ (hfresh other hother).2, ?_⟩
    rw [filter_keys_eq_self]
    · exact hkeys
    · intro other hother
      by_cases heq : other = name
      · simp [heq]
      · rwa [Function.update_of_ne heq]
  | remove name =>
    refine ⟨none, by simp, ?_⟩
    rw [filter_keys_ne r name (by simp), Option.toList_none, List.append_nil]
    · exact Table.keys_erase r name
    · intro other hne hother
      rwa [Function.update_of_ne hne]
  | @move old new hne command =>
    obtain ⟨fresh, hfresh, hkeys⟩ := keys_add r new command
    refine ⟨fresh, fun other hother => (hfresh other hother).1 ▸ (hfresh other hother).2, ?_⟩
    -- the new name is not the old one, so it stays where the old one goes
    have hold : fresh.toList.filter (fun name => name != old) = fresh.toList := by
      rw [List.filter_eq_self]
      intro other hother
      have hnew := (hfresh other (Option.mem_toList.1 hother)).1
      simpa [hnew] using Ne.symm hne
    rw [Registry.remove, Table.keys_erase, hkeys, List.filter_append, hold]
    congr 1
    symm
    apply filter_keys_ne r old (by simp)
    intro other hne hother
    rw [Function.update_of_ne hne, Function.update_apply]
    split
    · simp
    · exact hother

/-- A name that an event has bound for good is bound. -/
lemma Created.bound {n : Nat} (h : Created events name n) : bindings events name ≠ none := by
  have hsince := h.since events.length h.lt_length le_rfl
  rwa [List.take_length] at hsince

/-- **The event that bound a name**, from one event to the next: a name that is still bound was
bound by the event that bound it before, or by the last one if it was not bound before. -/
lemma created_concat {e : Event α} {n : Nat} :
    Created (events ++ [e]) name n ↔
      bindings (events ++ [e]) name ≠ none ∧
        (Created events name n ∨ n = events.length ∧ bindings events name = none) := by
  have hlength : (events ++ [e]).length = events.length + 1 := List.length_append
  have hbefore : ∀ m ≤ events.length, (events ++ [e]).take m = events.take m := fun m hm =>
    List.take_append_of_le_length hm
  constructor
  · intro h
    refine ⟨h.bound, ?_⟩
    have hn := h.lt_length
    have hunbound := h.before
    rw [hbefore n (by omega)] at hunbound
    by_cases hlast : n = events.length
    · rw [hlast, List.take_length] at hunbound
      exact .inr ⟨hlast, hunbound⟩
    · refine .inl ⟨by omega, hunbound, fun m hnm hm => ?_⟩
      rw [← hbefore m hm]
      exact h.since m hnm (by omega)
  · rintro ⟨hbound, h | ⟨rfl, hunbound⟩⟩
    · have hn := h.lt_length
      refine ⟨by omega, by rw [hbefore n hn.le]; exact h.before, fun m hnm hm => ?_⟩
      by_cases hlast : m ≤ events.length
      · rw [hbefore m hlast]
        exact h.since m hnm hlast
      · rwa [List.take_of_length_le (by omega)]
    · refine ⟨by omega, by rwa [hbefore _ le_rfl, List.take_length], fun m hnm hm => ?_⟩
      rwa [List.take_of_length_le (by omega)]

/-- A name is bound exactly if an event has bound it for good. -/
lemma exists_created_iff : (∃ n, Created events name n) ↔ bindings events name ≠ none := by
  constructor
  · rintro ⟨n, h⟩
    exact h.bound
  · induction events using List.reverseRecOn with
    | nil => exact fun h => absurd rfl h
    | append_singleton events e ih =>
      intro hbound
      by_cases hbefore : bindings events name = none
      · exact ⟨events.length, created_concat.2 ⟨hbound, .inr ⟨rfl, hbefore⟩⟩⟩
      · obtain ⟨n, hn⟩ := ih hbefore
        exact ⟨n, created_concat.2 ⟨hbound, .inl hn⟩⟩

/-- The names are those that are bound. -/
lemma mem_keys_after : name ∈ (after events).keys ↔ bindings events name ≠ none := by
  rw [Table.mem_keys_iff, find?_after]

/-- **The names are in the order in which they were bound**, each by the event that bound it for
good.

**Proof sketch.** By induction on the events. After an event, the names that were there before it
and still are keep their order, by `Step.keys_eq`, and the events that bound them, by
`created_concat`. A name that comes in new is the last one, and the event that bound it is the last
one, too. -/
lemma pairwise_keys_after (events : List (Event α)) :
    (after events).keys.Pairwise fun a b =>
      ∀ m n, Created events a m → Created events b n → m < n := by
  induction events using List.reverseRecOn with
  | nil => exact .nil
  | append_singleton events e ih =>
    have hstep := step_event (after events) e
    rw [find?_after, ← bindings_concat] at hstep
    obtain ⟨fresh, hfresh, hkeys⟩ := hstep.keys_eq
    rw [after_concat, hkeys, List.pairwise_append]
    -- a name that was there has not been created again by the last event
    have hold : ∀ a ∈ (after events).keys, ∀ m,
        Created (events ++ [e]) a m → Created events a m := by
      intro a ha m hm
      rcases (created_concat.1 hm).2 with hm | ⟨-, hunbound⟩
      · exact hm
      · exact absurd hunbound (mem_keys_after.1 ha)
    refine ⟨?_, ?_, ?_⟩
    · refine (ih.filter _).imp_of_mem fun ha hb hab m n hm hn => ?_
      have hm := hold _ (List.mem_of_mem_filter ha) m hm
      have hn := hold _ (List.mem_of_mem_filter hb) n hn
      exact hab m n hm hn
    · cases fresh with
      | none => exact .nil
      | some b => exact List.pairwise_singleton ..
    · intro a ha b hb m n hm hn
      have hm := hold a (List.mem_of_mem_filter ha) m hm
      rcases (created_concat.1 hn).2 with hn | ⟨rfl, -⟩
      · exact absurd (mem_keys_after.2 hn.bound) (hfresh b (Option.mem_toList.1 hb))
      · exact hm.lt_length

end Events

/-! ## Renaming and further names -/

/-- What a successful `rename` to another name does. -/
structure Renamed (r : Registry α) (old new : String) (command : α) (r' : Registry α) : Prop where
  /-- The new name stands for the command. -/
  new_bound : r'.find? new = some command
  /-- The old name stands for nothing. -/
  old_unbound : r'.find? old = none
  /-- All other names stand for what they stood for. -/
  others : ∀ name, name ≠ old → name ≠ new → r'.find? name = r.find? name
  /-- The new name has the place that it had, or comes last. -/
  names : r'.keys = if new ∈ r.keys then r.keys.erase old else r.keys.erase old ++ [new]

/-- What a successful `alias` does. -/
structure Aliased (r : Registry α) (old new : String) (command : α) (r' : Registry α) : Prop where
  /-- Both names stand for the command. -/
  both_bound : r'.find? old = some command ∧ r'.find? new = some command
  /-- All other names stand for what they stood for. -/
  others : ∀ name, name ≠ new → r'.find? name = r.find? name
  /-- The new name has the place that it had, or comes last. -/
  names : r'.keys = if new ∈ r.keys then r.keys else r.keys ++ [new]

section Names

variable {r : Registry α} {old new : String} {command : α}

/-- A rename to another name succeeds, if the old name is bound. -/
lemma exists_renamed (hold : r.find? old = some command) (hne : old ≠ new) :
    ∃ r', rename r old new = .ok r' ∧ Renamed r old new command r' := by
  refine ⟨remove (add r new command) old, by rw [rename_of_find? hold, if_neg hne], ?_⟩
  have hfind := (Step.move (r := r) hne command).find?_eq
  refine ⟨?_, ?_, ?_, ?_⟩
  · rw [hfind, Function.update_of_ne hne.symm, Function.update_self]
  · rw [hfind, Function.update_self]
  · intro name hnold hnnew
    rw [hfind, Function.update_of_ne hnold, Function.update_of_ne hnnew]
  · rw [remove, add, Table.keys_erase, Table.keys_insert, r.nodup_keys.erase_eq_filter]
    split
    · rfl
    · have hkept : [new].filter (fun name => name != old) = [new] := by simp [hne.symm]
      rw [List.filter_append, hkept]

/-- An alias succeeds, if the old name is bound. -/
lemma exists_aliased (hold : r.find? old = some command) (new : String) :
    ∃ r', addAlias r old new = .ok r' ∧ Aliased r old new command r' := by
  refine ⟨add r new command, addAlias_of_find? hold, ?_⟩
  have hfind := (Step.bind (r := r) new command).find?_eq
  refine ⟨⟨?_, ?_⟩, ?_, Table.keys_insert ..⟩
  · rw [hfind, Function.update_apply]
    split
    · rfl
    · exact hold
  · rw [hfind, Function.update_self]
  · intro name hname
    rw [hfind, Function.update_of_ne hname]

end Names

/-- **The table of commands is an ordered map, after any events.**

No name is listed twice. The names that are listed are those that were bound and are bound since, in
the order in which that happened, and a name stands for what the bindings say.

To rename or alias a name that is not there is an error and changes nothing. A rename to another
name moves the command, and an alias binds both names to it; the places of names and what other
names stand for stay as they are, and a new name comes last. With a single name, both change
nothing. Whatever events come after an alias, each of the two names stands for the command as long
as no event touches this name itself. -/
theorem ordered_after (events : List (Event α)) :
    ((after events).keys.Nodup ∧
      ((after events).keys.Pairwise fun a b =>
        ∀ m n, Created events a m → Created events b n → m < n) ∧
      ∀ name, (after events).find? name = bindings events name ∧
        (name ∈ (after events).keys ↔ ∃ n, Created events name n)) ∧
    (∀ old new, (after events).find? old = none →
      rename (after events) old new = .error (.noCommand old) ∧
      addAlias (after events) old new = .error (.noCommand old) ∧
      after (events ++ [.rename old new]) = after events ∧
      after (events ++ [.addAlias old new]) = after events) ∧
    (∀ name command, (after events).find? name = some command →
      rename (after events) name name = .ok (after events) ∧
      addAlias (after events) name name = .ok (after events)) ∧
    (∀ old new command, (after events).find? old = some command → old ≠ new →
      ∃ r, rename (after events) old new = .ok r ∧ Renamed (after events) old new command r) ∧
    ∀ old new command, (after events).find? old = some command →
      (∃ r, addAlias (after events) old new = .ok r ∧ Aliased (after events) old new command r) ∧
      ∀ name, name = old ∨ name = new → ∀ later : List (Event α), (∀ e ∈ later, ¬ e.Touches name) →
        (after (events ++ .addAlias old new :: later)).find? name = some command := by
  refine ⟨⟨Table.nodup_keys _, pairwise_keys_after events, fun name => ?_⟩, ?_, ?_, ?_, ?_⟩
  · rw [find?_after, mem_keys_after, exists_created_iff]
    exact ⟨rfl, Iff.rfl⟩
  · intro old new hold
    refine ⟨rename_of_none hold, addAlias_of_none hold, ?_, ?_⟩
    · rw [after_concat, Event.after, Event.apply, rename_of_none hold]
    · rw [after_concat, Event.after, Event.apply, addAlias_of_none hold]
  · intro name command hname
    refine ⟨by rw [rename_of_find? hname, if_pos rfl], ?_⟩
    rw [addAlias_of_find? hname, add, Table.insert_of_find? hname]
  · intro old new command hold hne
    exact exists_renamed hold hne
  · intro old new command hold
    obtain ⟨r, hr, haliased⟩ := exists_aliased hold new
    refine ⟨⟨r, hr, haliased⟩, ?_⟩
    intro name hname later hlater
    have hafter : after (events ++ [.addAlias old new]) = r := by
      rw [after_concat, Event.after, Event.apply, hr]
    rw [List.append_cons, find?_after, bindings_append_of_not_touches hlater, ← find?_after, hafter]
    rcases hname with rfl | rfl
    · exact haliased.both_bound.1
    · exact haliased.both_bound.2

/-- A command gets a second name, and then replaces another one under its name. -/
def assignReplaced : List (Event Nat) :=
  [.add "set" 0, .add "puts" 1, .addAlias "set" "assign", .rename "set" "puts"]

/-- The name of the replaced command is listed where it was, before the second name, the old name is
not there any more, and the command can be moved back. -/
theorem ordered_after_assignReplaced :
    (after assignReplaced).keys = ["puts", "assign"] ∧
      rename (after assignReplaced) "set" "get" = .error (.noCommand "set") ∧
      ∃ r, rename (after assignReplaced) "puts" "set" = .ok r ∧
        Renamed (after assignReplaced) "puts" "set" 0 r := by
  obtain ⟨-, habsent, -, hrenamed, -⟩ := ordered_after assignReplaced
  exact ⟨by decide, (habsent "set" "get" (by decide)).1,
    hrenamed "puts" "set" 0 (by decide) (by decide)⟩

end Registry

end CommandScript

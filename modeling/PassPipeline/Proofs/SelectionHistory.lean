import Mathlib.Data.List.Induction
import PassPipeline.Proofs.Selection

/-! The allocators of a whole session. Selections, resets and registrations may come in any order
and may fail; what a selection answers is still decided by the name that was chosen, or by the first
answer of a target since the last reset. -/
namespace PassPipeline

namespace AllocatorRegistry

/-- One more registration. One that is refused leaves the registry as it was. -/
def attempt (r : AllocatorRegistry) (a : Allocator) : AllocatorRegistry :=
  match r.register a with
  | .ok r' => r'
  | .error _ => r

/-- The registry behind registrations, refused ones among them. -/
def ofAttempts (l : List Allocator) : AllocatorRegistry := l.foldl attempt empty

/-- Every registered allocator has a pass. -/
def Provides (r : AllocatorRegistry) : Prop := ∀ a ∈ r.registered, a.pass ≠ .none

variable {r r' : AllocatorRegistry} {a b : Allocator} {name : String}

theorem register_ok (h : r.register a = .ok r') :
    a.pass ≠ .none ∧ r.lookup? a.name = none ∧ r' = ⟨r.registered ++ [a]⟩ := by
  unfold register at h
  split at h
  · cases h
  · rename_i hpass
    split at h
    · cases h
    · rename_i hname
      cases h
      exact ⟨hpass, by simpa using hname, rfl⟩

theorem attempt_cases (r : AllocatorRegistry) (a : Allocator) :
    r.attempt a = r ∨ a.pass ≠ .none ∧ r.attempt a = ⟨r.registered ++ [a]⟩ := by
  unfold attempt
  cases h : r.register a with
  | error e => exact .inl rfl
  | ok r' =>
    obtain ⟨hpass, -, rfl⟩ := register_ok h
    exact .inr ⟨hpass, rfl⟩

theorem lookup?_attempt (h : r.lookup? name = some b) (a : Allocator) :
    (r.attempt a).lookup? name = some b := by
  rcases r.attempt_cases a with he | ⟨-, he⟩
  · rw [he, h]
  · have hentries : entries ⟨r.registered ++ [a]⟩ = r.entries ++ [a] := rfl
    have hfound : r.entries.find? (·.name = name) = some b := h
    rw [he, lookup?, hentries, List.find?_append, hfound, Option.some_or]

theorem Provides.attempt (h : r.Provides) (a : Allocator) : (r.attempt a).Provides := by
  rcases r.attempt_cases a with he | ⟨hpass, he⟩
  · rwa [he]
  · rw [he]
    intro b hb
    rcases List.mem_append.mp hb with hb | hb
    · exact h b hb
    · obtain rfl := List.mem_singleton.mp hb
      exact hpass

theorem Provides.foldl (h : r.Provides) (l : List Allocator) :
    (l.foldl AllocatorRegistry.attempt r).Provides := by
  induction l generalizing r with
  | nil => exact h
  | cons a l ih => exact ih (h.attempt a)

theorem provides_ofAttempts (l : List Allocator) : (ofAttempts l).Provides :=
  Provides.foldl (by simp [Provides, empty]) l

theorem Provides.pass_ne_none (h : r.Provides) (ha : r.lookup? name = some a)
    (hne : name ≠ Allocator.defaultName) : a.pass ≠ .none :=
  h a (mem_registered_of_lookup? ha hne)

end AllocatorRegistry

namespace Selector

/-- What can happen to the allocators of a session. -/
inductive Event where
  /-- A pipeline selects an allocator, with a target that would answer so. -/
  | select (optimized : Bool) (answers : AllocatorAnswers)
  | reset
  | register (a : Allocator)
  deriving DecidableEq

inductive Reply where
  | selected (id : PassId)
  | failed (e : AllocatorError)
  | done
  deriving DecidableEq

/-- What is heard of an event. -/
structure Heard where
  event : Event
  reply : Reply
  /-- The paths that the target was asked about. -/
  asked : List Bool := []
  deriving DecidableEq

variable {s : Selector} {events : List Event}

/-- What is heard of an event, and what is left behind it. A selection or a registration that fails
leaves all as it was. -/
def step (s : Selector) (event : Event) : Heard × Selector :=
  match event with
  | .select optimized answers =>
    match s.selectAsked optimized answers with
    | (.ok (id, s'), asked) => ({ event, reply := .selected id, asked }, s')
    | (.error e, asked) => ({ event, reply := .failed e, asked }, s)
  | .reset => ({ event, reply := .done }, s.reset)
  | .register a =>
    match s.registry.register a with
    | .ok registry => ({ event, reply := .done }, { s with registry })
    | .error e => ({ event, reply := .failed e }, s)

def run (s : Selector) (events : List Event) : Selector := events.foldl (fun s e => (s.step e).2) s

/-- What is heard of events that happen one after the other. -/
def transcript (s : Selector) : List Event → List Heard
  | [] => []
  | e :: rest => (s.step e).1 :: (s.step e).2.transcript rest

/-- The kind that the last selection which succeeded returned, unless there was a reset since. -/
def standing (heard : List Heard) (before : Option PassId) : Option PassId :=
  heard.foldl (fun last h =>
    match h.event, h.reply with
    | .reset, _ => none
    | _, .selected id => some id
    | _, _ => last) before

def sinceReset (events : List Event) : List Event :=
  (events.reverse.takeWhile (· ≠ .reset)).reverse

/-- The allocator that a target offers when it is asked. -/
def Event.offer? : Event → Option PassId
  | .select optimized answers =>
    if answers.answer optimized = .none then none else some (answers.answer optimized)
  | _ => none

def firstOffer? (events : List Event) : Option PassId := events.findSome? Event.offer?

theorem run_concat (s : Selector) (events : List Event) (e : Event) :
    s.run (events ++ [e]) = ((s.run events).step e).2 := by
  simp [run]

theorem sinceReset_concat_of_ne {e : Event} (h : e ≠ .reset) (events : List Event) :
    sinceReset (events ++ [e]) = sinceReset events ++ [e] := by
  simp [sinceReset, h]

theorem sinceReset_concat_reset (events : List Event) : sinceReset (events ++ [.reset]) = [] := by
  simp [sinceReset]

theorem firstOffer?_concat (events : List Event) (e : Event) :
    firstOffer? (events ++ [e]) = (firstOffer? events).or e.offer? := by
  simp [firstOffer?, List.findSome?_append]

theorem offer?_ne_none {e : Event} {id : PassId} (h : e.offer? = some id) : id ≠ .none := by
  cases e with
  | select optimized answers =>
    simp only [Event.offer?, Option.ite_none_left_eq_some, Option.some.injEq] at h
    exact h.2 ▸ h.1
  | reset => cases h
  | register a => cases h

/-! One event -/

@[simp] theorem step_event (s : Selector) (e : Event) : (s.step e).1.event = e := by
  cases e with
  | select optimized answers => simp only [step]; split <;> rfl
  | reset => rfl
  | register a => simp only [step]; split <;> rfl

theorem step_register (s : Selector) (a : Allocator) :
    (s.step (.register a)).1.asked = [] ∧
      (∀ id, (s.step (.register a)).1.reply ≠ .selected id) ∧
      (s.step (.register a)).2 = { s with registry := s.registry.attempt a } := by
  simp only [step, AllocatorRegistry.attempt]
  split <;> simp

theorem step_of_resolved {id : PassId} (h : s.resolved = some id) (optimized : Bool)
    (answers : AllocatorAnswers) :
    s.step (.select optimized answers) = (⟨.select optimized answers, .selected id, []⟩, s) := by
  simp [step, selectAsked_eq, select_eq, asksTarget, h]

theorem step_of_default (hr : s.resolved = none) (hc : s.choice = Allocator.defaultName)
    (optimized : Bool) (answers : AllocatorAnswers) :
    s.step (.select optimized answers) =
      match (Event.select optimized answers).offer? with
      | some id =>
        (⟨.select optimized answers, .selected id, [optimized]⟩, { s with resolved := some id })
      | none =>
        (⟨.select optimized answers, .failed (.noneProvided optimized), [optimized]⟩, s) := by
  by_cases hn : answers.answer optimized = .none <;>
    simp [step, selectAsked_eq, select_eq, asksTarget, hr, hc, hn, Event.offer?]

@[simp] theorem step_choice (s : Selector) (e : Event) : (s.step e).2.choice = s.choice := by
  cases e with
  | select optimized answers =>
    simp only [step, selectAsked_eq]
    cases h : s.select optimized answers with
    | error e => rfl
    | ok x =>
      have hleft : x.2 = { s with resolved := some x.1 } := (select_ok h).1
      change x.2.choice = s.choice
      rw [hleft]
  | reset => rfl
  | register a => rw [(s.step_register a).2.2]

/-- What is remembered behind an event, as it can be heard. -/
theorem step_resolved (s : Selector) (e : Event) :
    (s.step e).2.resolved = standing [(s.step e).1] s.resolved := by
  cases e with
  | select optimized answers =>
    simp only [step, selectAsked_eq]
    cases h : s.select optimized answers with
    | error e => rfl
    | ok x =>
      have hleft : x.2 = { s with resolved := some x.1 } := (select_ok h).1
      exact congrArg Selector.resolved hleft
  | reset => rfl
  | register a =>
    simp only [step]
    split <;> rfl

/-! Whole histories -/

@[simp] theorem run_choice (s : Selector) (events : List Event) :
    (s.run events).choice = s.choice := by
  induction events generalizing s with
  | nil => rfl
  | cons e rest ih => exact (ih (s.step e).2).trans (s.step_choice e)

@[simp] theorem map_event_transcript (s : Selector) (events : List Event) :
    (s.transcript events).map Heard.event = events := by
  induction events generalizing s with
  | nil => rfl
  | cons e rest ih => simp [transcript, ih]

theorem transcript_append (s : Selector) (past rest : List Event) :
    s.transcript (past ++ rest) = s.transcript past ++ (s.run past).transcript rest := by
  induction past generalizing s with
  | nil => rfl
  | cons e past ih => exact congrArg ((s.step e).1 :: ·) (ih (s.step e).2)

theorem run_resolved (s : Selector) (events : List Event) :
    (s.run events).resolved = standing (s.transcript events) s.resolved := by
  induction events generalizing s with
  | nil => rfl
  | cons e rest ih =>
    calc ((s.step e).2.run rest).resolved
        = standing ((s.step e).2.transcript rest) (s.step e).2.resolved := ih (s.step e).2
      _ = standing (s.transcript (e :: rest)) s.resolved := by rw [step_resolved]; rfl

/-- Whatever is heard, is heard of one event behind those before it. -/
theorem transcript_eq_append {before after : List Heard} {heard : Heard}
    (h : s.transcript events = before ++ heard :: after) :
    ∃ past e, s.transcript past = before ∧ heard = ((s.run past).step e).1 := by
  induction before generalizing s events with
  | nil =>
    cases events with
    | nil => cases h
    | cons e rest => exact ⟨[], e, rfl, (List.cons.inj h).1.symm⟩
  | cons first before ih =>
    cases events with
    | nil => cases h
    | cons e rest =>
      obtain ⟨rfl, hrest⟩ := List.cons.inj h
      obtain ⟨past, next, hbefore, hheard⟩ := ih hrest
      exact ⟨e :: past, next, by rw [transcript, hbefore], hheard⟩

theorem mem_transcript {heard : Heard} (h : heard ∈ s.transcript events) :
    ∃ past e, heard = ((s.run past).step e).1 := by
  obtain ⟨before, after, hsplit⟩ := List.append_of_mem h
  obtain ⟨past, e, -, hheard⟩ := transcript_eq_append hsplit
  exact ⟨past, e, hheard⟩

namespace Named

variable {a : Allocator} (h : Named a s)
include h

theorem step_select (optimized : Bool) (answers : AllocatorAnswers) :
    s.step (.select optimized answers) =
      (⟨.select optimized answers, .selected a.pass, []⟩, { s with resolved := some a.pass }) := by
  simp [Selector.step, selectAsked_eq, h.select, asksTarget, h.chosen]

/-- Neither a failure nor a further registration takes away what was chosen. -/
theorem step (e : Event) : Named a (s.step e).2 := by
  cases e with
  | select optimized answers =>
    rw [h.step_select]
    refine ⟨h.chosen, h.found, ?_⟩
    rintro _ ⟨⟩
    rfl
  | reset => exact ⟨h.chosen, h.found, by simp [Selector.step, reset]⟩
  | register b =>
    rw [(s.step_register b).2.2]
    exact ⟨h.chosen, AllocatorRegistry.lookup?_attempt h.found b, h.resolved⟩

theorem run (events : List Event) : Named a (s.run events) := by
  induction events generalizing s with
  | nil => exact h
  | cons e rest ih => exact ih (h.step e)

theorem asked_eq_nil (e : Event) : (s.step e).1.asked = [] := by
  cases e with
  | select optimized answers => rw [h.step_select]
  | reset => rfl
  | register b => exact (s.step_register b).1

end Named

/-- Where the choice is the target's, the first offer since the last reset is remembered. The
induction is on the end of the history, for only the last events count. -/
theorem run_resolved_default (hc : s.choice = Allocator.defaultName) (hr : s.resolved = none)
    (events : List Event) : (s.run events).resolved = firstOffer? (sinceReset events) := by
  induction events using List.reverseRecOn with
  | nil => exact hr
  | append_singleton events e ih =>
    have hc' : (s.run events).choice = Allocator.defaultName := by rw [run_choice, hc]
    rw [run_concat]
    cases e with
    | select optimized answers =>
      rw [sinceReset_concat_of_ne (by simp), firstOffer?_concat, ← ih]
      cases hr' : (s.run events).resolved with
      | some id => simp [step_of_resolved hr', hr']
      | none =>
        rw [step_of_default hr' hc']
        cases (Event.select optimized answers).offer? <;> simp [hr']
    | reset =>
      rw [sinceReset_concat_reset]
      rfl
    | register a =>
      rw [sinceReset_concat_of_ne (by simp), firstOffer?_concat, ← ih, (step_register _ a).2.2]
      simp [Event.offer?]

theorem firstOffer?_ne_none {id : PassId} (h : firstOffer? events = some id) : id ≠ .none := by
  obtain ⟨e, -, he⟩ := List.exists_of_findSome?_eq_some h
  exact offer?_ne_none he

/-- A selection that is left to the target asks it just if nothing is remembered, and answers with
the first offer since the last reset. -/
theorem step_select_default (hc : s.choice = Allocator.defaultName) (hr : s.resolved = none)
    (events : List Event) (optimized : Bool) (answers : AllocatorAnswers) :
    ((s.run events).step (.select optimized answers)).1 =
      { event := .select optimized answers
        asked := if (s.run events).resolved = none then [optimized] else []
        reply :=
          match firstOffer? (sinceReset events ++ [.select optimized answers]) with
          | some id => .selected id
          | none => .failed (.noneProvided optimized) } := by
  rw [firstOffer?_concat, ← run_resolved_default hc hr events]
  cases hr' : (s.run events).resolved with
  | some id => simp [step_of_resolved hr']
  | none =>
    rw [step_of_default hr' (by rw [run_choice, hc])]
    cases (Event.select optimized answers).offer? <;> simp

section accepted

variable {attempts : List Allocator} {name : String}
  (h : ofChoice (.ofAttempts attempts) name = .ok s)
include h

theorem named_of_ofChoice (hc : s.choice ≠ Allocator.defaultName) :
    ∃ a, (AllocatorRegistry.ofAttempts attempts).lookup? s.choice = some a ∧ a.pass ≠ .none ∧
      Named a s := by
  obtain ⟨hregistry, hchoice, hfresh⟩ := lookup?_of_ofChoice h
  obtain ⟨a, ha⟩ := Option.isSome_iff_exists.mp hchoice
  exact ⟨a, ha, (AllocatorRegistry.provides_ofAttempts attempts).pass_ne_none ha hc,
    hc, hregistry ▸ ha, by simp [hfresh]⟩

theorem reply_ne_selected_none (events : List Event) (e : Event) :
    ((s.run events).step e).1.reply ≠ .selected .none := by
  cases e with
  | reset => simp [step]
  | register a => exact (step_register _ a).2.1 .none
  | select optimized answers =>
    by_cases hc : s.choice = Allocator.defaultName
    · rw [step_select_default hc (lookup?_of_ofChoice h).2.2]
      dsimp only
      split
      · rename_i id hid
        intro hnone
        cases hnone
        exact firstOffer?_ne_none hid rfl
      · simp
    · obtain ⟨a, -, hpass, hnamed⟩ := named_of_ofChoice h hc
      rw [(hnamed.run events).step_select]
      intro hnone
      exact hpass (Reply.selected.inj hnone)

end accepted

/-- Every history of a selector, over every registry that registrations can lead to: what is
remembered, what each selection answers, and which questions the target was asked. -/
theorem history_law {attempts : List Allocator} {name : String}
    (h : ofChoice (.ofAttempts attempts) name = .ok s) (events : List Event) :
    (s.transcript events).map Heard.event = events ∧
    (s.run events).resolved = standing (s.transcript events) none ∧
    (∀ heard ∈ s.transcript events, heard.reply ≠ .selected .none) ∧
    (s.choice ≠ Allocator.defaultName →
      ∃ a, (AllocatorRegistry.ofAttempts attempts).lookup? s.choice = some a ∧ a.pass ≠ .none ∧
        ∀ heard ∈ s.transcript events, heard.asked = [] ∧
          ∀ optimized answers, heard.event = .select optimized answers →
            heard.reply = .selected a.pass) ∧
    (s.choice = Allocator.defaultName → ∀ before heard after,
      s.transcript events = before ++ heard :: after →
      ∀ optimized answers, heard.event = .select optimized answers →
        heard.asked = (if standing before none = none then [optimized] else []) ∧
        heard.reply =
          (match firstOffer? (sinceReset (before.map Heard.event) ++ [heard.event]) with
          | some id => .selected id
          | none => .failed (.noneProvided optimized)) ∧
        (heard.asked ≠ [] → answers.answer optimized = .none →
          heard.reply = .failed (.noneProvided optimized) ∧
            (s.run (before.map Heard.event ++ [heard.event])).resolved = none)) := by
  have hfresh := (lookup?_of_ofChoice h).2.2
  refine ⟨map_event_transcript s events, by rw [run_resolved, hfresh], ?_, ?_, ?_⟩
  · intro heard hmem
    obtain ⟨past, e, rfl⟩ := mem_transcript hmem
    exact reply_ne_selected_none h past e
  · intro hc
    obtain ⟨a, ha, hpass, hnamed⟩ := named_of_ofChoice h hc
    refine ⟨a, ha, hpass, fun heard hmem => ?_⟩
    obtain ⟨past, e, rfl⟩ := mem_transcript hmem
    refine ⟨(hnamed.run past).asked_eq_nil e, fun optimized answers he => ?_⟩
    rw [step_event] at he
    rw [he, (hnamed.run past).step_select]
  · intro hc before heard after hsplit optimized answers he
    obtain ⟨past, e, rfl, rfl⟩ := transcript_eq_append hsplit
    rw [step_event] at he
    subst he
    have hstanding : (s.run past).resolved = standing (s.transcript past) none := by
      rw [run_resolved, hfresh]
    rw [map_event_transcript, step_event, ← hstanding, step_select_default hc hfresh]
    refine ⟨rfl, rfl, fun hasked hnone => ?_⟩
    have hr : (s.run past).resolved = none := by
      by_contra hr
      exact hasked (if_neg hr)
    have hoffer : (Event.select optimized answers).offer? = none := by simp [Event.offer?, hnone]
    refine ⟨?_, ?_⟩
    · rw [firstOffer?_concat, ← run_resolved_default hc hfresh past, hr, hoffer]
      rfl
    · rw [run_concat, step_of_default hr (by rw [run_choice, hc]), hoffer]
      exact hr

/-- A name that is registered twice. -/
def contested : List Allocator :=
  [⟨"mine", "", Standard.regAllocPBQP⟩, ⟨"mine", "", Standard.regAllocFast⟩]

/-- The events of a session in which registrations and a selection fail. -/
def troubled : List Event := [
  .select true ⟨.none, Standard.regAllocFast⟩,
  .register ⟨"mine", "", .none⟩,
  .select true ⟨Standard.regAllocBasic, .none⟩,
  .register ⟨"default", "", Standard.regAllocPBQP⟩,
  .select false ⟨.none, .none⟩,
  .reset,
  .select false ⟨.none, Standard.regAllocFast⟩]

/-- Up to the reset the first offer counts, and behind it the target is asked again. A
choice by name is not touched. -/
theorem history_law_troubled : ∃ s t,
    ofChoice (.ofAttempts contested) "" = .ok s ∧ ofChoice (.ofAttempts contested) "mine" = .ok t ∧
    (∃ before heard after, s.transcript troubled = before ++ heard :: after ∧
      heard.event = .select false ⟨.none, .none⟩ ∧ heard.asked = [] ∧
      heard.reply = .selected Standard.regAllocBasic) ∧
    (∃ before heard, s.transcript troubled = before ++ [heard] ∧ heard.asked = [false] ∧
      heard.reply = .selected Standard.regAllocFast) ∧
    ∀ heard ∈ t.transcript troubled, heard.asked = [] := by
  have ht : ofChoice (.ofAttempts contested) "mine" = .ok ⟨.ofAttempts contested, "mine", none⟩ :=
    rfl
  obtain ⟨s, hs, hdefault⟩ : ∃ s, ofChoice (.ofAttempts contested) "" = .ok s ∧
    s = ⟨.ofAttempts contested, Allocator.defaultName, none⟩ := ⟨_, rfl, rfl⟩
  have hsplit (n : Nat) : s.transcript troubled = s.transcript (troubled.take n) ++
      (s.run (troubled.take n)).transcript (troubled.drop n) := by
    rw [← transcript_append, List.take_append_drop]
  have hlaw := (history_law hs troubled).2.2.2.2 (by rw [hdefault])
  refine ⟨s, _, hs, ht, ?_, ?_, ?_⟩
  · obtain ⟨hasked, hreply, -⟩ := hlaw _ _ _ (hsplit 4) false ⟨.none, .none⟩ (step_event _ _)
    subst hdefault
    exact ⟨_, _, _, hsplit 4, step_event _ _, hasked, hreply⟩
  · obtain ⟨hasked, hreply, -⟩ :=
      hlaw _ _ _ (hsplit 6) false ⟨.none, Standard.regAllocFast⟩ (step_event _ _)
    subst hdefault
    exact ⟨_, _, hsplit 6, hasked, hreply⟩
  · obtain ⟨a, -, -, hheard⟩ := (history_law ht troubled).2.2.2.1 (by decide)
    exact fun heard hmem => (hheard heard hmem).1

end Selector

end PassPipeline

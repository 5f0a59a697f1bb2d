import PassPipeline.Proofs.Pervasive

/-! Reading scripts without running them. An analysis turns what is known before a script into what
is known behind it, whichever ways the script takes. It is sound for a judgement on work if its
basic steps are; the induction over scripts and stages is made here once for all analyses. -/
namespace PassPipeline

/-- What can be said behind each basic step, where anything can be said. -/
structure Analysis (A : Type) where
  request : PassId → A → Option A
  place : Supply → A → Option A
  /-- Behind the choice of an allocator. -/
  select : A → Option A
  /-- Behind the allocator that a stage places, whether it was handed one or not. -/
  placeHanded : Bool → A → Option A
  /-- Behind a change of the configuration or a build. -/
  change : A → Option A
  /-- What is known if one of two things is. -/
  join : A → A → A

/-- What is known behind the call of a stage, with or without an allocator to hand over. -/
abbrev Analysis.Reach (A : Type) := StageCall → Bool → A → Option A

namespace Analysis

variable {A : Type} (an : Analysis A)

def command (reach : Reach A) (handed : Bool) (a : A) : Command → Option A
  | .place supply => an.place supply a
  | .print _ _ | .printAndVerify _ => some a
  | .substitute _ _ | .insert _ _ | .set _ _ | .build => an.change a
  | .allocate optimized =>
    (an.select a).bind
      (reach { stage := if optimized then .optimizedRegAlloc else .fastRegAlloc } true)
  | .placeAllocator => an.placeHanded handed a

def query (reach : Reach A) (stage : Option Stage) (handed : Bool) (a : A) : Query → Option A
  | .holds _ => some a
  | .schedules kind _ => an.request kind a
  | .stage stage => reach { stage } handed a
  | .standard =>
    match stage with
    | some stage => reach { stage, standard := true } handed a
    | none => some a

def script (reach : Reach A) (stage : Option Stage) (handed : Bool) : Script → A → Option A
  | .skip, a => some a
  | .claim, a => some a
  | .run c, a => an.command reach handed a c
  | .seq first second, a =>
    (script reach stage handed first a).bind (script reach stage handed second)
  | .ask q yes no, a =>
    (an.query reach stage handed a q).bind fun b =>
      (script reach stage handed yes b).bind fun c =>
        (script reach stage handed no b).map (an.join c)

/-- A call of a stage, with `depth` bounding how many calls are inside one another. -/
def stage (scripts : StageCall → Script) : (depth : Nat) → Reach A
  | 0, _, _, _ => none
  | depth + 1, c, handed, a =>
    an.script (stage scripts depth) (some c.stage) (c.stage.takesAllocator && handed) (scripts c) a

def stages (scripts : StageCall → Script) (depth : Nat) (a : A) : Option A :=
  (an.stage scripts depth { stage := .irPasses } false a).bind fun b =>
    (an.stage scripts depth { stage := .iselPrepare } false b).bind fun c =>
      (an.stage scripts depth { stage := .instSelector } false c).bind fun d =>
        an.stage scripts depth { stage := .machinePasses } false d

open Build

/-- A judgement on work that every step of an analysis justifies. Allocators that are handed over
have the property `Handed`. -/
structure Sound (target : Target) (Handed : Pass → Prop)
    (J : {α : Type} → A → A → Build α → Prop) : Prop where
  pure {α : Type} (a : A) (x : α) : J a a (pure x)
  bind {α β : Type} {a b c : A} {m : Build α} {f : α → Build β} :
    J a b m → (∀ x, J b c (f x)) → J a c (m >>= f)
  left {α : Type} {a b : A} {m : Build α} (c : A) : J a b m → J a (an.join b c) m
  right {α : Type} {a c : A} {m : Build α} (b : A) : J a c m → J a (an.join b c) m
  target {α : Type} {a b : A} {k : Target → Build α} :
    J a b (k target) → J a b (config >>= fun c => k c.target)
  holds (a : A) (q : Condition) : J a a (view (Condition.holds · q))
  trace (a : A) (text : String) : J a a (trace text)
  announce (a : A) : J a a announce
  note (a : A) (e : Entry) : J a a (note e)
  request {a b : A} {kind : PassId} : an.request kind a = some b → J a b (Build.request kind)
  place {a b : A} {supply : Supply} : an.place supply a = some b →
    J a b (take supply >>= Build.place)
  print (a : A) (subject : Subject) (banner : String) :
    J a a (config >>= fun c => Build.place (.printer subject c.sink banner))
  printAndVerify (a : A) (banner : String) : J a a (printAndVerify banner)
  allocatorPass {β : Type} {a b c : A} {f : Pass → Build β} (optimized : Bool) :
    an.select a = some b → (∀ p, Handed p → J b c (f p)) → J a c (allocatorPass optimized >>= f)
  placeHanded {a b : A} (p : Option Pass) (hp : ∀ q ∈ p, Handed q) :
    an.placeHanded p.isSome a = some b → J a b (Build.placeHanded p)
  substitute {a b : A} (standard target : PassId) :
    an.change a = some b → J a b (substitute standard target)
  insert {a b : A} (anchor inserted : PassId) :
    an.change a = some b → J a b (insert anchor inserted)
  assign {a b : A} (setting : Setting) (value : Bool) :
    an.change a = some b → J a b (assign setting value)
  build {a b : A} (call : Caller) : an.change a = some b → J a b (build call)

/-- What is known behind calls is right. -/
def Reaches (Handed : Pass → Prop) (J : {α : Type} → A → A → Build α → Prop) (reach : Reach A)
    (call : Caller) : Prop :=
  ∀ ⦃c : StageCall⦄ ⦃p : Option Pass⦄, (∀ q ∈ p, Handed q) →
    ∀ ⦃a b⦄, reach c p.isSome a = some b → J a b (call c p)

namespace Sound

variable {an} {target : Target} {Handed : Pass → Prop} {J : {α : Type} → A → A → Build α → Prop}
  (h : an.Sound target Handed J) {a b : A}
include h

theorem discarded {α : Type} {m : Build α} (hm : J a b m) : J a b (discard m) := by
  rw [discard_eq]
  exact h.bind hm fun _ => h.pure b ()

section scripts

variable {reach : Reach A} {call : Caller} (hr : Reaches Handed J reach call) {frame : Frame}
  (hf : ∀ q ∈ frame.allocator, Handed q)
include hr

theorem allocate (optimized : Bool)
    (ha : an.command reach frame.allocator.isSome a (.allocate optimized) = some b) :
    J a b (perform call frame (.allocate optimized)) := by
  obtain ⟨c, hc, hb⟩ := Option.bind_eq_some_iff.mp ha
  refine h.allocatorPass optimized hc fun p hp => h.discarded (hr (p := some p) ?_ hb)
  rintro q ⟨⟩
  exact hp

include hf

theorem perform {command : Command}
    (ha : an.command reach frame.allocator.isSome a command = some b) :
    J a b (perform call frame command) := by
  cases command with
  | place supply => exact h.place ha
  | print subject banner =>
    cases ha
    exact h.print a subject banner
  | printAndVerify banner =>
    cases ha
    exact h.printAndVerify a banner
  | substitute standard target => exact h.substitute standard target ha
  | insert anchor inserted => exact h.insert anchor inserted ha
  | set setting value => exact h.assign setting value ha
  | allocate optimized => exact h.allocate hr optimized ha
  | placeAllocator => exact h.placeHanded frame.allocator hf ha
  | build => exact h.discarded (h.build call ha)

theorem answer {q : Query}
    (ha : an.query reach frame.stage frame.allocator.isSome a q = some b) :
    J a b (answer call frame q) := by
  cases q with
  | holds condition =>
    cases ha
    exact h.holds a condition
  | schedules kind reported =>
    refine h.bind (h.request ha) fun scheduled => ?_
    split
    · exact h.bind (h.note b _) fun _ => h.pure b _
    · exact h.pure b _
  | stage stage => exact hr hf ha
  | standard =>
    cases hs : frame.stage with
    | none =>
      rw [hs] at ha
      cases ha
      simpa [Build.answer, hs] using h.pure a false
    | some stage =>
      rw [hs] at ha
      simpa [Build.answer, hs] using hr hf ha

theorem exec {s : Script} (ha : an.script reach frame.stage frame.allocator.isSome s a = some b) :
    J a b (exec call frame s) := by
  induction s generalizing a b with
  | skip =>
    cases ha
    exact h.pure a false
  | claim =>
    cases ha
    exact h.pure a true
  | run command => exact h.bind (h.perform hr hf ha) fun _ => h.pure b false
  | seq first second ih₁ ih₂ =>
    obtain ⟨c, hc, hb⟩ := Option.bind_eq_some_iff.mp ha
    exact h.bind (ih₁ hc) fun x => h.bind (ih₂ hb) fun y => h.pure b (x || y)
  | ask query yes no ihy ihn =>
    obtain ⟨c, hc, hrest⟩ := Option.bind_eq_some_iff.mp ha
    obtain ⟨d, hd, hmap⟩ := Option.bind_eq_some_iff.mp hrest
    obtain ⟨e, he, rfl⟩ := Option.map_eq_some_iff.mp hmap
    refine h.bind (h.answer hr hf hc) fun x => ?_
    cases x with
    | true => exact h.left e (ihy hd)
    | false => exact h.right d (ihn he)

end scripts

theorem callStage_succ {reach : Reach A} {depth : Nat}
    (hr : Reaches Handed J reach (callStage depth))
    {c : StageCall} {p : Option Pass} (hp : ∀ q ∈ p, Handed q)
    (ha : an.script reach (some c.stage) (c.stage.takesAllocator && p.isSome) (target.called c) a =
      some b) :
    J a b (Build.callStage (depth + 1) c p) := by
  have hf : ∀ q ∈ (if c.stage.takesAllocator then p else none), Handed q := by
    split
    · exact hp
    · simp
  refine h.target (k := fun target => Build.exec (Build.callStage depth)
    ⟨some c.stage, if c.stage.takesAllocator then p else none⟩
    (if c.standard then target.standardScript c.stage else target.script c.stage)) ?_
  refine h.exec hr hf (Eq.trans ?_ ha)
  cases c.stage.takesAllocator <;> rfl

theorem callStage (depth : Nat) :
    Reaches Handed J (an.stage target.called depth) (callStage depth) := by
  induction depth with
  | zero =>
    intro c p hp a b ha
    cases ha
  | succ depth ih => exact fun c p hp a b ha => h.callStage_succ ih hp ha

/-- The four stages of a build, whatever tells what is known behind them. -/
theorem runStages_of_reaches {reach : Reach A} {call : Caller} (hr : Reaches Handed J reach call)
    {c d e : A} (h₁ : reach { stage := .irPasses } false a = some c)
    (h₂ : reach { stage := .iselPrepare } false c = some d)
    (h₃ : reach { stage := .instSelector } false d = some e)
    (h₄ : reach { stage := .machinePasses } false e = some b) : J a b (Build.runStages call) := by
  have hn : ∀ q ∈ (none : Option Pass), Handed q := by simp
  refine h.bind (h.announce a) fun _ => h.bind (h.discarded (hr hn h₁)) fun _ =>
    h.bind (h.discarded (hr hn h₂)) fun _ => h.bind (hr hn h₃) fun added => ?_
  split
  · exact h.bind (h.trace e _) fun _ => h.discarded (hr hn h₄)
  · exact h.discarded (hr hn h₄)

theorem runStages {depth : Nat} (ha : an.stages target.called depth a = some b) :
    J a b (runStages (Build.callStage depth)) := by
  obtain ⟨c, hc, ha⟩ := Option.bind_eq_some_iff.mp ha
  obtain ⟨d, hd, ha⟩ := Option.bind_eq_some_iff.mp ha
  obtain ⟨e, he, hb⟩ := Option.bind_eq_some_iff.mp ha
  exact h.runStages_of_reaches (h.callStage depth) hc hd he hb

end Sound

end Analysis

end PassPipeline

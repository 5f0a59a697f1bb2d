import PassPipeline.Proofs.Outcome

/-! What holds of all scripts. A property of work that the commands and queries of scripts have, and
that composition keeps, is a property of scripts and of the stages that are written in them: the
induction over scripts is made here once for all such properties. -/
namespace PassPipeline

/-- The script that a call of a stage runs. -/
def Target.called (t : Target) (c : StageCall) : Script :=
  if c.standard then t.standardScript c.stage else t.script c.stage

/-- What is permitted to a script: what it does, what it looks at, and what may
at least decide over a print. -/
structure Permit where
  does : Command → Bool := fun _ => true
  asks : Condition → Bool := fun _ => true
  shows : Condition → Bool := fun _ => false

namespace Script

def isPrint : Script → Bool
  | .run (.print _ _) => true
  | _ => false

/-- Whether a script keeps to what is permitted. -/
def within (p : Permit) : Script → Bool
  | .skip => true
  | .claim => true
  | .run c => p.does c
  | .seq first second => within p first && within p second
  | .ask (.holds q) yes no =>
    (p.asks q || p.shows q && yes.isPrint && no = .skip) && within p yes && within p no
  | .ask _ yes no => within p yes && within p no

theorem within_all (s : Script) : s.within {} := by
  induction s with
  | skip => rfl
  | claim => rfl
  | run c => rfl
  | seq first second ih₁ ih₂ => simp [within, ih₁, ih₂]
  | ask q yes no ihy ihn => cases q <;> simp [within, ihy, ihn]

end Script

namespace Build

variable {α β : Type}

def view (f : Config → α) : Build α := do return f (← config)

@[simp] theorem outcome_view (f : Config → α) (s : Construction) :
    (view f).outcome s = (.ok (f s.config), s) := rfl

/-- Work that begins with a look at the configuration is a view and what follows it. -/
theorem config_bind_eq_view (f : Config → α) (k : α → Build β) :
    (config >>= fun c => k (f c)) = view f >>= k := by
  simp [view]

theorem outcome_callStage (depth : Nat) (c : StageCall) (p : Option Pass) (s : Construction) :
    (callStage (depth + 1) c p).outcome s =
      (exec (callStage depth) ⟨some c.stage, if c.stage.takesAllocator then p else none⟩
        (s.config.target.called c)).outcome s := rfl

/-- Places a printer that writes where the configuration says. -/
def placePrinter (subject : Subject) (banner : String) : Build Unit := do
  place (.printer subject (← config).sink banner)

theorem placePrinter_eq (subject : Subject) (banner : String) :
    placePrinter subject banner =
      view Config.sink >>= fun sink => place (.printer subject sink banner) :=
  config_bind_eq_view Config.sink fun sink => place (.printer subject sink banner)

/-- A property that everything has that a permitted script of certain targets can do. -/
structure Scripted (p : Permit) (T : Target → Prop) (P : {α : Type} → Build α → Prop) : Prop where
  pure {α : Type} (a : α) : P (pure a)
  bind {α β : Type} {m : Build α} {f : α → Build β} : P m → (∀ a, P (f a)) → P (m >>= f)
  throw {α : Type} (d : Defect) : P (throw d : Build α)
  target {α : Type} {k : Target → Build α} :
    (∀ t, T t → P (k t)) → P (config >>= fun c => k c.target)
  trace (text : String) : P (trace text)
  announce : P announce
  note (e : Entry) : P (note e)
  holds {q : Condition} : p.asks q → P (view (Condition.holds · q))
  /-- A print that hangs on a condition. -/
  shown {q : Condition} {subject : Subject} {banner : String} :
    p.shows q → p.does (.print subject banner) →
      P (view (Condition.holds · q) >>= fun b =>
        if b then placePrinter subject banner >>= fun _ => Pure.pure false else Pure.pure false)
  request (id : PassId) : P (request id)
  place {supply : Supply} : p.does (.place supply) → P (take supply >>= Build.place)
  print {subject : Subject} {banner : String} :
    p.does (.print subject banner) → P (placePrinter subject banner)
  printAndVerify {banner : String} :
    p.does (.printAndVerify banner) → P (printAndVerify banner)
  substitute {standard target : PassId} :
    p.does (.substitute standard target) → P (substitute standard target)
  insert {anchor inserted : PassId} : p.does (.insert anchor inserted) → P (insert anchor inserted)
  assign {setting : Setting} {value : Bool} : p.does (.set setting value) → P (assign setting value)
  allocatorPass (optimized : Bool) : P (allocatorPass optimized)
  placeHanded (p : Option Pass) : P (placeHanded p)

namespace Scripted

variable {p : Permit} {T : Target → Prop} {P : {α : Type} → Build α → Prop} (h : Scripted p T P)
include h

theorem discarded {m : Build α} (hm : P m) : P (discard m) := by
  rw [discard_eq]
  exact h.bind hm fun _ => h.pure ()

section scripts

variable {call : Caller} (hc : ∀ c a, P (call c a)) (frame : Frame)
include hc

theorem answer {q : Query} (hq : ∀ condition, q = .holds condition → p.asks condition) :
    P (answer call frame q) := by
  cases q with
  | holds condition => exact h.holds (hq condition rfl)
  | schedules kind reported =>
    refine h.bind (h.request kind) fun scheduled => ?_
    split
    · exact h.bind (h.note _) fun _ => h.pure _
    · exact h.pure _
  | stage stage => exact hc _ _
  | standard =>
    cases hs : frame.stage with
    | none => simpa [Build.answer, hs] using h.pure false
    | some stage => simpa [Build.answer, hs] using hc _ _

variable (hb : P (build call))
include hb

theorem perform {command : Command} (hd : p.does command) : P (perform call frame command) := by
  cases command with
  | place supply => exact h.place hd
  | print subject banner => exact h.print hd
  | printAndVerify banner => exact h.printAndVerify hd
  | substitute standard target => exact h.substitute hd
  | insert anchor inserted => exact h.insert hd
  | set setting value => exact h.assign hd
  | allocate optimized => exact h.bind (h.allocatorPass optimized) fun p => h.discarded (hc _ _)
  | placeAllocator => exact h.placeHanded frame.allocator
  | build => exact h.discarded hb

theorem exec {s : Script} (hs : s.within p) : P (exec call frame s) := by
  induction s with
  | skip => exact h.pure false
  | claim => exact h.pure true
  | run command => exact h.bind (h.perform hc frame hb hs) fun _ => h.pure false
  | seq first second ih₁ ih₂ =>
    obtain ⟨h₁, h₂⟩ := Bool.and_eq_true_iff.mp hs
    exact h.bind (ih₁ h₁) fun a => h.bind (ih₂ h₂) fun b => h.pure (a || b)
  | ask query yes no ihy ihn =>
    have hask (hq : ∀ condition, query = .holds condition → p.asks condition) (hy : yes.within p)
        (hn : no.within p) : P (Build.exec call frame (.ask query yes no)) := by
      refine h.bind (h.answer hc frame hq) fun a => ?_
      cases a with
      | true => exact ihy hy
      | false => exact ihn hn
    cases query with
    | holds q =>
      simp only [Script.within, Bool.and_eq_true, Bool.or_eq_true, decide_eq_true_eq] at hs
      obtain ⟨⟨hq | ⟨⟨hq, hprint⟩, rfl⟩, hy⟩, hn⟩ := hs
      · exact hask (fun _ he => Query.holds.inj he ▸ hq) hy hn
      · -- The two ways of the script differ in a print only.
        unfold Script.isPrint at hprint
        split at hprint
        · exact h.shown hq hy
        · cases hprint
    | schedules kind reported =>
      obtain ⟨hy, hn⟩ := Bool.and_eq_true_iff.mp hs
      exact hask (by simp) hy hn
    | stage stage =>
      obtain ⟨hy, hn⟩ := Bool.and_eq_true_iff.mp hs
      exact hask (by simp) hy hn
    | standard =>
      obtain ⟨hy, hn⟩ := Bool.and_eq_true_iff.mp hs
      exact hask (by simp) hy hn

end scripts

theorem runStages {call : Caller} (hc : ∀ c a, P (call c a)) : P (runStages call) := by
  refine h.bind h.announce fun _ => h.bind (h.discarded (hc _ _)) fun _ =>
    h.bind (h.discarded (hc _ _)) fun _ => h.bind (hc _ _) fun added => ?_
  split
  · exact h.bind (h.trace _) fun _ => h.discarded (hc _ _)
  · exact h.discarded (hc _ _)

/-- Calls of stages have the property to any depth, if building from inside a stage has it. -/
theorem callStage (hw : ∀ t, T t → ∀ c, (t.called c).within p)
    (hb : ∀ call : Caller, (∀ c a, P (call c a)) → P (build call)) (depth : Nat) (c : StageCall)
    (allocator : Option Pass) : P (callStage depth c allocator) := by
  induction depth generalizing c allocator with
  | zero => exact h.throw _
  | succ depth ih =>
    exact h.target (k := fun target => Build.exec (Build.callStage depth)
        ⟨some c.stage, if c.stage.takesAllocator then allocator else none⟩
        (if c.standard then target.standardScript c.stage else target.script c.stage))
      fun t ht => h.exec ih _ (hb _ ih) (hw t ht c)

end Scripted

end Build

end PassPipeline

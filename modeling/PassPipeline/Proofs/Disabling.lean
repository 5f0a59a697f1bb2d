import PassPipeline.Proofs.Course
import PassPipeline.Proofs.Diagnostics
import PassPipeline.Proofs.Expansion

/-! Options that disable passes. They take away the passes that they govern, with what is printed
and verified behind them, and nothing else: all other passes stay, in their order. -/
namespace PassPipeline

/-- What a user can have left out of a pipeline. -/
inductive Omission where
  | postRA
  | branchFold
  | tailDuplicate
  | earlyTailDup
  | codePlace
  | ssc
  | machineDCE
  | machineLICM
  | machineCSE
  | postRAMachineLICM
  | machineSink
  | lsr
  | cgp
  | copyProp
  deriving DecidableEq

namespace Omission

def all : List Omission :=
  [postRA, branchFold, tailDuplicate, earlyTailDup, codePlace, ssc, machineDCE,
    machineLICM, machineCSE, postRAMachineLICM, machineSink, lsr, cgp, copyProp]

theorem mem_all (f : Omission) : f ∈ all := by
  cases f <;> decide

def isSet (o : Options) : Omission → Bool
  | .postRA => o.disablePostRA
  | .branchFold => o.disableBranchFold
  | .tailDuplicate => o.disableTailDuplicate
  | .earlyTailDup => o.disableEarlyTailDup
  | .codePlace => o.disableCodePlace
  | .ssc => o.disableSSC
  | .machineDCE => o.disableMachineDCE
  | .machineLICM => o.disableMachineLICM
  | .machineCSE => o.disableMachineCSE
  | .postRAMachineLICM => o.disablePostRAMachineLICM
  | .machineSink => o.disableMachineSink
  | .lsr => o.disableLSR
  | .cgp => o.disableCGP
  | .copyProp => o.disableCopyProp

/-- The kinds whose requests it concerns. -/
def governs : Omission → List PassId
  | .postRA => [Standard.postRAScheduler]
  | .branchFold => [Standard.branchFolder]
  | .tailDuplicate => [Standard.tailDuplicate]
  | .earlyTailDup => [Standard.earlyTailDuplicate]
  | .codePlace => [Standard.blockPlacement, Standard.codePlacement]
  | .ssc => [Standard.stackSlotColoring]
  | .machineDCE => [Standard.deadInstructionElim]
  | .machineLICM => [Standard.machineLICM]
  | .machineCSE => [Standard.machineCSE]
  | .postRAMachineLICM => [Standard.postRAMachineLICM]
  | .machineSink => [Standard.machineSinking]
  | .lsr => [Standard.loopStrengthReduce]
  | .cgp => [Standard.codeGenPrepare]
  | .copyProp => [Standard.machineCopyPropagation]

/-- What comes only behind these kinds: where no code is placed, there is nothing to count. -/
def companions : Omission → List PassId
  | .codePlace => [Standard.blockPlacementStats]
  | _ => []

/-- All that can be missing with it. -/
def realm (f : Omission) : List PassId := f.governs ++ f.companions

/-- The kinds that it takes away from a pipeline. -/
def removes (c : Config) (f : Omission) (id : PassId) : Bool :=
  f.governs.any (fun kind => c.resolve kind = .ok id) || id ∈ f.companions

/-- The switch by which stages leave it out on their own. -/
def ofSwitch? : Switch → Option Omission
  | .disableLSR => some .lsr
  | .disableCGP => some .cgp
  | _ => none

end Omission

/-- The same options, with more left out. -/
def Options.omitting (o : Options) (added : Omission → Bool) : Options :=
  { o with
    disablePostRA := o.disablePostRA || added .postRA
    disableBranchFold := o.disableBranchFold || added .branchFold
    disableTailDuplicate := o.disableTailDuplicate || added .tailDuplicate
    disableEarlyTailDup := o.disableEarlyTailDup || added .earlyTailDup
    disableCodePlace := o.disableCodePlace || added .codePlace
    disableSSC := o.disableSSC || added .ssc
    disableMachineDCE := o.disableMachineDCE || added .machineDCE
    disableMachineLICM := o.disableMachineLICM || added .machineLICM
    disableMachineCSE := o.disableMachineCSE || added .machineCSE
    disablePostRAMachineLICM := o.disablePostRAMachineLICM || added .postRAMachineLICM
    disableMachineSink := o.disableMachineSink || added .machineSink
    disableLSR := o.disableLSR || added .lsr
    disableCGP := o.disableCGP || added .cgp
    disableCopyProp := o.disableCopyProp || added .copyProp }

variable {added : Omission → Bool}

theorem Omission.isSet_omitting (o : Options) (added : Omission → Bool) (f : Omission) :
    f.isSet (o.omitting added) = (f.isSet o || added f) := by
  cases f <;> rfl

namespace Override

variable {standard : PassId} {flag : Options → Bool}

/-- All rules that suppress a kind are omissions, but for that of early if-conversion. -/
theorem rule?_disable (h : rule? standard = some (.disable flag)) :
    (∃ f : Omission, flag = f.isSet ∧ standard ∈ f.governs) ∨
      flag = fun o => !o.enableEarlyIfConversion := by
  have hmem := mem_of_rule? h
  simp only [rules, List.mem_cons, Prod.mk.injEq, OverrideRule.disable.injEq,
    reduceCtorEq, and_false, List.not_mem_nil, or_false, false_or] at hmem
  rcases hmem with ⟨rfl, rfl⟩ | ⟨rfl, rfl⟩ | ⟨rfl, rfl⟩ | ⟨rfl, rfl⟩ | ⟨rfl, rfl⟩ | ⟨rfl, rfl⟩ |
    ⟨rfl, rfl⟩ | ⟨rfl, rfl⟩ | ⟨rfl, rfl⟩ | ⟨rfl, rfl⟩ | ⟨rfl, rfl⟩ | ⟨rfl, rfl⟩ |
      ⟨rfl, rfl⟩ | ⟨rfl, rfl⟩
  · exact .inl ⟨.postRA, rfl, by decide⟩
  · exact .inl ⟨.branchFold, rfl, by decide⟩
  · exact .inl ⟨.tailDuplicate, rfl, by decide⟩
  · exact .inl ⟨.earlyTailDup, rfl, by decide⟩
  · exact .inl ⟨.codePlace, rfl, by decide⟩
  · exact .inl ⟨.codePlace, rfl, by decide⟩
  · exact .inl ⟨.ssc, rfl, by decide⟩
  · exact .inl ⟨.machineDCE, rfl, by decide⟩
  · exact .inr rfl
  · exact .inl ⟨.machineLICM, rfl, by decide⟩
  · exact .inl ⟨.machineCSE, rfl, by decide⟩
  · exact .inl ⟨.postRAMachineLICM, rfl, by decide⟩
  · exact .inl ⟨.machineSink, rfl, by decide⟩
  · exact .inl ⟨.copyProp, rfl, by decide⟩

theorem apply_omitting (o : Options) (added : Omission → Bool) (standard target : PassId) :
    apply (o.omitting added) standard target = apply o standard target ∨
      apply (o.omitting added) standard target = .ok .none ∧
        ∃ f : Omission, added f ∧ f.isSet o = false ∧ standard ∈ f.governs := by
  unfold apply
  cases hr : rule? standard with
  | none => exact .inl rfl
  | some rule =>
    cases rule with
    | enable flag fallback =>
      obtain ⟨-, rfl, -⟩ := rule?_enable hr
      exact .inl rfl
    | disable flag =>
      rcases rule?_disable hr with ⟨f, rfl, hf⟩ | rfl
      · simp only [f.isSet_omitting]
        by_cases ho : f.isSet o = true
        · simp [ho]
        · by_cases ha : added f = true
          · exact .inr ⟨by simp [ha], f, ha, by simpa using ho, hf⟩
          · simp [ha]
      · exact .inl rfl

end Override

theorem Unfolding.all_congr {f g : PassId → Unfolding PassId} {ids : List PassId}
    (h : ∀ id ∈ ids, f id = g id) : all f ids = all g ids := by
  induction ids with
  | nil => rfl
  | cons id ids ih =>
    rw [all, all, h id List.mem_cons_self, ih fun id hid => h id (List.mem_cons_of_mem _ hid)]

namespace Config

variable (c : Config) (r : Registry)

def omitting (added : Omission → Bool) : Config := { c with options := c.options.omitting added }

/-- What is left out in addition. -/
def Adds (added : Omission → Bool) (f : Omission) : Prop := added f ∧ f.isSet c.options = false

instance (added : Omission → Bool) (f : Omission) : Decidable (c.Adds added f) :=
  inferInstanceAs (Decidable (_ ∧ _))

/-- The kinds that more omissions leave alone. -/
def keeps (added : Omission → Bool) (id : PassId) : Bool :=
  !id.isDiagnostic && Omission.all.all fun f => !(c.Adds added f && f.removes c id)

/-- Omissions do not meddle with what is inserted: only printers are inserted behind what they
govern, and they govern nothing that is inserted. -/
structure Tidy : Prop where
  inserted : ∀ i ∈ c.insertions, ∀ f : Omission, i.inserted ∉ f.governs
  anchors : ∀ i ∈ c.insertions, i.inserted = Standard.machinePrinter ∨
    i.anchor ≠ Standard.machinePrinter ∧ ∀ f : Omission, i.anchor ∉ f.realm
  printer : c.resolve Standard.machinePrinter = .ok Standard.machinePrinter
  companions : ∀ f : Omission, ∀ kind ∈ f.companions, c.resolve kind = .ok kind

variable {c r} {id final : PassId} {f : Omission}

theorem keeps_eq_false_of_diagnostic (h : id.isDiagnostic) : c.keeps added id = false := by
  simp [keeps, h]

theorem keeps_eq_false_of_removes (ha : c.Adds added f) (h : f.removes c id) :
    c.keeps added id = false := by
  simp only [keeps, Bool.and_eq_false_iff, List.all_eq_false]
  exact .inr ⟨f, f.mem_all, by simp [ha, h]⟩

theorem resolve_omitting (c : Config) (added : Omission → Bool) (id : PassId) :
    (c.omitting added).resolve id = c.resolve id ∨
      (c.omitting added).resolve id = .ok .none ∧ ∃ f, c.Adds added f ∧ id ∈ f.governs := by
  rcases Override.apply_omitting c.options added id (c.substitution id) with h | ⟨h, f, ha, ho, hf⟩
  · exact .inl h
  · exact .inr ⟨h, f, ⟨ha, ho⟩, hf⟩

theorem unfold_omitting_eq (hins : ∀ i ∈ c.insertions,
      (c.omitting added).resolve i.inserted = c.resolve i.inserted) (room : Nat)
    (hid : (c.omitting added).resolve id = c.resolve id) :
    (c.omitting added).unfold r room id = c.unfold r room id := by
  have hsched {id : PassId} (hid : (c.omitting added).resolve id = c.resolve id) :
      (c.omitting added).scheduled r id = c.scheduled r id := by
    unfold scheduled
    rw [hid]
    rfl
  induction room generalizing id with
  | zero =>
    rw [unfold, unfold, unfoldBy, unfoldBy, hsched hid]
    rfl
  | succ room ih =>
    have hall :
        Unfolding.all ((c.omitting added).unfold r room) ((c.omitting added).insertedAfter id) =
          Unfolding.all (c.unfold r room) (c.insertedAfter id) :=
      Unfolding.all_congr fun kind hkind => ih (hins _ (mem_insertions hkind))
    rw [unfold, unfold, unfoldBy, unfoldBy, hsched hid, hall]

namespace Tidy

variable (h : c.Tidy)
include h

/-- More omissions unfold a request into the same, or into nothing. -/
theorem unfold_omitting (added : Omission → Bool) (room : Nat) (id : PassId) :
    (c.omitting added).unfold r room id = c.unfold r room id ∨
      (c.omitting added).unfold r room id = { ending := .ok .none } ∧
        ∃ f, c.Adds added f ∧ id ∈ f.governs := by
  rcases resolve_omitting c added id with hid | ⟨hid, hf⟩
  · refine .inl (unfold_omitting_eq (fun i hi => ?_) room hid)
    exact (resolve_omitting c added i.inserted).resolve_right fun ⟨_, f, _, hf⟩ =>
      h.inserted i hi f hf
  · have hnone : (c.omitting added).scheduled r id = { ending := .ok .none } := by
      simp [scheduled, hid]
    refine .inr ⟨?_, hf⟩
    cases room <;> simp [unfold, unfoldBy, hnone, Unfolding.bind]

/-- What is requested for an omission that is added, or printed behind it. -/
theorem keeps_of_expands {ids : List PassId} {l : List Pass} (ha : c.Adds added f)
    (hids : ∀ id ∈ ids, id = Standard.machinePrinter ∨ id ∈ f.realm)
    (hl : c.Expands r ids l) : ∀ p ∈ l, c.keeps added p.id = false := by
  induction hl with
  | nil => simp
  | suppressed _ rest ih => exact ih fun id hid => hids id (List.mem_cons_of_mem _ hid)
  | @scheduled id final ids p inserted l hres hn hp behind rest ihb ihr =>
    have hid := hids id List.mem_cons_self
    have hfinal : c.keeps added final = false := by
      rcases hid with rfl | hid
      · cases h.printer.symm.trans hres
        exact keeps_eq_false_of_diagnostic rfl
      · refine keeps_eq_false_of_removes ha ?_
        simp only [Omission.removes, Bool.or_eq_true, List.any_eq_true, decide_eq_true_eq]
        rcases List.mem_append.mp hid with hid | hid
        · exact .inl ⟨id, hid, hres⟩
        · cases (h.companions f id hid).symm.trans hres
          exact .inr hid
    have hbehind := ihb fun kind hkind => .inl <|
      (h.anchors _ (mem_insertions hkind)).resolve_right fun ⟨hne, hanchor⟩ =>
        hid.elim hne (hanchor f)
    have hrest := ihr fun id hid => hids id (List.mem_cons_of_mem _ hid)
    intro q hq
    simp only [List.cons_append, List.mem_cons, List.mem_append] at hq
    rcases hq with rfl | hq | hq
    · rw [Pass.withSink_id, Registry.instantiate_id hp, hfinal]
    · exact hbehind q hq
    · exact hrest q hq

end Tidy

end Config

namespace Script

/-- Whether a script only prints and asks for kinds that can be spared, and claims nothing. -/
def fading (spare : List PassId) : Script → Bool
  | .skip | .run (.print _ _) | .run (.printAndVerify _) => true
  | .seq first second => fading spare first && fading spare second
  | .ask (.holds _) yes no => fading spare yes && fading spare no
  | .ask (.schedules kind _) yes no => kind ∈ spare && fading spare yes && fading spare no
  | _ => false

/-- Whether a script loses only what can be spared where an omission answers a query otherwise. -/
def spared (yes no : Script) : Query → Bool
  | .schedules kind _ =>
    Omission.all.all fun f =>
      kind ∉ f.governs || no = .skip && (ask (.schedules kind false) yes no).fading f.realm
  | .holds (.switch s) => (Omission.ofSwitch? s).all fun f => yes = .skip && no.fading f.realm
  | _ => true

/-- Whether a script can be thinned out by omissions. -/
def thinnable : Script → Bool
  | .skip | .claim | .run _ => true
  | .seq first second => thinnable first && thinnable second
  | .ask q yes no => spared yes no q && thinnable yes && thinnable no

end Script

theorem Target.Bundled.thinnable {target : Target} (ht : target.Bundled) (call : StageCall) :
    (target.called call).thinnable := by
  obtain ⟨stage, standard⟩ := call
  rcases ht.called_cases with he | ⟨loh, he⟩ <;> rw [he]
  · cases standard <;> cases stage <;> decide
  · cases loh <;> cases standard <;> cases stage <;> decide

namespace Unfolding

variable {α β : Type} {keep : PassId → Bool} {x x' : Unfolding α}

/-- If some work ends well, so does other work that places a part of its
passes, and all that are kept. -/
def Thins (keep : PassId → Bool) (x' x : Unfolding α) : Prop :=
  ∀ a, x.ending = .ok a → x'.ending = .ok a ∧ x'.passes.Sublist x.passes ∧
    x'.passes.filter (keep ·.id) = x.passes.filter (keep ·.id)

/-- If some work ends well, it claims nothing and places nothing that is kept. -/
def Fades (keep : PassId → Bool) (x : Unfolding Bool) : Prop :=
  ∀ a, x.ending = .ok a → a = false ∧ ∀ p ∈ x.passes, keep p.id = false

theorem Thins.refl (x : Unfolding α) : x.Thins keep x := fun _ h => ⟨h, .refl _, rfl⟩

theorem Thins.bind {g g' : α → Unfolding β} (hx : x'.Thins keep x)
    (hg : ∀ a, x.ending = .ok a → (g' a).Thins keep (g a)) :
    (x'.bind g').Thins keep (x.bind g) := by
  intro b hb
  rcases ha : x.ending with d | a
  · rw [bind_error ha] at hb
    cases hb
  · obtain ⟨ha', hsub, hkeep⟩ := hx a ha
    rw [bind_ok ha] at hb ⊢
    rw [bind_ok ha']
    obtain ⟨hb', hsub', hkeep'⟩ := hg a ha b hb
    exact ⟨hb', hsub.append hsub', by simp [hkeep, hkeep']⟩

theorem Fades.thins {x : Unfolding Bool} (hx : x.Fades keep) :
    Thins keep { ending := .ok false } x := by
  intro a ha
  obtain ⟨rfl, hpasses⟩ := hx a ha
  refine ⟨rfl, List.nil_sublist _, ?_⟩
  exact (List.filter_eq_nil_iff.mpr fun p hp => by simp [hpasses p hp]).symm

theorem Fades.after {g : α → Unfolding Bool}
    (hx : ∀ a, x.ending = .ok a → ∀ p ∈ x.passes, keep p.id = false)
    (hg : ∀ a, x.ending = .ok a → (g a).Fades keep) : (x.bind g).Fades keep := by
  intro b hb
  rcases ha : x.ending with d | a
  · rw [bind_error ha] at hb
    cases hb
  · rw [bind_ok ha] at hb ⊢
    obtain ⟨rfl, hpasses⟩ := hg a ha b hb
    refine ⟨rfl, fun p hp => ?_⟩
    rcases List.mem_append.mp hp with hp | hp
    · exact hx a ha p hp
    · exact hpasses p hp

end Unfolding

namespace Config

variable {c : Config} {r : Registry} {f : Omission} {allocator : Except Defect Pass} {frame : Frame}

/-- More omissions leave a condition as it is, or are what it asks for. -/
theorem holds_omitting (c : Config) (added : Omission → Bool) (q : Condition) :
    q.holds (c.omitting added) = q.holds c ∨
      ∃ s f, q = .switch s ∧ Omission.ofSwitch? s = some f ∧ c.Adds added f ∧ q.holds c = false ∧
        q.holds (c.omitting added) = true := by
  have hor (a b : Bool) : (a || b) = a ∨ b = true ∧ a = false ∧ (a || b) = true := by
    cases a <;> cases b <;> simp
  cases q with
  | switch s =>
    cases s with
    | disableLSR =>
      refine (hor c.options.disableLSR (added .lsr)).imp_right fun ⟨hadded, hold, hnew⟩ => ?_
      exact ⟨_, .lsr, rfl, rfl, ⟨hadded, hold⟩, hold, hnew⟩
    | disableCGP =>
      refine (hor c.options.disableCGP (added .cgp)).imp_right fun ⟨hadded, hold, hnew⟩ => ?_
      exact ⟨_, .cgp, rfl, rfl, ⟨hadded, hold⟩, hold, hnew⟩
    | _ => exact .inl rfl
  | optimizing | optimizedAllocation | verifyDisabled => exact .inl rfl

namespace Tidy

variable (h : c.Tidy)
include h

/-- A script that is fading places nothing that is kept, where its omission is added. -/
theorem fades_script (ha : c.Adds added f) {courses : Courses} {s : Script}
    (hs : s.fading f.realm) :
    (c.scriptCourse r allocator courses frame s).Fades (c.keeps added) := by
  have hdiagnostic (l : List Pass) (hl : ∀ p ∈ l, p.id.isDiagnostic) :
      Unfolding.Fades (c.keeps added)
        (Unfolding.bind { passes := l, ending := .ok () } fun _ => { ending := .ok false }) := by
    rintro _ ⟨⟩
    refine ⟨rfl, fun p hp => keeps_eq_false_of_diagnostic (hl p ?_)⟩
    simpa [Unfolding.bind] using hp
  induction s with
  | skip =>
    rintro _ ⟨⟩
    simp [scriptCourse]
  | claim => cases hs
  | run command =>
    cases command with
    | print subject banner => exact hdiagnostic _ (by simp)
    | printAndVerify banner =>
      refine hdiagnostic _ fun p hp => ?_
      unfold shown at hp
      rcases List.mem_append.mp hp with hp | hp
      · obtain rfl : p = .printer .machineCode c.sink banner := by
          simpa using (List.mem_ite_nil_right.mp hp).2
        simp
      · obtain rfl : p = .verifier banner := by simpa using (List.mem_ite_nil_right.mp hp).2
        simp
    | place | substitute | insert | set | allocate | placeAllocator | build => cases hs
  | seq first second ih₁ ih₂ =>
    obtain ⟨h₁, h₂⟩ := Bool.and_eq_true_iff.mp hs
    refine .after (fun a hfirst => (ih₁ h₁ a hfirst).2) fun a hfirst => ?_
    refine .after (fun b hsecond => (ih₂ h₂ b hsecond).2) fun b hsecond => ?_
    obtain rfl := (ih₁ h₁ a hfirst).1
    obtain rfl := (ih₂ h₂ b hsecond).1
    rintro _ ⟨⟩
    simp
  | ask q yes no ihy ihn =>
    have hask (hpasses : ∀ a, (c.queryCourse r courses frame q).ending = .ok a →
          ∀ p ∈ (c.queryCourse r courses frame q).passes, c.keeps added p.id = false)
        (hy : yes.fading f.realm) (hn : no.fading f.realm) :
        (c.scriptCourse r allocator courses frame (.ask q yes no)).Fades (c.keeps added) := by
      refine .after hpasses fun a _ => ?_
      cases a with
      | true => exact ihy hy
      | false => exact ihn hn
    cases q with
    | holds condition =>
      obtain ⟨hy, hn⟩ := Bool.and_eq_true_iff.mp hs
      exact hask (by simp [queryCourse]) hy hn
    | schedules kind reported =>
      simp only [Script.fading, Bool.and_eq_true, decide_eq_true_eq] at hs
      obtain ⟨⟨hkind, hy⟩, hn⟩ := hs
      refine hask (fun a hquery => ?_) hy hn
      rcases hf : (c.unfold r c.insertions.length kind).ending with d | final
      · rw [queryCourse, Unfolding.bind_error hf] at hquery
        cases hquery
      · rw [queryCourse, Unfolding.bind_ok hf, List.append_nil]
        refine h.keeps_of_expands ha ?_ (expands_of_unfold hf).2
        intro id hid
        obtain rfl := List.mem_singleton.mp hid
        exact .inr hkind
    | stage => cases hs
    | standard => cases hs

section thinning

variable {courses courses' : Courses}
  (hcourses : ∀ sc p, (courses' sc p).Thins (c.keeps added) (courses sc p))
include hcourses

omit h in
theorem thins_command (command : Command) :
    ((c.omitting added).commandCourse r allocator courses' frame command).Thins (c.keeps added)
      (c.commandCourse r allocator courses frame command) := by
  cases command with
  | allocate optimized =>
    have hpath : (c.omitting added).optimizedAllocation = c.optimizedAllocation := rfl
    rw [commandCourse, commandCourse, hpath]
    split
    · exact (Unfolding.Thins.refl _).bind fun p _ => (hcourses _ _).bind fun _ _ => .refl _
    · exact .refl _
  | set setting value => cases setting <;> exact .refl _
  | place | print | printAndVerify | substitute | insert | placeAllocator | build => exact .refl _

theorem thins_script {s : Script} (hs : s.thinnable) :
    ((c.omitting added).scriptCourse r allocator courses' frame s).Thins (c.keeps added)
      (c.scriptCourse r allocator courses frame s) := by
  induction s with
  | skip => exact .refl _
  | claim => exact .refl _
  | run command => exact (thins_command hcourses command).bind fun _ _ => .refl _
  | seq first second ih₁ ih₂ =>
    obtain ⟨h₁, h₂⟩ := Bool.and_eq_true_iff.mp hs
    exact (ih₁ h₁).bind fun a _ => (ih₂ h₂).bind fun b _ => .refl _
  | ask q yes no ihy ihn =>
    simp only [Script.thinnable, Bool.and_eq_true] at hs
    obtain ⟨⟨hq, hy⟩, hn⟩ := hs
    have hask (hq : ((c.omitting added).queryCourse r courses' frame q).Thins (c.keeps added)
          (c.queryCourse r courses frame q)) :
        ((c.omitting added).scriptCourse r allocator courses' frame (.ask q yes no)).Thins
          (c.keeps added) (c.scriptCourse r allocator courses frame (.ask q yes no)) := by
      refine hq.bind fun a _ => ?_
      cases a with
      | true => exact ihy hy
      | false => exact ihn hn
    cases q with
    | holds condition =>
      rcases holds_omitting c added condition with heq | ⟨s, f, rfl, hf, ha, hold, hnew⟩
      · refine hask ?_
        rw [queryCourse, queryCourse, heq]
        exact .refl _
      · -- The stage leaves out on its own what fades.
        simp only [Script.spared, hf, Option.all_some, Bool.and_eq_true, decide_eq_true_eq] at hq
        obtain ⟨rfl, hfade⟩ := hq
        have hfades : (c.scriptCourse r allocator courses frame no).Fades (c.keeps added) :=
          h.fades_script ha hfade
        simp only [scriptCourse, queryCourse, hold, hnew]
        exact hfades.thins
    | schedules kind reported =>
      have hcourse : (c.omitting added).queryCourse r courses' frame (.schedules kind reported) =
          ((c.omitting added).unfold r c.insertions.length kind).bind fun final =>
            { ending := .ok (decide (final ≠ .none)) } := rfl
      rcases h.unfold_omitting (r := r) added c.insertions.length kind with heq | ⟨hnone, f, ha, hf⟩
      · refine hask ?_
        rw [hcourse, heq]
        exact .refl _
      · -- The request is suppressed, and all that came of it fades.
        have hfade := List.all_eq_true.mp hq f f.mem_all
        simp only [hf, not_true_eq_false, decide_false, Bool.false_or, Bool.and_eq_true,
          decide_eq_true_eq] at hfade
        obtain ⟨rfl, hfade⟩ := hfade
        have hfades : (c.scriptCourse r allocator courses frame
            (.ask (.schedules kind false) yes .skip)).Fades (c.keeps added) :=
              h.fades_script ha hfade
        rw [scriptCourse, hcourse, hnone]
        exact hfades.thins
    | stage stage => exact hask (hcourses _ _)
    | standard =>
      refine hask ?_
      unfold queryCourse
      cases frame.stage with
      | none => exact .refl _
      | some stage => exact hcourses _ _

end thinning

theorem thins_stage (ht : ∀ sc, (c.target.called sc).thinnable) (depth : Nat) (sc : StageCall)
    (p : Option Pass) :
    ((c.omitting added).stageCourse r allocator depth sc p).Thins (c.keeps added)
      (c.stageCourse r allocator depth sc p) := by
  induction depth generalizing sc p with
  | zero => exact .refl _
  | succ depth ih => exact h.thins_script ih (ht sc)

/-- The course of a build with more omissions is that without them, thinned out. -/
theorem thins_course (ht : ∀ sc, (c.target.called sc).thinnable) :
    ((c.omitting added).course r allocator).Thins (c.keeps added) (c.course r allocator) := by
  have hstage (stage : Stage) :
      ((c.omitting added).stageCourse r allocator Build.depthLimit { stage } none).Thins
        (c.keeps added) (c.stageCourse r allocator Build.depthLimit { stage } none) :=
    h.thins_stage ht _ _ _
  exact (hstage _).bind fun _ _ => (hstage _).bind fun _ _ => (hstage _).bind fun _ _ =>
    (hstage _).bind fun _ _ => .refl _

theorem building : { c with phase := .building }.Tidy :=
  ⟨h.inserted, h.anchors, h.printer, h.companions⟩

end Tidy

theorem Outfit.unsubstituted {target : Target} {l : List (PassId × PassId)} {more : List Insertion}
    (h : Outfit target l more) :
    standIn l Standard.machinePrinter = Standard.machinePrinter ∧
      standIn l Standard.blockPlacementStats = Standard.blockPlacementStats := by
  cases h with
  | x86 name => decide
  | aarch64 name f => decide

theorem Outfitted.tidy {target : Target} {level : Level} {options : Options}
    (h : Outfitted target level options c) : c.Tidy := by
  obtain ⟨print, more, hp, ho, hi⟩ := h.outfit
  have hkinds : ∀ i ∈ c.insertions, i.inserted = Standard.machinePrinter ∨
      i = ⟨Standard.expandPostRAPseudos, Standard.x86VZeroUpper⟩ := by
    intro i hmem
    rw [hi] at hmem
    rcases List.mem_append.mp hmem with hmem | hmem
    · obtain ⟨anchor, -, rfl⟩ := List.mem_map.mp hmem
      exact .inl rfl
    · rcases ho.insertions_cases with rfl | rfl
      · cases hmem
      · exact .inr (List.mem_singleton.mp hmem)
  have hplain := ho.unsubstituted
  refine ⟨?_, ?_, ?_, ?_⟩
  · intro i hmem f
    rcases hkinds i hmem with he | rfl
    · rw [he]
      cases f <;> decide
    · cases f <;> decide
  · intro i hmem
    refine (hkinds i hmem).imp_right ?_
    rintro rfl
    exact ⟨by decide, fun f => by cases f <;> decide⟩
  · rw [c.resolve_of_rule? rfl]
    exact congrArg _ hplain.1
  · intro f kind hkind
    cases f with
    | codePlace =>
      obtain rfl := List.mem_singleton.mp hkind
      rw [c.resolve_of_rule? rfl]
      exact congrArg _ hplain.2
    | _ => cases hkind

theorem create_omitting {session : Session} {target : Target} {level : Level} {options : Options}
    {sink : Sink} {entries : List Entry} (ht : target.Bundled)
    (h : create session target level options sink = (.ok c, entries)) (added : Omission → Bool) :
    create session target level (options.omitting added) sink =
      (.ok (c.omitting added), entries) := by
  obtain ⟨start, stop, print, t, hstart, hstop, hp, hprint, hu, rfl, rfl⟩ := create_prepared_inv h
  have hcreate : create session target level (options.omitting added) sink = _ :=
    create_of_boundaries hstart hstop hp
  rw [hcreate, Build.outcome_setUp _ _ _ _ _ _ hprint]
  cases ht with
  | x86 name =>
    rw [Build.outcome_configure_x86 rfl] at hu
    cases hu
    rw [Build.outcome_configure_x86 rfl]
    rfl
  | aarch64 name f =>
    rw [Build.outcome_configure_aarch64 rfl] at hu
    cases hu
    rw [Build.outcome_configure_aarch64 rfl]
    rfl

end Config

def Blueprint.omitting (b : Blueprint) (added : Omission → Bool) : Blueprint :=
  { b with options := b.options.omitting added }

namespace Session

variable {s : Session} {b : Blueprint} {c : Config} {entries : List Entry}

/-- Options that disable passes only take away what they govern. -/
theorem pipeline_omitting (ht : b.target.Bundled) (hc : s.configure b = (.ok c, entries))
    (hstart : b.options.startAfter = "") (hstop : b.options.stopAfter = "")
    (added : Omission → Bool) :
    (s.Ordinary → b.options.enableMachineSched.Valid → ∃ passes, (s.pipeline b).1 = .ok passes) ∧
    ∀ passes, (s.pipeline b).1 = .ok passes →
      ∃ rest, (s.pipeline (b.omitting added)).1 = .ok rest ∧ rest.Sublist passes ∧
        rest.filter (c.keeps added ·.id) = passes.filter (c.keeps added ·.id) := by
  refine ⟨fun hs => exists_pipeline hs ht hc hstart hstop, fun passes hp => ?_⟩
  have ho := Config.outfitted_of_create ht hc
  have hplace := Config.placement_of_create ht hc hstart hstop
  rw [(pipeline_bundled ht hc).1, result_eq_ok_iff hplace] at hp
  obtain ⟨hend, rfl, horder⟩ := hp
  have hthins : (s.courseOf (c.omitting added)).Thins (c.keeps added) (s.courseOf c) :=
    ho.tidy.building.thins_course (ho.target_eq ▸ ht.thinnable)
  obtain ⟨hend', hsub, hkeep⟩ := hthins () hend
  have hc' : s.configure (b.omitting added) = (.ok (c.omitting added), entries) :=
    Config.create_omitting ht hc added
  refine ⟨(s.courseOf (c.omitting added)).passes, ?_, hsub, hkeep⟩
  rw [(pipeline_bundled (b := b.omitting added) ht hc').1,
    result_eq_ok_iff (c := c.omitting added) hplace]
  refine ⟨hend', rfl, ?_⟩
  -- A part of a list keeps to the order of the list.
  rw [Order.broken?_eq_none_iff] at horder ⊢
  intro k hk
  have hne := (Order.constraints_undiagnostic k hk).1
  rw [Order.respected_iff_pairwise hne]
  exact ((Order.respected_iff_pairwise hne).mp (horder k hk)).sublist (hsub.map Pass.id)

/-- On x86-64, with machine code printed behind every step and placed blocks counted. -/
def talkative : Blueprint where
  target := Platform.x86Linux.target
  level := ⟨2⟩
  options := { printMachineCode := true, enableBlockPlacementStats := true }

/-- Without the placement of code two passes and a printer are missing, and without folded branches
one pass and a printer. -/
theorem pipeline_omitting_talkative : ∃ c entries passes rest,
    standard.configure talkative = (.ok c, entries) ∧
    (standard.pipeline talkative).1 = .ok passes ∧
    (standard.pipeline (talkative.omitting fun f => f = .codePlace || f = .branchFold)).1 =
      .ok rest ∧
    rest.Sublist passes ∧ rest.length + 5 = passes.length ∧
    rest.filter (c.keeps (fun f => f = .codePlace || f = .branchFold) ·.id) =
      passes.filter (c.keeps (fun f => f = .codePlace || f = .branchFold) ·.id) := by
  have hrun : ∃ c ∈ (standard.configure talkative).1.toOption,
      (standard.pipeline
          (talkative.omitting fun f => f = .codePlace || f = .branchFold)).1.toOption.map
        (·.length + 5) = (standard.pipeline talkative).1.toOption.map List.length := by
    decide +kernel
  obtain ⟨c, hc, hlength⟩ := hrun
  have hc := eq_of_mem_toOption hc
  obtain ⟨hexists, homit⟩ := pipeline_omitting (Platform.bundled .x86Linux) hc rfl rfl
    fun f => f = .codePlace || f = .branchFold
  obtain ⟨passes, hp⟩ := hexists ordinary_standard (by decide)
  obtain ⟨rest, hr, hsub, hkeep⟩ := homit passes hp
  refine ⟨c, _, passes, rest, hc, hp, hr, hsub, ?_, hkeep⟩
  rw [hp, hr] at hlength
  exact Option.some.inj hlength

end Session

end PassPipeline

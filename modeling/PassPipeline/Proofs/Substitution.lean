import PassPipeline.Proofs.Disabling
import PassPipeline.Proofs.Immutability
import PassPipeline.Proofs.Recursion

/-! Where a request leads, after everything that can be done to a configuration before its build. Of
the substitutions that were recorded for a kind the last one counts, and the options have their say
about the kind that was asked for, not about the one that stands in for it. -/
namespace PassPipeline

/-- Omissions that stages see to on their own. A request for such a kind is met all the same. -/
def Omission.byStages : Omission → Bool
  | .lsr | .cgp => true
  | _ => false

/-- Options take out a kind, whatever stands in for it. -/
def Options.takesOut (o : Options) (id : PassId) : Bool :=
  (Omission.all.any fun f => !f.byStages && f.isSet o && id ∈ f.governs) ||
    (id = Standard.earlyIfConverter && !o.enableEarlyIfConversion)

namespace Override

variable {id : PassId} {f : Omission}

theorem rule?_of_governs (hf : f.byStages = false) (h : id ∈ f.governs) :
    rule? id = some (.disable f.isSet) := by
  cases f with
  | lsr | cgp => cases hf
  | codePlace =>
    rcases List.mem_pair.mp h with rfl | rfl
    · rfl
    · rfl
  | postRA | branchFold | tailDuplicate | earlyTailDup | ssc | machineDCE | machineLICM | machineCSE
  | postRAMachineLICM | machineSink | copyProp =>
    obtain rfl := List.mem_singleton.mp h
    rfl

theorem rule?_earlyIfConverter :
    rule? Standard.earlyIfConverter = some (.disable fun o => !o.enableEarlyIfConversion) := rfl

theorem mem_rules_cases : ∀ kind ∈ rules.map Prod.fst,
    (∃ f ∈ Omission.all, f.byStages = false ∧ kind ∈ f.governs) ∨ kind = Standard.earlyIfConverter ∨
      kind = Standard.machineScheduler := by
  decide

variable {o : Options}

theorem takesOut_iff : o.takesOut id ↔
    (∃ f : Omission, f.byStages = false ∧ f.isSet o ∧ id ∈ f.governs) ∨
      id = Standard.earlyIfConverter ∧ o.enableEarlyIfConversion = false := by
  simp [Options.takesOut, Omission.mem_all, and_assoc]

theorem apply_of_takesOut (h : o.takesOut id) (target : PassId) :
    apply o id target = .ok .none := by
  rcases takesOut_iff.mp h with ⟨f, hf, hset, hid⟩ | ⟨rfl, hset⟩
  · simp [apply, rule?_of_governs hf hid, hset]
  · simp [apply, rule?_earlyIfConverter, hset]

theorem apply_of_not_takesOut (h : ¬ o.takesOut id) (hid : id ≠ Standard.machineScheduler)
    (target : PassId) : apply o id target = .ok target := by
  cases hr : rule? id with
  | none => simp [apply, hr]
  | some rule =>
    have hkey : id ∈ rules.map Prod.fst := List.mem_map_of_mem (mem_of_rule? hr)
    rcases mem_rules_cases id hkey with ⟨f, -, hf, hgoverns⟩ | rfl | rfl
    · have hset : f.isSet o = false := by
        refine Bool.eq_false_iff.mpr fun hset => h ?_
        exact takesOut_iff.mpr (.inl ⟨f, hf, hset, hgoverns⟩)
      simp [apply, rule?_of_governs hf hgoverns, hset]
    · have hset : o.enableEarlyIfConversion = true := by
        refine Decidable.byContradiction fun hset => h ?_
        exact takesOut_iff.mpr (.inr ⟨rfl, Bool.eq_false_iff.mpr hset⟩)
      simp [apply, rule?_earlyIfConverter, hset]
    · exact absurd rfl hid

theorem force_eq_error_iff {target fallback : PassId} {t : Tristate} {e : OverrideError}
    (h : fallback ≠ .none) :
    force target t fallback = .error e ↔ ¬ t.Valid ∧ e = .invalidTristate t.number := by
  by_cases hv : t.Valid
  · rcases hv with rfl | rfl | rfl
    · simp [Tristate.Valid]
    · simp [Tristate.Valid, force_on target h]
    · simp [Tristate.Valid]
  · have hforce : force target t fallback = .error (.invalidTristate t.number) := by
      unfold Tristate.Valid at hv
      simp only [not_or] at hv
      simp [force, hv]
    rw [hforce]
    simp [hv, eq_comm]

end Override

/-! ## The record of substitutions -/

namespace Config

/-- The substitutions of a configuration, in the order in which they were made. -/
def record (c : Config) : List (PassId × PassId) := c.substitutions.reverse

/-- What stands in for a kind by a record: the target of the last entry for the kind, and the kind
itself if there is none. -/
inductive StandsIn (record : List (PassId × PassId)) (id : PassId) : PassId → Prop
  | recorded {target : PassId} (earlier later : List (PassId × PassId))
    (hr : record = earlier ++ (id, target) :: later) (hl : ∀ e ∈ later, e.1 ≠ id) :
    StandsIn record id target
  | itself (h : ∀ e ∈ record, e.1 ≠ id) : StandsIn record id id

variable {c : Config} {id target : PassId}

theorem standsIn_substitution (c : Config) (id : PassId) :
    StandsIn c.record id (c.substitution id) := by
  unfold substitution record
  cases hf : c.substitutions.find? (·.1 = id) with
  | none =>
    refine .itself fun e he => ?_
    simpa using List.find?_eq_none.mp hf e (List.mem_reverse.mp he)
  | some e =>
    obtain ⟨hid, later, earlier, hs, hl⟩ := List.find?_eq_some_iff_append.mp hf
    obtain rfl : e.1 = id := by simpa using hid
    refine .recorded earlier.reverse later.reverse (by simp [hs]) fun e' he' => ?_
    simpa using hl e' (List.mem_reverse.mp he')

theorem substitution_of_standsIn (h : StandsIn c.record id target) :
    c.substitution id = target := by
  have hs : c.substitutions = c.record.reverse := (List.reverse_reverse _).symm
  unfold substitution
  cases h with
  | recorded earlier later hr hl =>
    have hlater : later.reverse.find? (·.1 = id) = none := by
      simpa using fun a b hab => hl (a, b) hab
    simp [hs, hr, hlater]
  | itself hno =>
    have hnone : c.substitutions.find? (·.1 = id) = none := by
      rw [hs]
      simpa using fun a b hab => hno (a, b) hab
    rw [hnone]

theorem standsIn_iff : StandsIn c.record id target ↔ target = c.substitution id :=
  ⟨fun h => (substitution_of_standsIn h).symm, fun h => h ▸ standsIn_substitution c id⟩

/-! ## Where a request leads -/

theorem resolve_of_takesOut (h : c.options.takesOut id) : c.resolve id = .ok .none :=
  Override.apply_of_takesOut h _

theorem resolve_of_not_takesOut (h : ¬ c.options.takesOut id)
    (hid : id ≠ Standard.machineScheduler) : c.resolve id = .ok (c.substitution id) :=
  Override.apply_of_not_takesOut h hid _

theorem resolve_scheduler (c : Config) :
    c.resolve Standard.machineScheduler =
      Override.force (c.substitution Standard.machineScheduler) c.options.enableMachineSched
        Standard.machineScheduler := rfl

theorem resolve_eq_error_iff {e : OverrideError} :
    c.resolve id = .error e ↔
      id = Standard.machineScheduler ∧ ¬ c.options.enableMachineSched.Valid ∧
        e = .invalidTristate c.options.enableMachineSched.number := by
  by_cases hid : id = Standard.machineScheduler
  · subst hid
    rw [resolve_scheduler, Override.force_eq_error_iff (by decide)]
    simp
  · by_cases hout : c.options.takesOut id = true
    · simp [resolve_of_takesOut hout, hid]
    · simp [resolve_of_not_takesOut hout hid, hid]

/-- What stands in for a kind and what the options say to the rule for it are all that counts. -/
theorem resolve_congr {d : Config} (hs : d.substitution id = c.substitution id)
    (hagree : ∀ rule, Override.rule? id = some rule → Override.agree c.options d.options rule) :
    d.resolve id = c.resolve id := by
  rw [resolve, resolve, hs, Override.apply_eq_of_agree hagree]

namespace Event

/-- The entry that an event makes in the record. -/
def substitution? : Event → Option (PassId × PassId)
  | .substitute standard target => some (standard, target)
  | _ => none

/-- The entries that a history makes in the record: those from before the build. -/
def entries (events : List Event) : List (PassId × PassId) :=
  (events.takeWhile (!·.endsSetUp)).filterMap substitution?

end Event

end Config

namespace Construction

open Config (Event)

variable {s : Construction} {e : Event}

theorem step_phase (h : e.endsSetUp = false) : (s.step e).config.phase = s.config.phase := by
  have hm := Config.moves_step s e
  generalize (s.step e).config = d at hm
  cases hm with
  | stays => rfl
  | changes hc hd => exact hd.trans hc.symm
  | places k x hc => rfl
  | enters before hc he => cases he; cases h
  | leaves he => cases he; cases h

/-- An event enters its substitution in the record, if the configuration can still be set,
and never touches the options. -/
theorem step_record (s : Construction) (e : Event) :
    (s.step e).config.options = s.config.options ∧
      (s.step e).config.record =
        s.config.record ++
          if s.config.phase = .configuring then e.substitution?.toList else [] := by
  by_cases hp : s.config.phase = .configuring
  · rw [if_pos hp]
    cases e with
    | substitute standard target =>
      rw [step, Event.work, Build.outcome_substitute _ _ hp]
      exact ⟨rfl, List.reverse_cons⟩
    | insert anchor inserted =>
      have hnone : s.config.record = s.config.record ++ [] := (List.append_nil _).symm
      rw [step, Event.work]
      by_cases hi : inserted = .none
      · rw [hi, Build.outcome_insert_none anchor hp]
        exact ⟨rfl, hnone⟩
      · by_cases ha : anchor = inserted
        · rw [ha, Build.outcome_insert_self hp hi]
          exact ⟨rfl, hnone⟩
        · rw [Build.outcome_insert hp hi ha]
          exact ⟨rfl, hnone⟩
    | set setting value =>
      rw [step, Event.work, Build.outcome_assign _ _ hp]
      cases setting <;> exact ⟨rfl, (List.append_nil _).symm⟩
    | enter before =>
      rw [step, Build.outcome_enter before hp]
      exact ⟨rfl, (List.append_nil _).symm⟩
    | request | place | printAndVerify =>
      rw [step_of_adds (by simp [hp]) rfl]
      exact ⟨rfl, (List.append_nil _).symm⟩
    | leave | elsewhere => exact ⟨rfl, (List.append_nil _).symm⟩
  · rw [if_neg hp, List.append_nil]
    have hm := Config.moves_step s e
    generalize (s.step e).config = d at hm
    cases hm with
    | stays => exact ⟨rfl, rfl⟩
    | changes hc => exact absurd hc hp
    | places k x hc => exact ⟨rfl, rfl⟩
    | enters before hc => exact absurd hc hp
    | leaves => exact ⟨rfl, rfl⟩

theorem after_options (s : Construction) (events : List Event) :
    (s.after events).config.options = s.config.options := by
  induction events generalizing s with
  | nil => rfl
  | cons e events ih => exact (ih (s.step e)).trans (step_record s e).1

/-- A history enters the substitutions from before the build in the record, one after the other. -/
theorem after_record (h : s.config.phase = .configuring) (events : List Event) :
    (s.after events).config.record = s.config.record ++ Event.entries events := by
  induction events generalizing s with
  | nil => exact (List.append_nil _).symm
  | cons e events ih =>
    have hrecord := (step_record s e).2
    rw [if_pos h] at hrecord
    rw [after_cons]
    cases he : e.endsSetUp with
    | false =>
      rw [ih ((step_phase he).trans h), hrecord, List.append_assoc]
      cases hs : e.substitution? <;> simp [Event.entries, he, hs]
    | true =>
      have hbegun : (s.step e).config.phase ≠ .configuring := by
        cases e with
        | enter before =>
          have hmem : Event.enter before ∈ [Event.enter before] := List.mem_singleton.mpr rfl
          exact begun_of_enter hmem
        | leave => simp [step, Event.work]
        | _ => cases he
      have hkept : ((s.step e).after events).config.record = (s.step e).config.record :=
        congrArg (·.substitutions.reverse) (after_begun hbegun events).2
      have hnone : e.substitution? = none := by cases e <;> first | rfl | cases he
      rw [hkept, hrecord, hnone]
      simp [Event.entries, he]

end Construction

namespace Build

variable {α β : Type} {s t : Construction} {id final : PassId}

/-! ## The phase of a created configuration -/

/-- Work that leaves the phase alone if it ends well. -/
def Phased (m : Build α) : Prop :=
  ∀ ⦃s a t⦄, m.outcome s = (.ok a, t) → t.config.phase = s.config.phase

namespace Phased

open Config (Event)

theorem of_config {m : Build α} (h : ∀ s, (m.outcome s).2.config = s.config) : Phased m := by
  intro s a t ho
  have hs := h s
  rw [ho] at hs
  exact congrArg Config.phase hs

theorem of_event {m : Build α} (e : Event) (he : e.endsSetUp = false)
    (h : ∀ s, (m.outcome s).2 = (e.work.outcome s).2) : Phased m := by
  intro s a t ho
  have hs := h s
  rw [ho] at hs
  exact (congrArg (·.config.phase) hs).trans (Construction.step_phase he)

theorem bind {m : Build α} {f : α → Build β} (hm : Phased m) (hf : ∀ a, Phased (f a)) :
    Phased (m >>= f) := by
  intro s b t ho
  obtain ⟨a, u, hu, ht⟩ := bind_outcome_ok ho
  exact (hf a ht).trans (hm hu)

theorem scripted : Scripted {} (fun _ => True) Phased := .of_events of_config bind of_event

theorem build_stagesMissing : Phased (build stagesMissing) := by
  intro s a t ho
  obtain ⟨refusal, u, hu, -⟩ := bind_outcome_ok ho
  obtain ⟨-, v, hv, -⟩ := buildInto_inv hu
  obtain ⟨w, hw⟩ := outcome_runStages_stagesMissing (s.inPhase .building)
  cases hv.symm.trans hw

theorem configure (script : Script) : Phased (discard (Build.exec stagesMissing {} script)) := by
  have hc (c : StageCall) (p : Option Pass) : Phased (stagesMissing c p) := scripted.throw _
  exact scripted.discarded (scripted.exec hc {} build_stagesMissing script.within_all)

end Phased

/-! ## Requests -/

theorem outcome_schedule_error {e : OverrideError} (h : s.config.resolve id = .error e) :
    (schedule id).outcome s = (.error (.override e (s.session.registry.name id)), s) := by
  rw [schedule_eq, outcome_bind_ok (outcome_view _ s), h]
  exact outcome_bind_ok (outcome_nameOf id s)

theorem outcome_schedule_none (h : s.config.resolve id = .ok .none) :
    ∃ t, (schedule id).outcome s = (.ok .none, t) := by
  rw [schedule_eq, outcome_bind_ok (outcome_view _ s), h]
  dsimp only
  rw [if_pos rfl, outcome_bind_ok (outcome_nameOf id s), outcome_bind_ok (outcome_trace _ s)]
  exact ⟨_, rfl⟩

theorem resolve_of_schedule (h : (schedule id).outcome s = (.ok final, t)) :
    s.config.resolve id = .ok final := by
  rw [schedule_eq, outcome_bind_ok (outcome_view _ s)] at h
  cases hr : s.config.resolve id with
  | error e =>
    rw [hr, outcome_bind_ok (outcome_nameOf id s)] at h
    cases h
  | ok final' =>
    rw [hr] at h
    dsimp only at h
    by_cases hn : final' = .none
    · rw [if_pos hn, outcome_bind_ok (outcome_nameOf id s),
        outcome_bind_ok (outcome_trace _ s)] at h
      cases h
      rfl
    · rw [if_neg hn] at h
      obtain ⟨p, u, -, hu⟩ := bind_outcome_ok h
      obtain ⟨-, v, -, hv⟩ := bind_outcome_ok hu
      cases hv
      rfl

theorem outcome_request_requestBy (id : PassId) (s : Construction) :
    ∃ inner, (request id).outcome s = (requestBy inner id).outcome s := by
  rw [outcome_request_room]
  cases s.config.insertions.length - s.config.nesting with
  | zero => exact ⟨none, rfl⟩
  | succ room => exact ⟨some (requestWithin room), rfl⟩

theorem outcome_request_error {e : OverrideError} (h : s.config.resolve id = .error e) :
    (request id).outcome s = (.error (.override e (s.session.registry.name id)), s) := by
  obtain ⟨inner, hby⟩ := outcome_request_requestBy id s
  rw [hby, outcome_requestBy, outcome_schedule_error h]

theorem outcome_request_none (h : s.config.resolve id = .ok .none) :
    ∃ t, (request id).outcome s = (.ok .none, t) := by
  obtain ⟨inner, hby⟩ := outcome_request_requestBy id s
  obtain ⟨t, ht⟩ := outcome_schedule_none h
  rw [hby, outcome_requestBy, ht]
  exact ⟨t, by simp⟩

theorem resolve_of_request (h : (request id).outcome s = (.ok final, t)) :
    s.config.resolve id = .ok final := by
  obtain ⟨inner, hby⟩ := outcome_request_requestBy id s
  rw [hby, outcome_requestBy] at h
  rcases hs : (schedule id).outcome s with ⟨d | final', u⟩
  · rw [hs] at h
    cases h
  · have hfinal : final' = final := by
      rw [hs] at h
      dsimp only at h
      split at h
      · cases h
        rfl
      · split at h
        · cases h
        · split at h <;> cases h
          rfl
    exact resolve_of_schedule (hfinal ▸ hs)

end Build

namespace Config

variable {session : Session} {target : Target} {level : Level} {options : Options} {sink : Sink}
  {c : Config} {entries : List Entry}

/-- A configuration that was created can be set, has the options it was created with, and has
recorded the standard substitutions before those of its target. -/
theorem record_of_create (h : create session target level options sink = (.ok c, entries)) :
    c.phase = .configuring ∧ c.options = options ∧
      ∃ own, c.record = initialSubstitutions.reverse ++ own := by
  obtain ⟨start, stop, print, s, -, -, -, -, hu, rfl, -⟩ := create_prepared_inv h
  refine ⟨Build.Phased.configure target.configure hu, ?_⟩
  obtain ⟨events, hs⟩ := Build.Told.configure target.configure
    { session, config := .prepared target level options sink _ print }
  rw [hu] at hs
  obtain rfl : s = _ := hs
  exact ⟨Construction.after_options _ events, _, Construction.after_record rfl events⟩

end Config

namespace Construction

open Config (Event StandsIn)

/-- Where a request leads, after any history of a configuration that was created: only the last
substitution for its kind and the rule for it count. -/
theorem resolution_law {session : Session} {target : Target} {level : Level} {options : Options}
    {sink : Sink} {entries : List Entry} {s : Construction}
    (h : Config.create session target level options sink = (.ok s.config, entries))
    (events : List Event) :
    let c := (s.after events).config
    (∃ own, c.record = Config.initialSubstitutions.reverse ++ own ++ Event.entries events) ∧
    ∀ id, ∃ t, (∀ t', StandsIn c.record id t' ↔ t' = t) ∧
      (options.takesOut id → c.resolve id = .ok .none) ∧
      (id = Standard.machineScheduler →
        (options.enableMachineSched = .unset → c.resolve id = .ok t) ∧
        (options.enableMachineSched = .off → c.resolve id = .ok .none) ∧
        (options.enableMachineSched = .on →
          c.resolve id = .ok (if t = .none then Standard.machineScheduler else t))) ∧
      (¬ options.takesOut id → id ≠ Standard.machineScheduler → c.resolve id = .ok t) ∧
      (∀ e, c.resolve id = .error e ↔ id = Standard.machineScheduler ∧
        ¬ options.enableMachineSched.Valid ∧
          e = .invalidTristate options.enableMachineSched.number) ∧
      (∀ d : Config, StandsIn d.record id t →
        (∀ rule, Override.rule? id = some rule → Override.agree options d.options rule) →
        d.resolve id = c.resolve id) ∧
      ∀ u : Construction, u.config = c →
        (∀ final v, (Build.request id).outcome u = (.ok final, v) → c.resolve id = .ok final) ∧
        (c.resolve id = .ok .none → ∃ v, (Build.request id).outcome u = (.ok .none, v)) ∧
        ∀ e, c.resolve id = .error e →
          (Build.request id).outcome u =
            (.error (.override e (u.session.registry.name id)), u) := by
  intro c
  obtain ⟨hphase, hoptions, own, hown⟩ := Config.record_of_create h
  have hc : c.options = options := (after_options s events).trans hoptions
  refine ⟨⟨own, by rw [after_record hphase, hown]⟩, fun id => ?_⟩
  rw [← hc]
  refine ⟨c.substitution id, fun t' => Config.standsIn_iff, Config.resolve_of_takesOut, ?_,
    Config.resolve_of_not_takesOut, fun e => Config.resolve_eq_error_iff, ?_, ?_⟩
  · rintro rfl
    rw [Config.resolve_scheduler]
    refine ⟨fun ht => ?_, fun ht => ?_, fun ht => ?_⟩
    · rw [ht, Override.force_unset]
    · rw [ht, Override.force_off]
    · rw [ht, Override.force_on _ (by decide)]
  · intro d hd
    exact Config.resolve_congr (Config.substitution_of_standsIn hd)
  · intro u hu
    rw [← hu]
    exact ⟨fun final v => Build.resolve_of_request, Build.outcome_request_none,
      fun e => Build.outcome_request_error⟩

/-- A configuration that leaves out two kinds and forces the scheduler on. -/
def selective : Construction where
  session := .standard
  config :=
    { Config.prepared (X86.target "x86") ⟨2⟩
        { disableTailDuplicate := true, disableMachineLICM := true, enableMachineSched := .on }
        .collected (.ofBounds .none .none) none with
      insertions := [⟨Standard.expandPostRAPseudos, Standard.x86VZeroUpper⟩] }

/-- Two substitutions for one kind, one for the kind that they end at,
and one that comes too late. -/
def overlapping : List Event :=
  [.substitute Standard.earlyTailDuplicate Standard.machineCSE,
    .substitute Standard.earlyTailDuplicate Standard.machineLICM,
    .substitute Standard.machineLICM Standard.stackProtector,
    .enter [],
    .substitute Standard.earlyTailDuplicate .none]

/-- A kind leads to one that is itself left out and replaced, and the scheduler to itself although
nothing stands in for it. -/
theorem resolution_law_overlapping :
    let c := (selective.after overlapping).config
    c.resolve Standard.earlyTailDuplicate = .ok Standard.machineLICM ∧
      c.resolve Standard.machineLICM = .ok .none ∧
      c.resolve Standard.machineScheduler = .ok Standard.machineScheduler := by
  intro c
  have hcreate : Config.create .standard (X86.target "x86") ⟨2⟩
      { disableTailDuplicate := true, disableMachineLICM := true, enableMachineSched := .on }
      .collected = (.ok selective.config, []) := rfl
  obtain ⟨-, hlaw⟩ := resolution_law hcreate overlapping
  refine ⟨?_, ?_, ?_⟩
  · obtain ⟨t, hstands, -, -, hother, -⟩ := hlaw Standard.earlyTailDuplicate
    have ht : Standard.machineLICM = t :=
      (hstands _).mp (.recorded (c.record.take 5) (c.record.drop 6) (by decide +kernel)
        (by decide +kernel))
    rw [ht]
    exact hother (by decide) (by decide)
  · obtain ⟨t, -, hout, -⟩ := hlaw Standard.machineLICM
    exact hout (by decide)
  · obtain ⟨t, hstands, -, hsched, -⟩ := hlaw Standard.machineScheduler
    have ht : PassId.none = t :=
      (hstands _).mp (.recorded (c.record.take 3) (c.record.drop 4) (by decide +kernel)
        (by decide +kernel))
    rw [(hsched rfl).2.2 rfl, ← ht]
    rfl

end Construction

end PassPipeline

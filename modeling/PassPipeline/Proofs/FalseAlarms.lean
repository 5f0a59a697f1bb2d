import PassPipeline.Proofs.Immutability
import PassPipeline.Proofs.InsertionCycles

/-! What an alarm about insertions is worth after failures. A request that breaks off behind another
one stays counted, although nothing is inside it any more, so that later requests find less room.
After such a failure an alarm only tells how far down the insertions go, and can be a false one. -/
namespace PassPipeline

namespace Build

open Config (Event)

variable {α β : Type} {s : Construction} {id : PassId}

/-- A request that schedules its kind, and then breaks off behind it. -/
def Interrupted (s : Construction) (id : PassId) : Prop :=
  ((schedule id).outcome s).1.isOk = true ∧ ((request id).outcome s).1.isOk = false

theorem nesting_of_interrupted (h : Interrupted s id) :
    s.config.nesting < ((request id).outcome s).2.config.nesting := by
  obtain ⟨hsched, hreq⟩ := h
  have hp : s.config.phase = .building := by
    by_contra hp
    rw [outcome_request_idle hp, hsched] at hreq
    cases hreq
  rcases hs : (schedule id).outcome s with ⟨d | final, t⟩
  · rw [hs] at hsched
    cases hsched
  · rcases ho : (request id).outcome s with ⟨d | answer, u⟩
    · have hrun : Answers s [id] (.error d) u := (answers_iff hp).mpr ho
      exact hrun.nesting_lt hs
    · rw [ho] at hreq
      cases hreq

theorem nesting_of_not_interrupted (h : ¬ Interrupted s id) :
    ((request id).outcome s).2.config.nesting = s.config.nesting := by
  rcases ho : (request id).outcome s with ⟨d | answer, t⟩
  · -- A request that is not interrupted breaks off only where its kind cannot be scheduled.
    rcases hs : (schedule id).outcome s with ⟨d' | final, u⟩
    · have heq : (request id).outcome s = (.error d', u) := by
        by_cases hp : s.config.phase = .building
        · rw [outcome_request hp, hs]
        · rw [outcome_request_idle hp, hs]
      cases ho.symm.trans heq
      exact (schedule_keeps hs).2.2
    · refine absurd ⟨?_, ?_⟩ h
      · rw [hs]
        rfl
      · rw [ho]
        rfl
  · exact nesting_of_ok ho

theorem Alarm.building (h : Alarm s id) : s.config.phase = .building := by
  by_contra hp
  obtain ⟨name, t, ho⟩ := h
  rw [outcome_request_idle hp] at ho
  have hcycle := (schedule_spec id s).2 (.insertionCycle name) (by rw [ho])
  cases hcycle

theorem Alarm.descends (h : Alarm s id) :
    s.config.Descends (s.config.insertions.length - s.config.nesting + 1) id :=
  Config.descends_of_lacksRoom ((alarm_iff_lacksRoom h.building).mp h)

theorem Alarm.exists_recurs (h : Alarm s id) (hn : s.config.nesting = 0) :
    ∃ x, s.config.Reaches id x ∧ s.config.Recurs x := by
  have hroom := (alarm_iff_lacksRoom h.building).mp h
  rw [hn, Nat.sub_zero] at hroom
  exact Config.exists_recurs_of_lacksRoom hroom

/-- Work that leaves the counter of requests alone, however it ends. -/
def Uncounted (m : Build α) : Prop := ∀ s, (m.outcome s).2.config.nesting = s.config.nesting

namespace Uncounted

theorem of_config {m : Build α} (h : ∀ s, (m.outcome s).2.config = s.config) : Uncounted m :=
  fun s => congrArg Config.nesting (h s)

theorem bind {m : Build α} {f : α → Build β} (hm : Uncounted m) (hf : ∀ a, Uncounted (f a)) :
    Uncounted (m >>= f) := by
  intro s
  have hs := hm s
  rw [outcome_bind]
  rcases ho : m.outcome s with ⟨d | a, t⟩
  · rw [ho] at hs
    exact hs
  · rw [ho] at hs
    exact (hf a t).trans hs

theorem place (p : Pass) : Uncounted (place p) := by
  intro s
  by_cases hp : s.config.phase = .building
  · rw [outcome_place p hp, placed_config]
    rfl
  · exact congrArg Config.nesting (place_idle hp p)

theorem printAndVerify (banner : String) : Uncounted (printAndVerify banner) := by
  rw [printAndVerify_eq]
  refine bind (of_config fun _ => rfl) fun x => bind ?_ fun _ => ?_
  · split
    · exact place _
    · exact of_config fun _ => rfl
  · split
    · exact place _
    · exact of_config fun _ => rfl

theorem of_change {e : Event} (he : ∀ r, (e.change? r).isSome)
    (h : ∀ s : Construction, s.config.phase = .configuring →
      (e.work.outcome s).2.config.nesting = s.config.nesting) : Uncounted e.work := by
  intro s
  by_cases hp : s.config.phase = .configuring
  · exact h s hp
  · obtain ⟨change, hc⟩ := Option.isSome_iff_exists.mp (he s.session.registry)
    rw [outcome_change hp hc]

theorem substitute (standard target : PassId) : Uncounted (substitute standard target) :=
  of_change (e := .substitute standard target) (fun _ => rfl) fun s hp => by
    rw [Event.work, outcome_substitute _ _ hp]

theorem insert (anchor inserted : PassId) : Uncounted (insert anchor inserted) :=
  of_change (e := .insert anchor inserted) (fun _ => rfl) fun s hp => by
    rw [Event.work]
    by_cases hi : inserted = .none
    · rw [hi, outcome_insert_none anchor hp]
    · by_cases ha : anchor = inserted
      · rw [ha, outcome_insert_self hp hi]
      · rw [outcome_insert hp hi ha]

theorem assign (setting : Setting) (value : Bool) : Uncounted (assign setting value) :=
  of_change (e := .set setting value) (fun _ => by cases setting <;> rfl) fun s hp => by
    rw [Event.work, outcome_assign _ _ hp]
    cases setting <;> rfl

theorem event {e : Event} (he : ∀ id, e ≠ .request id) : Uncounted e.work := by
  cases e with
  | substitute standard target => exact substitute standard target
  | insert anchor inserted => exact insert anchor inserted
  | set setting value => exact assign setting value
  | request id => exact absurd rfl (he id)
  | place p => exact place p
  | printAndVerify banner => exact printAndVerify banner
  | enter before => exact of_change (fun _ => rfl) fun s hp => by rw [outcome_enter before hp]
  | leave => exact fun _ => rfl
  | elsewhere session journal => exact fun _ => rfl

end Uncounted

/-- Work that leaves the counter of requests alone if it ends well. -/
def Balanced (m : Build α) : Prop :=
  ∀ ⦃s a t⦄, m.outcome s = (.ok a, t) → t.config.nesting = s.config.nesting

namespace Balanced

theorem of_uncounted {m : Build α} (h : Uncounted m) : Balanced m := by
  intro s a t ho
  have hs := h s
  rw [ho] at hs
  exact hs

theorem of_config {m : Build α} (h : ∀ s, (m.outcome s).2.config = s.config) : Balanced m :=
  of_uncounted (.of_config h)

theorem bind {m : Build α} {f : α → Build β} (hm : Balanced m) (hf : ∀ a, Balanced (f a)) :
    Balanced (m >>= f) := by
  intro s b t ho
  obtain ⟨a, u, hu, ht⟩ := bind_outcome_ok ho
  exact (hf a ht).trans (hm hu)

theorem scripted : Scripted {} (fun _ => True) Balanced where
  pure a := .of_config fun _ => rfl
  bind := bind
  throw d := .of_config fun _ => rfl
  target hk := (bind (.of_config fun _ => rfl) fun c => hk c.target trivial)
  trace text := .of_config fun s => by simp
  announce := .of_config fun s => by simp
  note e := .of_config fun _ => rfl
  holds _ := .of_config fun _ => rfl
  shown hq := by cases hq
  request id := fun _ _ _ ho => nesting_of_ok ho
  place {supply} _ := (of_config (take_config supply)).bind fun p => of_uncounted (.place p)
  print _ := (of_config fun _ => rfl).bind fun _ => of_uncounted (.place _)
  printAndVerify {banner} _ := of_uncounted (.printAndVerify banner)
  substitute {standard target} _ := of_uncounted (.substitute standard target)
  insert {anchor inserted} _ := of_uncounted (.insert anchor inserted)
  assign {setting value} _ := of_uncounted (.assign setting value)
  allocatorPass optimized := .of_config (allocatorPass_config optimized)
  placeHanded p := by
    cases p with
    | some p => exact of_uncounted (.place p)
    | none => exact .of_config placeHanded_none_config

theorem build {call : Caller} (hc : ∀ c p, Balanced (call c p)) : Balanced (build call) := by
  have hmutable (change : Change) : Balanced (requireMutable change) := of_config fun s => by
    rw [outcome_requireMutable]
    split <;> rfl
  have hphase (now : Phase) : Balanced (modifyConfig fun c => { c with phase := now }) :=
    of_uncounted fun _ => rfl
  rw [build_eq, buildInto_eq]
  refine bind (bind (hmutable _) fun _ => bind (hphase _) fun _ =>
    bind (scripted.runStages hc) fun _ =>
    bind (hphase _) fun _ => .of_config fun _ => rfl) fun refusal => .of_config fun s => ?_
  cases refusal with
  | some r => rfl
  | none =>
    rw [outcome_bind_ok (outcome_view _ s)]
    cases Order.broken? (s.config.handed.map Pass.id) <;> rfl

theorem configure (script : Script) : Balanced (discard (Build.exec stagesMissing {} script)) := by
  have hc (c : StageCall) (p : Option Pass) : Balanced (stagesMissing c p) := scripted.throw _
  exact scripted.discarded (scripted.exec hc {} (build hc) script.within_all)

end Balanced

end Build

theorem Config.nesting_of_create {session : Session} {target : Target} {level : Level}
    {options : Options} {sink : Sink} {c : Config} {entries : List Entry}
    (h : create session target level options sink = (.ok c, entries)) : c.nesting = 0 := by
  obtain ⟨start, stop, print, s, -, -, -, -, hu, rfl, -⟩ := create_prepared_inv h
  exact Build.Balanced.configure target.configure hu

namespace Construction

open Config (Event)

/-- An event after which a request stays counted. -/
def Disturbs (s : Construction) (e : Event) : Prop := ∃ id, e = .request id ∧ Build.Interrupted s id

/-- A history in which no request was interrupted. -/
def Undisturbed : Construction → List Event → Prop
  | _, [] => True
  | s, e :: events => ¬ s.Disturbs e ∧ (s.step e).Undisturbed events

variable {s : Construction}

/-- Just the requests that are interrupted stay counted. -/
theorem nesting_step (s : Construction) (e : Event) :
    s.Disturbs e ∧ s.config.nesting < (s.step e).config.nesting ∨
      ¬ s.Disturbs e ∧ (s.step e).config.nesting = s.config.nesting := by
  by_cases he : ∃ id, e = .request id
  · obtain ⟨id, rfl⟩ := he
    have hstep : s.step (.request id) = ((Build.request id).outcome s).2 := by
      rw [step, Event.work, Build.discard_eq, Build.outcome_bind]
      rcases (Build.request id).outcome s with ⟨d | a, t⟩ <;> rfl
    rw [hstep]
    by_cases hi : Build.Interrupted s id
    · exact .inl ⟨⟨id, rfl, hi⟩, Build.nesting_of_interrupted hi⟩
    · refine .inr ⟨?_, Build.nesting_of_not_interrupted hi⟩
      rintro ⟨id', hid, hi'⟩
      cases hid
      exact hi hi'
  · refine .inr ⟨?_, Build.Uncounted.event (fun id hid => he ⟨id, hid⟩) s⟩
    rintro ⟨id, hid, -⟩
    exact he ⟨id, hid⟩

/-- The counter never falls, and is what it was just after histories in which
no request was interrupted. -/
theorem nesting_after (s : Construction) (events : List Event) :
    s.config.nesting ≤ (s.after events).config.nesting ∧
      ((s.after events).config.nesting = s.config.nesting ↔ s.Undisturbed events) := by
  induction events generalizing s with
  | nil => exact ⟨Nat.le_refl _, by simp [Undisturbed]⟩
  | cons e events ih =>
    obtain ⟨hle, hiff⟩ := ih (s.step e)
    rw [after_cons, Undisturbed]
    rcases nesting_step s e with ⟨hd, hlt⟩ | ⟨hd, heq⟩
    · refine ⟨by omega, fun h => ?_, fun h => absurd hd h.1⟩
      omega
    · rw [heq] at hle hiff
      exact ⟨hle, by simp [hiff, hd]⟩

/-- What an alarm means after any history, with all that failed in it. Requests that were
interrupted stay counted, and leave less room for insertions. -/
theorem alarm_after_history {session : Session} {target : Target} {level : Level}
    {options : Options} {sink : Sink} {entries : List Entry}
    (h : Config.create session target level options sink = (.ok s.config, entries))
    (events : List Event) (id : PassId) :
    let t := s.after events
    (t.config.nesting = 0 ↔ s.Undisturbed events) ∧
    (s.Undisturbed events → Build.Alarm t id →
      t.config.Circular ∧ ∃ x, t.config.Reaches id x ∧ t.config.Recurs x) ∧
    (Build.Alarm t id → t.config.phase = .building ∧
      t.config.Descends (t.config.insertions.length - t.config.nesting + 1) id) ∧
    (t.config.phase = .building →
      (∀ x, t.config.Reaches id x → t.config.Met t.session.registry x) →
      (Build.Alarm t id ↔
        t.config.Descends (t.config.insertions.length - t.config.nesting + 1) id)) ∧
    (∀ frame script, ∃ later,
      ((Build.exec Build.stages frame script).outcome t).2 = t.after later) ∧
    (∃ later, ((Build.build Build.stages).outcome t).2 = t.after later) ∧
    (t.config.phase = .configuring → ∀ before, ∃ later,
      ((Build.buildInto Build.stages).outcome (t.onto before)).2 = t.after later) := by
  intro t
  have hzero : s.config.nesting = 0 := Config.nesting_of_create h
  have hcount : t.config.nesting = 0 ↔ s.Undisturbed events := by
    have hiff := (nesting_after s events).2
    rwa [hzero] at hiff
  refine ⟨hcount, fun hu ha => ?_, fun ha => ⟨ha.building, ha.descends⟩, fun hp hm => ?_,
    ?_, ?_, ?_⟩
  · obtain ⟨x, hx, hrec⟩ := ha.exists_recurs (hcount.mpr hu)
    exact ⟨hrec.circular, x, hx, hrec⟩
  · refine ⟨fun ha => ha.descends, fun hd => ?_⟩
    exact (Build.alarm_iff_lacksRoom hp).mpr (Config.lacksRoom_of_descends hm hd)
  · intro frame script
    exact Build.Told.exec frame script t
  · exact Build.Told.build Build.Told.stages t
  · intro hp before
    obtain ⟨inside, hi⟩ := Build.Told.buildInto Build.Told.stages hp before
    exact ⟨_, hi⟩

/-- A target that inserts a kind which is not registered, and apart from it one that is. -/
def forgetful : Target where
  name := "forgetful"
  exceptions := .none
  configure := .block
    [.run (.insert Standard.typeBasedAliasAnalysis ⟨999⟩),
      .run (.insert Standard.basicAliasAnalysis Standard.stackProtector)]

def configured : Construction where
  session := .standard
  config :=
    { Config.prepared forgetful ⟨2⟩ {} .collected (.ofBounds .none .none) none with
      insertions :=
        [⟨Standard.typeBasedAliasAnalysis, ⟨999⟩⟩,
          ⟨Standard.basicAliasAnalysis, Standard.stackProtector⟩] }

theorem create_forgetful :
    Config.create .standard forgetful ⟨2⟩ {} .collected = (.ok configured.config, []) := rfl

theorem not_circular_of_forgetful {c : Config} (h : c.insertions = configured.config.insertions) :
    ¬ c.Circular := by
  let height (id : PassId) : Nat :=
    if id = Standard.typeBasedAliasAnalysis ∨ id = Standard.basicAliasAnalysis then 1 else 0
  have hheight : ∀ i ∈ configured.config.insertions, height i.inserted < height i.anchor := by
    decide
  rw [← h] at hheight
  exact Config.not_circular_of_height hheight

/-- Two requests that are interrupted on the way. -/
def troubled : List Event :=
  [.enter [], .request Standard.typeBasedAliasAnalysis, .request Standard.typeBasedAliasAnalysis]

/-- There is no alarm before the two requests are interrupted, and there is one
for another kind afterwards. -/
theorem alarm_after_history_troubled :
    configured.Undisturbed [.enter []] ∧
      ¬ Build.Alarm (configured.after [.enter []]) Standard.basicAliasAnalysis ∧
      ¬ configured.Undisturbed troubled ∧
      Build.Alarm (configured.after troubled) Standard.basicAliasAnalysis := by
  obtain ⟨hcalm, hcycle, -⟩ :=
    alarm_after_history create_forgetful [.enter []] Standard.basicAliasAnalysis
  obtain ⟨htrouble, -, -, halarm, -⟩ :=
    alarm_after_history create_forgetful troubled Standard.basicAliasAnalysis
  have hundisturbed : configured.Undisturbed [.enter []] := hcalm.mp (by decide +kernel)
  let c : Config := (configured.after troubled).config
  have hnesting : c.nesting = 2 := by decide +kernel
  have hinsertions : c.insertions = configured.config.insertions := by decide +kernel
  have hbehind : c.insertedAfter Standard.basicAliasAnalysis = [Standard.stackProtector] := by
    decide +kernel
  have hnothing : c.insertedAfter Standard.stackProtector = [] := by decide +kernel
  have hmet (x : PassId) (hx : c.Reaches Standard.basicAliasAnalysis x) :
      c.Met (configured.after troubled).session.registry x := by
    rcases Relation.ReflTransGen.cases_head hx with rfl | ⟨y, hy, hx⟩
    · decide +kernel
    · obtain rfl : y = Standard.stackProtector := by simpa [hbehind] using hy.2
      rcases Relation.ReflTransGen.cases_head hx with rfl | ⟨z, hz, -⟩
      · decide +kernel
      · have hnone : z ∈ c.insertedAfter Standard.stackProtector := hz.2
        rw [hnothing] at hnone
        cases hnone
  refine ⟨hundisturbed, fun ha => ?_, fun hu => ?_, ?_⟩
  · exact not_circular_of_forgetful (by decide +kernel) (hcycle hundisturbed ha).1
  · have hzero : c.nesting = 0 := htrouble.mpr hu
    omega
  · refine (halarm (by decide +kernel) hmet).mpr ?_
    have hroom : c.insertions.length - c.nesting + 1 = 1 := by
      rw [hinsertions, hnesting]
      rfl
    have hfollows : c.Follows Standard.basicAliasAnalysis Standard.stackProtector :=
      ⟨⟨Standard.basicAliasAnalysis, by decide +kernel, by decide⟩, by simp [hbehind]⟩
    change c.Descends (c.insertions.length - c.nesting + 1) Standard.basicAliasAnalysis
    rw [hroom]
    exact ⟨Standard.stackProtector, hfollows, trivial⟩

/-- Two requests for a kind that is not registered break off. Then another request is refused for a
cycle, though the insertions lead back to nowhere. -/
theorem alarm_without_cycle :
    ∃ s t u, Config.create .standard forgetful ⟨2⟩ {} .collected = (.ok s.config, []) ∧
      (Build.build Build.stages).outcome s = (.error (.registry (.notRegistered ⟨999⟩)), t) ∧
      (Build.request Standard.typeBasedAliasAnalysis).outcome t =
        (.error (.registry (.notRegistered ⟨999⟩)), u) ∧
      Build.Alarm u Standard.basicAliasAnalysis ∧ ¬ u.config.Circular := by
  let built := (Build.build Build.stages).outcome configured
  let again := (Build.request Standard.typeBasedAliasAnalysis).outcome built.2
  let other := (Build.request Standard.basicAliasAnalysis).outcome again.2
  have hbuilt : built.1 = .error (.registry (.notRegistered ⟨999⟩)) := by decide +kernel
  have hagain : again.1 = .error (.registry (.notRegistered ⟨999⟩)) := by decide +kernel
  have hother : other.1 = .error (.insertionCycle "basicaa") := by decide +kernel
  have hinsertions : again.2.config.insertions = configured.config.insertions := by decide +kernel
  refine ⟨configured, built.2, again.2, create_forgetful, ?_, ?_, ⟨"basicaa", other.2, ?_⟩,
    not_circular_of_forgetful hinsertions⟩
  · rw [← hbuilt]
  · rw [← hagain]
  · rw [← hother]

end Construction

end PassPipeline

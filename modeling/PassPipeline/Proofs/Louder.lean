import PassPipeline.Proofs.Diagnostics
import PassPipeline.Proofs.Immutability

/-! Two builds side by side, one with diagnostic passes and one without. They ask for the same kinds
and get the same answers, and only what is handed over differs, by diagnostic passes. -/
namespace PassPipeline

/-- Scripts that look at the switches for diagnosis at most to decide over a print. -/
def Permit.heedless : Permit where
  asks q := !q.isDiagnostic
  shows _ := true

/-- Before a build there is nothing to print, and the printer of machine code is left as it is. -/
def Permit.heedlessBefore : Permit where
  does
    | .printAndVerify _ => false
    | .substitute standard _ => standard ≠ Standard.machinePrinter
    | .insert anchor _ => anchor ≠ Standard.machinePrinter
    | _ => true
  asks q := !q.isDiagnostic

/-- A target that neither looks at the switches for diagnosis nor touches
the printer of machine code. -/
structure Target.Heedless (t : Target) : Prop where
  configure : t.configure.within .heedlessBefore
  replaced : ∀ stage, ∀ script ∈ t.replaced stage, script.within .heedless

theorem Stage.within_standardScript (m : ExceptionModel) (stage : Stage) :
    (stage.standardScript m).within .heedless := by
  cases stage with
  | exceptions =>
    change (exceptionsScript m).within .heedless
    unfold exceptionsScript
    split
    · rfl
    · split
      · rfl
      · split <;> rfl
  | _ => rfl

theorem Target.Heedless.called {t : Target} (h : t.Heedless) (c : StageCall) :
    (t.called c).within .heedless := by
  have hstandard := c.stage.within_standardScript t.exceptions
  unfold Target.called Target.script Target.standardScript
  split
  · exact hstandard
  · cases hr : t.replaced c.stage with
    | none => exact hstandard
    | some script => exact h.replaced _ script hr

theorem Target.Bundled.heedless {t : Target} (h : t.Bundled) : t.Heedless := by
  cases h with
  | x86 name =>
    refine ⟨rfl, ?_⟩
    rintro (_ | _) script ⟨⟩ <;> rfl
  | aarch64 name f =>
    obtain ⟨loh, basic, merge⟩ := f
    refine ⟨by cases merge <;> rfl, ?_⟩
    rintro (_ | _) script ⟨⟩ <;> cases loh <;> rfl

namespace Config

def withSettings (c : Config) (x : Settings) : Config :=
  { c with
    substitutions := x.substitutions
    insertions := x.insertions
    disableVerify := x.disableVerify
    enableTailMerge := x.enableTailMerge
    printMachineCode := x.printMachineCode }

end Config

/-- Settings with a switch of their own for prints, and with `extra` insertions. -/
def Settings.louder (x : Settings) (print : Bool) (extra : List Insertion) : Settings :=
  { x with insertions := extra ++ x.insertions, printMachineCode := print }

namespace Build

variable {α β : Type} {now : Phase} {s t : Construction}

/-- `s` is the state of a build with diagnostic passes where the build
without them has reached `t`. -/
structure Louder (now : Phase) (s t : Construction) : Prop where
  session : s.session = t.session
  registry : t.session.registry = Standard.registry
  phase : t.config.phase = now
  nesting : t.config.nesting = 0
  config : ∃ o print extra l, s.config = t.config.louder o print extra l ∧
    o.quiet = t.config.options.quiet ∧
    (∀ i ∈ extra, i.anchor ≠ Standard.machinePrinter ∧ i.inserted = Standard.machinePrinter) ∧
    substance l = substance t.config.handed
  plain : t.config.placement.Plain
  heedless : ∀ call, (t.config.target.called call).within .heedless
  printer : t.config.PlainPrinter

/-- How the same work ends from two states: with the same answer, or with the same defect, where
cycles of insertions may be found at different kinds. -/
inductive Tallies (R : Construction → Construction → Prop) :
    Except Defect α × Construction → Except Defect α × Construction → Prop
  | ok (a : α) {s t : Construction} (h : R s t) : Tallies R (.ok a, s) (.ok a, t)
  | error {d e : Defect} {s t : Construction} (h : d = e ∨ d.isCycle ∧ e.isCycle) :
    Tallies R (.error d, s) (.error e, t)

/-- Work that does the same with diagnostic passes and without. -/
def Matches (now : Phase) (m : Build α) : Prop :=
  ∀ ⦃s t⦄, Louder now s t → Tallies (Louder now) (m.outcome s) (m.outcome t)

namespace Louder

/-- Nothing depends on the journal, or on what sessions remember in common. -/
theorem aside (h : Louder now s t) {s' t' : Construction} (hs : s'.config = s.config)
    (ht : t'.config = t.config) (hst : s'.session = t'.session)
    (hr : t'.session.registry = t.session.registry) : Louder now s' t' where
  session := hst
  registry := hr.trans h.registry
  phase := by rw [ht]; exact h.phase
  nesting := by rw [ht]; exact h.nesting
  config := by rw [hs, ht]; exact h.config
  plain := by rw [ht]; exact h.plain
  heedless := by rw [ht]; exact h.heedless
  printer := by rw [ht]; exact h.printer

theorem agrees (h : Louder now s t) (f : Config → α)
    (hf : ∀ c o print extra l, f (Config.louder c o print extra l) = f c) :
    f s.config = f t.config := by
  obtain ⟨o, print, extra, l, hc, -⟩ := h.config
  rw [hc, hf]

theorem target (h : Louder now s t) : s.config.target = t.config.target :=
  h.agrees Config.target fun _ _ _ _ _ => rfl

theorem left_phase (h : Louder now s t) : s.config.phase = now :=
  (h.agrees Config.phase fun _ _ _ _ _ => rfl).trans h.phase

theorem left_nesting (h : Louder now s t) : s.config.nesting = 0 :=
  (h.agrees Config.nesting fun _ _ _ _ _ => rfl).trans h.nesting

theorem refusal (h : Louder now s t) : s.config.refusal = t.config.refusal :=
  h.agrees Config.refusal fun _ _ _ _ _ => rfl

theorem handed (h : Louder now s t) : substance s.config.handed = substance t.config.handed := by
  obtain ⟨o, print, extra, l, hc, -, -, hl⟩ := h.config
  rw [hc]
  exact hl

theorem set (h : Louder .configuring s t) (f : Settings → Settings)
    (hf : ∀ x print extra, ∃ print', f (x.louder print extra) = (f x).louder print' extra)
    (hp : (t.config.withSettings (f t.config.settings)).PlainPrinter) :
    Louder .configuring { s with config := s.config.withSettings (f s.config.settings) }
      { t with config := t.config.withSettings (f t.config.settings) } := by
  obtain ⟨o, print, extra, l, hc, hq, he, hs⟩ := h.config
  obtain ⟨print', hl⟩ := hf t.config.settings print extra
  refine ⟨h.session, h.registry, h.phase, h.nesting, ⟨o, print', extra, l, ?_, hq, he, hs⟩, h.plain,
    h.heedless, hp⟩
  have hsettings : s.config.settings = t.config.settings.louder print extra := by rw [hc]; rfl
  change s.config.withSettings (f s.config.settings) = _
  rw [hsettings, hl, hc]
  rfl

/-- Both builds take passes, the same but for diagnostic ones. -/
theorem taken (h : Louder .building s t) {s' t' : Construction} {l l' : List Pass}
    (hs : s'.session = s.session)
    (hsc : s'.config = s.config.during 0 (s.config.placement.takeAll Standard.registry l))
    (ht : t'.session = t.session)
    (htc : t'.config = t.config.during 0 (t.config.placement.takeAll Standard.registry l'))
    (hl : substance l = substance l') : Louder .building s' t' := by
  obtain ⟨o, print, extra, before, hc, ho, he, hb⟩ := h.config
  have hstart : s.config.placement.quiet = t.config.placement.quiet := by
    rw [hc]
    simp only [Config.placement, Config.louder, Placement.quiet, hb]
  have hplain : s.config.placement.Plain := by
    rw [hc]
    exact ⟨h.plain.start, h.plain.stop, h.plain.settled⟩
  obtain ⟨-, hq⟩ := hplain.takeAll Standard.registry l
  obtain ⟨hplain', hq'⟩ := h.plain.takeAll Standard.registry l'
  have hend : (s.config.placement.takeAll Standard.registry l).quiet =
      (t.config.placement.takeAll Standard.registry l').quiet := by
    rw [hq, hq', hstart, hl]
  simp only [Placement.quiet, Placement.mk.injEq] at hend
  obtain ⟨hwindow, hrefusal, hhanded⟩ := hend
  refine ⟨hs.trans (h.session.trans ht.symm), ?_, ?_, ?_, ?_, ?_, ?_, ?_⟩
  · rw [ht]; exact h.registry
  · rw [htc]; exact h.phase
  · rw [htc]; rfl
  · refine ⟨o, print, extra, (s.config.placement.takeAll Standard.registry l).handed,
      ?_, ?_, he, ?_⟩
    · rw [hsc, htc, Config.during, Config.during, Config.withPlacement, Config.withPlacement,
        hwindow, hrefusal, hc]
      rfl
    · rw [htc]; exact ho
    · rw [htc]; exact hhanded
  · rw [htc]; exact hplain'
  · rw [htc]; exact h.heedless
  · rw [htc]; exact ⟨h.printer.stands, h.printer.alone⟩

end Louder

/-- Work that shows something, or nothing, and answers `a`. -/
def Shows (c : Config) (m : Build α) (a : α) : Prop :=
  ∃ l, substance l = [] ∧ Yields Standard.registry c 0 m { passes := l, ending := .ok a }

namespace Shows

variable {c : Config} {m : Build α} {f : α → Build β} {a : α} {b : β}

theorem pure (a : α) : Shows c (pure a) a := ⟨[], rfl, .pure a⟩

theorem bind (hm : Shows c m a) (hf : Shows c (f a) b) : Shows c (m >>= f) b := by
  obtain ⟨l, hl, hm⟩ := hm
  obtain ⟨l', hl', hf⟩ := hf
  refine ⟨l ++ l', by simp [hl, hl'], ?_⟩
  exact hm.bind (g := fun _ => { passes := l', ending := .ok b }) fun a' ha => by
    cases ha
    exact hf

theorem view_bind {g : Config → α} (h : Shows c (f (g (c.during 0 c.placement))) b)
    (hg : ∀ y, g (c.during 0 y) = g (c.during 0 c.placement)) : Shows c (view g >>= f) b := by
  obtain ⟨l, hl, h⟩ := h
  exact ⟨l, hl, h.view_bind hg⟩

variable (hc : c.phase = .building)
include hc

theorem place {p : Pass} (hp : p.id.isDiagnostic) : Shows c (place p) () :=
  ⟨[p], substance_eq_nil (by simpa using hp), .place hc p⟩

theorem placePrinter (subject : Subject) (banner : String) :
    Shows c (placePrinter subject banner) () := by
  rw [placePrinter_eq]
  exact view_bind (place hc (isDiagnostic_printer _ _ _)) fun _ => rfl

theorem shown (q : Condition) (subject : Subject) (banner : String) :
    Shows c (view (Condition.holds · q) >>= fun holds =>
      if holds then Build.placePrinter subject banner >>= fun _ => Pure.pure false
      else Pure.pure false) false := by
  refine view_bind ?_ fun _ => rfl
  split
  · exact (placePrinter hc subject banner).bind (pure false)
  · exact pure false

theorem printAndVerify (banner : String) : Shows c (printAndVerify banner) () := by
  rw [printAndVerify_eq]
  refine view_bind (bind (a := ()) ?_ ?_) fun _ => rfl
  · split
    · exact place hc (isDiagnostic_printer _ _ _)
    · exact pure ()
  · split
    · exact place hc (isDiagnostic_verifier _)
    · exact pure ()

end Shows

namespace Matches

theorem pure (a : α) : Matches now (pure a) := fun _ _ h => .ok a h

theorem throw (d : Defect) : Matches now (throw d : Build α) := fun _ _ _ => .error (.inl rfl)

theorem bind {m : Build α} {f : α → Build β} (hm : Matches now m) (hf : ∀ a, Matches now (f a)) :
    Matches now (m >>= f) := by
  intro s t h
  have hst := hm h
  rw [outcome_bind, outcome_bind]
  generalize m.outcome s = x at hst
  generalize m.outcome t = y at hst
  cases hst with
  | ok a h => exact hf a h
  | error h => exact .error h

theorem of_aside {m : Build α}
    (h : ∀ s t, Louder now s t → (m.outcome s).1 = (m.outcome t).1 ∧
      (m.outcome s).2.config = s.config ∧ (m.outcome t).2.config = t.config ∧
      (m.outcome s).2.session = (m.outcome t).2.session ∧
      (m.outcome t).2.session.registry = t.session.registry) : Matches now m := by
  intro s t hst
  obtain ⟨hanswer, hs, ht, hsession, hr⟩ := h s t hst
  have hafter := hst.aside hs ht hsession hr
  rcases hms : m.outcome s with ⟨d | a, s'⟩ <;> rcases hmt : m.outcome t with ⟨d' | a', t'⟩ <;>
    rw [hms, hmt] at hanswer hafter <;> cases hanswer
  · exact .error (.inl rfl)
  · exact .ok a hafter

theorem view {f : Config → α} (h : ∀ s t, Louder now s t → f s.config = f t.config) :
    Matches now (view f) :=
  of_aside fun s t hst => ⟨congrArg Except.ok (h s t hst), rfl, rfl, hst.session, rfl⟩

theorem target {k : Target → Build α}
    (h : ∀ t : Target, (∀ call, (t.called call).within .heedless) → Matches now (k t)) :
    Matches now (config >>= fun c => k c.target) := by
  intro s t hst
  rw [outcome_bind_ok (outcome_config s), outcome_bind_ok (outcome_config t), hst.target]
  exact h _ hst.heedless hst

theorem trace (text : String) : Matches now (trace text) :=
  of_aside fun s t hst => by simp [hst.session]

theorem announce : Matches now announce :=
  of_aside fun s t hst => by simp [hst.session]

theorem note (e : Entry) : Matches now (note e) :=
  of_aside fun s t hst => by simp [hst.session]

theorem nameOf (id : PassId) : Matches now (nameOf id) :=
  of_aside fun s t hst => by simp [hst.session]

theorem instantiate (id : PassId) : Matches now (instantiate id) :=
  of_aside fun s t hst => by simp [hst.session]

theorem holds {q : Condition} (hq : !q.isDiagnostic) :
    Matches now (Build.view (Condition.holds · q)) :=
  view fun s t hst => by
    obtain ⟨o, print, extra, l, hc, ho, -⟩ := hst.config
    rw [hc, Config.holds_louder _ _ _ _ ho hq]

theorem selectAllocator (optimized : Bool) : Matches now (selectAllocator optimized) := by
  refine of_aside fun s t hst => ?_
  rw [outcome_selectAllocator, outcome_selectAllocator, hst.session, hst.target]
  cases t.session.allocators.select optimized t.config.target.allocators with
  | error e => simp [hst.session]
  | ok x => simp

theorem allocatorPass (optimized : Bool) : Matches now (allocatorPass optimized) := by
  rw [allocatorPass_eq]
  exact (selectAllocator optimized).bind fun id => (nameOf id).bind fun _ =>
    (trace _).bind fun _ => instantiate id

theorem noAllocator : Matches now (placeHanded none) := by
  refine of_aside fun s t hst => ?_
  simp only [placeHanded, outcome_bind, outcome_config, hst.refusal]
  cases t.config.refusal <;> simp [hst.session]

theorem sink : Matches now (Build.view Config.sink) :=
  view fun _ _ hst => hst.agrees Config.sink fun _ _ _ _ _ => rfl

theorem take (supply : Supply) : Matches now (take supply) := by
  rw [take_eq]
  refine bind ?_ fun p => sink.bind fun sink => pure (p.withSink sink)
  cases supply with
  | registered id => exact instantiate id
  | ready p => exact pure p

/-! ### During the build -/

/-- Work that unfolds alike but for diagnostic passes, or lacks room with and without them. -/
theorem of_yields {m : Build α}
    (h : ∀ s t, Louder .building s t → ∃ x y, Yields Standard.registry s.config 0 m x ∧
      Yields Standard.registry t.config 0 m y ∧ (x.quiet = y.quiet ∨ x.lacksRoom ∧ y.lacksRoom)) :
    Matches .building m := by
  intro s t hst
  obtain ⟨x, y, hx, hy, hxy⟩ := h s t hst
  have hs : s.config = s.config.during 0 s.config.placement := by
    rw [← hst.left_nesting]
    rfl
  have ht : t.config = t.config.during 0 t.config.placement := by
    rw [← hst.nesting]
    rfl
  obtain ⟨s', k, hos, hss, hsc, hsk⟩ := hx (by rw [hst.session, hst.registry]) hs
  obtain ⟨t', k', hot, hts, htc, htk⟩ := hy hst.registry ht
  rw [hos, hot]
  rcases hxy with hq | ⟨hlx, hly⟩
  · obtain ⟨hp, he⟩ := Unfolding.quiet_eq_iff.mp hq
    rw [he] at hsk ⊢
    rcases hye : y.ending with d | a
    · exact .error (.inl rfl)
    · rw [hye] at hsk htk
      obtain rfl := hsk rfl
      obtain rfl := htk rfl
      exact .ok a (hst.taken hss hsc hts htc hp)
  · obtain ⟨d, hd, hdc⟩ := Unfolding.error_of_lacksRoom hlx
    obtain ⟨e, he, hec⟩ := Unfolding.error_of_lacksRoom hly
    rw [hd, he]
    exact .error (.inr ⟨hdc, hec⟩)

theorem place (p : Pass) : Matches .building (place p) :=
  of_yields fun _ _ hst => ⟨_, _, .place hst.left_phase p, .place hst.phase p, .inl rfl⟩

theorem placeHanded (p : Option Pass) : Matches .building (placeHanded p) := by
  cases p with
  | some p => exact place p
  | none => exact noAllocator

theorem request (id : PassId) : Matches .building (request id) := by
  refine of_yields fun s t hst => ⟨_, _, .request hst.left_phase id, .request hst.phase id, ?_⟩
  obtain ⟨o, print, extra, l, hc, ho, he, -⟩ := hst.config
  rw [hc]
  exact Config.quiet_unfold_length hst.printer he ho

theorem of_shows {m : Build α} {a : α} (h : ∀ c : Config, c.phase = .building → Shows c m a) :
    Matches .building m := by
  refine of_yields fun s t hst => ?_
  obtain ⟨l, hl, hs⟩ := h s.config hst.left_phase
  obtain ⟨l', hl', ht⟩ := h t.config hst.phase
  exact ⟨_, _, hs, ht, .inl (Unfolding.quiet_eq_iff.mpr ⟨hl.trans hl'.symm, rfl⟩)⟩

theorem of_change {m : Build Unit} (e : Config.Event) (hm : m = e.work)
    (he : ∀ r, (e.change? r).isSome) : Matches .building m := by
  intro s t hst
  obtain ⟨change, hc⟩ := Option.isSome_iff_exists.mp (he t.session.registry)
  rw [hm, outcome_change (by simp [hst.left_phase]) (by rw [hst.session]; exact hc),
    outcome_change (by simp [hst.phase]) hc]
  exact .error (.inl rfl)

theorem build {now : Phase} (call : Caller) (hn : now ≠ .configuring) :
    Matches now (build call) := by
  intro s t hst
  rw [outcome_build_of_ne call (by rw [hst.left_phase]; exact hn),
    outcome_build_of_ne call (by rw [hst.phase]; exact hn)]
  exact .error (.inl rfl)

theorem scripted :
    Scripted .heedless (fun t => ∀ call, (t.called call).within .heedless) (Matches .building) where
  pure := pure
  bind := bind
  throw := throw
  target := target
  trace := trace
  announce := announce
  note := note
  holds := holds
  shown {q subject banner} _ _ := of_shows fun c hc => .shown hc q subject banner
  request := request
  place {supply} _ := (take supply).bind place
  print {subject banner} _ := of_shows fun c hc => .placePrinter hc subject banner
  printAndVerify {banner} _ := of_shows fun c hc => .printAndVerify hc banner
  substitute {standard target} _ := of_change (.substitute standard target) rfl fun _ => rfl
  insert {anchor inserted} _ := of_change (.insert anchor inserted) rfl fun _ => rfl
  assign {setting value} _ := of_change (.set setting value) rfl fun _ => by cases setting <;> rfl
  allocatorPass := allocatorPass
  placeHanded := placeHanded

theorem runStages : Matches .building (runStages stages) :=
  scripted.runStages fun c p =>
    scripted.callStage (fun _ ht => ht) (fun call _ => build call (by decide)) depthLimit c p

/-! ### Before the build -/

theorem place_before (p : Pass) : Matches .configuring (Build.place p) := by
  intro s t hst
  rw [outcome_place_of_ne p (by simp [hst.left_phase]), outcome_place_of_ne p (by simp [hst.phase]),
    hst.left_phase, hst.phase]
  exact .error (.inl rfl)

theorem placePrinter_before (subject : Subject) (banner : String) :
    Matches .configuring (placePrinter subject banner) := by
  rw [placePrinter_eq]
  exact sink.bind fun _ => place_before _

theorem schedule_before (id : PassId) : Matches .configuring (schedule id) := by
  rw [schedule_eq]
  refine (view fun s t hst => ?_).bind ?_
  · obtain ⟨o, print, extra, l, hc, ho, -⟩ := hst.config
    rw [hc, Config.resolve_louder _ _ _ _ ho]
    rfl
  · rintro ⟨e | final, sink⟩
    · exact (nameOf id).bind fun _ => throw _
    · dsimp only
      split
      · exact (nameOf id).bind fun _ => (trace _).bind fun _ => pure final
      · exact (instantiate final).bind fun _ => (place_before _).bind fun _ => pure final

theorem request_before (id : PassId) : Matches .configuring (Build.request id) := by
  intro s t hst
  rw [outcome_request_idle (by simp [hst.left_phase]), outcome_request_idle (by simp [hst.phase])]
  exact schedule_before id hst

theorem substitute_before {standard : PassId} (hs : standard ≠ Standard.machinePrinter)
    (target : PassId) : Matches .configuring (substitute standard target) := by
  intro s t hst
  rw [outcome_substitute _ _ hst.left_phase, outcome_substitute _ _ hst.phase]
  exact .ok () (hst.set
    (fun x => { x with substitutions := (standard, target) :: x.substitutions })
    (fun _ print _ => ⟨print, rfl⟩) (hst.printer.substitute hs target))

theorem insert_before {anchor : PassId} (ha : anchor ≠ Standard.machinePrinter)
    (inserted : PassId) : Matches .configuring (insert anchor inserted) := by
  intro s t hst
  by_cases hi : inserted = .none
  · rw [hi, outcome_insert_none _ hst.left_phase, outcome_insert_none _ hst.phase, hst.session]
    exact .error (.inl rfl)
  · by_cases hself : anchor = inserted
    · rw [hself, outcome_insert_self hst.left_phase hi, outcome_insert_self hst.phase hi,
        hst.session]
      exact .error (.inl rfl)
    · rw [outcome_insert hst.left_phase hi hself, outcome_insert hst.phase hi hself]
      exact .ok () (hst.set
        (fun x => { x with insertions := x.insertions ++ [⟨anchor, inserted⟩] })
        (fun x print _ => ⟨print, by simp [Settings.louder]⟩) (hst.printer.insert ha inserted))

theorem assign_before (setting : Setting) (value : Bool) :
    Matches .configuring (assign setting value) := by
  intro s t hst
  have hp : (t.config.withSetting value setting).PlainPrinter := by
    cases setting <;> exact ⟨hst.printer.stands, hst.printer.alone⟩
  rw [outcome_assign _ _ hst.left_phase, outcome_assign _ _ hst.phase]
  cases setting with
  | disableVerify =>
    exact .ok () (hst.set (fun x => { x with disableVerify := value })
      (fun _ print _ => ⟨print, rfl⟩) hp)
  | enableTailMerge =>
    exact .ok () (hst.set (fun x => { x with enableTailMerge := value })
      (fun _ print _ => ⟨print, rfl⟩) hp)
  | printMachineCode =>
    exact .ok () (hst.set (fun x => { x with printMachineCode := value })
      (fun _ _ _ => ⟨value, rfl⟩) hp)

theorem placeHanded_before (p : Option Pass) : Matches .configuring (Build.placeHanded p) := by
  cases p with
  | some p => exact place_before p
  | none => exact noAllocator

theorem scripted_before :
    Scripted .heedlessBefore (fun t => ∀ call, (t.called call).within .heedless)
      (Matches .configuring) where
  pure := pure
  bind := bind
  throw := throw
  target := target
  trace := trace
  announce := announce
  note := note
  holds := holds
  shown hq := by cases hq
  request := request_before
  place {supply} _ := (take supply).bind place_before
  print {subject banner} _ := placePrinter_before subject banner
  printAndVerify hd := by cases hd
  substitute {_ target} hd := substitute_before (of_decide_eq_true hd) target
  insert {_ inserted} hd := insert_before (of_decide_eq_true hd) inserted
  assign {setting value} _ := assign_before setting value
  allocatorPass := allocatorPass
  placeHanded := placeHanded_before

/-- Before there are stages, a build ends with the first of them. -/
theorem build_before : Matches .configuring (Build.build stagesMissing) := by
  intro s t hst
  obtain ⟨s', hs⟩ := outcome_runStages_stagesMissing (s.inPhase .building)
  obtain ⟨t', ht⟩ := outcome_runStages_stagesMissing (t.inPhase .building)
  rw [outcome_build, outcome_build, outcome_buildInto _ hst.left_phase,
    outcome_buildInto _ hst.phase, hs, ht]
  exact .error (.inl rfl)

theorem configure {target : Target} (h : target.Heedless) :
    Matches .configuring (discard (exec stagesMissing {} target.configure)) :=
  scripted_before.discarded
    (scripted_before.exec (fun _ _ => throw _) {} build_before h.configure)

end Matches

end Build

end PassPipeline

import ImageRollout.CommandLine.Command
import ImageRollout.Flow.Launch
import ImageRollout.Proofs.Resolution.Batch
import ImageRollout.Proofs.Settings
import ImageRollout.Proofs.Store.Database

/-! The ways to resolve image types for a workload with a key. A caller may give the key's strategy, or a
    request that names the deterministic selection; it may run the command, or launch a sticky flow of
    that name. Over the tables of a database that refuses no statement all of them come to the same, in
    whatever order the image types are given, and so do the ways to resolve every image type. -/

namespace ImageRollout

open ImageRollout.Action

/-! ### One result for all sessions over the same tables -/

namespace Database

open Session

variable {t : Tables} {α : Type}

theorem uniform_execute (operation : String) : Uniform (Calm · t) (execute operation) :=
  ⟨.ok (), fun s hs => by
    rw [run_execute hs.fault]
    exact ⟨rfl, ⟨hs.committed, hs.draft⟩, hs.fault⟩⟩

theorem uniform_query (f : Tables → α) : Uniform (Calm · t) (query f) :=
  .read (f t) fun _ hs => congrArg f hs.draft

theorem uniform_activePlans (imageTypes : List String) : Uniform (Calm · t) (activePlans imageTypes) := by
  unfold activePlans
  dsimp only
  split
  · exact .pure _
  · refine (uniform_execute _).bind fun _ => (uniform_query _).bind fun plans => ?_
    cases plans with
    | error issues => exact .fail _
    | ok plans => exact (Uniform.report _).bind fun _ => .pure _

theorem uniform_latestActive (imageTypes : List String) : Uniform (Calm · t) (latestActive imageTypes) := by
  unfold latestActive
  split
  · exact .pure _
  · exact (uniform_execute _).bind fun _ => (uniform_query _).bind fun _ => (Uniform.report _).bind fun _ => .pure _

/-- A batch that comes from a session over the tables, with a database that refuses no statement. -/
def Over (t : Tables) (b : Backing Session) : Prop :=
  b.store.Calm t

theorem over_start (t : Tables) (g : Generator) : Over t (.start (.start t none) g) :=
  ⟨rests_start t none, rfl⟩

theorem uniform_onStore {a : Action Session α} (h : Uniform (Calm · t) a) : Uniform (Over t) (Backing.onStore a) :=
  have hput : ∀ (s : Session) (b : Backing Session), ({ b with store := s } : Backing Session).store = s := fun _ _ => rfl
  Uniform.onPart hput h

theorem uniform_callStore (timeout : Seconds) (call : StoreCall) {answer : Action Session (Reply α)}
    (h : Uniform (Calm · t) answer) : Uniform (Over t) (callStore timeout call answer) := by
  have hgiveUp : Uniform (Over t) (giveUp timeout call : Action (Backing Session) α) :=
    (Uniform.report _).bind fun _ => .fail _
  cases htime : timeout.isOver with
  | true =>
    rw [callStore_of_over htime]
    exact Uniform.bind (.change fun _ hb => hb) fun _ => hgiveUp
  | false =>
    rw [callStore_of_inTime htime]
    refine Uniform.bind (.change fun _ hb => hb) fun _ => (uniform_onStore h).bind fun reply => ?_
    cases reply with
    | answered a => exact .pure a
    | silent => exact hgiveUp

/-- Under a key the findings do not depend on the generator, and no number is taken from it. -/
theorem survey_keyed (strict : Bool) (key : Key) (answer : PlanAnswer) (imageTypes : List String) :
    ∃ findings, ∀ g, survey strict (some (.keyed key)) answer imageTypes g = (findings, g) := by
  induction imageTypes with
  | nil => exact ⟨[], fun _ => rfl⟩
  | cons first rest ih =>
    obtain ⟨found, hfound⟩ := ih
    have hfirst : ∃ outcome, ∀ g, resolve first (answer.plan? first) (some (.keyed key)) g = (outcome, g) := by
      cases answer.plan? first with
      | none => exact ⟨_, fun _ => rfl⟩
      | some plan => exact ⟨_, fun _ => rfl⟩
    obtain ⟨outcome, houtcome⟩ := hfirst
    by_cases hends : (outcome.failure? strict first).isSome = true
    · refine ⟨[(first, outcome)], fun g => ?_⟩
      rw [survey_cons, houtcome]
      exact if_pos hends
    · refine ⟨(first, outcome) :: found, fun g => ?_⟩
      rw [survey_cons, houtcome]
      dsimp only
      rw [if_neg hends, hfound]

theorem uniform_surveyed (strict : Bool) (key : Key) (answer : PlanAnswer) (imageTypes : List String) :
    Uniform (Over t) (surveyed strict (some (.keyed key)) answer imageTypes) := by
  obtain ⟨findings, hfindings⟩ := survey_keyed strict key answer imageTypes
  refine ⟨(findings.failure? strict).elim (.ok findings) .error, fun b hb => ?_⟩
  rw [run_surveyed, hfindings]
  refine ⟨?_, hb⟩
  dsimp only
  cases findings.failure? strict <;> rfl

theorem uniform_settle (rules : Rules) (requested : List String) (findings : Findings) :
    Uniform (Over t) (settle source rules requested findings) := by
  unfold settle fallbacks
  dsimp only
  refine Uniform.bind ?_ fun rows => (Uniform.report _).bind fun _ => ?_
  · split
    · exact .pure []
    · exact (uniform_callStore _ _ ((uniform_latestActive _).bind fun _ => .pure _)).bind fun _ =>
        (Uniform.report _).bind fun _ => .pure _
  · split
    · exact .pure _
    · exact (Uniform.report _).bind fun _ => .fail _

theorem uniform_resolveAll (rules : Rules) (imageTypes : List String) (key : Key) :
    Uniform (Over t) (resolveAll source rules imageTypes (some (.keyed key))) := by
  by_cases hne : imageTypes = []
  · subst hne
    have hnothing : resolveAll source rules [] (some (.keyed key)) = pure [] := by simp [resolveAll]
    rw [hnothing]
    exact .pure []
  · rw [resolveAll_eq source rules hne]
    exact (uniform_callStore _ _ ((uniform_activePlans _).bind fun _ => .pure _)).bind fun _ =>
      (Uniform.report _).bind fun _ => (uniform_surveyed _ _ _ _).bind fun _ => uniform_settle _ _ _

/-- Every image type is resolved as a batch of those that the tables have. -/
theorem result_resolveEvery {settings : Settings} {rules : Rules} {key : Key} {r : Except Failure Versions}
    (htime : rules.timeout.isOver = false)
    (h : ∀ b, Over t b → ((resolveAll source rules t.typeNames (some (.keyed key))).run b).result = r)
    {b : Backing Session} (hb : Over t b) :
    ((resolveEvery source settings rules (some (.keyed key))).run b).result = r := by
  have hnames : ((typeNames >>= fun names => pure (Reply.answered names)).run b.store).result =
      .ok (.answered t.typeNames) := by
    rw [result_bind (g := Reply.answered) fun _ _ => rfl, result_typeNames hb.fault, hb.draft]
    rfl
  have hcalm : Calm ((typeNames >>= fun names => pure (Reply.answered names)).run b.store).state t := by
    obtain ⟨_, huniform⟩ := (uniform_execute (t := t) "list image types").bind fun _ => uniform_query Tables.typeNames
    rw [state_bind fun _ _ => rfl]
    exact (huniform b.store hb).2
  have hcall := run_callStore_of_answered htime hnames .typeNames
  unfold resolveEvery source
  dsimp only
  rw [run_bind_ok (congrArg Effect.result hcall), hcall]
  exact h _ hcalm

end Database

/-! ### The entry points -/

/-- The same names, in any order and any number of times. -/
def SameNames (names others : List String) : Prop :=
  ∀ name, name ∈ names ↔ name ∈ others

theorem SameNames.ordered_eq {names others : List String} (h : SameNames names others) :
    Names.ordered names = Names.ordered others := by
  refine (Names.ascending_ordered names).eq_of_mem_iff (Names.ascending_ordered others) fun name => ?_
  rw [Names.mem_ordered, Names.mem_ordered]
  exact h name

theorem SameNames.resolveAll_eq {σ : Type} {names others : List String} (h : SameNames names others)
    (source : Source σ) (rules : Rules) (strategy : Option Strategy) :
    resolveAll source rules names strategy = resolveAll source rules others strategy := by
  unfold resolveAll
  rw [h.ordered_eq]

section

variable {σ : Type} (source : Source σ) (settings : Settings) (rules : Rules) (imageTypes : List String)

theorem run_resolveRequest {s : String} (h : s ≠ "") (b : Backing σ) :
    (resolveRequest source settings rules ⟨imageTypes, .deterministic, some s⟩).run b =
      (resolveAll source rules imageTypes (some (.keyed (.ofText s h)))).run b := by
  rw [resolveRequest_eq (choose_deterministic _ s h)]

theorem result_plan (launch : Launch) (b : Backing σ) :
    ((launch.plan source settings rules).run b).result =
      ((resolveAll source rules launch.imageTypes (some (launch.strategy settings))).run b).result.map fun versions =>
        ⟨launch.name, versions, launch.proxyUsers settings⟩ := by
  unfold Launch.plan
  rw [run_report_bind]
  exact result_bind (g := fun versions => LaunchPlan.mk launch.name versions (launch.proxyUsers settings))
    (fun _ _ => rfl) b

theorem strategy_of_sticky (settings : Settings) {launch : Launch} (h : launch.name ≠ "")
    (hsticky : launch.sticky = some true) : launch.strategy settings = .keyed (.ofText launch.name h) := by
  unfold Launch.strategy Launch.isSticky
  rw [hsticky]
  rfl

theorem run_carryOut {s : String} (h : s ≠ "") (all : Bool) (logLevel : Option String) (b : Backing σ) :
    (CommandLine.carryOut source settings ⟨imageTypes, all, some s, logLevel⟩).run b =
      if all then (resolveEvery source settings (.ofSettings settings none) (some (.keyed (.ofText s h)))).run b
      else (resolveAll source (.ofSettings settings none) imageTypes (some (.keyed (.ofText s h)))).run b := by
  have hempty : s.isEmpty = false := by simpa using h
  unfold CommandLine.carryOut chosenStrategy
  dsimp only
  rw [Option.getD_some, hempty, if_neg Bool.false_ne_true, choose_deterministic _ s h]
  cases all <;> rfl

end

/-- What comes of image types for a workload that names itself, by each way to resolve them. -/
structure AllComeTo (t : Tables) (settings : Settings) {workload : String} (h : workload ≠ "") (imageTypes : List String)
    (r : Except Failure Versions) (b : Backing Session) : Prop where
  all : ∀ given, SameNames given imageTypes →
    ((resolveAll Database.source (.ofSettings settings none) given (some (.keyed (.ofText workload h)))).run b).result = r
  versions : ∀ given, SameNames given imageTypes →
    ((resolveVersions Database.source settings (.ofSettings settings none) given
      (some (.keyed (.ofText workload h)))).run b).result = r
  request : ∀ given, SameNames given imageTypes →
    ((resolveRequest Database.source settings (.ofSettings settings none)
      ⟨given, .deterministic, some workload⟩).run b).result = r
  command : ∀ given logLevel, SameNames given imageTypes →
    ((CommandLine.carryOut Database.source settings ⟨given, false, some workload, logLevel⟩).run b).result = r
  flow : ∀ launch : Launch, launch.project ++ "." ++ launch.flowId = workload → launch.sticky = some true →
    SameNames (launch.flow.jobTypes ++ launch.baseTypes) imageTypes →
      ((launch.plan Database.source settings (.ofSettings settings none)).run b).result =
        r.map fun versions => ⟨workload, versions, launch.proxyUsers settings⟩
  every : settings.storeTimeout.isOver = false → SameNames (t.types.map TypeRow.name) imageTypes →
    ((resolveEvery Database.source settings (.ofSettings settings none)
      (some (.keyed (.ofText workload h)))).run b).result = r
  commandEvery : ∀ given logLevel, settings.storeTimeout.isOver = false →
    SameNames (t.types.map TypeRow.name) imageTypes →
      ((CommandLine.carryOut Database.source settings ⟨given, true, some workload, logLevel⟩).run b).result = r

/-- Over the tables of a database, whatever they hold, all ways to resolve image types for a workload come to
    the same versions or the same failure, whatever the settings and the state of the session. -/
theorem keyed_entry_points_agree (t : Tables) (settings : Settings) {workload : String} (h : workload ≠ "")
    (imageTypes : List String) :
    ∃ r, ∀ b, Database.Over t b → AllComeTo t settings h imageTypes r b := by
  obtain ⟨r, hr⟩ := Database.uniform_resolveAll (t := t) (.ofSettings settings none) imageTypes (.ofText workload h)
  have hall : ∀ b given, Database.Over t b → SameNames given imageTypes →
      ((resolveAll Database.source (.ofSettings settings none) given
        (some (.keyed (.ofText workload h)))).run b).result = r := by
    intro b given hb hgiven
    rw [hgiven.resolveAll_eq]
    exact (hr b hb).1
  have hevery : ∀ b, Database.Over t b → settings.storeTimeout.isOver = false →
      SameNames (t.types.map TypeRow.name) imageTypes →
        ((resolveEvery Database.source settings (.ofSettings settings none)
          (some (.keyed (.ofText workload h)))).run b).result = r := by
    intro b hb htime htypes
    refine Database.result_resolveEvery htime (fun b' hb' => hall b' _ hb' fun name => ?_) hb
    rw [← htypes name]
    exact Tables.mem_typeNames
  refine ⟨r, fun b hb => ⟨fun given => hall b given hb, fun given => hall b given hb, fun given hgiven => ?_,
    fun given logLevel hgiven => ?_, fun launch hname hsticky htypes => ?_, hevery b hb,
    fun given logLevel htime htypes => ?_⟩⟩
  · rw [run_resolveRequest _ _ _ _ h]
    exact hall b given hb hgiven
  · rw [run_carryOut _ _ _ h, if_neg Bool.false_ne_true]
    exact hall b given hb hgiven
  · subst hname
    have hnames : SameNames launch.imageTypes imageTypes := fun name =>
      Names.mem_ordered.trans (htypes name)
    rw [result_plan, strategy_of_sticky settings h hsticky]
    exact congrArg _ (hall b _ hb hnames)
  · rw [run_carryOut _ _ _ h, if_pos rfl]
    exact hevery b hb htime htypes

def loneTables : Tables :=
  ({} : Tables).putPlan "spark" "spark rampup" true [(0, "1.0", 100, "stable")]

def loneBacking : Backing Session :=
  .start (.start loneTables none) ⟨[], 1⟩

def loneLaunch : Launch where
  project := "etl"
  flowId := "nightly"
  flow := { id := "nightly", type? := some "flow", children := [{ id := "load", type? := some "spark" }] }
  sticky := some true
  baseTypes := ["spark"]

theorem keyed_entry_points_agree_sample :
    ((CommandLine.carryOut Database.source {} ⟨[], true, some "etl.nightly", none⟩).run loneBacking).result =
        .ok [("spark", "1.0")] ∧
      ((loneLaunch.plan Database.source {} (.ofSettings {} none)).run loneBacking).result =
        .ok ⟨"etl.nightly", [("spark", "1.0")], []⟩ := by
  obtain ⟨r, hr⟩ := keyed_entry_points_agree loneTables {} (show "etl.nightly" ≠ "" by decide) ["spark"]
  obtain ⟨hall, -, -, -, hflow, -, hcommand⟩ := hr loneBacking (Database.over_start loneTables _)
  have hresult : r.toOption = some [("spark", "1.0")] := by
    rw [← hall ["spark"] fun _ => Iff.rfl]
    decide +kernel
  have hok : r = .ok [("spark", "1.0")] := by
    cases r with
    | error f => cases hresult
    | ok versions => exact congrArg Except.ok (Option.some.inj hresult)
  subst hok
  have hregistered : loneTables.types.map TypeRow.name = ["spark"] := by decide_cbv
  have htime : ({} : Settings).storeTimeout.isOver = false := Settings.accepts_load [("DATABASE_URL", .str "")] [] {} rfl
  refine ⟨hcommand [] none htime fun name => by rw [hregistered], ?_⟩
  have htypes : loneLaunch.flow.jobTypes = ["spark"] := by decide_cbv
  refine (hflow loneLaunch rfl rfl fun name => ?_).trans ?_
  · rw [htypes]
    simp [loneLaunch]
  · have husers : loneLaunch.proxyUsers {} = [] := by decide_cbv
    rw [husers]
    rfl

end ImageRollout

import ImageRollout.Proofs.Resolution.Calls
import ImageRollout.Proofs.Resolution.Integrity
import ImageRollout.Proofs.Schema.Canonical
import ImageRollout.Proofs.Settings
import ImageRollout.Proofs.Store.Database
import ImageRollout.Store.Memory

/-! Requests that were accepted. A deterministic one comes with a key, so its strategy can be made, and
    all its draws are from 1 to 100. The batch then comes to versions for the requested types or to one
    of its own failures, besides those that the stores have. Of the two stores only a database has any:
    it may refuse a statement, and the rows of a plan may be such that no plan can be made of them. -/

namespace ImageRollout

open ImageRollout.Action

variable {σ : Type}

/-! ### The strategy of a request -/

theorem exists_text_of_hasKey {key : Option String} (h : hasKey key) : ∃ s, key = some s ∧ s ≠ "" := by
  cases key with
  | none => cases h
  | some s => exact ⟨s, rfl, by simpa [hasKey] using h⟩

/-- An accepted request has a strategy, whatever the settings, that stays in range if the generator does. -/
theorem exists_strategy_of_accepted {j : Json} {request : ResolutionRequest}
    (h : ResolutionRequest.ofJson j = .accepted request) (configured : String) :
    ∃ strategy, Strategy.choose configured (some request.selection.name) (bytesOf (request.key.getD "")) =
        (.ok strategy, []) ∧
      ∀ g, Strategy.generated.InRange g → strategy.InRange g := by
  cases hselection : request.selection with
  | random => exact ⟨.generated, choose_random configured _, fun _ hg => hg⟩
  | deterministic =>
    obtain ⟨s, hkey, hne⟩ := exists_text_of_hasKey (ResolutionRequest.accepts_key j request h hselection)
    rw [hkey]
    exact ⟨.keyed (.ofText s hne), choose_deterministic configured s hne, fun g _ => Strategy.inRange_keyed _ g⟩

/-- Every draw that a survey makes with the strategy is from 1 to 100, whatever plans it is about. -/
def Strategy.DrawsInBounds (strategy : Strategy) (g : Generator) : Prop :=
  ∀ strict plans imageTypes, ∀ finding ∈ (survey strict (some strategy) plans imageTypes g).1,
    ∀ draw, finding.2.draw? = some draw → 1 ≤ draw ∧ draw ≤ 100

/-- Each finding of a survey is the outcome of a plan for a generator that is still in range. -/
theorem exists_resolve_of_mem_survey {strategy : Strategy} {g : Generator} (hrange : strategy.InRange g) {strict : Bool}
    {plans : PlanAnswer} {imageTypes : List String} {finding : String × Outcome}
    (h : finding ∈ (survey strict (some strategy) plans imageTypes g).1) :
    ∃ g', strategy.InRange g' ∧ finding.2 = (resolve finding.1 (plans.plan? finding.1) (some strategy) g').1 := by
  induction imageTypes generalizing g with
  | nil => cases h
  | cons first rest ih =>
    rw [survey_cons] at h
    dsimp only at h
    split at h
    · obtain rfl := List.mem_singleton.mp h
      exact ⟨g, hrange, rfl⟩
    · rcases List.mem_cons.mp h with rfl | h
      · exact ⟨g, hrange, rfl⟩
      · exact ih (inRange_resolve hrange first _) h

theorem Strategy.InRange.drawsInBounds {strategy : Strategy} {g : Generator} (h : strategy.InRange g) :
    strategy.DrawsInBounds g := by
  intro strict plans imageTypes finding hmem draw hdraw
  obtain ⟨g', hrange, houtcome⟩ := exists_resolve_of_mem_survey h hmem
  rw [houtcome] at hdraw
  cases hplan : plans.plan? finding.1 with
  | none =>
    rw [hplan] at hdraw
    cases hdraw
  | some plan =>
    have hvalid := hrange.draw finding.1
    rw [hplan, resolve_eq_judge, (judged plan.entries hvalid).draw?_eq] at hdraw
    rw [← Option.some.inj hdraw]
    exact Draw.isValid_iff.mp hvalid

/-! ### The ends of a batch -/

/-- How a batch may end where the stores fail only as `refused` says: with versions for exactly the
    requested types, or with a failure that a caller is told of. -/
inductive BatchEnd (rules : Rules) (imageTypes : List String) (refused : Failure → Prop) :
    Except Failure Versions → Prop where
  | versions {versions : Versions} (h : versions.map Prod.fst = Names.ordered imageTypes) :
      BatchEnd rules imageTypes refused (.ok versions)
  | unresolved (missing corrupt : List String) :
      BatchEnd rules imageTypes refused (.error (.domain (.unresolved missing corrupt)))
  | corruptPlan (hstrict : rules.strict = true) (imageType reason : String) :
      BatchEnd rules imageTypes refused (.error (.domain (.corruptPlan imageType reason)))
  | timedOut (operation : String) :
      BatchEnd rules imageTypes refused (.error (.domain (.storeTimedOut operation rules.timeout)))
  | refused {f : Failure} (h : refused f) : BatchEnd rules imageTypes refused (.error f)

/-- The stores fail only as `refused` says where a batch asks them for the image types. -/
structure Source.FailsOnly (source : Source σ) (imageTypes : List String) (s : σ) (refused : Failure → Prop) : Prop where
  activePlans : ∀ f, ((source.activePlans (Names.ordered imageTypes)).run s).result = .error f → refused f
  latestActive : ∀ remaining t f, ((source.latestActive remaining).run t).result = .error f → refused f

section

variable {source : Source σ} {rules : Rules} {imageTypes : List String} {refused : Failure → Prop} {b : Backing σ}

theorem ends_callStore_of_failsOnly {α : Type} {call : StoreCall} {answer : Action σ (Reply α)}
    (h : ∀ f, (answer.run b.store).result = .error f → refused f) :
    Ends (callStore rules.timeout call answer) b (fun _ => True) (fun _ c => c.generator = b.generator)
      fun f _ => BatchEnd rules imageTypes refused (.error f) :=
  ends_callStore ⟨fun _ _ => trivial, fun _ _ _ _ => rfl, fun f hf => .refused (h f hf)⟩ trivial fun _ => .timedOut _

/-- In range a survey fails only at a corrupt plan, and only where the rules are strict. -/
theorem ends_surveyed_of_inRange {strategy : Strategy} (hrange : strategy.InRange b.generator) (plans : PlanAnswer)
    (requested : List String) :
    Ends (surveyed rules.strict (some strategy) plans requested) b (fun _ => True) (fun _ _ => True)
      fun f _ => BatchEnd rules imageTypes refused (.error f) := by
  refine ⟨fun _ _ => trivial, fun _ _ => trivial, fun f hf => ?_⟩
  rw [run_surveyed] at hf
  dsimp only at hf
  split at hf
  · rename_i failure hfailure
    cases hf
    obtain ⟨⟨imageType, outcome⟩, hmem, hfound⟩ := List.exists_of_findSome?_eq_some hfailure
    obtain ⟨g', hg, houtcome⟩ := exists_resolve_of_mem_survey hrange hmem
    dsimp only at hfound houtcome
    rw [houtcome, failure?_resolve hg] at hfound
    split at hfound
    · rename_i hstrict
      obtain ⟨violation, -, rfl⟩ := Option.map_eq_some_iff.mp hfound
      exact .corruptPlan hstrict imageType violation.text
    · cases hfound
  · cases hf

theorem ends_settle_of_failsOnly (h : ∀ remaining t f, ((source.latestActive remaining).run t).result = .error f → refused f)
    (requested : List String) (findings : Findings) :
    Ends (settle source rules requested findings) b (fun _ => True) (fun _ _ => True)
      fun f _ => BatchEnd rules imageTypes refused (.error f) := by
  unfold settle fallbacks
  dsimp only
  refine Ends.bind (fun _ _ => True) ?_ fun rows c _ => .report_bind (fun _ _ => trivial) ?_
  · split
    · exact .pure trivial
    · exact Ends.bind _ (ends_callStore_of_failsOnly (h _ _)) fun _ _ _ => .report_bind (fun _ _ => trivial) (.pure trivial)
  · split
    · exact .pure trivial
    · exact .report_bind (fun _ _ => trivial) (.fail (.unresolved _ _))

theorem batchEnd_resolveAll (h : source.FailsOnly imageTypes b.store refused) {strategy : Strategy}
    (hrange : strategy.InRange b.generator) :
    BatchEnd rules imageTypes refused ((resolveAll source rules imageTypes (some strategy)).run b).result := by
  cases hresult : ((resolveAll source rules imageTypes (some strategy)).run b).result with
  | ok versions => exact .versions (keys_resolveAll hresult)
  | error f =>
    have hne : imageTypes ≠ [] := by
      rintro rfl
      rw [run_resolveAll_nil] at hresult
      cases hresult
    have hends : Ends (resolveAll source rules imageTypes (some strategy)) b (fun _ => True) (fun _ _ => True)
        fun f _ => BatchEnd rules imageTypes refused (.error f) := by
      rw [resolveAll_eq source rules hne]
      refine Ends.bind _ (ends_callStore_of_failsOnly h.activePlans) fun plans c hgenerator => ?_
      refine .report_bind (fun _ _ => trivial) ?_
      refine Ends.bind (fun _ _ => True) (ends_surveyed_of_inRange (hgenerator ▸ hrange) plans _) fun findings d _ => ?_
      exact ends_settle_of_failsOnly h.latestActive _ findings
    exact hends.failure f hresult

end

/-! ### The stores -/

theorem Memory.source_failsOnly (imageTypes : List String) (m : Memory) : source.FailsOnly imageTypes m fun _ => False where
  activePlans f hf := by cases hf
  latestActive remaining t f hf := by cases hf

/-- The active plans of image types cannot all be made of their rows, and the failure tells why. -/
def Tables.Unreadable (t : Tables) (imageTypes : List String) (f : Failure) : Prop :=
  ∃ issues, (t.activePlans (Names.ordered imageTypes)).mapM t.plan = .error issues ∧ f = .badForm issues

theorem Database.source_failsOnly (imageTypes : List String) (s : Session) :
    source.FailsOnly imageTypes s fun f => f.IsRefusal ∨ s.draft.Unreadable imageTypes f where
  activePlans f hf := by
    have hordered := (Names.ascending_ordered imageTypes).ordered_eq
    have hplans : Ends (activePlans (Names.ordered imageTypes)) s Event.Sound (fun _ _ => True)
        fun f _ => f.IsRefusal ∨ s.draft.Unreadable imageTypes f := by
      cases hread : (s.draft.activePlans (Names.ordered imageTypes)).mapM s.draft.plan with
      | ok plans =>
        have hends := ends_activePlans_of_read (hordered.symm ▸ hread)
        exact hends.mono (fun _ he => he) (fun _ _ _ => trivial) fun _ _ hg => Or.inl hg.1
      | error issues =>
        have hends := ends_activePlans_of_unread (hordered.symm ▸ hread)
        exact hends.mono (fun _ he => he) (fun _ _ _ => trivial) fun _ _ hg =>
          hg.imp_right fun heq => ⟨issues, hread, heq⟩
    have hanswer : Ends (source.activePlans (Names.ordered imageTypes)) s Event.Sound (fun _ _ => True)
        fun f _ => f.IsRefusal ∨ s.draft.Unreadable imageTypes f :=
      Ends.bind _ hplans fun _ _ _ => .pure trivial
    exact hanswer.failure f hf
  latestActive remaining t f hf := by
    have hanswer : Ends (source.latestActive remaining) t Event.Sound (fun _ _ => True) fun f _ => f.IsRefusal :=
      Ends.bind _ (ends_latestActive remaining) fun _ _ _ => .pure trivial
    exact Or.inl (hanswer.failure f hf)

/-- Rows that no plan can be made of end a batch, unless it ends before they are read. -/
theorem Database.result_of_unreadable {rules : Rules} {imageTypes : List String} {strategy : Strategy}
    {b : Backing Session} {f : Failure} (htime : rules.timeout.isOver = false) (hfault : b.store.fault = none)
    (h : b.store.draft.Unreadable imageTypes f) :
    ((resolveAll source rules imageTypes (some strategy)).run b).result = .error f := by
  obtain ⟨issues, hread, rfl⟩ := h
  have hne : imageTypes ≠ [] := by
    rintro rfl
    rw [Names.ordered_nil, Tables.activePlans_nil] at hread
    cases hread
  have hplans : (plansEnd source imageTypes b).result = .error (.badForm issues) := by
    refine congrArg Effect.result (run_bind_error (result_activePlans_of_unread ?_ hfault))
    rw [(Names.ascending_ordered imageTypes).ordered_eq, hread]
  exact (run_resolveAll_of_plans_failed htime hne (by rw [hplans]; rfl)).1

/-! ### Accepted requests -/

/-- For an accepted request a strategy is made, and it draws within bounds if the generator does. Over any
    stores the batch comes to versions for exactly the requested types, or to one of its own failures or
    theirs. The store in memory has none; a database has refused statements, and plans that cannot be
    made of their rows: these end the batch, instead of having it fall back, wherever it gets to read them. -/
theorem accepted_request_ends_well {j : Json} {request : ResolutionRequest}
    (haccepted : ResolutionRequest.ofJson j = .accepted request) {g : Generator} (hrange : Strategy.generated.InRange g)
    (settings : Settings) (rules : Rules) :
    (∃ strategy, Strategy.choose settings.defaultSelection (some request.selection.name)
        (bytesOf (request.key.getD "")) = (.ok strategy, []) ∧ strategy.DrawsInBounds g) ∧
    (∀ {σ : Type} (source : Source σ) (b : Backing σ) (refused : Failure → Prop), b.generator = g →
      source.FailsOnly request.imageTypes b.store refused →
        BatchEnd rules request.imageTypes refused ((resolveRequest source settings rules request).run b).result) ∧
    (∀ b : Backing Memory, b.generator = g →
      BatchEnd rules request.imageTypes (fun _ => False)
        ((resolveRequest Memory.source settings rules request).run b).result) ∧
    ∀ b : Backing Session, b.generator = g →
      BatchEnd rules request.imageTypes (fun f => f.IsRefusal ∨ b.store.draft.Unreadable request.imageTypes f)
          ((resolveRequest Database.source settings rules request).run b).result ∧
        (rules.timeout.isOver = false → b.store.fault = none → ∀ f, b.store.draft.Unreadable request.imageTypes f →
          ((resolveRequest Database.source settings rules request).run b).result = .error f) := by
  obtain ⟨strategy, hchoose, hstays⟩ := exists_strategy_of_accepted haccepted settings.defaultSelection
  have hends : ∀ {σ : Type} (source : Source σ) (b : Backing σ) (refused : Failure → Prop), b.generator = g →
      source.FailsOnly request.imageTypes b.store refused →
        BatchEnd rules request.imageTypes refused ((resolveRequest source settings rules request).run b).result := by
    rintro σ source b refused rfl h
    rw [resolveRequest_eq hchoose]
    exact batchEnd_resolveAll h (hstays _ hrange)
  refine ⟨⟨strategy, hchoose, (hstays g hrange).drawsInBounds⟩, hends, fun b hb => ?_, fun b hb => ⟨?_, ?_⟩⟩
  · exact hends _ b _ hb (Memory.source_failsOnly _ _)
  · exact hends _ b _ hb (Database.source_failsOnly _ _)
  · intro htime hfault f h
    rw [resolveRequest_eq hchoose]
    exact Database.result_of_unreadable htime hfault h

/-- A document that asks for a keyed resolution. -/
def keyedDocument : Json :=
  .obj [("image_types", .arr [.str "spark"]), ("strategy", .str "deterministic"), ("key", .str "etl.nightly")]

/-- The plan of an image type has a share of more than all draws. -/
def spoiltTables : Tables :=
  ({} : Tables).putPlan "spark" "spark rampup" true [(0, "1.0", 150, "stable")] |>.putVersion ⟨1, "spark", "1.0", "active", 0⟩

theorem accepted_request_ends_well_sample :
    ∃ strategy, Strategy.choose "random" (some "deterministic") (bytesOf "etl.nightly") = (.ok strategy, []) ∧
      strategy.DrawsInBounds ⟨[], 42⟩ ∧
      BatchEnd (.ofSettings {} none) ["spark"] (fun _ => False)
        ((resolveRequest Memory.source {} (.ofSettings {} none) ⟨["spark"], .deterministic, some "etl.nightly"⟩).run
          (.start {} ⟨[], 42⟩)).result := by
  have haccepted : ResolutionRequest.ofJson keyedDocument = .accepted ⟨["spark"], .deterministic, some "etl.nightly"⟩ := by
    cbv
  have hrange : Strategy.generated.InRange ⟨[], 42⟩ := ⟨by decide, rfl⟩
  obtain ⟨⟨strategy, hchoose, hdraws⟩, -, hmemory, -⟩ :=
    accepted_request_ends_well haccepted hrange {} (.ofSettings {} none)
  exact ⟨strategy, hchoose, hdraws, hmemory _ rfl⟩

/-- An accepted request that is not strict does not fall back from a plan that cannot be made of its rows,
    though the store has an active version. -/
theorem accepted_request_ends_in_bad_form :
    ResolutionRequest.ofJson (.obj [("image_types", .arr [.str "spark"])]) = .accepted ⟨["spark"], .random, none⟩ ∧
      spoiltTables.latestActive ["spark"] = [⟨"spark", "1.0"⟩] ∧
      ((resolveRequest Database.source {} (.ofSettings {} none) ⟨["spark"], .random, none⟩).run
        (.start (.start spoiltTables none) ⟨[], 42⟩)).result =
          .error (.badForm [⟨.above 100, [.field "rampup_percentage"]⟩]) := by
  refine ⟨by cbv, by decide_cbv, ?_⟩
  cbv

end ImageRollout

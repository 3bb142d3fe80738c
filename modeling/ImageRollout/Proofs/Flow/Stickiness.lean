import ImageRollout.Proofs.EntryPoints
import ImageRollout.Proofs.Plan.Ramping
import ImageRollout.Proofs.Resolution.Calls

/-! What sticky flows keep. Where the plan of an image type is valid, a sticky launch gets the version that
    the draw of its flow selects, whatever the stores say of other types. So a flow leaves a version that
    is ramped up only where the draws do: where the version drops behind one that came after it. -/

namespace ImageRollout

variable {σ : Type}

/-! ### Sticky launches -/

/-- A sticky launch that uses an image type comes to what it needs, over some stores that answer with a plan of the
    entries for the type. -/
inductive StickyLaunch (launch : Launch) (imageType : String) (entries : List Entry) (needs : LaunchPlan) : Prop where
  | over {σ : Type} (source : Source σ) (settings : Settings) (rules : Rules) (b : Backing σ) (plans : PlanAnswer)
    (plan : Plan) (hsticky : launch.isSticky settings = true) (hused : imageType ∈ launch.imageTypes)
    (hplans : (plansEnd source launch.imageTypes b).result = .ok (.answered plans))
    (hplan : plans.plan? imageType = some plan) (hentries : plan.entries = entries)
    (hneeds : ((launch.plan source settings rules).run b).result = .ok needs)

theorem Launch.key_eq {launch later : Launch} (h : later.name = launch.name) : later.key = launch.key := by
  unfold Launch.key
  simp only [h]

theorem Valid.exists_selects {entries : List Entry} (h : Valid entries) {draw : Int} (hdraw : Draw.isValid draw = true) :
    ∃ version, Selects entries draw version ∧ (judge entries draw).version? = some version := by
  obtain ⟨e, -, hcovering, hjudge⟩ := h.judge_eq hdraw
  refine ⟨e.version.val, ⟨e, select_eq_ok_some_iff.mpr ⟨hdraw, hcovering⟩, rfl⟩, ?_⟩
  rw [hjudge]
  rfl

/-- A sticky launch gets the version that a valid plan has for the draw of its flow. -/
theorem StickyLaunch.selects {launch : Launch} {imageType : String} {entries : List Entry} {needs : LaunchPlan}
    (h : StickyLaunch launch imageType entries needs) (hvalid : Valid entries) :
    ∃ version, Selects entries launch.key.draw version ∧ needs.versions.lookup imageType = some version := by
  obtain ⟨source, settings, rules, b, plans, plan, hsticky, hused, hplans, hplan, rfl, hneeds⟩ := h
  obtain ⟨version, hselects, hversion⟩ := hvalid.exists_selects (Draw.isValid_ofHash (Murmur.hash launch.key.bytes))
  refine ⟨version, hselects, ?_⟩
  rw [result_plan, Launch.strategy, if_pos hsticky] at hneeds
  cases hresult : ((resolveAll source rules launch.imageTypes (some (.keyed launch.key))).run b).result with
  | error f =>
    rw [hresult] at hneeds
    cases hneeds
  | ok versions =>
    rw [hresult] at hneeds
    cases hneeds
    refine lookup_resolveAll hplans hresult hused ?_
    rw [outcomeIn_keyed _ _ _ _ hplan]
    exact hversion

/-- Where all types that it uses have valid plans, a sticky launch comes to what it needs. -/
theorem exists_needs {launch : Launch} {source : Source σ} {settings : Settings} {rules : Rules} {b : Backing σ}
    {plans : PlanAnswer} (hsticky : launch.isSticky settings = true) (htime : rules.timeout.isOver = false)
    (hplans : (plansEnd source launch.imageTypes b).result = .ok (.answered plans))
    (hvalid : ∀ imageType ∈ launch.imageTypes, ∃ plan, plans.plan? imageType = some plan ∧ Valid plan.entries) :
    ∃ needs, ((launch.plan source settings rules).run b).result = .ok needs := by
  have hrange := Strategy.inRange_keyed launch.key b.generator
  have hselected : ∀ imageType ∈ launch.imageTypes, ∃ e,
      outcomeIn (.keyed launch.key) plans (Names.ordered launch.imageTypes) b.generator imageType =
        .selected e launch.key.draw := by
    intro imageType hused
    obtain ⟨plan, hplan, hentries⟩ := hvalid imageType hused
    obtain ⟨e, -, -, hjudge⟩ := hentries.judge_eq hrange
    exact ⟨e, (outcomeIn_keyed _ _ _ _ hplan).trans hjudge⟩
  have hresult : ∃ versions,
      ((resolveAll source rules launch.imageTypes (some (.keyed launch.key))).run b).result = .ok versions := by
    by_cases hne : launch.imageTypes = []
    · rw [hne, run_resolveAll_nil]
      exact ⟨[], rfl⟩
    · refine ((goesOn_resolveAll hrange htime hne hplans).planned ?_ fun imageType hused => ?_).2
      · rintro ⟨-, imageType, hused, hcorrupt⟩
        obtain ⟨e, he⟩ := hselected imageType hused
        rw [he] at hcorrupt
        cases hcorrupt
      · obtain ⟨e, he⟩ := hselected imageType hused
        rw [he]
        exact Option.some_ne_none _
  obtain ⟨versions, hversions⟩ := hresult
  rw [result_plan, Launch.strategy, if_pos hsticky, hversions]
  exact ⟨_, rfl⟩

/-! ### Ramping up -/

/-- Where a valid plan ramps a version up, what came before the version in the order of the shares still does, and
    a draw leaves the version only if the version drops behind one that came after it. Where it does not, all
    draws keep the version, and so does every sticky flow. -/
theorem ramping_up_keeps_draws {entries ramped : List Entry} (hentries : checkPlan entries = .ok ())
    (hramped : checkPlan ramped = .ok ()) {place : Nat} (h : Ramped entries ramped place) {version : String}
    (hplace : (entries.map fun e => e.version.val)[place]? = some version) {sorted sorted' : List Entry}
    (hsorted : StableOrder sorted entries) (hsorted' : StableOrder sorted' ramped) :
    (∀ other, Precedes sorted other version → Precedes sorted' other version) ∧
    (∀ draw other, Selects entries draw version → Selects ramped draw other → other ≠ version →
      Overtakes sorted sorted' version) ∧
    (¬Overtakes sorted sorted' version →
      (∀ draw, Selects entries draw version → Selects ramped draw version) ∧
        ∀ imageType launch later needs needs', later.name = launch.name →
          StickyLaunch launch imageType entries needs → StickyLaunch later imageType ramped needs' →
            needs.versions.lookup imageType = some version → needs'.versions.lookup imageType = some version) := by
  obtain rfl := hsorted.eq (stableOrder_ascending entries)
  obtain rfl := hsorted'.eq (stableOrder_ascending ramped)
  have hvalid := checkPlan_eq_ok_iff.mp hentries
  have hvalid' := checkPlan_eq_ok_iff.mp hramped
  have hkept : ¬Overtakes (ascending entries) (ascending ramped) version →
      ∀ draw, Selects entries draw version → Selects ramped draw version :=
    fun hno _ => h.selects hvalid hplace hvalid' hno
  refine ⟨fun other => h.precedes hvalid hplace, fun draw other hselects hleft hne => ?_,
    fun hno => ⟨hkept hno, ?_⟩⟩
  · by_contra hno
    exact hne (hleft.eq (hkept hno draw hselects))
  · intro imageType launch later needs needs' hname hlaunch hlater hlookup
    obtain ⟨had, hselects, hhad⟩ := hlaunch.selects hvalid
    obtain ⟨gets, hselects', hgets⟩ := hlater.selects hvalid'
    obtain rfl := Option.some.inj (hhad.symm.trans hlookup)
    rw [Launch.key_eq hname] at hselects'
    rw [hgets, hselects'.eq (hkept hno _ hselects)]

/-- Version 2.0 with a share, and version 1.1 with the rest. -/
def twoVersions (share : Fin 101) : List Entry :=
  samplePlan.entries.tail.zipWith (fun e share => { e with share }) [⟨share, by omega⟩, ⟨100 - share, by omega⟩]

theorem version_twoVersions (share : Fin 101) : ((twoVersions share).map fun e => e.version.val)[0]? = some "2.0" := rfl

theorem checkPlan_twoVersions (share : Fin 101) : checkPlan (twoVersions share) = .ok () := by
  refine checkPlan_eq_ok_iff.mpr ⟨List.cons_ne_nil _ _, ?_, ?_, ?_⟩
  · show share.val + (100 - share.val + 0) = 100
    omega
  · show ["2.0", "1.1"].Nodup
    decide
  · simp [twoVersions, samplePlan]

theorem ramped_twoVersions {share more : Fin 101} (h : share ≤ more) : Ramped (twoVersions share) (twoVersions more) 0 where
  versions := rfl
  up := by
    rintro e r ⟨⟩ ⟨⟩
    exact h
  down := by
    rintro (_ | _ | i) e r hi he hr
    · cases hi rfl
    · cases he
      cases hr
      exact Nat.sub_le_sub_left h 100
    · cases he

/-- A store that has some entries for the one image type of a launch. -/
def sourceOf (entries : List Entry) : Source Unit :=
  .constant [("spark", some { imageType := "spark", entries })] none

theorem exists_stickyLaunch {entries : List Entry} (h : Valid entries) :
    ∃ needs, StickyLaunch loneLaunch "spark" entries needs := by
  have htypes : loneLaunch.flow.jobTypes = ["spark"] := by decide_cbv
  obtain ⟨needs, hneeds⟩ : ∃ needs, ((loneLaunch.plan (sourceOf entries) {} (.ofSettings {} none)).run
      (.start () ⟨[], 1⟩)).result = .ok needs :=
    exists_needs rfl rfl rfl fun imageType hused => by
      have hmem : imageType ∈ loneLaunch.flow.jobTypes ++ ["spark"] := Names.mem_ordered.mp hused
      rw [htypes] at hmem
      obtain rfl : imageType = "spark" := by simpa using hmem
      exact ⟨_, rfl, h⟩
  refine ⟨needs, .over (sourceOf entries) {} (.ofSettings {} none) (.start () ⟨[], 1⟩) _ _ rfl ?_ rfl rfl rfl hneeds⟩
  exact Names.mem_ordered.mpr (List.mem_append_right _ List.mem_cons_self)

theorem not_overtakes_twoVersions (sorted : List Entry) : ¬Overtakes (ascending (twoVersions 60)) sorted "2.0" := by
  have hsorted : ascending (twoVersions 60) = [(twoVersions 60)[1], (twoVersions 60)[0]] := by decide_cbv
  rintro ⟨other, ⟨before, after, hsplit, ⟨e, he, hversion⟩, o, ho, -⟩, -⟩
  rw [hsorted] at hsplit
  rcases before with _ | ⟨first, _ | ⟨second, rest⟩⟩
  · cases he
  · obtain ⟨rfl, -⟩ := List.cons.inj hsplit
    obtain rfl := List.mem_singleton.mp he
    exact absurd hversion (by decide)
  · obtain ⟨-, hnil⟩ := List.append_eq_nil_iff.mp (List.cons.inj (List.cons.inj hsplit).2).2.symm
    rw [hnil] at ho
    cases ho

/-- A flow keeps the larger version that gets more, and a draw leaves the smaller one that overtakes. -/
theorem ramping_up_keeps_draws_sample :
    (∃ needs, StickyLaunch loneLaunch "spark" (twoVersions 70) needs ∧ needs.versions.lookup "spark" = some "2.0") ∧
    Overtakes (ascending (twoVersions 40)) (ascending (twoVersions 60)) "2.0" := by
  constructor
  · have hvalid := fun share => checkPlan_eq_ok_iff.mp (checkPlan_twoVersions share)
    obtain ⟨needs, hlaunch⟩ := exists_stickyLaunch (hvalid 60)
    obtain ⟨needs', hlater⟩ := exists_stickyLaunch (hvalid 70)
    have hdraw : loneLaunch.key.draw = 67 := by decide +kernel
    obtain ⟨had, hselects, hhad⟩ := hlaunch.selects (hvalid 60)
    rw [hdraw] at hselects
    obtain rfl := hselects.eq ⟨(twoVersions 60)[0], by decide_cbv, rfl⟩
    obtain ⟨-, -, hkept⟩ := ramping_up_keeps_draws (checkPlan_twoVersions 60) (checkPlan_twoVersions 70)
      (ramped_twoVersions (by decide)) (version_twoVersions _) (stableOrder_ascending _) (stableOrder_ascending _)
    exact ⟨needs', hlater, (hkept (not_overtakes_twoVersions _)).2 "spark" _ _ _ _ rfl hlaunch hlater hhad⟩
  · obtain ⟨-, hleave, -⟩ := ramping_up_keeps_draws (checkPlan_twoVersions 40) (checkPlan_twoVersions 60)
      (ramped_twoVersions (by decide)) (version_twoVersions _) (stableOrder_ascending _) (stableOrder_ascending _)
    exact hleave 10 "1.1" ⟨(twoVersions 40)[0], by decide_cbv, rfl⟩ ⟨(twoVersions 60)[1], by decide_cbv, rfl⟩ (by decide)

end ImageRollout

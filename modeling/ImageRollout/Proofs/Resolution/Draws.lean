import ImageRollout.Proofs.Resolution.Calls

/-! How a batch uses up a generator. Each requested type that has a plan takes one number, in code point order of the
    types, whether its plan turns out corrupt or not; a type without a plan takes none. So the number for a type
    is known from the types with plans that come before it, and neither the order of a request nor repeats nor
    types without plans change what becomes of the others. -/

namespace ImageRollout

variable {σ : Type}

/-! ### The numbers of a generator -/

namespace Generator

variable (g : Generator)

/-- The number that a generator gives after some others. -/
def number (i : Nat) : Int :=
  g.pending[i]?.getD g.thereafter

/-- The generator after some numbers. -/
def past (n : Nat) : Generator :=
  { g with pending := g.pending.drop n }

theorem next_eq : g.next = (g.number 0, g.past 1) := by
  rcases g with ⟨_ | ⟨n, rest⟩, thereafter⟩ <;> rfl

theorem past_past (m n : Nat) : (g.past m).past n = g.past (m + n) := by
  unfold past
  rw [List.drop_drop]

theorem number_past (n i : Nat) : (g.past n).number i = g.number (n + i) := by
  unfold past number
  rw [List.getElem?_drop]

end Generator

theorem draw_generated (imageType : String) (g : Generator) :
    Strategy.generated.draw imageType g = (g.number 0, g.past 1) :=
  g.next_eq

/-! ### Image types with plans -/

/-- The requested image types that have a plan, in code point order, each with its plan. -/
structure Planned (plans : PlanAnswer) (imageTypes : List String) (planned : List (String × Plan)) : Prop where
  ascending : Names.Ascending (planned.map Prod.fst)
  mem : ∀ imageType plan, (imageType, plan) ∈ planned ↔ imageType ∈ imageTypes ∧ plans.plan? imageType = some plan

/-- The image types of a list that have a plan, each with its plan. -/
def PlanAnswer.plansOf (plans : PlanAnswer) (imageTypes : List String) : List (String × Plan) :=
  imageTypes.filterMap fun imageType => (plans.plan? imageType).map fun plan => (imageType, plan)

section

variable {plans plans' : PlanAnswer} {imageTypes others : List String} {planned planned' : List (String × Plan)}

theorem planned_plansOf (plans : PlanAnswer) (imageTypes : List String) :
    Planned plans imageTypes (plans.plansOf (Names.ordered imageTypes)) where
  ascending := by
    have hkeys := Names.keys_filterMap plans.plan? (Names.ordered imageTypes)
    exact hkeys ▸ (Names.ascending_ordered imageTypes).filter _
  mem imageType plan := by
    unfold PlanAnswer.plansOf
    rw [Names.mem_filterMap plans.plan?, Names.mem_ordered]

/-- Types with plans in code point order are known from which they are. -/
theorem Planned.eq (h : Planned plans imageTypes planned) (h' : Planned plans' others planned')
    (hsame : ∀ imageType plan, imageType ∈ others ∧ plans'.plan? imageType = some plan ↔
      imageType ∈ imageTypes ∧ plans.plan? imageType = some plan) : planned' = planned := by
  have hsorted := List.pairwise_map.mp h.ascending
  have hsorted' := List.pairwise_map.mp h'.ascending
  have hperm : planned'.Perm planned := by
    refine (List.perm_ext_iff_of_nodup (List.Nodup.of_map _ h'.ascending.nodup) (List.Nodup.of_map _ h.ascending.nodup)).mpr ?_
    rintro ⟨imageType, plan⟩
    rw [h'.mem, hsame, h.mem]
  exact hperm.eq_of_pairwise (fun a b _ _ hab hba => absurd hba (String.lt_asymm hab)) hsorted' hsorted

end

/-! ### The survey with a generator -/

/-- What the plans of image types come to, the first one for the next number of a generator, the second one for the
    number after that, and so on. -/
def inTurn (g : Generator) (planned : List (String × Plan)) : Findings :=
  planned.mapIdx fun i (imageType, plan) => (imageType, judge plan.entries (g.number i))

theorem inTurn_cons (g : Generator) (imageType : String) (plan : Plan) (rest : List (String × Plan)) :
    inTurn g ((imageType, plan) :: rest) = (imageType, judge plan.entries (g.number 0)) :: inTurn (g.past 1) rest := by
  unfold inTurn
  rw [List.mapIdx_cons]
  simp only [Generator.number_past, Nat.add_comm]

theorem getElem?_inTurn (g : Generator) {planned : List (String × Plan)} {i : Nat} {imageType : String} {plan : Plan}
    (h : planned[i]? = some (imageType, plan)) :
    (inTurn g planned)[i]? = some (imageType, judge plan.entries (g.number i)) := by
  unfold inTurn
  rw [List.getElem?_mapIdx, h]
  rfl

theorem keys_inTurn (g : Generator) (planned : List (String × Plan)) :
    (inTurn g planned).map Prod.fst = planned.map Prod.fst := by
  induction planned generalizing g with
  | nil => rfl
  | cons first rest ih =>
    obtain ⟨imageType, plan⟩ := first
    rw [inTurn_cons, List.map_cons, List.map_cons, ih]

namespace Findings

/-- The findings that a number was drawn for. -/
def drawn (findings : Findings) : Findings :=
  findings.filter fun (_, outcome) => outcome.draw?.isSome

theorem events_drawn (findings : Findings) : findings.drawn.events = findings.events := by
  unfold events drawn
  rw [List.filterMap_filter]
  refine List.filterMap_congr fun (imageType, outcome) _ => ?_
  cases outcome <;> rfl

theorem asks_eq (findings : Findings) :
    findings.asks = (findings.drawn.map Prod.fst).map fun imageType => ⟨imageType, 1, 100⟩ := by
  rw [List.map_map]
  rfl

theorem mem_drawn_of {imageTypes : List String} {outcome : String → Outcome} {imageType : String} {found : Outcome}
    (h : (imageType, found) ∈ (of imageTypes outcome).drawn) : imageType ∈ imageTypes ∧ outcome imageType = found := by
  obtain ⟨other, hother, heq⟩ := List.mem_map.mp (List.mem_filter.mp h).1
  obtain ⟨rfl, rfl⟩ := Prod.mk.inj heq
  exact ⟨hother, rfl⟩

end Findings

section

variable {g : Generator} (hrange : Strategy.generated.InRange g) (plans : PlanAnswer)

include hrange

/-- One type: with a plan it takes the next number, without one it takes none. -/
theorem survey_generated_cons (imageType : String) (rest : List String) :
    survey false (some .generated) plans (imageType :: rest) g =
      match plans.plan? imageType with
      | some plan =>
        let next := survey false (some .generated) plans rest (g.past 1)
        ((imageType, judge plan.entries (g.number 0)) :: next.1, next.2)
      | none =>
        let next := survey false (some .generated) plans rest g
        ((imageType, .noPlan) :: next.1, next.2) := by
  have hfailure := failure?_resolve hrange false imageType (plans.plan? imageType)
  rw [survey_cons]
  dsimp only
  rw [hfailure]
  cases plans.plan? imageType with
  | none => rfl
  | some plan =>
    rw [resolve_eq_judge, draw_generated]
    rfl

/-- Over a run of types the numbers go to those with plans, one after the other. -/
theorem survey_generated (imageTypes : List String) :
    (survey false (some .generated) plans imageTypes g).1.drawn = inTurn g (plans.plansOf imageTypes) ∧
      (survey false (some .generated) plans imageTypes g).2 = g.past (plans.plansOf imageTypes).length := by
  induction imageTypes generalizing g with
  | nil => exact ⟨rfl, rfl⟩
  | cons imageType rest ih =>
    have hcons := survey_generated_cons hrange plans imageType rest
    unfold PlanAnswer.plansOf Findings.drawn at *
    cases hplan : plans.plan? imageType with
    | none =>
      obtain ⟨hdrawn, hgenerator⟩ := ih hrange
      rw [hplan] at hcons
      rw [hcons, List.filterMap_cons, hplan]
      exact ⟨hdrawn, hgenerator⟩
    | some plan =>
      have hnext := hrange.next imageType
      have hdraw := (judged plan.entries (hrange.draw imageType)).draw?_eq
      rw [draw_generated] at hnext hdraw
      obtain ⟨hdrawn, hgenerator⟩ := ih hnext
      rw [hplan] at hcons
      rw [hcons, List.filterMap_cons, hplan]
      dsimp only [Option.map_some]
      rw [List.filter_cons, hdraw, hdrawn, inTurn_cons, hgenerator, Generator.past_past, List.length_cons, Nat.add_comm]
      exact ⟨rfl, rfl⟩

/-- What a type with a plan comes to in a batch is what its plan comes to in its turn. -/
theorem outcomeIn_generated {requested : List String} (hascending : Names.Ascending requested) :
    (Findings.of requested (outcomeIn .generated plans requested g)).drawn = inTurn g (plans.plansOf requested) ∧
      drawnPast .generated plans requested g = g.past (plans.plansOf requested).length := by
  have hnone : ∀ imageType ∈ requested,
      (outcomeIn .generated plans requested g imageType).failure? false imageType = none :=
    fun imageType _ => failure?_outcomeIn hrange false plans requested imageType
  have hsurvey := survey_generated hrange plans requested
  rwa [survey_of_no_failure hascending hnone] at hsurvey

end

/-! ### The draws of a batch -/

/-- What follows the survey asks for no draws. -/
theorem draws_settle (source : Source σ) {rules : Rules} (htime : rules.timeout.isOver = false) (requested : List String)
    (findings : Findings) (b : Backing σ) :
    ((settle source rules requested findings).run b).state.asks = b.asks ∧
      ((settle source rules requested findings).run b).state.generator = b.generator := by
  rw [state_settle]
  by_cases hnil : Names.without requested (findings.planned.map Prod.fst) = []
  · rw [hnil, run_fallbacks_nil]
    exact ⟨rfl, rfl⟩
  · rw [(run_fallbacks source htime hnil b).2]
    exact ⟨rfl, rfl⟩

/-- A lenient batch, for which the plan store answers in time. -/
structure LenientBatch (source : Source σ) (rules : Rules) (imageTypes : List String) (b : Backing σ)
    (plans : PlanAnswer) : Prop where
  lenient : rules.strict = false
  inTime : rules.timeout.isOver = false
  givesPlans : (plansEnd source imageTypes b).result = .ok (.answered plans)

/-- A batch draws once for each of some image types and their plans, one after the other, and for nothing else. What
    each plan comes to for its number is told in this order, and a version that it gives is the one that its type
    gets. -/
structure DrawsInTurn (source : Source σ) (rules : Rules) (imageTypes : List String) (b : Backing σ)
    (planned : List (String × Plan)) (effect : Effect (Backing σ) Versions) : Prop where
  asks : effect.state.asks = b.asks ++ planned.map fun (imageType, _) => ⟨imageType, 1, 100⟩
  generator : effect.state.generator = b.generator.past planned.length
  told : imageTypes ≠ [] → ∃ found rest, effect.events =
    (plansEnd source imageTypes b).events ++ .plansFound found :: ((inTurn b.generator planned).events ++ rest)
  chosen : ∀ versions, effect.result = .ok versions →
    ∀ i imageType plan, planned[i]? = some (imageType, plan) →
      ∀ version, (judge plan.entries (b.generator.number i)).version? = some version →
        versions.lookup imageType = some version

section

variable {source : Source σ} {rules : Rules} {imageTypes : List String} {b : Backing σ} {plans : PlanAnswer}

theorem LenientBatch.drawsInTurn (h : LenientBatch source rules imageTypes b plans)
    (hrange : Strategy.generated.InRange b.generator) :
    DrawsInTurn source rules imageTypes b (plans.plansOf (Names.ordered imageTypes))
      ((resolveAll source rules imageTypes (some .generated)).run b) := by
  by_cases hne : imageTypes = []
  · subst hne
    have hnil : plans.plansOf (Names.ordered []) = [] := by
      rw [Names.ordered_nil]
      rfl
    rw [run_resolveAll_nil, hnil]
    exact ⟨(List.append_nil _).symm, rfl, fun hne => absurd rfl hne, fun _ _ i _ _ hat => by cases hat⟩
  · obtain ⟨hdrawn, hgenerator⟩ := outcomeIn_generated hrange plans (Names.ascending_ordered imageTypes)
    have hnone : ∀ imageType ∈ imageTypes, (outcomeIn .generated plans (Names.ordered imageTypes) b.generator
        imageType).failure? rules.strict imageType = none := fun imageType _ => by
      rw [h.lenient]
      exact failure?_outcomeIn hrange false plans (Names.ordered imageTypes) imageType
    have hrun := run_resolveAll_of_no_failure h.inTime hne h.givesPlans rfl hnone
    refine ⟨?_, ?_, fun _ => ?_, fun versions hversions i imageType plan hat version hversion => ?_⟩
    · rw [hrun]
      refine (draws_settle source h.inTime _ _ _).1.trans ?_
      dsimp only
      rw [Findings.asks_eq, hdrawn, keys_inTurn, List.map_map]
      rfl
    · rw [hrun]
      exact (draws_settle source h.inTime _ _ _).2.trans hgenerator
    · rw [hrun]
      dsimp only
      rw [← Findings.events_drawn, hdrawn]
      exact ⟨_, _, rfl⟩
    · -- The plan is judged in its turn, and that is what the batch finds for its type.
      have hmem := List.mem_of_getElem? (getElem?_inTurn b.generator hat)
      rw [← hdrawn] at hmem
      obtain ⟨hrequested, houtcome⟩ := Findings.mem_drawn_of hmem
      exact lookup_resolveAll h.givesPlans hversions (Names.mem_ordered.mp hrequested) (houtcome ▸ hversion)

/-- With a generator of draws, a lenient batch draws exactly once for each requested type that has a plan, corrupt or
    not, and for no other, in code point order of the types and each time for a number from 1 to 100. Whatever
    else is asked for, in whatever order and however often, and whatever the stores are: if the types with plans
    are the same, they get the same draws, and their plans come to the same. -/
theorem planned_types_draw_in_turn (h : LenientBatch source rules imageTypes b plans)
    (hrange : Strategy.generated.InRange b.generator) :
    ∃ planned, Planned plans imageTypes planned ∧
      DrawsInTurn source rules imageTypes b planned ((resolveAll source rules imageTypes (some .generated)).run b) ∧
      ∀ {τ : Type} {source' : Source τ} {rules' : Rules} {others : List String} {b' : Backing τ} {plans' : PlanAnswer},
        LenientBatch source' rules' others b' plans' → b'.generator = b.generator →
          (∀ imageType plan, imageType ∈ others ∧ plans'.plan? imageType = some plan ↔
            imageType ∈ imageTypes ∧ plans.plan? imageType = some plan) →
            DrawsInTurn source' rules' others b' planned ((resolveAll source' rules' others (some .generated)).run b') := by
  have hplanned := planned_plansOf plans imageTypes
  refine ⟨_, hplanned, h.drawsInTurn hrange, fun {τ} {source' rules' others b' plans'} h' hgenerator hsame => ?_⟩
  rw [← hplanned.eq (planned_plansOf plans' others) hsame]
  exact h'.drawsInTurn (hgenerator ▸ hrange)

/-- A plan that no check has seen, one that every check accepts, and a type that is there without a plan. -/
def mixedPlans : PlanAnswer :=
  [("spark", some samplePlan), ("presto", none), ("hive", some uncheckedPlan)]

def mixedBatch : Backing Unit :=
  .start () ⟨[45, 41], 100⟩

/-- A repeated type and a type without a plan make no difference to the draws. -/
theorem planned_types_draw_in_turn_sample :
    let batch := fun imageTypes =>
      (resolveAll (Source.constant mixedPlans none) ⟨false, .whole 5⟩ imageTypes (some .generated)).run mixedBatch
    (batch ["spark", "presto", "hive", "spark"]).state.asks = [⟨"hive", 1, 100⟩, ⟨"spark", 1, 100⟩] ∧
      (batch ["spark", "presto", "hive", "spark"]).state.generator = ⟨[], 100⟩ ∧
      (batch ["hive", "spark"]).state.asks = [⟨"hive", 1, 100⟩, ⟨"spark", 1, 100⟩] ∧
      (batch ["hive", "spark"]).state.generator = ⟨[], 100⟩ := by
  intro batch
  have hlenient : ∀ imageTypes,
      LenientBatch (Source.constant mixedPlans none) ⟨false, .whole 5⟩ imageTypes mixedBatch mixedPlans :=
    fun _ => ⟨rfl, rfl, rfl⟩
  have hrange : Strategy.generated.InRange mixedBatch.generator := ⟨by decide, rfl⟩
  obtain ⟨planned, hplanned, hdraws, hothers⟩ :=
    planned_types_draw_in_turn (hlenient ["spark", "presto", "hive", "spark"]) hrange
  have hsame : ∀ imageType plan, imageType ∈ ["hive", "spark"] ∧ mixedPlans.plan? imageType = some plan ↔
      imageType ∈ ["spark", "presto", "hive", "spark"] ∧ mixedPlans.plan? imageType = some plan := by
    refine fun imageType plan => and_congr_left fun hplan => ?_
    have hpresto : imageType ≠ "presto" := by
      rintro rfl
      cases hplan
    simp only [List.mem_cons, List.not_mem_nil, hpresto, or_false, false_or]
    tauto
  have hkeys : planned.map Prod.fst = ["hive", "spark"] := by
    refine hplanned.ascending.eq_of_mem_iff (by decide_cbv) fun name => ?_
    rw [List.mem_map]
    constructor
    · rintro ⟨⟨_, plan⟩, hmem, rfl⟩
      exact ((hsame _ plan).mpr ((hplanned.mem _ plan).mp hmem)).1
    · intro hname
      obtain ⟨plan, hplan⟩ : ∃ plan, mixedPlans.plan? name = some plan := by
        rcases List.mem_pair.mp hname with rfl | rfl
        · exact ⟨uncheckedPlan, rfl⟩
        · exact ⟨samplePlan, rfl⟩
      exact ⟨(name, plan), (hplanned.mem name plan).mpr ((hsame name plan).mp ⟨hname, hplan⟩), rfl⟩
  have hasks : (planned.map fun (imageType, _) => (⟨imageType, 1, 100⟩ : Ask)) = [⟨"hive", 1, 100⟩, ⟨"spark", 1, 100⟩] := by
    have hmapped := congrArg (List.map fun imageType => (⟨imageType, 1, 100⟩ : Ask)) hkeys
    rwa [List.map_map] at hmapped
  have hlength : planned.length = 2 := by
    rw [← List.length_map Prod.fst, hkeys]
    rfl
  have hothers' := hothers (hlenient ["hive", "spark"]) rfl hsame
  refine ⟨hdraws.asks.trans hasks, hdraws.generator.trans ?_, hothers'.asks.trans hasks, hothers'.generator.trans ?_⟩ <;>
    rw [hlength] <;> rfl

end

end ImageRollout

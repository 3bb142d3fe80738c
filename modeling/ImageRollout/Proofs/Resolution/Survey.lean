import ImageRollout.Proofs.Names
import ImageRollout.Proofs.Resolution.Outcome

/-! What the survey of a batch finds. With a strategy that stays in range, an image type comes to the
    outcome of its own plan, for the draw that is made after those for the types before it
    (`outcomeIn`). Only a strict survey ends early, at the first type with a corrupt plan. -/

namespace ImageRollout

/-! ### Strategies that stay in range -/

/-- All numbers that a strategy can give are draws. -/
def Strategy.InRange (strategy : Strategy) (g : Generator) : Prop :=
  match strategy with
  | .keyed key => Draw.isValid key.draw
  | .generated => (∀ n ∈ g.pending, Draw.isValid n) ∧ Draw.isValid g.thereafter
  | .assigned draws => ∀ imageType, Draw.isValid (draws imageType)

/-- The draw of a hash is a draw, whatever the hash. -/
theorem Draw.isValid_ofHash (hash : Int) : Draw.isValid (Draw.ofHash hash) = true := by
  rw [Draw.isValid_iff]
  unfold Draw.ofHash
  have hmod : Draw.magnitude hash % 100 < 100 := Nat.mod_lt _ (by decide)
  omega

theorem Strategy.inRange_keyed (key : Key) (g : Generator) : (Strategy.keyed key).InRange g :=
  Draw.isValid_ofHash _

namespace Strategy.InRange

variable {strategy : Strategy} {g : Generator}

theorem draw (h : strategy.InRange g) (imageType : String) : Draw.isValid (strategy.draw imageType g).1 = true := by
  cases strategy with
  | keyed key => exact h
  | generated =>
    obtain ⟨hpending, hthereafter⟩ := h
    show Draw.isValid g.next.1 = true
    rcases g with ⟨_ | ⟨n, rest⟩, thereafter⟩
    · exact hthereafter
    · exact hpending n List.mem_cons_self
  | assigned draws => exact h imageType

theorem next (h : strategy.InRange g) (imageType : String) : strategy.InRange (strategy.draw imageType g).2 := by
  cases strategy with
  | keyed key => exact h
  | generated =>
    obtain ⟨hpending, hthereafter⟩ := h
    show Strategy.InRange .generated g.next.2
    rcases g with ⟨_ | ⟨n, rest⟩, thereafter⟩
    · exact ⟨hpending, hthereafter⟩
    · exact ⟨fun n hn => hpending n (List.mem_cons_of_mem _ hn), hthereafter⟩
  | assigned draws => exact h

end Strategy.InRange

/-! ### The outcome of one image type -/

theorem inRange_resolve {strategy : Strategy} {g : Generator} (h : strategy.InRange g) (imageType : String)
    (plan : Option Plan) : strategy.InRange (resolve imageType plan (some strategy) g).2 := by
  cases plan with
  | none => exact h
  | some plan => exact h.next imageType

/-- In range, a survey can end only at a corrupt plan, and only where the rules are strict. -/
theorem failure?_resolve {strategy : Strategy} {g : Generator} (h : strategy.InRange g) (strict : Bool)
    (imageType : String) (plan : Option Plan) :
    (resolve imageType plan (some strategy) g).1.failure? strict imageType =
      if strict then
        (resolve imageType plan (some strategy) g).1.violation?.map fun v => .domain (.corruptPlan imageType v.text)
      else none := by
  cases plan with
  | none => cases strict <;> rfl
  | some plan =>
    have hjudged := judged plan.entries (h.draw imageType)
    rw [resolve_eq_judge]
    dsimp only
    generalize judge plan.entries (strategy.draw imageType g).1 = outcome at hjudged
    cases hjudged <;> cases strict <;> rfl

/-! ### The outcomes of a batch -/

/-- The generator after the draws for image types, one after the other. -/
def drawnPast (strategy : Strategy) (answer : PlanAnswer) : List String → Generator → Generator
  | [], g => g
  | imageType :: rest, g =>
    drawnPast strategy answer rest (resolve imageType (answer.plan? imageType) (some strategy) g).2

theorem drawnPast_append (strategy : Strategy) (answer : PlanAnswer) (before after : List String) (g : Generator) :
    drawnPast strategy answer (before ++ after) g = drawnPast strategy answer after (drawnPast strategy answer before g) := by
  induction before generalizing g with
  | nil => rfl
  | cons first rest ih => exact ih _

theorem inRange_drawnPast {strategy : Strategy} {g : Generator} (h : strategy.InRange g) (answer : PlanAnswer)
    (imageTypes : List String) : strategy.InRange (drawnPast strategy answer imageTypes g) := by
  induction imageTypes generalizing g with
  | nil => exact h
  | cons first rest ih => exact ih (inRange_resolve h first _)

/-- What an image type comes to in a batch: its draw is made after those for the requested types that
    come before it in code point order. -/
def outcomeIn (strategy : Strategy) (answer : PlanAnswer) (requested : List String) (g : Generator)
    (imageType : String) : Outcome :=
  (resolve imageType (answer.plan? imageType) (some strategy)
    (drawnPast strategy answer (requested.filter fun other => decide (other < imageType)) g)).1

theorem Names.Ascending.filter_lt {before after : List String} {name : String}
    (h : Names.Ascending (before ++ name :: after)) :
    ((before ++ name :: after).filter fun other => decide (other < name)) = before := by
  obtain ⟨-, hafter, hcross⟩ := List.pairwise_append.mp h
  have hbefore : ∀ other ∈ before, decide (other < name) = true := fun other hother =>
    decide_eq_true (hcross other hother name List.mem_cons_self)
  have hrest : ∀ other ∈ name :: after, ¬decide (other < name) = true := fun other hother => by
    rw [decide_eq_true_iff]
    rcases List.mem_cons.mp hother with rfl | hother
    · exact String.lt_irrefl _
    · exact String.lt_asymm (List.rel_of_pairwise_cons hafter hother)
  rw [List.filter_append, List.filter_eq_self.mpr hbefore, List.filter_eq_nil_iff.mpr hrest, List.append_nil]

theorem outcomeIn_append (strategy : Strategy) (answer : PlanAnswer) {before after : List String} {imageType : String}
    (h : Names.Ascending (before ++ imageType :: after)) (g : Generator) :
    outcomeIn strategy answer (before ++ imageType :: after) g imageType =
      (resolve imageType (answer.plan? imageType) (some strategy) (drawnPast strategy answer before g)).1 := by
  unfold outcomeIn
  rw [h.filter_lt]

theorem failure?_outcomeIn {strategy : Strategy} {g : Generator} (h : strategy.InRange g) (strict : Bool)
    (answer : PlanAnswer) (requested : List String) (imageType : String) :
    (outcomeIn strategy answer requested g imageType).failure? strict imageType =
      if strict then
        (outcomeIn strategy answer requested g imageType).violation?.map fun v =>
          .domain (.corruptPlan imageType v.text)
      else none :=
  failure?_resolve (inRange_drawnPast h answer _) strict imageType _

theorem outcomeIn_of_no_plan (strategy : Strategy) {answer : PlanAnswer} {imageType : String}
    (h : answer.plan? imageType = none) (requested : List String) (g : Generator) :
    outcomeIn strategy answer requested g imageType = .noPlan := by
  unfold outcomeIn
  rw [h]
  rfl

/-- A key gives every image type the same draw, whatever the other types are. -/
theorem outcomeIn_keyed (key : Key) (answer : PlanAnswer) (requested : List String) (g : Generator) {imageType : String}
    {plan : Plan} (h : answer.plan? imageType = some plan) :
    outcomeIn (.keyed key) answer requested g imageType = judge plan.entries key.draw := by
  unfold outcomeIn
  rw [h]
  rfl

/-! ### The findings -/

def Findings.of (imageTypes : List String) (outcome : String → Outcome) : Findings :=
  imageTypes.map fun imageType => (imageType, outcome imageType)

namespace Findings

variable (imageTypes : List String) (outcome : String → Outcome)

theorem planned_of : planned (of imageTypes outcome) =
    imageTypes.filterMap fun imageType => (outcome imageType).version?.map fun version => (imageType, version) := by
  unfold planned of
  rw [List.filterMap_map]
  rfl

theorem lookup_planned (imageType : String) :
    (planned (of imageTypes outcome)).lookup imageType =
      if imageType ∈ imageTypes then (outcome imageType).version? else none := by
  rw [planned_of, Names.lookup_filterMap fun t => (outcome t).version?]

theorem keys_planned : (planned (of imageTypes outcome)).map Prod.fst =
    imageTypes.filter fun imageType => (outcome imageType).version?.isSome := by
  rw [planned_of, Names.keys_filterMap fun t => (outcome t).version?]

theorem without_planned : Names.without imageTypes ((planned (of imageTypes outcome)).map Prod.fst) =
    imageTypes.filter fun imageType => (outcome imageType).version?.isNone := by
  unfold Names.without
  rw [keys_planned]
  refine List.filter_congr fun imageType hmem => ?_
  cases h : (outcome imageType).version? <;> simp [hmem, h]

theorem corrupt_of : corrupt (of imageTypes outcome) =
    imageTypes.filter fun imageType => (outcome imageType).violation?.isSome := by
  unfold corrupt of
  rw [List.filter_map, List.map_map]
  exact List.map_id _

theorem failure?_of (strict : Bool) : failure? strict (of imageTypes outcome) =
    imageTypes.findSome? fun imageType => (outcome imageType).failure? strict imageType := by
  unfold failure? of
  rw [List.findSome?_map]
  rfl

end Findings

/-! ### The survey -/

theorem survey_cons (strict : Bool) (strategy : Option Strategy) (answer : PlanAnswer) (first : String)
    (rest : List String) (g : Generator) :
    survey strict strategy answer (first :: rest) g =
      let here := resolve first (answer.plan? first) strategy g
      let next := survey strict strategy answer rest here.2
      if (here.1.failure? strict first).isSome then ([(first, here.1)], here.2)
      else ((first, here.1) :: next.1, next.2) := rfl

/-- A survey goes on past image types that do not end it. -/
theorem survey_past {strict : Bool} {strategy : Strategy} {answer : PlanAnswer} (before mid after : List String)
    {g : Generator} (h : Names.Ascending (before ++ (mid ++ after)))
    (hnone : ∀ imageType ∈ mid,
      (outcomeIn strategy answer (before ++ (mid ++ after)) g imageType).failure? strict imageType = none) :
    survey strict (some strategy) answer (mid ++ after) (drawnPast strategy answer before g) =
      let rest := survey strict (some strategy) answer after (drawnPast strategy answer (before ++ mid) g)
      (Findings.of mid (outcomeIn strategy answer (before ++ (mid ++ after)) g) ++ rest.1, rest.2) := by
  -- The generator of a survey that has come to `mid` is the one after `before`.
  induction mid generalizing before with
  | nil => simp [Findings.of]
  | cons first mid ih =>
    have hfirst := hnone first List.mem_cons_self
    have hsplit : ∀ l, before ++ first :: l = (before ++ [first]) ++ l := by simp
    have hpast : drawnPast strategy answer (before ++ [first]) g =
        (resolve first (answer.plan? first) (some strategy) (drawnPast strategy answer before g)).2 := by
      rw [drawnPast_append]
      rfl
    rw [List.cons_append] at *
    have hrest := ih (before ++ [first]) (hsplit _ ▸ h) fun imageType hmem => by
      rw [← hsplit]
      exact hnone imageType (List.mem_cons_of_mem _ hmem)
    rw [hpast, ← hsplit, ← hsplit] at hrest
    have hmine := outcomeIn_append strategy answer h g
    rw [hmine] at hfirst
    rw [survey_cons, Findings.of, List.map_cons, hmine]
    simp only [hfirst, hrest, List.cons_append, Option.isSome_none, Bool.false_eq_true, if_false]
    rfl

theorem survey_of_no_failure {strict : Bool} {strategy : Strategy} {answer : PlanAnswer} {requested : List String}
    {g : Generator} (h : Names.Ascending requested)
    (hnone : ∀ imageType ∈ requested,
      (outcomeIn strategy answer requested g imageType).failure? strict imageType = none) :
    survey strict (some strategy) answer requested g =
      (Findings.of requested (outcomeIn strategy answer requested g), drawnPast strategy answer requested g) := by
  have hpast := survey_past [] requested [] (g := g) (by simpa using h) (by simpa using hnone)
  simpa [survey, drawnPast] using hpast

theorem survey_of_failure {strict : Bool} {strategy : Strategy} {answer : PlanAnswer} {before after : List String}
    {last : String} {g : Generator} (h : Names.Ascending (before ++ last :: after))
    (hnone : ∀ imageType ∈ before,
      (outcomeIn strategy answer (before ++ last :: after) g imageType).failure? strict imageType = none)
    (hlast : ((outcomeIn strategy answer (before ++ last :: after) g last).failure? strict last).isSome) :
    survey strict (some strategy) answer (before ++ last :: after) g =
      (Findings.of (before ++ [last]) (outcomeIn strategy answer (before ++ last :: after) g),
        drawnPast strategy answer (before ++ [last]) g) := by
  have hpast := survey_past [] before (last :: after) (g := g) h hnone
  have hmine := outcomeIn_append strategy answer h g
  rw [hmine] at hlast
  have hend : survey strict (some strategy) answer (last :: after) (drawnPast strategy answer before g) =
      ([(last, outcomeIn strategy answer (before ++ last :: after) g last)],
        drawnPast strategy answer (before ++ [last]) g) := by
    rw [drawnPast_append, hmine, survey_cons, ite_cond_eq_true _ _ (eq_true hlast)]
    rfl
  simp only [List.nil_append, hend] at hpast
  rw [Findings.of, List.map_append]
  exact hpast

end ImageRollout

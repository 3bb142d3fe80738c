import ImageRollout.Proofs.Resolution.Batch

/-! Resolution over valid plans. Where all plans that a store answers with pass the check, and the
    strategy stays in range, a batch reports no corrupt plan: not in its events, not by the way it
    fails, and not by a fallback. Faults and silence of the stores do not matter. -/

namespace ImageRollout

open ImageRollout.Action

variable {σ α : Type}

/-! ### What tells of a corrupt plan -/

/-- An event that tells of no corrupt plan. -/
def Event.Sound : Event → Prop
  | .violated _ _ | .fellBack _ _ => False
  | _ => True

/-- A failure that tells of no corrupt plan. -/
def Failure.Sound : Failure → Prop
  | .domain (.corruptPlan _ _) => False
  | .domain (.unresolved _ corrupt) => corrupt = []
  | _ => True

/-- An answer whose plans all pass the check. -/
def PlanAnswer.Sound (answer : PlanAnswer) : Prop :=
  ∀ imageType plan, answer.plan? imageType = some plan → checkPlan plan.entries = .ok ()

/-- A source that tells of no corrupt plan: its plans all pass the check. -/
structure Source.Sound (source : Source σ) (s : σ) : Prop where
  activePlans : ∀ imageTypes, Ends (source.activePlans imageTypes) s Event.Sound
    (fun reply _ => ∀ answer, reply = .answered answer → answer.Sound) fun f _ => f.Sound
  latestActive : ∀ imageTypes t, Ends (source.latestActive imageTypes) t Event.Sound
    (fun _ _ => True) fun f _ => f.Sound

/-! ### Store calls -/

theorem ends_callStore {timeout : Seconds} {call : StoreCall} {answer : Action σ (Reply α)} {b : Backing σ}
    {onEvent : Event → Prop} {onValue : α → Backing σ → Prop} {onFailure : Failure → Backing σ → Prop}
    (h : Ends answer b.store onEvent
      (fun reply s => ∀ a, reply = .answered a → onValue a (b.afterCall call s))
      fun f s => onFailure f (b.afterCall call s))
    (hevent : onEvent (.storeTimedOut call.name timeout))
    (hfailure : ∀ c, onFailure (.domain (.storeTimedOut call.name timeout)) c) :
    Ends (callStore timeout call answer) b onEvent onValue onFailure := by
  have hgiveUp : ∀ c, Ends (giveUp timeout call : Action (Backing σ) α) c onEvent onValue onFailure :=
    fun c => .report_bind (by simpa using hevent) (.fail (hfailure c))
  cases htime : timeout.isOver with
  | true =>
    rw [callStore_of_over htime]
    exact .change_bind (hgiveUp _)
  | false =>
    rw [callStore_of_inTime htime]
    refine .change_bind (Ends.bind (fun (reply : Reply α) c => ∀ a, reply = .answered a → onValue a c) (.onPart h)
      fun reply c hreply => ?_)
    cases reply with
    | answered a => exact .pure (hreply a rfl)
    | silent => exact hgiveUp c

/-! ### The survey -/

theorem outcomeIn_of_sound {strategy : Strategy} {g : Generator} (hrange : strategy.InRange g) {answer : PlanAnswer}
    (h : answer.Sound) (requested : List String) (imageType : String) :
    outcomeIn strategy answer requested g imageType = .noPlan ∨
      ∃ e draw, outcomeIn strategy answer requested g imageType = .selected e draw := by
  cases hplan : answer.plan? imageType with
  | none => exact Or.inl (outcomeIn_of_no_plan strategy hplan requested g)
  | some plan =>
    refine Or.inr ?_
    have hvalid := checkPlan_eq_ok_iff.mp (h imageType plan hplan)
    unfold outcomeIn
    rw [hplan, resolve_eq_judge]
    obtain ⟨e, -, -, hjudge⟩ := hvalid.judge_eq ((inRange_drawnPast hrange answer _).draw imageType)
    exact ⟨e, _, hjudge⟩

theorem ends_surveyed {strict : Bool} {strategy : Strategy} {answer : PlanAnswer} {requested : List String}
    {b : Backing σ} (hordered : Names.Ascending requested) (hrange : strategy.InRange b.generator) (h : answer.Sound) :
    Ends (surveyed strict (some strategy) answer requested) b Event.Sound
      (fun findings _ => findings.corrupt = []) fun f _ => f.Sound := by
  have hsound := outcomeIn_of_sound hrange h requested
  have hnone : ∀ imageType ∈ requested,
      (outcomeIn strategy answer requested b.generator imageType).failure? strict imageType = none := by
    intro imageType _
    rcases hsound imageType with heq | ⟨e, draw, heq⟩ <;> rw [heq] <;> rfl
  have hrun := run_surveyed_of_no_failure hordered rfl hnone
  refine ⟨fun e he => ?_, fun findings hfindings => ?_, fun f hf => ?_⟩
  · rw [hrun] at he
    obtain ⟨finding, hmem, hevent⟩ := List.mem_filterMap.mp he
    obtain ⟨t, -, rfl⟩ := List.mem_map.mp hmem
    rcases hsound t with heq | ⟨entry, draw, heq⟩ <;> rw [heq] at hevent <;> cases hevent
    trivial
  · rw [hrun] at hfindings
    cases hfindings
    rw [Findings.corrupt_of, List.filter_eq_nil_iff]
    intro imageType _
    rcases hsound imageType with heq | ⟨e, draw, heq⟩ <;> rw [heq] <;> simp [Outcome.violation?]
  · rw [hrun] at hf
    cases hf

/-! ### The batch -/

theorem ends_fallbacks {source : Source σ} {rules : Rules} {remaining : List String} {b : Backing σ}
    (h : ∀ imageTypes t, Ends (source.latestActive imageTypes) t Event.Sound (fun _ _ => True) fun f _ => f.Sound) :
    Ends (fallbacks source rules remaining) b Event.Sound (fun _ _ => True) fun f _ => f.Sound := by
  unfold fallbacks
  split
  · exact .pure trivial
  · refine Ends.bind (fun _ _ => True) (ends_callStore ?_ trivial fun _ => trivial) fun rows c _ => ?_
    · exact (h remaining b.store).mono (fun _ he => he) (fun _ _ _ _ _ => trivial) fun _ _ hf => hf
    · refine .report_bind (fun e he => ?_) (.pure trivial)
      obtain ⟨row, -, rfl⟩ := List.mem_map.mp he
      trivial

theorem ends_settle {source : Source σ} {rules : Rules} {requested : List String} {findings : Findings} {b : Backing σ}
    (h : ∀ imageTypes t, Ends (source.latestActive imageTypes) t Event.Sound (fun _ _ => True) fun f _ => f.Sound)
    (hcorrupt : findings.corrupt = []) :
    Ends (settle source rules requested findings) b Event.Sound (fun _ _ => True) fun f _ => f.Sound := by
  unfold settle
  refine Ends.bind _ (ends_fallbacks h) fun rows c _ => ?_
  refine .report_bind (by simp [hcorrupt]) ?_
  dsimp only
  split
  · exact .pure trivial
  · refine .report_bind ?_ (.fail ?_)
    · simp [Event.Sound]
    · simp [Failure.Sound, hcorrupt, Names.within]

/-- A batch over valid plans tells of no corrupt plan. -/
theorem ends_resolveAll {source : Source σ} {b : Backing σ} (h : source.Sound b.store) {strategy : Strategy}
    (hrange : strategy.InRange b.generator) (rules : Rules) (imageTypes : List String) :
    Ends (resolveAll source rules imageTypes (some strategy)) b Event.Sound (fun _ _ => True) fun f _ => f.Sound := by
  by_cases hne : imageTypes = []
  · subst hne
    unfold resolveAll
    simp only [Names.ordered_nil, List.isEmpty_nil, if_true]
    exact .pure trivial
  · rw [resolveAll_eq source rules hne]
    refine Ends.bind (fun answer c => answer.Sound ∧ c.generator = b.generator)
      (ends_callStore ?_ trivial fun _ => trivial) fun answer c ⟨hanswer, hgenerator⟩ => ?_
    · exact (h.activePlans _).mono (fun _ he => he) (fun _ _ hreply answer heq => ⟨hreply answer heq, rfl⟩)
        fun _ _ hf => hf
    · refine .report_bind (by simp [Event.Sound]) ?_
      refine Ends.bind _ (ends_surveyed (Names.ascending_ordered imageTypes) (hgenerator ▸ hrange) hanswer) ?_
      exact fun findings _ hcorrupt => ends_settle h.latestActive hcorrupt

end ImageRollout

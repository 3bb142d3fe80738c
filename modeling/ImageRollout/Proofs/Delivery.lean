import ImageRollout.Proofs.Reached

/-! From authoring to resolution. The entries of an author come back from a store as they were written,
    in their order, so the key of a workload falls to the same entry in the store as in the author's
    draft, and resolution gives the version of that entry. -/

namespace ImageRollout

open ImageRollout.Action

/-- Workloads with the key get the version for the image type, and the active versions are not asked for. -/
def Decides {σ : Type} (source : Source σ) (rules : Rules) (key : Key) (imageType version : String) (s : σ) : Prop :=
  ∀ b : Backing σ, b.store = s →
    ((resolveAll source rules [imageType] (some (.keyed key))).run b).result = .ok [(imageType, version)] ∧
      ((resolveAll source rules [imageType] (some (.keyed key))).run b).state.calls = b.calls ++ [.activePlans [imageType]]

/-- A store decides by the entries of the active plan that it tells. -/
theorem Reads.decides {σ : Type} {writer : PlanWriter σ} {source : Source σ} {s : σ} {plans : List Plan}
    (h : Reads writer source s plans) {imageType : String} {plan : Plan} (hactive : activeIn plans imageType = some plan)
    {entries : List Entry} (hterms : SameTerms plan.entries entries) (hvalid : Valid entries) {rules : Rules}
    (htime : rules.timeout.isOver = false) {key : Key} {e : Entry} (he : covering? entries key.draw = some e) :
    Decides source rules key imageType e.version.val s := by
  rintro b rfl
  have hordered : Names.ordered [imageType] = [imageType] := Names.ordered_singleton imageType
  obtain ⟨answer, hanswer, hof⟩ := h.many (Names.ordered [imageType])
  have hplan : answer.plan? imageType = some plan := by
    rw [hof.plan?_eq, hordered, ite_cond_eq_true _ _ (eq_true (List.mem_singleton_self _)), hactive]
  -- The entry in the store has the version of the author's entry; only the names of the makers may differ.
  have houtcome : ∃ stored, stored.version = e.version ∧ ∀ requested g,
      outcomeIn (.keyed key) answer requested g imageType = .selected stored key.draw := by
    obtain ⟨stored, -, hcovering, hjudge⟩ := (hterms.symm.valid hvalid).judge_eq (Strategy.inRange_keyed key b.generator)
    refine ⟨stored, ?_, fun requested g => (outcomeIn_keyed key answer requested g hplan).trans hjudge⟩
    have hunsigned := hterms.covering?_eq key.draw
    rw [hcovering, he] at hunsigned
    have hsame : stored.unsigned = e.unsigned := Option.some.inj hunsigned
    have hversion : stored.unsigned.version = e.unsigned.version := by rw [hsame]
    exact hversion
  obtain ⟨stored, hversion, hselected⟩ := houtcome
  have hnone : ∀ other ∈ [imageType],
      (outcomeIn (.keyed key) answer (Names.ordered [imageType]) b.generator other).failure? rules.strict other = none := by
    intro other hother
    obtain rfl := List.mem_singleton.mp hother
    rw [hselected]
    rfl
  have hplanned : (Names.ordered [imageType]).filter (fun other =>
      (outcomeIn (.keyed key) answer (Names.ordered [imageType]) b.generator other).version?.isNone) = [] := by
    rw [hordered]
    simp [hselected, Outcome.version?]
  constructor
  · have hanswered : Answered source rules [imageType] (.keyed key) b answer none :=
      ⟨htime, hanswer, fun remaining hremaining hne => absurd (hremaining.trans hplanned) hne⟩
    rw [result_resolveAll_of_no_failure hanswered rfl hnone, hordered]
    simp [versionFor?, hselected, Outcome.version?, hversion]
  · rw [run_resolveAll_of_no_failure htime (List.cons_ne_nil _ _) hanswer rfl hnone]
    dsimp only
    rw [state_settle_of_planned ((Findings.without_planned _ _).trans hplanned)]
    exact congrArg (fun names => b.calls ++ [StoreCall.activePlans names]) hordered

/-! ### What an author wrote decides -/

/-- The active plan of a type has the entries of a draft. -/
def Holds (plans : List Plan) (imageType : String) (draft : PlanDraft) : Prop :=
  ∃ plan, activeIn plans imageType = some plan ∧ SameTerms plan.entries draft.toEntries

theorem Memory.holds_withPlan {m : Memory} {draft : PlanDraft} {user : Option String}
    (h : (m.withPlan (draft.stampNew user).toNewPlan).Sound) (hactivate : draft.activate) :
    Holds ((m.withPlan (draft.stampNew user).toNewPlan).plans.map StoredPlan.plan) draft.imageType.val draft :=
  ⟨_, h.activeIn_eq (List.mem_append_right _ (List.mem_singleton_self _)) hactivate, draft.sameTerms_stampNew user⟩

theorem Memory.holds_replaceEntries {m : Memory} {imageType : String} {draft : PlanDraft} {user : Option String}
    (h : (m.replaceEntries imageType (draft.stampChange user).toEntries).Sound) {p : StoredPlan}
    (hp : m.active? imageType = some p) :
    Holds ((m.replaceEntries imageType (draft.stampChange user).toEntries).plans.map StoredPlan.plan) imageType draft := by
  have hactive : p.active := List.find?_some hp
  obtain ⟨hmem, hkey⟩ := List.mem_filter.mp (List.mem_of_find?_eq_some hp)
  obtain rfl := of_decide_eq_true hkey
  have hchanged : { p with entries := (draft.stampChange user).toEntries } ∈
      (m.replaceEntries p.key (draft.stampChange user).toEntries).plans :=
    List.mem_map.mpr ⟨p, hmem, ite_cond_eq_true _ _ (eq_true ⟨rfl, hactive⟩)⟩
  have hfound := h.activeIn_eq hchanged hactive
  rw [h.filed _ hchanged] at hfound
  exact ⟨_, hfound, draft.sameTerms_stampChange user⟩

theorem Tables.holds_withPlan {t : Tables} (ht : t.Sound) {draft : PlanDraft} {user : Option String}
    (h : (t.withPlan (draft.stampNew user).toNewPlan).Sound) (hactivate : draft.activate) :
    Holds ((t.withPlan (draft.stampNew user).toNewPlan).plans.map
      (t.withPlan (draft.stampNew user).toNewPlan).planOf) draft.imageType.val draft := by
  refine ⟨_, h.activeIn_eq (List.mem_append_right _ (List.mem_singleton_self _)) hactivate, ?_⟩
  rw [Tables.planOf_entries _ (ht.entries_withPlan _)]
  exact (SameTerms.inName _ _).trans (draft.sameTerms_stampNew user)

theorem Tables.holds_replaceShares {t : Tables} {imageType : String} {draft : PlanDraft} {user : Option String}
    {row : PlanRow} (h : (t.replaceShares row.number (draft.stampChange user).toEntries user).Sound)
    (hrow : (t.activePlans [imageType]).head? = some row) :
    Holds ((t.replaceShares row.number (draft.stampChange user).toEntries user).plans.map
      (t.replaceShares row.number (draft.stampChange user).toEntries user).planOf) imageType draft := by
  obtain ⟨hmem, hactive, htype⟩ := Tables.mem_activePlans.mp (List.mem_of_mem_head? hrow)
  obtain rfl := List.mem_singleton.mp htype
  have hchanged : { row with modifiedBy := user } ∈
      (t.replaceShares row.number (draft.stampChange user).toEntries user).plans :=
    List.mem_map.mpr ⟨row, hmem, ite_cond_eq_true _ _ (eq_true rfl)⟩
  have hfound := h.activeIn_eq hchanged
  have hread := Tables.entries_of_shares
    (Tables.Sound.filter_shares_replaceShares t row.number (draft.stampChange user).toEntries user)
  refine ⟨_, hfound hactive, ?_⟩
  rw [Tables.planOf_entries { row with modifiedBy := user } hread]
  exact (SameTerms.inName _ _).trans (draft.sameTerms_stampChange user)

/-- After an author made the active plan of an image type, or changed its entries, a key leads to the version
    that it leads to in the author's own entries: the same one through either store, in whatever state
    the store was, and without a look at the active versions. -/
theorem authored_plan_decides {draft : PlanDraft} (hcheck : checkPlan draft.toEntries = .ok ()) {rules : Rules}
    (htime : rules.timeout.isOver = false) (key : Key) (user : Option String) :
    ∃ e ∈ draft.toEntries, select draft.toEntries key.draw = .ok (some e) ∧
      (∀ m, Memory.Reached m → ∀ id,
        (draft.activate → ((Authoring.create Memory.writer draft user).run m).result = .ok id →
          Decides Memory.source rules key draft.imageType.val e.version.val
            ((Authoring.create Memory.writer draft user).run m).state) ∧
        ∀ imageType, ((Authoring.update Memory.writer imageType draft user).run m).result = .ok id →
          Decides Memory.source rules key imageType e.version.val
            ((Authoring.update Memory.writer imageType draft user).run m).state) ∧
      ∀ s, Database.Reached s → ∀ id,
        (draft.activate → ((Authoring.create Database.writer draft user).run s).result = .ok id →
          ∀ s', s' = ((Authoring.create Database.writer draft user).run s).state →
            s'.refusal? .execute (s'.executed + 1) = none →
              Decides Database.source rules key draft.imageType.val e.version.val s') ∧
        ∀ imageType, ((Authoring.update Database.writer imageType draft user).run s).result = .ok id →
          ∀ s', s' = ((Authoring.update Database.writer imageType draft user).run s).state →
            s'.refusal? .execute (s'.executed + 1) = none →
              Decides Database.source rules key imageType e.version.val s' := by
  have hvalid := checkPlan_eq_ok_iff.mp hcheck
  have hdraw : Draw.isValid key.draw = true := Draw.isValid_ofHash _
  obtain ⟨e, hmem, hcovering, -⟩ := hvalid.judge_eq hdraw
  -- The stores keep the entries in the name of the user; that leaves their terms as the author wrote them.
  have hnew := (draft.sameTerms_stampNew user).symm.checkPlan_eq_ok hcheck
  have hchange := (draft.sameTerms_stampChange user).symm.checkPlan_eq_ok hcheck
  refine ⟨e, hmem, (select_of_isValid hdraw).trans (congrArg _ hcovering), fun m hm id => ⟨fun hactivate hok => ?_,
    fun imageType hok => ?_⟩, fun s hs id => ⟨fun hactivate hok s' hs' hfree => ?_, fun imageType hok s' hs' hfree => ?_⟩⟩
  · obtain ⟨-, htype, hm'⟩ := (Memory.ends_create draft user m).value id hok
    have hsound : (m.withPlan (draft.stampNew user).toNewPlan).Sound := hm.sound.withPlan hnew htype
    obtain ⟨plan, hactive, hterms⟩ := Memory.holds_withPlan hsound hactivate
    rw [hm']
    exact hsound.filed.reads.decides hactive hterms hvalid htime hcovering
  · obtain ⟨-, p, hp, hm'⟩ := (Memory.ends_update imageType draft user m).value id hok
    have hsound := hm.sound.replaceEntries imageType hchange
    obtain ⟨plan, hactive, hterms⟩ := Memory.holds_replaceEntries hsound hp
    rw [hm']
    exact hsound.filed.reads.decides hactive hterms hvalid htime hcovering
  · obtain ⟨t, ht, hrests⟩ := hs.sound
    obtain ⟨-, htype, -, hdraft⟩ := (Database.ends_create hrests draft user).value id hok
    have hsound : (t.withPlan (draft.stampNew user).toNewPlan).Sound := ht.withPlan hnew htype
    obtain ⟨plan, hactive, hterms⟩ := Tables.holds_withPlan ht hsound hactivate
    rw [← hs'] at hdraft
    rw [← hdraft] at hsound hactive
    exact (Database.reads hsound hfree).decides hactive hterms hvalid htime hcovering
  · obtain ⟨t, ht, hrests⟩ := hs.sound
    obtain ⟨-, row, hrow, -, hdraft⟩ := (Database.ends_update hrests imageType draft user).value id hok
    obtain ⟨hplan, -⟩ := Tables.mem_activePlans.mp (List.mem_of_mem_head? hrow)
    have hsound := ht.replaceShares (ht.keyed.number_lt hplan) hchange user
    obtain ⟨plan, hactive, hterms⟩ := Tables.holds_replaceShares hsound hrow
    rw [← hs'] at hdraft
    rw [← hdraft] at hsound hactive
    exact (Database.reads hsound hfree).decides hactive hterms hvalid htime hcovering

def sampleKey : Key :=
  ⟨bytesOf "flow", by decide⟩

theorem authored_plan_decides_sample :
    ∃ e ∈ sampleDraft.toEntries, select sampleDraft.toEntries sampleKey.draw = .ok (some e) ∧
      Decides Memory.source ⟨false, .whole 5⟩ sampleKey "spark" e.version.val
        ((Authoring.create Memory.writer sampleDraft (some "alice")).run sampleMemory).state ∧
      Decides Database.source ⟨false, .whole 5⟩ sampleKey "spark" e.version.val
        ((Authoring.update Database.writer "spark" sampleDraft none).run sampleSession).state := by
  have hcheck : checkPlan sampleDraft.toEntries = .ok () := rfl
  have htime : (⟨false, .whole 5⟩ : Rules).timeout.isOver = false := rfl
  obtain ⟨e, hmem, hselect, hmemory, -⟩ := authored_plan_decides hcheck htime sampleKey (some "alice")
  obtain ⟨e', -, hselect', -, hdatabase⟩ := authored_plan_decides hcheck htime sampleKey none
  obtain rfl : e = e' := Option.some.inj (Except.ok.inj (hselect.symm.trans hselect'))
  refine ⟨e, hmem, hselect, ?_, ?_⟩
  · exact (hmemory sampleMemory reached_sampleMemory (.made 1)).1 rfl (by cbv)
  · exact (hdatabase sampleSession reached_sampleSession (.made 0)).2 "spark" (by cbv) _ rfl (by cbv)

end ImageRollout

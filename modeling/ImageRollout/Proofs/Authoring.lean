import ImageRollout.Authoring
import ImageRollout.Proofs.Store.Database
import ImageRollout.Proofs.Store.Memory

/-! Authoring. The user's name changes nothing else about a draft's entries, and a store is asked to keep
    entries only if they pass the check. What an author does to either store is then one change of the
    whole, and nothing where it fails. -/

namespace ImageRollout

open ImageRollout.Action

/-! ### Drafts in the name of a user -/

theorem PlanDraft.sameTerms_stampNew (d : PlanDraft) (user : Option String) :
    SameTerms (d.stampNew user).toEntries d.toEntries := by
  unfold SameTerms stampNew toEntries
  rw [List.map_map, List.map_map, List.map_map]
  rfl

theorem PlanDraft.sameTerms_stampChange (d : PlanDraft) (user : Option String) :
    SameTerms (d.stampChange user).toEntries d.toEntries := by
  unfold SameTerms stampChange toEntries
  rw [List.map_map, List.map_map, List.map_map]
  rfl

namespace Authoring

variable {σ : Type} {s : σ} {onEvent : Event → Prop} {onFailure : Failure → σ → Prop}

theorem ends_require {onValue : Unit → σ → Prop} {entries : List Entry}
    (hvalue : checkPlan entries = .ok () → onValue () s)
    (hfailure : ∀ fault, checkPlan entries = .error fault → onFailure (.domain (.invalidPlan fault)) s) :
    Ends (require entries) s onEvent onValue onFailure := by
  unfold require
  split
  · rename_i hcheck
    exact .pure (hvalue hcheck)
  · rename_i fault hcheck
    exact .fail (hfailure fault hcheck)

theorem ends_create {writer : PlanWriter σ} {draft : PlanDraft} {user : Option String} {onValue : PlanId → σ → Prop}
    (h : checkPlan draft.toEntries = .ok () →
      Ends (writer.create (draft.stampNew user).toNewPlan) s onEvent onValue onFailure)
    (hevent : ∀ id, onEvent (.planCreated user id draft.imageType.val))
    (hfailure : ∀ fault, onFailure (.domain (.invalidPlan fault)) s) :
    Ends (create writer draft user) s onEvent onValue onFailure := by
  have hterms := draft.sameTerms_stampNew user
  refine Ends.bind (fun _ t => checkPlan draft.toEntries = .ok () ∧ t = s)
    (ends_require (fun hcheck => ⟨hterms.checkPlan_eq_ok hcheck, rfl⟩) fun fault _ => hfailure fault) ?_
  rintro _ t ⟨hcheck, rfl⟩
  refine Ends.bind onValue (h hcheck) fun id t ht => .report_bind (fun e he => ?_) (.pure ht)
  obtain rfl := List.mem_singleton.mp he
  exact hevent id

theorem ends_update {writer : PlanWriter σ} {imageType : String} {draft : PlanDraft} {user : Option String}
    {onValue : PlanId → σ → Prop}
    (h : checkPlan draft.toEntries = .ok () →
      Ends (writer.update imageType (draft.stampChange user).toEntries user) s onEvent onValue onFailure)
    (hevent : ∀ id, onEvent (.planUpdated user id imageType))
    (hfailure : ∀ fault, onFailure (.domain (.invalidPlan fault)) s) :
    Ends (update writer imageType draft user) s onEvent onValue onFailure := by
  have hterms := draft.sameTerms_stampChange user
  refine Ends.bind (fun _ t => checkPlan draft.toEntries = .ok () ∧ t = s)
    (ends_require (fun hcheck => ⟨hterms.checkPlan_eq_ok hcheck, rfl⟩) fun fault _ => hfailure fault) ?_
  rintro _ t ⟨hcheck, rfl⟩
  refine Ends.bind onValue (h hcheck) fun id t ht => .report_bind (fun e he => ?_) (.pure ht)
  obtain rfl := List.mem_singleton.mp he
  exact hevent id

/-! What an author's write comes to: the writer has a say only where the entries pass the check. -/

theorem result_require_bind (entries : List Entry) (write : Action σ PlanId) (events : PlanId → List Event) (s : σ) :
    ((require entries >>= fun _ => write >>= fun id => Action.report (events id) >>= fun _ => pure id).run s).result =
      match checkPlan entries with
      | .ok () => (write.run s).result
      | .error fault => .error (.domain (.invalidPlan fault)) := by
  unfold require
  cases checkPlan entries with
  | ok _ =>
    rw [run_pure_bind, result_bind (g := id) fun _ _ => rfl]
    cases (write.run s).result <;> rfl
  | error fault => rfl

theorem state_require_bind (entries : List Entry) (write : Action σ PlanId) (events : PlanId → List Event) (s : σ) :
    ((require entries >>= fun _ => write >>= fun id => Action.report (events id) >>= fun _ => pure id).run s).state =
      match checkPlan entries with
      | .ok () => (write.run s).state
      | .error _ => s := by
  unfold require
  cases checkPlan entries with
  | ok _ => rw [run_pure_bind, state_bind fun _ _ => rfl]
  | error fault => rfl

section

variable (writer : PlanWriter σ) (imageType : String) (draft : PlanDraft) (user : Option String) (s : σ)

theorem result_create :
    ((create writer draft user).run s).result =
      match checkPlan (draft.stampNew user).toEntries with
      | .ok () => ((writer.create (draft.stampNew user).toNewPlan).run s).result
      | .error fault => .error (.domain (.invalidPlan fault)) :=
  result_require_bind _ _ _ s

theorem state_create :
    ((create writer draft user).run s).state =
      match checkPlan (draft.stampNew user).toEntries with
      | .ok () => ((writer.create (draft.stampNew user).toNewPlan).run s).state
      | .error _ => s :=
  state_require_bind _ _ _ s

theorem result_update :
    ((update writer imageType draft user).run s).result =
      match checkPlan (draft.stampChange user).toEntries with
      | .ok () => ((writer.update imageType (draft.stampChange user).toEntries user).run s).result
      | .error fault => .error (.domain (.invalidPlan fault)) :=
  result_require_bind _ _ _ s

theorem state_update :
    ((update writer imageType draft user).run s).state =
      match checkPlan (draft.stampChange user).toEntries with
      | .ok () => ((writer.update imageType (draft.stampChange user).toEntries user).run s).state
      | .error _ => s :=
  state_require_bind _ _ _ s

end

end Authoring

/-! ### In memory -/

theorem Memory.ends_create (draft : PlanDraft) (user : Option String) (m : Memory) :
    Ends (Authoring.create Memory.writer draft user) m (fun _ => True)
      (fun _ m' => checkPlan draft.toEntries = .ok () ∧ m.isRegistered draft.imageType.val ∧
        m' = m.withPlan (draft.stampNew user).toNewPlan)
      fun _ m' => m' = m :=
  Authoring.ends_create (fun hcheck => (Memory.ends_createPlan _ m).mono (fun _ he => he)
    (fun _ _ hv => ⟨hcheck, hv.2⟩) fun _ _ hf => hf.2.2) (fun _ => trivial) fun _ => rfl

theorem Memory.ends_update (imageType : String) (draft : PlanDraft) (user : Option String) (m : Memory) :
    Ends (Authoring.update Memory.writer imageType draft user) m (fun _ => True)
      (fun _ m' => checkPlan draft.toEntries = .ok () ∧ ∃ p, m.active? imageType = some p ∧
        m' = m.replaceEntries imageType (draft.stampChange user).toEntries)
      fun _ m' => m' = m :=
  Authoring.ends_update (fun hcheck => (Memory.ends_updatePlan imageType _ m).mono (fun _ he => he)
    (fun _ _ ⟨p, hp, _, hm⟩ => ⟨hcheck, p, hp, hm⟩) fun _ _ hf => hf.2.2) (fun _ => trivial) fun _ => rfl

/-! ### In a database -/

section

variable {s : Session} {t : Tables}

theorem Database.ends_create (h : s.Rests t) (draft : PlanDraft) (user : Option String) :
    Ends (Authoring.create Database.writer draft user) s (fun _ => True)
      (fun _ s' => checkPlan draft.toEntries = .ok () ∧ (t.type? draft.imageType.val).isSome ∧
        s'.Rests (t.withPlan (draft.stampNew user).toNewPlan))
      fun f s' => ¬f.IsUnread ∧ s'.Rests t ∨
        checkPlan draft.toEntries = .ok () ∧ FailsStored t (draft.stampNew user).toNewPlan f s' := by
  refine Authoring.ends_create (fun hcheck => (Database.ends_createPlan h _).mono (fun _ he => he)
    (fun _ _ hv => ⟨hcheck, hv.2⟩) fun _ _ hf => ?_) (fun _ => trivial) fun _ => .inl ⟨Failure.not_isUnread_domain _, h⟩
  refine hf.imp (fun ⟨hkind, hrests⟩ => ⟨?_, hrests⟩) fun hstored => ⟨hcheck, hstored⟩
  rcases hkind with ⟨_, _, rfl⟩ | ⟨rfl, -⟩ <;> exact Failure.not_isUnread_domain _

theorem Database.ends_update (h : s.Rests t) (imageType : String) (draft : PlanDraft) (user : Option String) :
    Ends (Authoring.update Database.writer imageType draft user) s (fun _ => True)
      (fun _ s' => checkPlan draft.toEntries = .ok () ∧ ∃ row, (t.activePlans [imageType]).head? = some row ∧
        s'.Rests (t.replaceShares row.number (draft.stampChange user).toEntries user))
      fun _ s' => s'.Rests t :=
  Authoring.ends_update (fun hcheck => (Database.ends_updatePlan h imageType _ user).mono (fun _ he => he)
    (fun _ _ ⟨row, hrow, _, hs⟩ => ⟨hcheck, row, hrow, hs⟩) fun _ _ hf => hf.2) (fun _ => trivial) fun _ => h

end

end ImageRollout

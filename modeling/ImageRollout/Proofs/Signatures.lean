import ImageRollout.Proofs.History

/-! Whose names stand on stored entries. Every entry that a store keeps is one that an operation asked it to
    keep, in the name of the user of that operation. So the name of who modified an entry is always that of
    a user who called for a plan of its image type. The name of who created it is one too, unless a change of
    a plan gave it: a change signs only as the modifier and leaves the creator as its entries say. -/

namespace ImageRollout

/-! ### Where stored entries come from -/

/-- The operation asks a store to keep an entry in a plan of an image type, in the name of a user. -/
inductive Operation.Writes (op : Operation) (imageType : String) : Option String → Entry → Prop where
  | new {plan : NewPlan} {e : Entry} (hop : op.adds? = some plan) (htype : plan.imageType = imageType)
      (he : e ∈ plan.entries) : Writes op imageType plan.createdBy e
  | other {entries : List Entry} {user : Option String} {e : Entry}
      (hop : op.rewrites? = some (imageType, entries, user)) (he : e ∈ entries) : Writes op imageType user e

/-- An operation of the run asks for the entry. -/
def Written (run : List Operation) (imageType : String) (user : Option String) (e : Entry) : Prop :=
  ∃ op ∈ run, op.Writes imageType user e

variable {run : List Operation} {op : Operation}

theorem Written.append {imageType : String} {user : Option String} {e : Entry} (h : Written run imageType user e)
    (later : List Operation) : Written (run ++ later) imageType user e := by
  obtain ⟨op, hop, hwrites⟩ := h
  exact ⟨op, List.mem_append_left later hop, hwrites⟩

namespace Memory

variable {m m' : Memory}

/-- Every entry of a plan in the store was asked for in the run, for a plan of the type that it is kept
    under. -/
def Traced (m : Memory) (run : List Operation) : Prop :=
  ∀ p ∈ m.plans, ∀ e ∈ p.entries, ∃ user, Written run p.key user e

theorem Traced.append (h : m.Traced run) (later : List Operation) : m.Traced (run ++ later) := by
  intro p hp e he
  obtain ⟨user, hwritten⟩ := h p hp e he
  exact ⟨user, hwritten.append later⟩

/-- What is changed about plans but where they are kept and their entries does not matter. -/
theorem Traced.map_plans (h : m.Traced run) {f : StoredPlan → StoredPlan} (hkey : ∀ p, (f p).key = p.key)
    (hentries : ∀ p, (f p).entries = p.entries) : Traced { m with plans := m.plans.map f } run := by
  intro p hp e he
  obtain ⟨before, hbefore, rfl⟩ := List.mem_map.mp hp
  rw [hentries] at he
  rw [hkey]
  exact h before hbefore e he

theorem Traced.withPlan (h : m.Traced run) (hrun : op ∈ run) {plan : NewPlan} (hop : op.adds? = some plan) :
    (m.withPlan plan).Traced run := by
  have hothers : (if plan.activate then m.deactivate plan.imageType else m).Traced run := by
    split
    · exact h.map_plans (fun p => by split <;> rfl) fun p => by split <;> rfl
    · exact h
  intro p hp e he
  rcases List.mem_append.mp hp with hp | hp
  · exact hothers p hp e he
  · obtain rfl := List.mem_singleton.mp hp
    exact ⟨plan.createdBy, op, hrun, .new hop rfl he⟩

theorem Traced.replaceEntries (h : m.Traced run) (hrun : op ∈ run) {imageType : String} {entries : List Entry}
    {user : Option String} (hop : op.rewrites? = some (imageType, entries, user)) :
    (m.replaceEntries imageType entries).Traced run := by
  intro p hp e he
  obtain ⟨before, hbefore, rfl⟩ := List.mem_map.mp hp
  by_cases hactive : before.key = imageType ∧ before.active = true
  · rw [if_pos hactive] at he ⊢
    obtain ⟨rfl, -⟩ := hactive
    exact ⟨user, op, hrun, .other hop he⟩
  · rw [if_neg hactive] at he ⊢
    exact h before hbefore e he

theorem Wrote.traced (hwrote : Wrote op m m') (hrun : op ∈ run) (h : m.Traced run) : m'.Traced run := by
  cases hwrote with
  | nothing hplans =>
    unfold Traced
    rw [hplans]
    exact h
  | plan hop hm =>
    subst hm
    exact h.withPlan hrun hop
  | entries hop hm =>
    subst hm
    exact h.replaceEntries hrun hop

theorem traced_follow (h : m.plans = []) (run : List Operation) : (m.follow run).Traced run := by
  induction run using List.reverseRecOn with
  | nil =>
    intro p hp
    have hnone : (m.follow []).plans = [] := h
    rw [hnone] at hp
    cases hp
  | append_singleton before op ih =>
    have hop : op ∈ before ++ [op] := List.mem_append_right before List.mem_cons_self
    have hbefore := ih.append [op]
    rw [follow_append]
    show ((op.onMemory.run (m.follow before)).state).Traced _
    exact (wrote_onMemory op (m.follow before)).traced hop hbefore

theorem Wrote.filed (hwrote : Wrote op m m') (h : m.Filed) : m'.Filed := by
  cases hwrote with
  | nothing hplans => exact h.of_plans_eq hplans
  | plan hop hm =>
    subst hm
    exact h.withPlan _
  | entries hop hm =>
    subst hm
    exact h.replaceEntries _ _

theorem filed_follow (h : m.Filed) (run : List Operation) : (m.follow run).Filed := by
  induction run generalizing m with
  | nil => exact h
  | cons op rest ih => exact ih ((wrote_onMemory op m).filed h)

end Memory

namespace Tables

variable {t t' : Tables}

/-- Every share of a plan in the tables is that of an entry that was asked for in the run, for a plan of the
    same type. Where the entry names nobody the user stands. -/
def Traced (t : Tables) (run : List Operation) : Prop :=
  ∀ row ∈ t.plans, ∀ share ∈ t.shares, share.plan = row.number →
    ∃ user e, Written run row.imageType user e ∧ share.createdBy = nameOr e.createdBy user ∧
      share.modifiedBy = nameOr e.modifiedBy user

theorem Traced.append (h : t.Traced run) (later : List Operation) : t.Traced (run ++ later) := by
  intro row hrow share hshare hplan
  obtain ⟨user, e, hwritten, hnames⟩ := h row hrow share hshare hplan
  exact ⟨user, e, hwritten.append later, hnames⟩

theorem Traced.map_plans (h : t.Traced run) {f : PlanRow → PlanRow} (htype : ∀ row, (f row).imageType = row.imageType)
    (hnumber : ∀ row, (f row).number = row.number) : Traced { t with plans := t.plans.map f } run := by
  intro row hrow share hshare hplan
  obtain ⟨before, hbefore, rfl⟩ := List.mem_map.mp hrow
  rw [hnumber] at hplan
  rw [htype]
  exact h before hbefore share hshare hplan

theorem Traced.insertPlan (h : t.Traced run) (ht : t.Keyed) (hrun : op ∈ run) {plan : NewPlan}
    (hop : op.adds? = some plan) : (t.insertPlan t.plans.length plan).Traced run := by
  intro row hrow share hshare hplan
  rcases List.mem_append.mp hrow with hrow | hrow
  · have hlt := ht.number_lt hrow
    rcases List.mem_append.mp hshare with hshare | hshare
    · exact h row hrow share hshare hplan
    · -- The shares of the new plan have its number, which no other plan has.
      have hnew := plan_of_mem_sharesFor hshare
      omega
  · obtain rfl := List.mem_singleton.mp hrow
    rcases List.mem_append.mp hshare with hshare | hshare
    · have hlt := ht.owned share hshare
      exact absurd hplan (Nat.ne_of_lt hlt)
    · obtain ⟨e, he, hnames⟩ := exists_entry_of_mem_sharesFor hshare
      exact ⟨plan.createdBy, e, ⟨op, hrun, .new hop rfl he⟩, hnames⟩

theorem Traced.withPlan (h : t.Traced run) (ht : t.Keyed) (hrun : op ∈ run) {plan : NewPlan}
    (hop : op.adds? = some plan) : (t.withPlan plan).Traced run := by
  unfold Tables.withPlan
  split
  · have hlength : (t.deactivate plan.imageType plan.createdBy).plans.length = t.plans.length := List.length_map _
    have hothers : (t.deactivate plan.imageType plan.createdBy).Traced run :=
      h.map_plans (fun row => by split <;> rfl) fun row => by split <;> rfl
    rw [← hlength]
    exact hothers.insertPlan (ht.deactivate plan.imageType plan.createdBy) hrun hop
  · exact h.insertPlan ht hrun hop

theorem Traced.replaceShares (h : t.Traced run) (ht : t.Keyed) (hrun : op ∈ run) {row : PlanRow} (hrow : row ∈ t.plans)
    {entries : List Entry} {user : Option String} (hop : op.rewrites? = some (row.imageType, entries, user)) :
    (t.replaceShares row.number entries user).Traced run := by
  have hplans : Traced { t with plans := (t.replaceShares row.number entries user).plans } run :=
    h.map_plans (fun other => by split <;> rfl) fun other => by split <;> rfl
  intro other hother share hshare hplan
  rcases List.mem_append.mp hshare with hshare | hshare
  · exact hplans other hother share (List.mem_filter.mp hshare).1 hplan
  · obtain ⟨before, hbefore, rfl⟩ := List.mem_map.mp hother
    have hnumber : before.number = row.number := by
      rw [plan_of_mem_sharesFor hshare] at hplan
      split at hplan <;> exact hplan.symm
    obtain rfl := ht.eq_of_number hbefore hrow hnumber
    obtain ⟨e, he, hnames⟩ := exists_entry_of_mem_sharesFor hshare
    rw [if_pos rfl]
    exact ⟨user, e, ⟨op, hrun, .other hop he⟩, hnames⟩

theorem Wrote.traced (hwrote : Wrote op t t') (ht : t.Keyed) (hrun : op ∈ run) (h : t.Traced run) : t'.Traced run := by
  cases hwrote with
  | nothing hplans hshares =>
    unfold Traced
    rw [hplans, hshares]
    exact h
  | plan hop ht' =>
    subst ht'
    exact h.withPlan ht hrun hop
  | entries hrow hactive hop ht' =>
    subst ht'
    exact h.replaceShares ht hrun hrow hop

end Tables

namespace Database

variable {s s' : Session}

theorem traced_onDatabase (h : s.Keyed) (hrun : op ∈ run) (htraced : s.committed.Traced run) :
    (op.onDatabase.run s).state.committed.Traced run := by
  obtain ⟨t, ht, hs⟩ := h
  obtain ⟨t', hs', hwrote⟩ := wrote_onDatabase hs op
  rw [hs.committed] at htraced
  rw [hs'.committed]
  exact hwrote.traced ht hrun htraced

theorem Leads.traced (hleads : Leads s run s') (h : s.Keyed) (hplans : s.committed.plans = []) :
    s'.committed.Traced run := by
  induction hleads with
  | done =>
    intro row hrow
    rw [hplans] at hrow
    cases hrow
  | @operation now before op hbefore ih =>
    have hop : op ∈ before ++ [op] := List.mem_append_right before List.mem_cons_self
    exact traced_onDatabase (hbefore.kept h).1 hop (ih.append [op])
  | reopen fault _ ih => exact ih

end Database

/-! ### The names that a call signs with -/

namespace Change

/-- The change is a call by the user for a plan of the image type: it makes one, or it changes the active
    one. -/
def IsCall (imageType : String) (user : Option String) : Change → Prop
  | create draft caller => draft.imageType.val = imageType ∧ caller = user
  | update target _ caller => target = imageType ∧ caller = user
  | _ => False

/-- How a call signs an entry. One that makes a plan does so as the creator and as the modifier; one that
    changes a plan does so as the modifier. -/
inductive Signs (imageType : String) (user : Option String) (e : Entry) : Change → Prop where
  | create {draft : PlanDraft} (htype : draft.imageType.val = imageType) (hcreated : e.createdBy = user)
      (hmodified : e.modifiedBy = user) : Signs imageType user e (.create draft user)
  | update {draft : PlanDraft} {given : EntryDraft} (hgiven : given ∈ draft.entries)
      (hcreated : e.createdBy = given.createdBy) (hmodified : e.modifiedBy = user) :
      Signs imageType user e (.update imageType draft user)

section

variable {c : Change} {imageType : String} {user : Option String} {e : Entry}

theorem signs_of_writes (h : (Operation.change c).Writes imageType user e) : c.Signs imageType user e := by
  cases h with
  | new hop htype he =>
    cases c with
    | create draft user =>
      cases hop
      obtain ⟨stamped, hstamped, rfl⟩ := List.mem_map.mp he
      obtain ⟨given, hgiven, rfl⟩ := List.mem_map.mp hstamped
      exact .create htype rfl rfl
    | _ => cases hop
  | other hop he =>
    cases c with
    | update imageType draft user =>
      cases hop
      obtain ⟨stamped, hstamped, rfl⟩ := List.mem_map.mp he
      obtain ⟨given, hgiven, rfl⟩ := List.mem_map.mp hstamped
      exact .update hgiven rfl rfl
    | _ => cases hop

theorem exists_signs_of_written {run : List Change} (h : Written (run.map .change) imageType user e) :
    ∃ c ∈ run, c.Signs imageType user e := by
  obtain ⟨op, hop, hwrites⟩ := h
  obtain ⟨c, hc, rfl⟩ := List.mem_map.mp hop
  exact ⟨c, hc, signs_of_writes hwrites⟩

theorem Signs.isCall (h : c.Signs imageType user e) : c.IsCall imageType user := by
  cases h with
  | create htype _ _ => exact ⟨htype, rfl⟩
  | update _ _ _ => exact ⟨rfl, rfl⟩

theorem Signs.modifiedBy (h : c.Signs imageType user e) : e.modifiedBy = user := by
  cases h with
  | create _ _ hmodified => exact hmodified
  | update _ _ hmodified => exact hmodified

end

end Change

/-- A user of the name calls for a plan of the image type in the run. -/
def CalledBy (run : List Change) (imageType name : String) : Prop :=
  ∃ c ∈ run, c.IsCall imageType (some name)

/-- An entry of a change of a plan of the image type gives the name as that of its creator. -/
def GivenAsCreator (run : List Change) (imageType name : String) : Prop :=
  ∃ draft user, .update imageType draft user ∈ run ∧ ∃ given ∈ draft.entries, given.createdBy = some name

/-- The names on an entry of a plan of the image type are those of users of the run, but for one that a
    change gave as that of the creator. -/
structure AccountedFor (run : List Change) (imageType : String) (createdBy modifiedBy : Option String) : Prop where
  modifiedBy : ∀ name, modifiedBy = some name → CalledBy run imageType name
  createdBy : ∀ name, createdBy = some name → CalledBy run imageType name ∨ GivenAsCreator run imageType name

/-- An entry that a call signs has its user as the modifier. For the creator a store may put the user too. -/
theorem Change.Signs.accountedFor {calls : List Change} {c : Change} {imageType : String} {user : Option String}
    {e : Entry} (h : c.Signs imageType user e) (hc : c ∈ calls) {createdBy : Option String}
    (hcreated : createdBy = e.createdBy ∨ createdBy = user) : AccountedFor calls imageType createdBy user := by
  have huser : ∀ name, user = some name → CalledBy calls imageType name := by
    rintro name rfl
    exact ⟨c, hc, h.isCall⟩
  refine ⟨huser, fun name hname => ?_⟩
  rcases hcreated with rfl | rfl
  · cases h with
    | create _ hcreated _ => exact .inl (huser name (hcreated.symm.trans hname))
    | update hgiven hcreated _ => exact .inr ⟨_, user, hc, _, hgiven, hcreated.symm.trans hname⟩
  · exact .inl (huser name hname)

/-- In either store and in every run of changes from a store without plans on, whatever names their drafts
    give: who modified an entry of a stored plan is always a user of the run who called for a plan of that
    image type, and who created it is one too, or was given as its creator by a change of such a plan. -/
theorem stored_names_are_accounted_for :
    (∀ (m : Memory) (run : List Change), m.plans = [] →
      ∀ p ∈ (m.follow (run.map .change)).plans, ∀ e ∈ p.entries,
        AccountedFor run p.imageType e.createdBy e.modifiedBy) ∧
    ∀ (s s' : Session) (run : List Change), s.Keyed → s.committed.plans = [] →
      Database.Leads s (run.map .change) s' →
      ∀ row ∈ s'.committed.plans, ∀ share ∈ s'.committed.shares, share.plan = row.number →
        AccountedFor run row.imageType share.createdBy share.modifiedBy := by
  constructor
  · intro m run hm p hp e he
    have hempty : m.Filed := fun p hp => by
      rw [hm] at hp
      cases hp
    rw [Memory.filed_follow hempty _ p hp]
    obtain ⟨user, hwritten⟩ := Memory.traced_follow hm _ p hp e he
    obtain ⟨c, hc, hsigns⟩ := Change.exists_signs_of_written hwritten
    rw [hsigns.modifiedBy]
    exact hsigns.accountedFor hc (.inl rfl)
  · intro s s' run hs hplans hleads row hrow share hshare hplan
    obtain ⟨user, e, hwritten, hcreated, hmodified⟩ := hleads.traced hs hplans row hrow share hshare hplan
    obtain ⟨c, hc, hsigns⟩ := Change.exists_signs_of_written hwritten
    rw [hcreated, hmodified, hsigns.modifiedBy, nameOr_self]
    exact hsigns.accountedFor hc (nameOr_eq_or e.createdBy user)

/-- The sample draft with a creator for every entry. -/
def forgedDraft : PlanDraft :=
  { sampleDraft with entries := sampleDraft.entries.map fun e => { e with createdBy := some "mallory" } }

/-- Alice makes a plan, and then gives it the entries of that draft. -/
def forgedRun : List Change :=
  [.addType "spark" none, .create sampleDraft (some "alice"), .update "spark" forgedDraft (some "alice")]

def forgedMemory : Memory :=
  Memory.follow {} (forgedRun.map .change)

def forgedSession : Session :=
  (forgedRun.map Operation.change).foldl (fun s op => (op.onDatabase.run s).state) (.start {} none)

theorem leads_forgedSession : Database.Leads (.start {} none) (forgedRun.map .change) forgedSession :=
  ((Database.Leads.done.operation _).operation _).operation _

theorem exists_forged_entry :
    ∃ p ∈ forgedMemory.plans, ∃ e ∈ p.entries, e.createdBy = some "mallory" ∧ e.modifiedBy = some "alice" := by
  decide_cbv

theorem exists_forged_share :
    ∃ row ∈ forgedSession.committed.plans, ∃ share ∈ forgedSession.committed.shares, share.plan = row.number ∧
      share.createdBy = some "mallory" ∧ share.modifiedBy = some "alice" := by
  have hplans : forgedSession.committed.plans =
      [⟨0, "spark", "spark rampup", none, true, some "alice", some "alice"⟩] := by decide_cbv
  have hshares : forgedSession.committed.shares =
      [⟨0, 0, "1.0", 0, "unstable", some "mallory", some "alice"⟩,
        ⟨0, 1, "2.0", 60, "stable", some "mallory", some "alice"⟩,
        ⟨0, 2, "1.1", 40, "experimental", some "mallory", some "alice"⟩] := by decide_cbv
  rw [hplans, hshares]
  exact ⟨_, List.mem_cons_self, _, List.mem_cons_self, rfl, rfl, rfl⟩

theorem stored_names_are_accounted_for_sample :
    (∃ p ∈ forgedMemory.plans, ∃ e ∈ p.entries, e.createdBy = some "mallory" ∧ e.modifiedBy = some "alice" ∧
      AccountedFor forgedRun p.imageType e.createdBy e.modifiedBy) ∧
    ∃ row ∈ forgedSession.committed.plans, ∃ share ∈ forgedSession.committed.shares, share.plan = row.number ∧
      share.createdBy = some "mallory" ∧ share.modifiedBy = some "alice" ∧
      AccountedFor forgedRun row.imageType share.createdBy share.modifiedBy := by
  obtain ⟨hmemory, hdatabase⟩ := stored_names_are_accounted_for
  constructor
  · obtain ⟨p, hp, e, he, hcreated, hmodified⟩ := exists_forged_entry
    exact ⟨p, hp, e, he, hcreated, hmodified, hmemory {} forgedRun rfl p hp e he⟩
  · obtain ⟨row, hrow, share, hshare, hplan, hcreated, hmodified⟩ := exists_forged_share
    have hkeyed : (Session.start {} none).Keyed := ⟨{}, (Tables.Sound.empty .small).keyed, Session.rests_start _ none⟩
    exact ⟨row, hrow, share, hshare, hplan, hcreated, hmodified,
      hdatabase _ _ forgedRun hkeyed rfl leads_forgedSession row hrow share hshare hplan⟩

/-- A change of a plan keeps the creator that its entries give, so a name is stored that no user of the run
    has. -/
theorem given_creator_is_stored :
    ¬(∀ p ∈ forgedMemory.plans, ∀ e ∈ p.entries, ∀ name, e.createdBy = some name ∨ e.modifiedBy = some name →
      CalledBy forgedRun p.imageType name) ∧
    ¬∀ row ∈ forgedSession.committed.plans, ∀ share ∈ forgedSession.committed.shares, share.plan = row.number →
      ∀ name, share.createdBy = some name ∨ share.modifiedBy = some name → CalledBy forgedRun row.imageType name := by
  have hstranger : ∀ imageType, ¬CalledBy forgedRun imageType "mallory" := by
    intro imageType
    simp [CalledBy, forgedRun, Change.IsCall]
  constructor
  · obtain ⟨p, hp, e, he, hcreated, -⟩ := exists_forged_entry
    exact fun hclaim => hstranger p.imageType (hclaim p hp e he "mallory" (.inl hcreated))
  · obtain ⟨row, hrow, share, hshare, hplan, hcreated, -⟩ := exists_forged_share
    exact fun hclaim => hstranger row.imageType (hclaim row hrow share hshare hplan "mallory" (.inl hcreated))

end ImageRollout

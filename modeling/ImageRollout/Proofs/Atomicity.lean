import ImageRollout.Proofs.Reached

/-! Writes that fail. A database edits a draft between its statements, so it has begun to change when one
    of them is refused. Still a write that fails leaves the store as it was, whatever made it fail: the
    rules of plans, an unknown image type, a missing active plan, or a statement of the session up to and
    including its commit. After the commit there is one statement more, which reads a new plan again; where
    that one is refused the plan is stored. -/

namespace ImageRollout

/-- A write of a plan that fails leaves no trace, in whatever state the store is. After it the database
    holds the same tables, and its session has no draft of anything else. Only a plan that is stored and then
    refused when it is read again is there as a whole, though the call fails. -/
theorem failed_write_leaves_no_trace :
    (∀ m, Memory.Reached m → ∀ (draft : PlanDraft) (user : Option String) (f : Failure),
      (((Authoring.create Memory.writer draft user).run m).result = .error f →
        ((Authoring.create Memory.writer draft user).run m).state = m) ∧
      ∀ imageType, ((Authoring.update Memory.writer imageType draft user).run m).result = .error f →
        ((Authoring.update Memory.writer imageType draft user).run m).state = m) ∧
    ∀ s, Database.Reached s → ∀ (draft : PlanDraft) (user : Option String) (f : Failure),
      (((Authoring.create Database.writer draft user).run s).result = .error f →
        (¬f.IsUnread → ((Authoring.create Database.writer draft user).run s).state.Rests s.committed) ∧
        (f.IsUnread → ((Authoring.create Database.writer draft user).run s).state.Rests
          (s.committed.withPlan (draft.stampNew user).toNewPlan))) ∧
      ∀ imageType, ((Authoring.update Database.writer imageType draft user).run s).result = .error f →
        ((Authoring.update Database.writer imageType draft user).run s).state.Rests s.committed := by
  constructor
  · intro m _ draft user f
    constructor
    · exact (Memory.ends_create draft user m).failure f
    · intro imageType
      exact (Memory.ends_update imageType draft user m).failure f
  · intro s hs draft user f
    -- Between two operations the draft of a session is the tables.
    obtain ⟨t, -, hrests⟩ := hs.sound
    obtain rfl : s.committed = t := hrests.committed
    constructor
    · intro hfails
      rcases (Database.ends_create hrests draft user).failure f hfails with ⟨hread, hkept⟩ | ⟨-, hunread, -, hstored⟩
      · exact ⟨fun _ => hkept, fun hunread => absurd hunread hread⟩
      · exact ⟨fun hread => absurd hunread hread, fun _ => hstored⟩
    · intro imageType
      exact (Database.ends_update hrests imageType draft user).failure f

def refusingSession : Session :=
  .start sampleSession.committed (some ⟨.commit, 1, "store down"⟩)

def forgetfulSession : Session :=
  .start sampleSession.committed (some ⟨.refresh, 1, "connection lost"⟩)

theorem failed_write_leaves_no_trace_sample :
    (∃ f, ((Authoring.create Memory.writer { sampleDraft with entries := [] } none).run sampleMemory).result =
        .error f) ∧
      ((Authoring.create Memory.writer { sampleDraft with entries := [] } none).run sampleMemory).state = sampleMemory ∧
      ((Authoring.create Database.writer sampleDraft (some "bob")).run refusingSession).result =
        .error (.domain (.database "create rampup plan" "store down")) ∧
      ((Authoring.create Database.writer sampleDraft (some "bob")).run refusingSession).state.Rests
        sampleSession.committed ∧
      ((Authoring.create Database.writer sampleDraft (some "bob")).run forgetfulSession).result =
        .error (.misuse (.unread "connection lost")) ∧
      ((Authoring.create Database.writer sampleDraft (some "bob")).run forgetfulSession).state.Rests
        (sampleSession.committed.withPlan (sampleDraft.stampNew (some "bob")).toNewPlan) := by
  obtain ⟨hmemory, hdatabase⟩ := failed_write_leaves_no_trace
  have hinvalid : ((Authoring.create Memory.writer { sampleDraft with entries := [] } none).run sampleMemory).result =
      .error (.domain (.invalidPlan .empty)) := rfl
  have hrefused : ((Authoring.create Database.writer sampleDraft (some "bob")).run refusingSession).result =
      .error (.domain (.database "create rampup plan" "store down")) := by cbv
  have hunread : ((Authoring.create Database.writer sampleDraft (some "bob")).run forgetfulSession).result =
      .error (.misuse (.unread "connection lost")) := by cbv
  obtain ⟨hrests, -⟩ := (hdatabase refusingSession (reached_sampleSession.reopen _) sampleDraft (some "bob") _).1 hrefused
  obtain ⟨-, hstored⟩ := (hdatabase forgetfulSession (reached_sampleSession.reopen _) sampleDraft (some "bob") _).1 hunread
  exact ⟨⟨_, hinvalid⟩, (hmemory sampleMemory reached_sampleMemory _ none _).1 hinvalid, hrefused,
    hrests (Failure.not_isUnread_domain _), hunread, hstored ⟨_, rfl⟩⟩

end ImageRollout

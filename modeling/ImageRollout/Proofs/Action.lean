import ImageRollout.Action

/-! What actions come to. `Ends` says of an action in a state what each of its events is like, and what
    holds of its value or its failure and of the state it leaves behind. There is one rule for each way
    of putting actions together. -/

namespace ImageRollout.Action

variable {σ τ α β : Type}

theorem run_report_bind (events : List Event) (f : Unit → Action σ β) (s : σ) :
    (report events >>= f).run s = { (f ()).run s with events := events ++ ((f ()).run s).events } := rfl

@[simp] theorem run_onPart (part : τ → σ) (put : σ → τ → τ) (a : Action σ α) (t : τ) :
    (onPart part put a).run t =
      ⟨(a.run (part t)).result, (a.run (part t)).events, put (a.run (part t)).state t⟩ := rfl

theorem run_undoing_ok (undo : σ → σ) {a : Action σ α} {s : σ} {x : α} (h : (a.run s).result = .ok x) :
    (undoing undo a).run s = ⟨.ok x, (a.run s).events, (a.run s).state⟩ := by
  show undoing undo a s = _
  unfold undoing
  unfold run at *
  rcases ha : a s with ⟨r, events, t⟩
  rw [ha] at h
  cases h
  rfl

theorem run_undoing_error (undo : σ → σ) {a : Action σ α} {s : σ} {f : Failure} (h : (a.run s).result = .error f) :
    (undoing undo a).run s = ⟨.error f, (a.run s).events, undo (a.run s).state⟩ := by
  show undoing undo a s = _
  unfold undoing
  unfold run at *
  rcases ha : a s with ⟨r, events, t⟩
  rw [ha] at h
  cases h
  rfl

/-! ### Actions that end alike -/

theorem result_bind {a : Action σ α} {f : α → Action σ β} {g : α → β}
    (h : ∀ x t, ((f x).run t).result = .ok (g x)) (s : σ) : ((a >>= f).run s).result = (a.run s).result.map g := by
  cases hresult : (a.run s).result with
  | ok x =>
    rw [run_bind_ok hresult]
    exact h x _
  | error failure =>
    rw [run_bind_error hresult]
    rfl

/-- A value is that of the last action, from the value and the state that come before it. -/
theorem exists_of_bind_ok {a : Action σ α} {f : α → Action σ β} {s : σ} {y : β}
    (h : ((a >>= f).run s).result = .ok y) : ∃ x t, ((f x).run t).result = .ok y := by
  cases hresult : (a.run s).result with
  | ok x =>
    rw [run_bind_ok hresult] at h
    exact ⟨x, _, h⟩
  | error failure =>
    rw [run_bind_error hresult] at h
    cases h

theorem state_bind {a : Action σ α} {f : α → Action σ β} (h : ∀ x t, ((f x).run t).state = t) (s : σ) :
    ((a >>= f).run s).state = (a.run s).state := by
  cases hresult : (a.run s).result with
  | ok x =>
    rw [run_bind_ok hresult]
    exact h x _
  | error failure => rw [run_bind_error hresult]

/-- From every state that is as `P` says the action comes to one and the same result, and the state stays so. -/
def Uniform (P : σ → Prop) (a : Action σ α) : Prop :=
  ∃ r, ∀ s, P s → (a.run s).result = r ∧ P (a.run s).state

namespace Uniform

variable {P : σ → Prop}

theorem pure (x : α) : Uniform P (Pure.pure x : Action σ α) :=
  ⟨.ok x, fun _ hs => ⟨rfl, hs⟩⟩

theorem fail (f : Failure) : Uniform P (Action.fail f : Action σ α) :=
  ⟨.error f, fun _ hs => ⟨rfl, hs⟩⟩

theorem report (events : List Event) : Uniform P (Action.report events) :=
  ⟨.ok (), fun _ hs => ⟨rfl, hs⟩⟩

theorem read {f : σ → α} (x : α) (h : ∀ s, P s → f s = x) : Uniform P (Action.read f) :=
  ⟨.ok x, fun s hs => ⟨congrArg Except.ok (h s hs), hs⟩⟩

theorem change {f : σ → σ} (h : ∀ s, P s → P (f s)) : Uniform P (Action.change f) :=
  ⟨.ok (), fun s hs => ⟨rfl, h s hs⟩⟩

theorem bind {a : Action σ α} {f : α → Action σ β} (ha : Uniform P a) (hf : ∀ x, Uniform P (f x)) :
    Uniform P (a >>= f) := by
  obtain ⟨r, ha⟩ := ha
  cases r with
  | ok x =>
    obtain ⟨r, hx⟩ := hf x
    refine ⟨r, fun s hs => ?_⟩
    obtain ⟨hresult, hstate⟩ := ha s hs
    rw [run_bind_ok hresult]
    exact hx _ hstate
  | error f =>
    refine ⟨.error f, fun s hs => ?_⟩
    obtain ⟨hresult, hstate⟩ := ha s hs
    rw [run_bind_error hresult]
    exact ⟨rfl, hstate⟩

theorem onPart {part : τ → σ} {put : σ → τ → τ} (hput : ∀ s t, part (put s t) = s) {a : Action σ α}
    (ha : Uniform P a) : Uniform (fun t => P (part t)) (Action.onPart part put a) := by
  obtain ⟨r, ha⟩ := ha
  refine ⟨r, fun t ht => ?_⟩
  obtain ⟨hresult, hstate⟩ := ha (part t) ht
  have hkept : P (part (put (a.run (part t)).state t)) := by
    rw [hput]
    exact hstate
  exact ⟨hresult, hkept⟩

end Uniform

/-! ### The ends of actions -/

/-- How an action ends in a state. -/
structure Ends (a : Action σ α) (s : σ) (onEvent : Event → Prop) (onValue : α → σ → Prop)
    (onFailure : Failure → σ → Prop) : Prop where
  events : ∀ e ∈ (a.run s).events, onEvent e
  value : ∀ x, (a.run s).result = .ok x → onValue x (a.run s).state
  failure : ∀ f, (a.run s).result = .error f → onFailure f (a.run s).state

namespace Ends

variable {s : σ} {onEvent : Event → Prop} {onFailure : Failure → σ → Prop}

theorem mono {a : Action σ α} {onValue onValue' : α → σ → Prop} {onEvent' : Event → Prop}
    {onFailure' : Failure → σ → Prop} (h : Ends a s onEvent onValue onFailure)
    (he : ∀ e, onEvent e → onEvent' e) (hv : ∀ x t, onValue x t → onValue' x t)
    (hf : ∀ f t, onFailure f t → onFailure' f t) : Ends a s onEvent' onValue' onFailure' where
  events e hmem := he e (h.events e hmem)
  value x hx := hv x _ (h.value x hx)
  failure f hfail := hf f _ (h.failure f hfail)

theorem state {a : Action σ α} {p : σ → Prop} (h : Ends a s onEvent (fun _ => p) fun _ => p) : p (a.run s).state := by
  rcases hresult : (a.run s).result with f | x
  · exact h.failure f hresult
  · exact h.value x hresult

/-- A result that the ends of an action leave no other choice for. -/
theorem result_eq {a : Action σ α} {r : Except Failure α}
    (h : Ends a s onEvent (fun x _ => r = .ok x) fun f _ => r = .error f) : (a.run s).result = r := by
  cases hresult : (a.run s).result with
  | ok x => exact (h.value x hresult).symm
  | error f => exact (h.failure f hresult).symm

theorem pure {onValue : α → σ → Prop} {x : α} (h : onValue x s) :
    Ends (Pure.pure x : Action σ α) s onEvent onValue onFailure where
  events _ hmem := by cases hmem
  value y hy := by
    cases hy
    exact h
  failure _ hfail := by cases hfail

theorem fail {onValue : α → σ → Prop} {f : Failure} (h : onFailure f s) :
    Ends (Action.fail f : Action σ α) s onEvent onValue onFailure where
  events _ hmem := by cases hmem
  value _ hx := by cases hx
  failure g hg := by
    cases hg
    exact h

theorem read {onValue : α → σ → Prop} {f : σ → α} (h : onValue (f s) s) :
    Ends (Action.read f) s onEvent onValue onFailure where
  events _ hmem := by cases hmem
  value x hx := by
    cases hx
    exact h
  failure _ hfail := by cases hfail

theorem change {onValue : Unit → σ → Prop} {f : σ → σ} (h : onValue () (f s)) :
    Ends (Action.change f) s onEvent onValue onFailure where
  events _ hmem := by cases hmem
  value _ _ := h
  failure _ hfail := by cases hfail

theorem bind {a : Action σ α} {f : α → Action σ β} (onMiddle : α → σ → Prop) {onValue : β → σ → Prop}
    (ha : Ends a s onEvent onMiddle onFailure)
    (hf : ∀ x t, onMiddle x t → Ends (f x) t onEvent onValue onFailure) :
    Ends (a >>= f) s onEvent onValue onFailure := by
  rcases h : (a.run s).result with e | x
  · have hrun := run_bind_error (f := f) h
    refine ⟨fun ev hev => ?_, fun y hy => ?_, fun g hg => ?_⟩
    · rw [hrun] at hev
      exact ha.events ev hev
    · rw [hrun] at hy
      cases hy
    · rw [hrun] at hg ⊢
      cases hg
      exact ha.failure e h
  · have hrun := run_bind_ok (f := f) h
    have hnext := hf x _ (ha.value x h)
    refine ⟨fun ev hev => ?_, fun y hy => ?_, fun g hg => ?_⟩
    · rw [hrun] at hev
      rcases List.mem_append.mp hev with hev | hev
      · exact ha.events ev hev
      · exact hnext.events ev hev
    · rw [hrun] at hy ⊢
      exact hnext.value y hy
    · rw [hrun] at hg ⊢
      exact hnext.failure g hg

theorem read_bind {f : σ → α} {g : α → Action σ β} {onValue : β → σ → Prop}
    (h : Ends (g (f s)) s onEvent onValue onFailure) : Ends (Action.read f >>= g) s onEvent onValue onFailure :=
  ⟨h.events, h.value, h.failure⟩

theorem change_bind {f : σ → σ} {g : Unit → Action σ β} {onValue : β → σ → Prop}
    (h : Ends (g ()) (f s) onEvent onValue onFailure) : Ends (Action.change f >>= g) s onEvent onValue onFailure :=
  ⟨h.events, h.value, h.failure⟩

theorem report_bind {events : List Event} {g : Unit → Action σ β} {onValue : β → σ → Prop}
    (he : ∀ e ∈ events, onEvent e) (h : Ends (g ()) s onEvent onValue onFailure) :
    Ends (Action.report events >>= g) s onEvent onValue onFailure where
  events e hmem := (List.mem_append.mp hmem).elim (he e) (h.events e)
  value := h.value
  failure := h.failure

/-- Undoing changes the state that a failure leaves behind. -/
theorem undoing {undo : σ → σ} {a : Action σ α} {onValue : α → σ → Prop}
    (h : Ends a s onEvent onValue fun f t => onFailure f (undo t)) :
    Ends (Action.undoing undo a) s onEvent onValue onFailure := by
  rcases hresult : (a.run s).result with f | x
  · have hrun := run_undoing_error undo hresult
    refine ⟨fun e he => ?_, fun y hy => ?_, fun g hg => ?_⟩
    · rw [hrun] at he
      exact h.events e he
    · rw [hrun] at hy
      cases hy
    · rw [hrun] at hg ⊢
      cases hg
      exact h.failure f hresult
  · have hrun := run_undoing_ok undo hresult
    refine ⟨fun e he => ?_, fun y hy => ?_, fun g hg => ?_⟩
    · rw [hrun] at he
      exact h.events e he
    · rw [hrun] at hy ⊢
      cases hy
      exact h.value x hresult
    · rw [hrun] at hg
      cases hg

theorem onPart {part : τ → σ} {put : σ → τ → τ} {a : Action σ α} {t : τ} {onValue : α → τ → Prop}
    {onFailure : Failure → τ → Prop}
    (h : Ends a (part t) onEvent (fun x s => onValue x (put s t)) fun f s => onFailure f (put s t)) :
    Ends (Action.onPart part put a) t onEvent onValue onFailure :=
  ⟨h.events, h.value, h.failure⟩

end Ends

end ImageRollout.Action

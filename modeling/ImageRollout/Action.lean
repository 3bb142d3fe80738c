import ImageRollout.Journal

/-! Actions: what operations do to a state. An action ends in a value or in a failure. It reports
    events and leaves a state behind, also where it fails. -/

namespace ImageRollout

/-- What an action comes to. -/
structure Effect (σ α : Type) where
  result : Except Failure α
  events : List Event
  state : σ

def Action (σ α : Type) : Type := σ → Effect σ α

namespace Action

variable {σ τ α β : Type}

def run (a : Action σ α) (s : σ) : Effect σ α := a s

/-- One action after another. What comes after a failure is left out. -/
def bind (a : Action σ α) (f : α → Action σ β) : Action σ β := fun s =>
  match a s with
  | ⟨.ok x, events, s⟩ =>
    let next := f x s
    ⟨next.result, events ++ next.events, next.state⟩
  | ⟨.error e, events, s⟩ => ⟨.error e, events, s⟩

instance : Monad (Action σ) where
  pure x := fun s => ⟨.ok x, [], s⟩
  bind := bind

def fail (failure : Failure) : Action σ α := fun s => ⟨.error failure, [], s⟩

def report (events : List Event) : Action σ Unit := fun s => ⟨.ok (), events, s⟩

def read (f : σ → α) : Action σ α := fun s => ⟨.ok (f s), [], s⟩

def change (f : σ → σ) : Action σ Unit := fun s => ⟨.ok (), [], f s⟩

/-- Goes on with a value, or fails. -/
def ofExcept : Except Failure α → Action σ α
  | .ok x => pure x
  | .error failure => fail failure

/-- Undoes something where the action fails. -/
def undoing (undo : σ → σ) (a : Action σ α) : Action σ α := fun s =>
  match a s with
  | ⟨.ok x, events, s⟩ => ⟨.ok x, events, s⟩
  | ⟨.error e, events, s⟩ => ⟨.error e, events, undo s⟩

/-- Turns a domain failure into a value. -/
def domainResult (a : Action σ α) : Action σ (Except DomainFailure α) := fun s =>
  match a s with
  | ⟨.ok x, events, s⟩ => ⟨.ok (.ok x), events, s⟩
  | ⟨.error (.domain failure), events, s⟩ => ⟨.ok (.error failure), events, s⟩
  | ⟨.error failure, events, s⟩ => ⟨.error failure, events, s⟩

def onPart (part : τ → σ) (put : σ → τ → τ) (a : Action σ α) : Action τ α := fun t =>
  let effect := a (part t)
  ⟨effect.result, effect.events, put effect.state t⟩

@[simp] theorem run_pure (x : α) (s : σ) : (pure x : Action σ α).run s = ⟨.ok x, [], s⟩ := rfl

@[simp] theorem run_fail (failure : Failure) (s : σ) :
    (fail failure : Action σ α).run s = ⟨.error failure, [], s⟩ := rfl

@[simp] theorem run_report (events : List Event) (s : σ) : (report events).run s = ⟨.ok (), events, s⟩ := rfl

@[simp] theorem run_read (f : σ → α) (s : σ) : (read f).run s = ⟨.ok (f s), [], s⟩ := rfl

@[simp] theorem run_change (f : σ → σ) (s : σ) : (change f).run s = ⟨.ok (), [], f s⟩ := rfl

@[simp] theorem run_read_bind (f : σ → α) (g : α → Action σ β) (s : σ) :
    (read f >>= g).run s = (g (f s)).run s := rfl

@[simp] theorem run_change_bind (f : σ → σ) (g : Unit → Action σ β) (s : σ) :
    (change f >>= g).run s = (g ()).run (f s) := rfl

@[simp] theorem run_pure_bind (x : α) (g : α → Action σ β) (s : σ) :
    ((pure x : Action σ α) >>= g).run s = (g x).run s := rfl

@[simp] theorem run_fail_bind (failure : Failure) (g : α → Action σ β) (s : σ) :
    ((fail failure : Action σ α) >>= g).run s = ⟨.error failure, [], s⟩ := rfl

theorem run_bind_ok {a : Action σ α} {f : α → Action σ β} {s : σ} {x : α} (h : (a.run s).result = .ok x) :
    (a >>= f).run s =
      { (f x).run (a.run s).state with events := (a.run s).events ++ ((f x).run (a.run s).state).events } := by
  show bind a f s = _
  unfold bind
  unfold run at *
  rcases ha : a s with ⟨r, es, t⟩
  rw [ha] at h
  cases h
  rfl

theorem run_bind_error {a : Action σ α} {f : α → Action σ β} {s : σ} {e : Failure}
    (h : (a.run s).result = .error e) :
    (a >>= f).run s = ⟨.error e, (a.run s).events, (a.run s).state⟩ := by
  show bind a f s = _
  unfold bind
  unfold run at *
  rcases ha : a s with ⟨r, es, t⟩
  rw [ha] at h
  cases h
  rfl

end Action

end ImageRollout

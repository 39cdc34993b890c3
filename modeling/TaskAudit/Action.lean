import TaskAudit.Event

/-!
# Actions

An action works on a state: it answers with a value, leaves a state and tells
events. Actions follow one another in `do` notation, and an action on a part of a
state is one on the whole.
-/
namespace TaskAudit

/-- What an action leaves. -/
structure Effect (σ α : Type) where
  value : α
  state : σ
  events : List Event

/-- Something that works on a state of type `σ` and answers with an `α`. -/
def Action (σ α : Type) := σ → Effect σ α

namespace Action

variable {σ τ α β : Type}

def run (a : Action σ α) (s : σ) : Effect σ α := a s

protected def pure (x : α) : Action σ α := fun s => ⟨x, s, []⟩

/-- One action, then another that depends on its answer. -/
protected def bind (a : Action σ α) (f : α → Action σ β) : Action σ β := fun s =>
  let first := a s
  let second := f first.value first.state
  ⟨second.value, second.state, first.events ++ second.events⟩

instance : Monad (Action σ) where
  pure := Action.pure
  bind := Action.bind

def tell (e : Event) : Action σ Unit := fun s => ⟨(), s, [e]⟩

def note (n : Notice) : Action σ Unit := tell (.notice n)

def count (m : Measure) : Action σ Unit := tell (.measure m)

def get : Action σ σ := fun s => ⟨s, s, []⟩

def set (s : σ) : Action σ Unit := fun _ => ⟨(), s, []⟩

def onFst (a : Action σ α) : Action (σ × τ) α := fun s =>
  let e := a s.1
  ⟨e.value, (e.state, s.2), e.events⟩

def onSnd (a : Action τ α) : Action (σ × τ) α := fun s =>
  let e := a s.2
  ⟨e.value, (s.1, e.state), e.events⟩

@[simp]
theorem run_pure (x : α) (s : σ) : (pure x : Action σ α).run s = ⟨x, s, []⟩ := rfl

@[simp]
theorem run_bind (a : Action σ α) (f : α → Action σ β) (s : σ) :
    (a >>= f).run s =
      let first := a.run s
      let second := (f first.value).run first.state
      ⟨second.value, second.state, first.events ++ second.events⟩ := rfl

@[simp]
theorem run_note (n : Notice) (s : σ) : (note n).run s = ⟨(), s, [.notice n]⟩ := rfl

@[simp]
theorem run_count (m : Measure) (s : σ) : (count m).run s = ⟨(), s, [.measure m]⟩ := rfl

@[simp]
theorem run_get (s : σ) : (get : Action σ σ).run s = ⟨s, s, []⟩ := rfl

@[simp]
theorem run_onFst (a : Action σ α) (s : σ × τ) :
    (onFst a : Action (σ × τ) α).run s =
      ⟨(a.run s.1).value, ((a.run s.1).state, s.2), (a.run s.1).events⟩ := rfl

@[simp]
theorem run_onSnd (a : Action τ α) (s : σ × τ) :
    (onSnd a : Action (σ × τ) α).run s =
      ⟨(a.run s.2).value, (s.1, (a.run s.2).state), (a.run s.2).events⟩ := rfl

end Action

end TaskAudit

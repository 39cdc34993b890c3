import Mathlib
import TaskAudit.Proofs.Submission
import TaskAudit.Proofs.Trail.Chronology

/-!
# What a worker asks of handlers and of the trail

A worker follows one delivery after another. For each it calls the handler once, with the context
and the task of the delivery, and ends as the handler did. The trail is asked for two marks of the
task, one before the call and one after its result, if there is a trail and the task has an id.
What the trail answers is told, but makes no difference: the second mark is tried although the
first is refused, and the ending stays as it is. A handler may also panic, which ends the turn
without a second mark, or never end; then the worker begins no further turn.
-/
namespace TaskAudit

variable {σ η : Type}

def Handler.keeping (handler : Handler η) : Handler (η × List (Context × Task)) :=
  fun context task => (handler context task).keeping (context, task)

def Turn.keeping (turn : Turn η) : Turn (η × List (Context × Task)) where
  handler := Handler.keeping turn.handler
  startedAt := turn.startedAt
  finishedAt := turn.finishedAt
  context := turn.context
  task := turn.task

/-- Some turns, one after another, and how each of them ended that was begun. A panic of one is
caught before the next. -/
def Turn.endings (trail : Option (Trail σ)) :
    List (Turn η) → Action (σ × η) (List Ending)
  | [] => pure []
  | turn :: turns => do
    let ending ← turn.follow trail
    if ending = .never then return [ending]
    let rest ← endings trail turns
    return ending :: rest

/-- A trail with the writes that were tried, and handlers with their calls. -/
abbrev Followed (σ η : Type) := (σ × List Write) × (η × List (Context × Task))

/-- The trail and the handlers themselves. -/
def Followed.bare (s : Followed σ η) : σ × η := (s.1.1, s.2.1)

/-- What becomes of a mark that is due: without a trail or without an id it is not tried. -/
inductive Marks (trail : Option (Trail σ)) (id : Option String) (mark : String → Write) :
    σ × List Write → Effect (σ × List Write) Unit → Prop where
  | nowhere {s : σ × List Write} (h : trail = none ∨ id = none) : Marks trail id mark s ⟨(), s, []⟩
  | tried {own : Trail σ} {name : String} {t : σ} {ws : List Write}
    {e : Effect σ (Except Error Unit)} (htrail : trail = some own) (hid : id = some name)
    (he : e = (own.write (mark name)).run t) :
    Marks trail id mark (t, ws) ⟨(), (e.state, ws ++ [mark name]), (mark name).told e⟩

/-- What a turn does. The marks, the call between them and the events stand in their order. -/
inductive Follows (trail : Option (Trail σ)) (turn : Turn η) :
    Followed σ η → Effect (Followed σ η) Ending → Prop where
  | unfinished {t : σ × List Write} {h : η} {calls : List (Context × Task)}
    {opened : Effect (σ × List Write) Unit} {handled : Effect η Ending} {ending : Ending}
    (hopened : Marks trail turn.context.taskId (.started · turn.startedAt) t opened)
    (hhandled : handled = (turn.handler turn.context turn.task).run h)
    (hending : handled.value = ending) (hnone : ending = .never ∨ ∃ panic, ending = .panicked panic) :
    Follows trail turn (t, (h, calls))
      ⟨ending, (opened.state, (handled.state, calls ++ [(turn.context, turn.task)])),
        opened.events ++ handled.events⟩
  | succeeded {t : σ × List Write} {h : η} {calls : List (Context × Task)}
    {opened closed : Effect (σ × List Write) Unit} {handled : Effect η Ending}
    (hopened : Marks trail turn.context.taskId (.started · turn.startedAt) t opened)
    (hhandled : handled = (turn.handler turn.context turn.task).run h)
    (hending : handled.value = .succeeded)
    (hclosed : Marks trail turn.context.taskId (.completed · none turn.finishedAt) opened.state
      closed) :
    Follows trail turn (t, (h, calls))
      ⟨.succeeded, (closed.state, (handled.state, calls ++ [(turn.context, turn.task)])),
        opened.events ++ handled.events ++ closed.events⟩
  | failed {t : σ × List Write} {h : η} {calls : List (Context × Task)}
    {opened closed : Effect (σ × List Write) Unit} {handled : Effect η Ending} {text : String}
    (hopened : Marks trail turn.context.taskId (.started · turn.startedAt) t opened)
    (hhandled : handled = (turn.handler turn.context turn.task).run h)
    (hending : handled.value = .failed text)
    (hclosed : Marks trail turn.context.taskId (.failed · text turn.finishedAt) opened.state
      closed) :
    Follows trail turn (t, (h, calls))
      ⟨.failed text, (closed.state, (handled.state, calls ++ [(turn.context, turn.task)])),
        opened.events ++ handled.events ++ closed.events⟩

/-- What turns do, one after another, up to one that never ends. -/
inductive FollowsAll (trail : Option (Trail σ)) :
    List (Turn η) → Followed σ η → Effect (Followed σ η) (List Ending) → Prop where
  | nil {s : Followed σ η} : FollowsAll trail [] s ⟨[], s, []⟩
  | stuck {turn : Turn η} {turns : List (Turn η)} {s : Followed σ η}
    {last : Effect (Followed σ η) Ending} (hlast : Follows trail turn s last)
    (hnever : last.value = .never) :
    FollowsAll trail (turn :: turns) s ⟨[.never], last.state, last.events⟩
  | cons {turn : Turn η} {turns : List (Turn η)} {s : Followed σ η}
    {first : Effect (Followed σ η) Ending} {rest : Effect (Followed σ η) (List Ending)}
    (hfirst : Follows trail turn s first) (hends : first.value ≠ .never)
    (hrest : FollowsAll trail turns first.state rest) :
    FollowsAll trail (turn :: turns) s
      ⟨first.value :: rest.value, rest.state, first.events ++ rest.events⟩

theorem Trail.track_marks (trail : Option (Trail σ)) (id : Option String) (mark : String → Write)
    (s : σ × List Write) :
    Marks trail id mark s ((track (trail.map Trail.keeping) id mark).run s) := by
  obtain ⟨t, ws⟩ := s
  cases trail with
  | none => exact .nowhere (.inl rfl)
  | some own =>
      cases id with
      | none => exact .nowhere (.inr rfl)
      | some name =>
          simp only [track, Option.map_some, Action.run_bind, run_record_keeping, Action.run_pure,
            List.append_nil]
          exact .tried rfl rfl rfl

theorem Turn.follow_follows (trail : Option (Trail σ)) (turn : Turn η) (s : Followed σ η) :
    Follows trail turn s ((turn.keeping.follow (trail.map Trail.keeping)).run s) := by
  obtain ⟨t, h, calls⟩ := s
  have hopened := Trail.track_marks trail turn.context.taskId (Tracking.opening turn.startedAt) t
  have hclosed := fun outcome => Trail.track_marks trail turn.context.taskId
    (Tracking.closing outcome turn.finishedAt)
  simp only [follow, Tracking.run_follow, keeping, Handler.keeping, Action.run_keeping]
  cases hending : ((turn.handler turn.context turn.task).run h).value with
  | never => exact .unfinished hopened rfl hending (.inl rfl)
  | panicked panic => exact .unfinished hopened rfl hending (.inr ⟨panic, rfl⟩)
  | succeeded => exact .succeeded hopened rfl hending (hclosed .completed _)
  | failed text => exact .failed hopened rfl hending (hclosed (.failed text) _)

/-- The turns behind one that never ends are not begun. -/
theorem Turn.run_endings_cons (trail : Option (Trail σ)) (turn : Turn η) (turns : List (Turn η))
    (s : σ × η) :
    (endings trail (turn :: turns)).run s =
      let first := (turn.follow trail).run s
      if first.value = .never then ⟨[.never], first.state, first.events⟩
      else
        let rest := (endings trail turns).run first.state
        ⟨first.value :: rest.value, rest.state, first.events ++ rest.events⟩ := by
  simp only [endings, Action.run_bind]
  split_ifs with hnever
  · simp only [Action.run_pure, List.append_nil, hnever]
  · simp only [Action.run_bind, Action.run_pure, List.append_nil]

theorem Turn.endings_followsAll (trail : Option (Trail σ)) (turns : List (Turn η))
    (s : Followed σ η) :
    FollowsAll trail turns s
      ((endings (trail.map Trail.keeping) (turns.map keeping)).run s) := by
  induction turns generalizing s with
  | nil => exact .nil
  | cons turn turns ih =>
      have hfirst := turn.follow_follows trail s
      simp only [List.map_cons, run_endings_cons]
      split_ifs with hnever
      · exact .stuck hfirst hnever
      · exact .cons hfirst hnever (ih _)

def Effect.bare {α : Type} (e : Effect (Followed σ η) α) : Effect (σ × η) α :=
  ⟨e.value, e.state.bare, e.events⟩

@[simp] theorem Effect.state_bare {α : Type} (e : Effect (Followed σ η) α) :
    e.bare.state = e.state.bare := rfl

theorem Trail.run_track_bare (trail : Option (Trail σ)) (id : Option String)
    (mark : String → Write) (s : σ × List Write) :
    (track trail id mark).run s.1 =
      let e := (track (trail.map Trail.keeping) id mark).run s
      ⟨(), e.state.1, e.events⟩ := by
  obtain ⟨t, ws⟩ := s
  cases trail with
  | none => rfl
  | some own =>
      cases id with
      | none => rfl
      | some name =>
          simp only [track, Option.map_some, Action.run_bind, run_record, Action.run_pure]
          rfl

theorem Turn.run_follow_bare (trail : Option (Trail σ)) (turn : Turn η) (s : Followed σ η) :
    (turn.follow trail).run s.bare =
      ((turn.keeping.follow (trail.map Trail.keeping)).run s).bare := by
  simp only [follow, Tracking.run_follow, keeping, Handler.keeping, Action.run_keeping,
    Followed.bare, Trail.run_track_bare]
  cases ((turn.handler turn.context turn.task).run s.2.1).value.result? <;> rfl

theorem Turn.run_endings_bare (trail : Option (Trail σ)) (turns : List (Turn η))
    (s : Followed σ η) :
    (endings trail turns).run s.bare =
      ((endings (trail.map Trail.keeping) (turns.map keeping)).run s).bare := by
  induction turns generalizing s with
  | nil => rfl
  | cons turn turns ih =>
      simp only [List.map_cons, run_endings_cons, run_follow_bare, Effect.state_bare, ih]
      split_ifs with hnever hnever' hnever'
      · rfl
      · exact absurd hnever hnever'
      · exact absurd hnever' hnever
      · rfl

def Trail.tried (trail : Option (Trail σ)) (id : Option String) (mark : String → Write) :
    List Write :=
  match trail, id with
  | some _, some id => [mark id]
  | _, _ => []

theorem Trail.eq_of_mem_tried {trail : Option (Trail σ)} {id : Option String}
    {mark : String → Write} {w : Write} (h : w ∈ tried trail id mark) :
    ∃ name, id = some name ∧ w = mark name := by
  cases trail with
  | none => cases h
  | some own =>
      cases id with
      | none => cases h
      | some name => exact ⟨name, rfl, List.mem_singleton.mp h⟩

/-- The marks that are tried for a turn that ends in some way. -/
def Turn.marks (trail : Option (Trail σ)) (turn : Turn η) (ending : Ending) : List Write :=
  Trail.tried trail turn.context.taskId (.started · turn.startedAt) ++
    match ending with
    | .succeeded => Trail.tried trail turn.context.taskId (.completed · none turn.finishedAt)
    | .failed text => Trail.tried trail turn.context.taskId (.failed · text turn.finishedAt)
    | .panicked _ | .never => []

theorem Turn.taskId_of_mem_marks {trail : Option (Trail σ)} {turn : Turn η} {ending : Ending}
    {w : Write} (h : w ∈ turn.marks trail ending) :
    turn.context.taskId = some w.id := by
  have hmarked : ∀ {mark : String → Write}, (∀ name, (mark name).id = name) →
      w ∈ Trail.tried trail turn.context.taskId mark → turn.context.taskId = some w.id := by
    intro mark hmark hw
    obtain ⟨name, hid, rfl⟩ := Trail.eq_of_mem_tried hw
    rw [hid, hmark]
  rcases List.mem_append.mp h with h | h
  · exact hmarked (fun _ => rfl) h
  · cases ending with
    | succeeded | failed _ => exact hmarked (fun _ => rfl) h
    | panicked _ | never => cases h

theorem Turn.filter_marks (trail : Option (Trail σ)) (turn : Turn η) (ending : Ending)
    (id : String) :
    (turn.marks trail ending).filter (·.id = id) =
      if turn.context.taskId = some id then turn.marks trail ending else [] := by
  split_ifs with hid
  · refine List.filter_eq_self.mpr fun w hw => ?_
    have hown := taskId_of_mem_marks hw
    rw [hid] at hown
    exact decide_eq_true (Option.some.inj hown).symm
  · refine List.filter_eq_nil_iff.mpr fun w hw heq => hid ?_
    rw [taskId_of_mem_marks hw, of_decide_eq_true heq]

theorem Marks.writes {trail : Option (Trail σ)} {id : Option String} {mark : String → Write}
    {s : σ × List Write} {e : Effect (σ × List Write) Unit} (h : Marks trail id mark s e) :
    e.state.2 = s.2 ++ Trail.tried trail id mark := by
  cases h with
  | nowhere h =>
      rcases h with rfl | rfl
      · exact (List.append_nil _).symm
      · cases trail <;> exact (List.append_nil _).symm
  | tried htrail hid _ =>
      rw [htrail, hid]
      rfl

section

variable {trail : Option (Trail σ)} {turn : Turn η} {turns : List (Turn η)} {s : Followed σ η}

theorem Follows.calls {e : Effect (Followed σ η) Ending} (h : Follows trail turn s e) :
    e.state.2.2 = s.2.2 ++ [(turn.context, turn.task)] := by
  cases h <;> rfl

theorem Follows.writes {e : Effect (Followed σ η) Ending} (h : Follows trail turn s e) :
    e.state.1.2 = s.1.2 ++ turn.marks trail e.value := by
  unfold Turn.marks
  cases h with
  | unfinished hopened _ _ hnone =>
      rcases hnone with rfl | ⟨panic, rfl⟩
      · rw [hopened.writes, List.append_nil]
      · rw [hopened.writes, List.append_nil]
  | succeeded hopened _ _ hclosed => rw [hclosed.writes, hopened.writes, List.append_assoc]
  | failed hopened _ _ hclosed => rw [hclosed.writes, hopened.writes, List.append_assoc]

/-- All turns were begun, or the last that was never ends. -/
theorem FollowsAll.length {e : Effect (Followed σ η) (List Ending)}
    (h : FollowsAll trail turns s e) :
    e.value.length = turns.length ∨
      e.value.length ≤ turns.length ∧ e.value.getLast? = some .never := by
  induction h with
  | nil => exact .inl rfl
  | stuck _ _ => exact .inr ⟨Nat.le_add_left 1 _, rfl⟩
  | @cons turn turns s first rest _ _ _ ih =>
      rcases ih with hall | ⟨hle, hlast⟩
      · exact .inl (congrArg (· + 1) hall)
      · exact .inr ⟨Nat.succ_le_succ hle, by rw [List.getLast?_cons, hlast]; rfl⟩

theorem FollowsAll.calls {e : Effect (Followed σ η) (List Ending)}
    (h : FollowsAll trail turns s e) :
    e.state.2.2 =
      s.2.2 ++ (turns.take e.value.length).map fun turn => (turn.context, turn.task) := by
  induction h with
  | nil => exact (List.append_nil _).symm
  | stuck hlast _ => exact hlast.calls
  | cons hfirst _ _ ih =>
      rw [ih, hfirst.calls, List.append_assoc]
      rfl

theorem FollowsAll.writes {e : Effect (Followed σ η) (List Ending)}
    (h : FollowsAll trail turns s e) :
    e.state.1.2 = s.1.2 ++ (turns.zip e.value).flatMap fun p => p.1.marks trail p.2 := by
  induction h with
  | nil => exact (List.append_nil _).symm
  | stuck hlast hnever =>
      rw [hlast.writes, hnever]
      simp
  | cons hfirst _ _ ih =>
      rw [ih, hfirst.writes, List.append_assoc]
      rfl

end

theorem Turn.filter_flatMap_marks (trail : Option (Trail σ)) (id : String)
    (answered : List (Turn η × Ending)) :
    (answered.flatMap fun p => p.1.marks trail p.2).filter (·.id = id) =
      (answered.filter (·.1.context.taskId = some id)).flatMap fun p => p.1.marks trail p.2 := by
  induction answered with
  | nil => rfl
  | cons p answered ih =>
      rw [List.flatMap_cons, List.filter_append, ih, filter_marks, List.filter_cons]
      by_cases hid : p.1.context.taskId = some id
      · simp [hid]
      · simp [hid]

/-- Whatever the handlers do, whatever the trail answers, and whether there is one: turns do what
the rules above say, and keeping the calls changes nothing. All turns are begun, unless a handler
never ends. Each one that is begun leads to one call, with its own context and task, and to its
own marks; the marks of an id are those of the turns with that id. -/
theorem Turn.endings_follow (trail : Option (Trail σ)) (turns : List (Turn η)) (t : σ) (h : η) :
    let e := (endings (trail.map Trail.keeping) (turns.map keeping)).run ((t, []), (h, []))
    FollowsAll trail turns ((t, []), (h, [])) e ∧
      (endings trail turns).run (t, h) = e.bare ∧
      (e.value.length = turns.length ∨
        e.value.length ≤ turns.length ∧ e.value.getLast? = some .never) ∧
      e.state.2.2 =
        (turns.take e.value.length).map (fun turn => (turn.context, turn.task)) ∧
      e.state.1.2 = (turns.zip e.value).flatMap (fun p => p.1.marks trail p.2) ∧
      ∀ id, e.state.1.2.filter (·.id = id) =
        ((turns.zip e.value).filter (·.1.context.taskId = some id)).flatMap
          fun p => p.1.marks trail p.2 := by
  intro e
  have hfollows : FollowsAll trail turns ((t, []), (h, [])) e := endings_followsAll trail turns _
  have hbare : (endings trail turns).run (t, h) = e.bare :=
    run_endings_bare trail turns ((t, []), (h, []))
  have hwrites : e.state.1.2 = (turns.zip e.value).flatMap fun p => p.1.marks trail p.2 :=
    hfollows.writes
  refine ⟨hfollows, hbare, hfollows.length, hfollows.calls, hwrites, fun id => ?_⟩
  rw [hwrites, filter_flatMap_marks]

end TaskAudit

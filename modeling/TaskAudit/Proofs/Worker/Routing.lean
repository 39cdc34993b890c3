import Mathlib
import TaskAudit.Proofs.Named
import TaskAudit.Proofs.Trail.Noninterference
import TaskAudit.Worker.Routes

/-!
# Tasks go to the longest pattern

Of the patterns that a text begins with, no two are equally long, so there is one longest, and
it does not matter in which order a table is searched. A table keeps under each pattern what was
registered last. So which handler works on a task depends on nothing but the order of the
registrations under one pattern.
-/
namespace TaskAudit.Routes

variable {η ι : Type} {taskType pattern pattern' : String}

/-- A text takes more bytes than any other one that it begins with. -/
theorem utf8ByteSize_lt_of_begins (h : pattern.toList <+: pattern'.toList)
    (hne : pattern ≠ pattern') : pattern.utf8ByteSize < pattern'.utf8ByteSize := by
  obtain ⟨rest, hrest⟩ := h
  have hsplit : pattern' = pattern ++ String.ofList rest := by
    apply String.toList_injective
    rw [String.toList_append, String.toList_ofList, hrest]
  have hrest : String.ofList rest ≠ "" := by
    intro hempty
    rw [hempty, String.append_empty] at hsplit
    exact hne hsplit.symm
  have hpos : 0 < (String.ofList rest).utf8ByteSize :=
    Nat.pos_of_ne_zero (mt String.utf8ByteSize_eq_zero_iff.mp hrest)
  rw [hsplit, String.utf8ByteSize_append]
  omega

theorem Fits.eq_of_utf8ByteSize_eq (h : Fits pattern taskType) (h' : Fits pattern' taskType)
    (hsize : pattern.utf8ByteSize = pattern'.utf8ByteSize) : pattern = pattern' := by
  by_contra hne
  rcases List.prefix_or_prefix_of_prefix h h' with hprefix | hprefix
  · exact absurd hsize (utf8ByteSize_lt_of_begins hprefix hne).ne
  · exact absurd hsize (utf8ByteSize_lt_of_begins hprefix (Ne.symm hne)).ne'

/-- An entry of a table whose pattern the type begins with, and none of those is longer. -/
structure IsLongest (taskType : String) (table : Routes η) (p : String × Handler η) : Prop where
  mem : p ∈ table
  fits : Fits p.1 taskType
  le : ∀ q ∈ table, Fits q.1 taskType → q.1.utf8ByteSize ≤ p.1.utf8ByteSize

variable {table table' : Routes η} {p q : String × Handler η}

theorem IsLongest.unique (hdistinct : table.patterns.Nodup) (h : IsLongest taskType table p)
    (h' : IsLongest taskType table q) : p = q := by
  have hsize : p.1.utf8ByteSize = q.1.utf8ByteSize :=
    le_antisymm (h'.le p h.mem h.fits) (h.le q h'.mem h'.fits)
  have hpattern := h.fits.eq_of_utf8ByteSize_eq h'.fits hsize
  exact List.inj_on_of_nodup_map hdistinct h.mem h'.mem hpattern

theorem route_eq_none_iff : route taskType table = none ↔ ∀ p ∈ table, ¬ Fits p.1 taskType := by
  induction table with
  | nil => exact ⟨fun _ => nofun, fun _ => rfl⟩
  | cons p table ih =>
      rw [route, List.forall_mem_cons, ← ih]
      cases route taskType table with
      | none => simp
      | some q => simp [ite_eq_iff]

theorem IsLongest.of_fits (hfits : Fits q.1 taskType)
    (hle : ∀ r ∈ table, Fits r.1 taskType → r.1.utf8ByteSize ≤ q.1.utf8ByteSize) :
    IsLongest taskType (q :: table) q := by
  constructor
  · exact List.mem_cons_self
  · exact hfits
  · exact List.forall_mem_cons.mpr ⟨fun _ => le_rfl, hle⟩

theorem IsLongest.cons (h : IsLongest taskType table p)
    (hle : Fits q.1 taskType → q.1.utf8ByteSize ≤ p.1.utf8ByteSize) :
    IsLongest taskType (q :: table) p := by
  constructor
  · exact List.mem_cons_of_mem q h.mem
  · exact h.fits
  · exact List.forall_mem_cons.mpr ⟨hle, h.le⟩

theorem isLongest_of_route (h : route taskType table = some p) :
    IsLongest taskType table p := by
  induction table generalizing p with
  | nil => cases h
  | cons q table ih =>
      unfold route at h
      cases hroute : route taskType table with
      | none =>
          rw [hroute] at h
          obtain ⟨hfits, heq⟩ := Option.ite_none_right_eq_some.mp h
          cases heq
          apply IsLongest.of_fits hfits
          intro r hr hrfits
          exact absurd hrfits (route_eq_none_iff.mp hroute r hr)
      | some q' =>
          have hrest := ih hroute
          simp only [hroute] at h
          split_ifs at h with hlonger
          · cases h
            apply IsLongest.of_fits hlonger.1
            intro r hr hrfits
            exact (hrest.le r hr hrfits).trans hlonger.2.le
          · cases h
            apply hrest.cons
            intro hfits
            exact not_lt.mp fun hlt => hlonger ⟨hfits, hlt⟩

theorem route_eq_some_iff (hdistinct : table.patterns.Nodup) :
    route taskType table = some p ↔ IsLongest taskType table p := by
  refine ⟨isLongest_of_route, fun h => ?_⟩
  cases hroute : route taskType table with
  | none => exact absurd h.fits (route_eq_none_iff.mp hroute p h.mem)
  | some q => rw [(isLongest_of_route hroute).unique hdistinct h]

/-- A table may be searched in any order. -/
theorem route_perm (hdistinct : table.patterns.Nodup) (h : table.Perm table') :
    route taskType table' = route taskType table := by
  have hdistinct' : table'.patterns.Nodup := (h.map Prod.fst).nodup hdistinct
  have hlongest : ∀ p, IsLongest taskType table' p ↔ IsLongest taskType table p := by
    intro p
    have hmem : ∀ q, q ∈ table' ↔ q ∈ table := fun q => h.mem_iff.symm
    constructor
    · exact fun hp => ⟨(hmem p).mp hp.mem, hp.fits, fun q hq => hp.le q ((hmem q).mpr hq)⟩
    · exact fun hp => ⟨(hmem p).mpr hp.mem, hp.fits, fun q hq => hp.le q ((hmem q).mp hq)⟩
  ext p
  rw [route_eq_some_iff hdistinct', route_eq_some_iff hdistinct, hlongest]

theorem handler_perm (hdistinct : table.patterns.Nodup) (h : table.Perm table') :
    table'.handler = table.handler := by
  funext context task
  rw [handler, handler, route_perm hdistinct h]

/-- The table after some registrations, one after the other. The handlers go by names. -/
def registered (handlers : ι → Handler η) (regs : List (String × ι)) : Routes η :=
  regs.foldl (fun routes r => routes.register r.1 (handlers r.2)) []

/-- Does a name win a type: was it registered last under the longest pattern that the type
begins with? -/
structure Wins (regs : List (String × ι)) (taskType pattern : String) (name : ι) : Prop where
  fits : Fits pattern taskType
  longest : ∀ r ∈ regs, Fits r.1 taskType → r.1 ≠ pattern →
    r.1.utf8ByteSize < pattern.utf8ByteSize
  last : (regs.filter fun r => r.1 = pattern).getLast? = some (pattern, name)

variable {handlers : ι → Handler η} {regs regs' : List (String × ι)}

theorem registered_eq_ofList :
    registered handlers regs = Named.ofList (regs.map fun r => (r.1, handlers r.2)) := by
  rw [Named.ofList, List.foldl_map]
  rfl

theorem registered_distinct : (registered handlers regs).patterns.Nodup := by
  rw [registered_eq_ofList]
  exact (Named.isOrdered_ofList _).nodup

theorem mem_registered_iff :
    p ∈ registered handlers regs ↔
      ∃ name, (regs.filter fun r => r.1 = p.1).getLast? = some (p.1, name) ∧
        handlers name = p.2 := by
  rw [registered_eq_ofList, Named.mem_ofList_iff, List.filter_map, List.getLast?_map,
    Option.map_eq_some_iff]
  constructor
  · rintro ⟨⟨pattern, name⟩, hlast, heq⟩
    rw [← heq]
    exact ⟨name, by simpa [← heq] using hlast, rfl⟩
  · rintro ⟨name, hlast, heq⟩
    exact ⟨(p.1, name), hlast, Prod.ext rfl heq⟩

theorem exists_mem_registered (handlers : ι → Handler η) {r : String × ι} (h : r ∈ regs) :
    ∃ p ∈ registered handlers regs, p.1 = r.1 := by
  rw [registered_eq_ofList]
  exact Named.exists_mem_ofList (List.mem_map_of_mem h)

theorem registered_perm
    (h : ∀ pattern, regs'.filter (fun r => r.1 = pattern) = regs.filter fun r => r.1 = pattern) :
    (registered handlers regs).Perm (registered handlers regs') := by
  rw [registered_eq_ofList, registered_eq_ofList]
  apply Named.ofList_perm
  intro pattern
  rw [List.filter_map, List.filter_map]
  exact congrArg _ (h pattern).symm

theorem IsLongest.exists_wins (h : IsLongest taskType (registered handlers regs) p) :
    ∃ name, Wins regs taskType p.1 name ∧ handlers name = p.2 := by
  obtain ⟨name, hlast, hname⟩ := mem_registered_iff.mp h.mem
  refine ⟨name, ?_, hname⟩
  constructor
  case fits => exact h.fits
  case last => exact hlast
  case longest =>
    intro r hr hfits hne
    obtain ⟨q, hq, heq⟩ := exists_mem_registered handlers hr
    rw [← heq] at hfits hne ⊢
    have hle := h.le q hq hfits
    exact lt_of_le_of_ne hle fun hsize => hne (hfits.eq_of_utf8ByteSize_eq h.fits hsize)

theorem Wins.mem {name : ι} (h : Wins regs taskType pattern name) : (pattern, name) ∈ regs :=
  List.mem_of_mem_filter (List.mem_of_getLast? h.last)

theorem Wins.unique {name name' : ι} (h : Wins regs taskType pattern name)
    (h' : Wins regs taskType pattern' name') : pattern = pattern' ∧ name = name' := by
  have hpattern : pattern = pattern' := by
    by_contra hne
    have hlt := h'.longest _ h.mem h.fits hne
    have hgt := h.longest _ h'.mem h'.fits (Ne.symm hne)
    exact lt_asymm hlt hgt
  subst hpattern
  have hlast := Option.some.inj (h.last.symm.trans h'.last)
  exact ⟨rfl, (Prod.mk.inj hlast).2⟩

/-- Who works on a type of tasks: the name that wins it, or nobody if no pattern fits. -/
inductive Routed (regs : List (String × ι)) (taskType : String) : Option ι → Prop where
  | won {pattern name} (h : Wins regs taskType pattern name) : Routed regs taskType (some name)
  | unrouted (h : ∀ r ∈ regs, ¬ Fits r.1 taskType) : Routed regs taskType none

def served (handlers : ι → Handler η) : Option ι → Handler η
  | some name => handlers name
  | none => fun _ task => pure (.failed (Error.handlerNotFound task.taskType).message)

theorem Routed.unique {winner winner' : Option ι} (h : Routed regs taskType winner)
    (h' : Routed regs taskType winner') : winner = winner' := by
  cases h with
  | won hwins =>
      cases h' with
      | won hwins' => rw [(hwins.unique hwins').2]
      | unrouted hnone' => exact absurd hwins.fits (hnone' _ hwins.mem)
  | unrouted hnone =>
      cases h' with
      | won hwins' => exact absurd hwins'.fits (hnone _ hwins'.mem)
      | unrouted => rfl

theorem exists_routed (handlers : ι → Handler η) (regs : List (String × ι)) (task : Task) :
    ∃ winner, Routed regs task.taskType winner ∧ ∀ context,
      (registered handlers regs).handler context task = served handlers winner context task := by
  unfold handler
  cases hroute : route task.taskType (registered handlers regs) with
  | none =>
      refine ⟨none, .unrouted fun r hr => ?_, fun context => rfl⟩
      obtain ⟨q, hq, heq⟩ := exists_mem_registered handlers hr
      rw [← heq]
      exact route_eq_none_iff.mp hroute q hq
  | some p =>
      obtain ⟨name, hwins, hname⟩ := (isLongest_of_route hroute).exists_wins
      refine ⟨some name, .won hwins, fun context => ?_⟩
      rw [served, hname]

/-- However the table is ordered, and in whatever order different patterns were registered, it
does with a task what the one that works on its type does. -/
theorem Routed.handler_eq {task : Task} {winner : Option ι}
    (h : Routed regs task.taskType winner)
    (hregs : ∀ pattern,
      regs'.filter (fun r => r.1 = pattern) = regs.filter fun r => r.1 = pattern)
    (htable : table.Perm (registered handlers regs')) (context : Context) :
    table.handler context task = served handlers winner context task := by
  obtain ⟨winner', hwinner', hserved⟩ := exists_routed handlers regs task
  obtain rfl := hwinner'.unique h
  rw [← hserved context]
  have hperm := (registered_perm hregs).trans htable.symm
  rw [handler_perm registered_distinct hperm]

/-- Handlers whose calls are kept, each under its name. -/
def noted (handlers : ι → Handler η) (name : ι) : Handler (η × List (ι × Context × Task)) :=
  Script.noting name (handlers name)

/-- A task goes to the handler that was registered last under the longest pattern that its type
begins with: this one is called once, with the context and the task, and no other is. Without
such a pattern none is called and the task fails. The choice is the same in whatever order
different patterns were registered and however the table is ordered. -/
theorem longest_pattern_is_called (handlers : ι → Handler η) {regs regs' : List (String × ι)}
    (hregs : ∀ pattern,
      regs'.filter (fun r => r.1 = pattern) = regs.filter fun r => r.1 = pattern) (task : Task) :
    ∃ winner, Routed regs task.taskType winner ∧ ∀ context,
      (∀ table : Routes η, table.Perm (registered handlers regs') →
        table.handler context task = served handlers winner context task) ∧
      ∀ (table : Routes (η × List (ι × Context × Task))) (s : η)
        (calls : List (ι × Context × Task)), table.Perm (registered (noted handlers) regs') →
        let e := (served handlers winner context task).run s
        (table.handler context task).run (s, calls) =
          ⟨e.value, (e.state, calls ++ winner.toList.map fun name => (name, context, task)),
            e.events⟩ := by
  obtain ⟨winner, hwinner, -⟩ := exists_routed handlers regs task
  refine ⟨winner, hwinner, fun context => ⟨fun table htable => ?_, fun table s calls htable => ?_⟩⟩
  · exact hwinner.handler_eq hregs htable context
  · rw [hwinner.handler_eq hregs htable context]
    cases winner with
    | none =>
        rw [Option.toList_none, List.map_nil, List.append_nil]
        rfl
    | some name => rfl

theorem longest_pattern_is_called_of_reset :
    let regs := [("email:", 0), ("email:welcome", 1), ("email:", 2), ("", 3)]
    let regs' := [("", 3), ("email:", 0), ("email:", 2), ("email:welcome", 1)]
    let handlers : ℕ → Handler ℕ := fun name _ _ s => ⟨.succeeded, s + name, []⟩
    let task : Task := ⟨"email:reset", "".toUTF8⟩
    let table : Routes (ℕ × List (ℕ × Context × Task)) :=
      (registered (noted handlers) regs').reverse
    (∀ pattern, regs'.filter (fun r => r.1 = pattern) = regs.filter fun r => r.1 = pattern) ∧
      (table.handler {} task).run (5, []) =
        ⟨.succeeded, (7, [(2, {}, task)]), []⟩ := by
  intro regs regs' handlers task table
  have hregs : ∀ pattern,
      regs'.filter (fun r => r.1 = pattern) = regs.filter fun r => r.1 = pattern := by
    intro pattern
    by_cases hempty : "" = pattern
    · subst hempty
      decide +kernel
    by_cases hemail : "email:" = pattern
    · subst hemail
      decide +kernel
    simp only [regs, regs', List.filter_cons, hempty, hemail, decide_false, Bool.false_eq_true,
      if_false]
  have hwins : Wins regs task.taskType "email:" 2 := by
    constructor <;> decide +kernel
  obtain ⟨winner, hwinner, hcalled⟩ := longest_pattern_is_called handlers hregs task
  obtain rfl := hwinner.unique (.won hwins)
  exact ⟨hregs, (hcalled {}).2 table 5 [] (List.reverse_perm _)⟩

end TaskAudit.Routes

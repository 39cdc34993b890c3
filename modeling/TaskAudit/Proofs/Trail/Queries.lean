import TaskAudit.Proofs.Trail.Numbering
import TaskAudit.Proofs.Trail.Statements
import TaskAudit.Trail.Table

/-!
# What the trail asks its database

Every operation of the trail sends one query. The text depends on the operation and on which
filters are given, but on no value. Each value has its mark, in the order of the values, and
with the values in these places the text says what the operation is meant to do.
-/
namespace TaskAudit

open Sql

namespace Dialect

/-- A text has the marks of `n` values, each once and in their order, and between them nothing
that could be a part of a mark. -/
def HasMarks (d : Dialect) (n : Nat) (text : String) : Prop :=
  ∃ pieces : List (List Char), pieces.length = n + 1 ∧
    (∀ piece ∈ pieces, ∀ c ∈ piece, c ≠ '?' ∧ IsPlain c) ∧ text.toList = d.withMarks 0 pieces

theorem hasMarks_express (d : Dialect) {template : String} {ts : List Token} {n : Nat}
    (h : Spells 0 template.toList ts n) : d.HasMarks n (d.express template) := by
  obtain ⟨pieces, hlength, hpieces, htext⟩ := exists_pieces template.toList
  have hcount := h.count_eq
  have hunmarked : ∀ piece ∈ pieces, '?' ∉ piece := fun piece hpiece => (hpieces piece hpiece).1
  refine ⟨pieces, by omega, fun piece hpiece c hc => ?_, toList_express d htext hunmarked⟩
  exact ⟨ne_of_mem_of_not_mem hc (hunmarked piece hpiece),
    h.plain c ((hpieces piece hpiece).2 hc)⟩

end Dialect

namespace Sql

/-- What goes into a table or is compared with it: a given value, or the present time. -/
inductive Content where
  | given (v : Value)
  | now
  deriving DecidableEq, Repr

/-- What a term stands for. The first value has the number one. -/
def Term.fill (values : List Value) : Term → Option Content
  | .value 0 => none
  | .value (k + 1) => values[k]?.map .given
  | .now => some .now

def fillCells (values : List Value) (cells : List (String × Term)) :
    Option (List (String × Content)) :=
  cells.mapM fun c => (c.2.fill values).map fun x => (c.1, x)

/-- A command with its values in their places. -/
def Command.fill (values : List Value) : Command Term → Option (Command Content)
  | .insert table cells => do
    let cells ← fillCells values cells
    return .insert table cells
  | .update table cells conditions => do
    let cells ← fillCells values cells
    let conditions ← fillCells values conditions
    return .update table cells conditions
  | .select table columns conditions newest => do
    let conditions ← fillCells values conditions
    let newest ← newest.mapM fun c => (c.2.fill values).map fun x => (c.1, x)
    return .select table columns conditions newest

end Sql

/-- The database, which also notes the queries that it gets. -/
def Database.noted {δ : Type} (db : Database δ) : Database (δ × List Query) where
  execute q s :=
    let (reply, s') := db.execute q s.1
    (reply, s', s.2 ++ [q])
  select q s :=
    let (reply, s') := db.select q s.1
    (reply, s', s.2 ++ [q])

/-- A call of an operation of the trail. -/
inductive TrailCall where
  | write (w : Write)
  | get (id : String)
  | list (filter : Record.Filter) (limit : Int)
  deriving DecidableEq, Repr

namespace TrailCall

/-- The state that the call leaves. -/
def leaves {δ : Type} (db : Database δ) (settings : AuditTable.Settings) (s : δ) : TrailCall → δ
  | write w => ((AuditTable.write db settings w).run s).state
  | get id => ((AuditTable.get db settings id).run s).state
  | list filter limit => ((AuditTable.list db settings filter limit).run s).state

def query (d : Dialect) : TrailCall → Query
  | write w => .ofWrite d w
  | get id => .byId d id
  | list filter limit => .recent d filter limit

/-- The operation of a call, and which filters it gives. -/
inductive Form where
  | created
  | enqueued
  | started
  | completed
  | failed
  | get
  | list (byStatus byType : Bool)
  deriving DecidableEq, Repr

def form : TrailCall → Form
  | write (.created ..) => .created
  | write (.enqueued ..) => .enqueued
  | write (.started ..) => .started
  | write (.completed ..) => .completed
  | write (.failed ..) => .failed
  | get _ => .get
  | list filter _ => .list filter.status.isSome filter.taskType.isSome

def given (column value : String) : String × Content := (column, .given (.text value))

/-- The change of the record with an id. -/
def amendment (id : String) (cells : List (String × Content)) : Command Content :=
  .update "tasktrail_tasks" (cells ++ [("updated_at", .now)]) [given "id" id]

def selection (conditions : List (String × Content)) (newest : Option (String × Content)) :
    Command Content :=
  .select "tasktrail_tasks" ["id", "task_type", "queue", "payload_json", "status", "error_msg",
    "result_json", "created_at", "enqueued_at", "started_at", "finished_at"] conditions newest

/-- What the call is to do with the table. -/
def meant : TrailCall → Command Content
  | write (.created r) => .insert "tasktrail_tasks"
      [given "id" r.id, given "task_type" r.taskType, given "queue" r.queue,
        given "payload_json" r.payload, given "status" "created",
        given "created_at" r.createdAt.stored, ("updated_at", .now)]
  | write (.enqueued id queue time) => amendment id
      [given "status" "created", given "queue" queue, given "enqueued_at" time.stored]
  | write (.started id time) => amendment id
      [given "status" "in_progress", given "started_at" time.stored]
  | write (.completed id result time) => amendment id
      [given "status" "completed", ("result_json", .given (.ofOption result)),
        given "finished_at" time.stored]
  | write (.failed id message time) => amendment id
      [given "status" "failed", given "error_msg" message, given "finished_at" time.stored]
  | get id => selection [given "id" id] none
  | list filter limit => selection
      ((filter.status.map fun s => given "status" s.name).toList ++
        (filter.taskType.map (given "task_type")).toList)
      (some ("created_at", .given (.int limit)))

def Form.statement : Form → Statement
  | created => .insert [.id, .taskType, .queue, .payload, .status, .createdAt]
  | enqueued => .update [.status, .queue, .enqueuedAt]
  | started => .update [.status, .startedAt]
  | completed => .update [.status, .result, .finishedAt]
  | failed => .update [.status, .error, .finishedAt]
  | get => .fetch
  | list byStatus byType =>
    .list ((if byStatus then [.status] else []) ++ if byType then [.taskType] else [])

theorem Form.onTable (f : Form) : f.statement.OnTable := by
  cases f with
  | created => exact .insert (List.cons_ne_nil _ _)
  | enqueued => exact .update (List.cons_ne_nil _ _)
  | started => exact .update (List.cons_ne_nil _ _)
  | completed => exact .update (List.cons_ne_nil _ _)
  | failed => exact .update (List.cons_ne_nil _ _)
  | get => exact .fetch
  | list _ _ => exact .list _

section

variable (d : Dialect) (call : TrailCall)

def values : List Value := (call.query .positional).values

theorem query_eq : call.query d = ⟨d, call.form.statement, call.values⟩ := by
  cases call with
  | write w => cases w <;> rfl
  | get id => rfl
  | list filter limit =>
      obtain ⟨status, taskType⟩ := filter
      cases status <;> cases taskType <;> rfl

theorem length_values : call.values.length = call.form.statement.slots.length := by
  cases call with
  | write w => cases w <;> rfl
  | get id => rfl
  | list filter limit =>
      obtain ⟨status, taskType⟩ := filter
      cases status <;> cases taskType <;> rfl

theorem command_fill :
    ∃ command, call.form.statement.command = some command ∧
      command.fill call.values = some call.meant := by
  cases call with
  | write w => cases w <;> exact ⟨_, rfl, rfl⟩
  | get id => exact ⟨_, rfl, rfl⟩
  | list filter limit =>
      obtain ⟨status, taskType⟩ := filter
      cases status <;> cases taskType <;> exact ⟨_, rfl, rfl⟩

end

section

variable {δ : Type} (db : Database δ) (settings : AuditTable.Settings) (s : δ)
  (asked : List Query)

theorem write_asks (w : Write) :
    (leaves db.noted settings (s, asked) (.write w)).2 =
      asked ++ [.ofWrite settings.dialect w] := by
  unfold leaves
  simp only [AuditTable.write, Action.run_bind]
  cases ((AuditTable.execute db.noted settings (.ofWrite settings.dialect w)).run
    (s, asked)).value with
  | error e => rfl
  | ok rows =>
      cases w with
      | created r => rfl
      | _ => by_cases hrows : rows = 0 <;> simp only [hrows] <;> rfl

theorem leaves_asks (call : TrailCall) :
    (call.leaves db.noted settings (s, asked)).2 = asked ++ [call.query settings.dialect] := by
  cases call with
  | write w => exact write_asks db settings s asked w
  | get id =>
      unfold leaves
      simp only [AuditTable.get, Action.run_bind]
      cases ((AuditTable.select db.noted settings (.byId settings.dialect id)).run
        (s, asked)).value <;> rfl
  | list filter limit =>
      unfold leaves
      simp only [AuditTable.list, Action.run_bind]
      cases ((AuditTable.select db.noted settings (.recent settings.dialect filter limit)).run
        (s, asked)).value <;> rfl

end

/-- A call sends one query. In every dialect its text has a mark for every value, and one command
is read from all its texts; with the values in their places that is the command which is meant.
Calls of one form have one text. -/
theorem query_lines_up (call : TrailCall) :
    (∀ {δ : Type} (db : Database δ) (settings : AuditTable.Settings) (s : δ)
      (asked : List Query), (call.leaves db.noted settings (s, asked)).2 =
        asked ++ [call.query settings.dialect]) ∧
    (∀ d : Dialect, d.HasMarks (call.query d).values.length (call.query d).text) ∧
    (∃ command, ∀ d : Dialect, command? (tokens (call.query d).text) = some command ∧
      command.fill (call.query d).values = some call.meant) ∧
    ∀ other : TrailCall, other.form = call.form →
      ∀ d : Dialect, (other.query d).text = (call.query d).text := by
  refine ⟨fun db settings s asked => leaves_asks db settings s asked call, ?_, ?_, ?_⟩
  · intro d
    rw [query_eq, length_values]
    exact Dialect.hasMarks_express d (call.form.onTable.spells d)
  · obtain ⟨command, hcommand, hfill⟩ := call.command_fill
    refine ⟨command, fun d => ?_⟩
    rw [query_eq, call.form.onTable.command_text d, hcommand]
    exact ⟨rfl, hfill⟩
  · intro other hform d
    rw [query_eq, query_eq, hform]
    rfl

/-- The type that is asked for does not get into the text. -/
theorem query_lines_up_of_hostile :
    let plain := list ⟨none, some "mail"⟩ 20
    let hostile := list ⟨none, some "?, $1); DROP TABLE tasktrail_tasks; ?"⟩ (-1)
    hostile.form = plain.form ∧ ∀ d : Dialect, (hostile.query d).text = (plain.query d).text := by
  intro plain hostile
  exact ⟨rfl, (query_lines_up plain).2.2.2 hostile rfl⟩

end TrailCall

end TaskAudit

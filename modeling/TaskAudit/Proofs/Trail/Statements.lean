import TaskAudit.Proofs.Trail.Scan
import TaskAudit.Trail.Statement

/-!
# What the statements of the trail mean

A statement inserts a row, changes the rows that meet some conditions, or selects rows. It is
read from its text, with the number of a value wherever one of its marks stands, and means what
it says with the values in these places.
-/
namespace TaskAudit

namespace Sql

/-- What stands where a value is wanted: the value with a number, or the present time. -/
inductive Term where
  | value (k : Nat)
  | now
  deriving DecidableEq, Repr

/-- What is done with a table. A selection may be cut to the first rows in descending order of a
column. -/
inductive Command (τ : Type) where
  | insert (table : String) (cells : List (String × τ))
  | update (table : String) (cells conditions : List (String × τ))
  | select (table : String) (columns : List String) (conditions : List (String × τ))
    (newest : Option (String × τ))
  deriving DecidableEq, Repr

def term? : List Token → Option Term
  | [.mark k] => some (.value k)
  | [.word "CURRENT_TIMESTAMP"] => some .now
  | [.word "CAST", .sign '(', .word "NOW", .sign '(', .sign ')', .word "AS", .word "TEXT",
      .sign ')'] => some .now
  | _ => none

def name? : List Token → Option String
  | [.word s] => some s
  | _ => none

/-- A column, an equals sign and what stands for its value. -/
def equation? : List Token → Option (String × Term)
  | .word s :: .sign '=' :: ts => (term? ts).map fun t => (s, t)
  | _ => none

/-- The parts between the separators, each of which must be readable. -/
def parts {α : Type} (read : List Token → Option α) (separator : Token) (ts : List Token) :
    Option (List α) :=
  (ts.splitOn separator).mapM read

/-- The tokens before the first one like `t`, and that one and those behind it. -/
def before (t : Token) (ts : List Token) : List Token × List Token :=
  (ts.takeWhile (· ≠ t), ts.dropWhile (· ≠ t))

def conditions? : List Token → Option (List (String × Term))
  | [] => some []
  | .word "WHERE" :: ts => parts equation? (.word "AND") ts
  | _ => none

def newest? : List Token → Option (Option (String × Term))
  | [] => some none
  | .word "ORDER" :: .word "BY" :: .word s :: .word "DESC" :: .word "LIMIT" :: ts =>
    (term? ts).map fun t => some (s, t)
  | _ => none

/-- What is left of an insertion behind the opening bracket. -/
def insertion? (table : String) (ts : List Token) : Option (Command Term) :=
  match before (.sign ')') ts with
  | (names, .sign ')' :: .word "VALUES" :: .sign '(' :: ts) =>
    if ts.getLast? = some (.sign ')') then do
      let names ← parts name? (.sign ',') names
      let terms ← parts term? (.sign ',') ts.dropLast
      if names.length = terms.length then some (.insert table (names.zip terms)) else none
    else none
  | _ => none

/-- What is left of a change behind its first word. -/
def amendment? (table : String) (ts : List Token) : Option (Command Term) := do
  let (cells, rest) := before (.word "WHERE") ts
  let cells ← parts equation? (.sign ',') cells
  let conditions ← conditions? rest
  some (.update table cells conditions)

/-- What is left of a selection behind its first word. -/
def selection? (ts : List Token) : Option (Command Term) :=
  match before (.word "FROM") ts with
  | (names, .word "FROM" :: .word table :: ts) => do
    let (conditions, rest) := before (.word "ORDER") ts
    let names ← parts name? (.sign ',') names
    let conditions ← conditions? conditions
    let newest ← newest? rest
    some (.select table names conditions newest)
  | _ => none

/-- The command that a statement gives. -/
def command? : List Token → Option (Command Term)
  | .word "INSERT" :: .word "INTO" :: .word table :: .sign '(' :: ts => insertion? table ts
  | .word "UPDATE" :: .word table :: .word "SET" :: ts => amendment? table ts
  | .word "SELECT" :: ts => selection? ts
  | _ => none

section

variable (table : String) (ts : List Token)

theorem command?_insert : command? (.word "INSERT" :: .word "INTO" :: .word table ::
    .sign '(' :: ts) = insertion? table ts := rfl

theorem command?_update : command? (.word "UPDATE" :: .word table :: .word "SET" :: ts) =
    amendment? table ts := rfl

theorem command?_select : command? (.word "SELECT" :: ts) = selection? ts := rfl

end

section

variable {α : Type} {t u : Token} {ts us : List Token} {tss : List (List Token)}

theorem before_append (h : t ∉ ts) : before t (ts ++ t :: us) = (ts, t :: us) := by
  have hall : ∀ x ∈ ts, decide (x ≠ t) = true := by
    intro x hx
    rw [decide_eq_true_iff]
    rintro rfl
    exact h hx
  unfold before
  rw [List.takeWhile_append_of_pos hall, List.dropWhile_append_of_pos hall]
  simp

theorem notMem_intercalate (hne : t ≠ u) (h : ∀ ts ∈ tss, t ∉ ts) :
    t ∉ [u].intercalate tss := by
  induction tss with
  | nil => exact List.not_mem_nil
  | cons ts tss ih =>
      rw [List.forall_mem_cons] at h
      cases tss with
      | nil => simpa using h.1
      | cons ts' tss =>
          rw [List.intercalate_cons_cons, List.mem_append, List.mem_append, List.mem_singleton]
          rintro ((hmem | heq) | hmem)
          · exact h.1 hmem
          · exact hne heq
          · exact ih h.2 hmem

theorem parts_intercalate {read : List Token → Option α} {as : List α} (hne : tss ≠ [])
    (ht : ∀ ts ∈ tss, t ∉ ts) (h : tss.mapM read = some as) :
    parts read t ([t].intercalate tss) = some as := by
  unfold parts
  rw [List.splitOn_intercalate t ht hne]
  exact h

theorem mapM_map_eq_some {β γ : Type} {read : γ → Option α} (f : β → γ) (g : β → α)
    (h : ∀ b, read (f b) = some (g b)) (bs : List β) :
    (bs.map f).mapM read = some (bs.map g) := by
  induction bs with
  | nil => rfl
  | cons b bs ih => simp [h b, ih]

end

end Sql

open Sql
open Token (word sign mark)

theorem Column.name_spells (c : Column) (n : Nat) : Spells n c.name.toList [word c.name] n := by
  cases c <;> exact .unmarked (by decide) (by decide)

/-- The tokens of the present time. -/
def Dialect.nowTokens : Dialect → List Token
  | positional => [word "CURRENT_TIMESTAMP"]
  | numbered => [word "CAST", sign '(', word "NOW", sign '(', sign ')', word "AS",
      word "TEXT", sign ')']

theorem Dialect.now_spells (d : Dialect) (n : Nat) : Spells n d.now.toList d.nowTokens n := by
  cases d <;> exact .unmarked (by decide) (by decide)

namespace Statement

def nameTokens (cs : List Column) : List (List Token) := cs.map fun c => [word c.name]

/-- The marks of values, numbered from `n + 1` on. -/
def markTokens (n : Nat) (cs : List Column) : List (List Token) :=
  (cs.zipIdx (n + 1)).map fun p => [mark p.2]

def cellTokens (n : Nat) (cs : List Column) : List (List Token) :=
  (cs.zipIdx (n + 1)).map fun p => [word p.1.name, sign '=', mark p.2]

theorem names_spell (n : Nat) (cs : List Column) :
    SpellsEach n (cs.map Column.name) (nameTokens cs) n := by
  induction cs with
  | nil => exact .nil
  | cons c cs ih => exact .cons (c.name_spells n) ih

theorem marks_spell (n : Nat) (cs : List Column) :
    SpellsEach n (cs.map fun _ => "?") (markTokens n cs) (n + cs.length) := by
  induction cs generalizing n with
  | nil => exact .nil
  | cons c cs ih =>
      have hmark : Spells n "?".toList [mark (n + 1)] (n + 1) := Spells.mark
      rw [List.length_cons, Nat.add_comm cs.length, ← Nat.add_assoc]
      exact .cons hmark (ih (n + 1))

theorem cell_spells (n : Nat) (c : Column) :
    Spells n (c.name ++ " = ?").toList [word c.name, sign '=', mark (n + 1)] (n + 1) := by
  have hmark : Spells n ([] ++ ' ' :: ['?']) ([] ++ [mark (n + 1)]) (n + 1) :=
    Spells.nil.append_blank .mark
  have hsign : Spells n ([] ++ '=' :: ' ' :: ['?']) ([] ++ sign '=' :: [mark (n + 1)]) (n + 1) :=
    Spells.nil.append_sign (by decide) hmark
  rw [String.toList_append]
  exact (c.name_spells n).append_blank hsign

theorem cells_spell (n : Nat) (cs : List Column) :
    SpellsEach n (cs.map fun c => c.name ++ " = ?") (cellTokens n cs) (n + cs.length) := by
  induction cs generalizing n with
  | nil => exact .nil
  | cons c cs ih =>
      rw [List.length_cons, Nat.add_comm cs.length, ← Nat.add_assoc]
      exact .cons (cell_spells n c) (ih (n + 1))

theorem intercalate_concat {separator x : String} {xs : List String} (hne : xs ≠ []) :
    separator.intercalate (xs ++ [x]) = separator.intercalate xs ++ separator ++ x := by
  rw [← String.toList_inj]
  simp only [String.toList_append, String.toList_intercalate, List.map_append, List.map_cons,
    List.map_nil]
  induction xs with
  | nil => exact absurd rfl hne
  | cons y ys ih =>
      cases ys with
      | nil => simp
      | cons z zs =>
          rw [List.map_cons, List.map_cons, List.cons_append, List.cons_append,
            List.intercalate_cons_cons, List.intercalate_cons_cons, ← List.cons_append,
            ← List.map_cons, ih (List.cons_ne_nil z zs)]
          simp only [List.append_assoc]

section

variable (d : Dialect) {cs : List Column}

/-- The tokens of the columns that are read. -/
def readingTokens : List Token :=
  [word "SELECT"] ++ [sign ','].intercalate (nameTokens Column.selected) ++
    [word "FROM", word "tasktrail_tasks"]

def tokens (now : List Token) : Statement → List Token
  | insert cs =>
    [word "INSERT", word "INTO", word "tasktrail_tasks"] ++ sign '(' ::
      ([sign ','].intercalate (nameTokens cs ++ [[word "updated_at"]]) ++ sign ')' ::
        ([word "VALUES"] ++ sign '(' ::
          ([sign ','].intercalate (markTokens 0 cs ++ [now]) ++ sign ')' :: [])))
  | update cs =>
    [word "UPDATE", word "tasktrail_tasks", word "SET"] ++
      ([sign ','].intercalate (cellTokens 0 cs ++ [[word "updated_at", sign '='] ++ now]) ++
        ([word "WHERE"] ++ [word "id", sign '=', mark (cs.length + 1)]))
  | fetch => readingTokens ++ ([word "WHERE"] ++ [word "id", sign '=', mark 1])
  | list [] =>
    readingTokens ++ [word "ORDER", word "BY", word "created_at", word "DESC", word "LIMIT", mark 1]
  | list cs =>
    readingTokens ++ ([word "WHERE"] ++ ([word "AND"].intercalate (cellTokens 0 cs) ++
      [word "ORDER", word "BY", word "created_at", word "DESC", word "LIMIT",
        mark (cs.length + 1)]))
  | ping => []

theorem template_insert (now : String) (cs : List Column) :
    (insert cs).template now =
      "INSERT INTO " ++ table ++ " (" ++ names cs ++ ", updated_at)\n             VALUES (" ++
        ", ".intercalate (cs.map fun _ => "?") ++ ", " ++ now ++ ")" := rfl

theorem insert_spells (hne : cs ≠ []) :
    Spells 0 ((insert cs).template d.now).toList ((insert cs).tokens d.nowTokens) cs.length := by
  have hnames : SpellsEach 0 (cs.map Column.name ++ ["updated_at"])
      (nameTokens cs ++ [[word "updated_at"]]) 0 :=
    (names_spell 0 cs).append (.cons (.unmarked (by decide) (by decide)) .nil)
  have hterms : SpellsEach 0 (cs.map (fun _ => "?") ++ [d.now]) (markTokens 0 cs ++ [d.nowTokens])
      (0 + cs.length) :=
    (marks_spell 0 cs).append (.cons (d.now_spells _) .nil)
  have hhead : Spells 0 "INSERT INTO tasktrail_tasks ".toList
      [word "INSERT", word "INTO", word "tasktrail_tasks"] 0 :=
    .unmarked (by decide +kernel) (by decide +kernel)
  have hvalues : Spells 0 "\n             VALUES ".toList [word "VALUES"] 0 :=
    .unmarked (by decide +kernel) (by decide +kernel)
  have hopen : '(' ∈ signs := by decide
  have hclose : ')' ∈ signs := by decide
  have hgiven := hvalues.append_sign hopen
    ((hterms.intercalate joins_comma).append_sign hclose .nil)
  have hnamed := (hnames.intercalate joins_comma).append_sign hclose hgiven
  have hall := hhead.append_sign hopen hnamed
  rw [Nat.zero_add] at hall
  have htext : ((insert cs).template d.now).toList =
      "INSERT INTO tasktrail_tasks ".toList ++ '(' ::
        ((", ".intercalate (cs.map Column.name ++ ["updated_at"])).toList ++ ')' ::
          ("\n             VALUES ".toList ++ '(' ::
            ((", ".intercalate (cs.map (fun _ => "?") ++ [d.now])).toList ++ ')' :: []))) := by
    rw [intercalate_concat (by simpa using hne), intercalate_concat (by simpa using hne)]
    rw [template_insert]
    simp [names, table]
  rw [htext]
  exact hall

theorem where_spells (n : Nat) :
    Spells n "WHERE id = ?".toList [word "WHERE", word "id", sign '=', mark (n + 1)] (n + 1) := by
  have hwhere : Spells n "WHERE".toList [word "WHERE"] n :=
    .unmarked (by decide) (by decide +kernel)
  exact hwhere.append_blank (cell_spells n .id)

theorem template_update (now : String) (cs : List Column) :
    (update cs).template now =
      "UPDATE " ++ table ++ " SET " ++ ", ".intercalate (cs.map fun c => c.name ++ " = ?") ++
        ", updated_at = " ++ now ++ " WHERE id = ?" := rfl

theorem update_spells (hne : cs ≠ []) :
    Spells 0 ((update cs).template d.now).toList ((update cs).tokens d.nowTokens)
      (cs.length + 1) := by
  have hpresent : Spells cs.length ("updated_at =" ++ " " ++ d.now).toList
      ([word "updated_at", sign '='] ++ d.nowTokens) cs.length := by
    have hcolumn : Spells cs.length "updated_at =".toList [word "updated_at", sign '='] cs.length :=
      .unmarked (by decide) (by decide +kernel)
    rw [String.toList_append, String.toList_append, List.append_assoc]
    exact hcolumn.append_blank (d.now_spells _)
  have hcells := cells_spell 0 cs
  rw [Nat.zero_add] at hcells
  have hhead : Spells 0 "UPDATE tasktrail_tasks SET".toList
      [word "UPDATE", word "tasktrail_tasks", word "SET"] 0 :=
    .unmarked (by decide) (by decide +kernel)
  have htext : ((update cs).template d.now).toList =
      "UPDATE tasktrail_tasks SET".toList ++ ' ' ::
        ((", ".intercalate ((cs.map fun c => c.name ++ " = ?") ++
          ["updated_at =" ++ " " ++ d.now])).toList ++ ' ' :: "WHERE id = ?".toList) := by
    rw [intercalate_concat (by simpa using hne), template_update]
    simp [table]
  rw [htext]
  exact hhead.append_blank (((hcells.append (.cons hpresent .nil)).intercalate
    joins_comma).append_blank (where_spells _))

theorem reading_spells (n : Nat) : Spells n reading.toList readingTokens n := by
  have hselect : Spells n "SELECT".toList [word "SELECT"] n :=
    .unmarked (by decide) (by decide +kernel)
  have hfrom : Spells n "FROM tasktrail_tasks".toList [word "FROM", word "tasktrail_tasks"] n :=
    .unmarked (by decide) (by decide +kernel)
  have htext : reading.toList = "SELECT".toList ++ ' ' :: ((", ".intercalate
      (Column.selected.map Column.name)).toList ++ ' ' :: "FROM tasktrail_tasks".toList) := by
    change ("SELECT " ++ names Column.selected ++ " FROM " ++ table).toList = _
    simp [names, table]
  rw [htext, readingTokens, List.append_assoc]
  exact hselect.append_blank (((names_spell n _).intercalate joins_comma).append_blank hfrom)

theorem newest_spells (n : Nat) :
    Spells n "ORDER BY created_at DESC LIMIT ?".toList
      [word "ORDER", word "BY", word "created_at", word "DESC", word "LIMIT", mark (n + 1)]
      (n + 1) := by
  have horder : Spells n "ORDER BY created_at DESC LIMIT".toList
      [word "ORDER", word "BY", word "created_at", word "DESC", word "LIMIT"] n :=
    .unmarked (by decide) (by decide +kernel)
  exact horder.append_blank .mark

theorem fetch_spells (now : String) :
    Spells 0 (fetch.template now).toList (fetch.tokens d.nowTokens) 1 := by
  have htext : (fetch.template now).toList = reading.toList ++ ' ' :: "WHERE id = ?".toList := by
    change (reading ++ " WHERE id = ?").toList = _
    simp
  rw [htext]
  exact (reading_spells 0).append_blank (where_spells 0)

theorem list_spells (now : String) (cs : List Column) :
    Spells 0 ((list cs).template now).toList ((list cs).tokens d.nowTokens) (cs.length + 1) := by
  cases cs with
  | nil =>
      have htext : ((list []).template now).toList =
          reading.toList ++ ' ' :: "ORDER BY created_at DESC LIMIT ?".toList := by
        change (reading ++ " ORDER BY created_at DESC LIMIT ?").toList = _
        simp
      rw [htext]
      exact (reading_spells 0).append_blank (newest_spells 0)
  | cons c cs =>
      have hwhere : Spells 0 "WHERE".toList [word "WHERE"] 0 :=
        .unmarked (by decide) (by decide +kernel)
      have hand : Joins " AND " (word "AND") :=
        joins_word (w := "AND") (by decide) (by decide +kernel)
      have hcells := cells_spell 0 (c :: cs)
      rw [Nat.zero_add] at hcells
      have htext : ((list (c :: cs)).template now).toList =
          reading.toList ++ ' ' :: ("WHERE".toList ++ ' ' ::
            ((" AND ".intercalate ((c :: cs).map fun c => c.name ++ " = ?")).toList ++
              ' ' :: "ORDER BY created_at DESC LIMIT ?".toList)) := by
        change (reading ++ " WHERE " ++ " AND ".intercalate
          ((c :: cs).map fun c => c.name ++ " = ?") ++
            " ORDER BY created_at DESC LIMIT ?").toList = _
        simp
      rw [htext]
      exact (reading_spells 0).append_blank (hwhere.append_blank
        ((hcells.intercalate hand).append_blank (newest_spells _)))

end

/-- The columns, each with the value whose turn it is. -/
def cells (cs : List Column) : List (String × Term) :=
  (cs.zipIdx 1).map fun p => (p.1.name, .value p.2)

/-- The command that a statement gives, by the numbers of its values. -/
def command : Statement → Option (Command Term)
  | insert cs => some (.insert "tasktrail_tasks" (cells cs ++ [("updated_at", .now)]))
  | update cs => some (.update "tasktrail_tasks" (cells cs ++ [("updated_at", .now)])
      [("id", .value (cs.length + 1))])
  | fetch => some (.select "tasktrail_tasks" (Column.selected.map Column.name)
      [("id", .value 1)] none)
  | list cs => some (.select "tasktrail_tasks" (Column.selected.map Column.name) (cells cs)
      (some ("created_at", .value (cs.length + 1))))
  | ping => none

section

variable (d : Dialect) {cs : List Column}

theorem term?_nowTokens : term? d.nowTokens = some .now := by
  cases d <;> rfl

theorem mapM_nameTokens (cs : List Column) :
    (nameTokens cs).mapM name? = some (cs.map Column.name) :=
  mapM_map_eq_some (fun c : Column => [word c.name]) Column.name (fun _ => rfl) cs

theorem mapM_markTokens (cs : List Column) :
    (markTokens 0 cs).mapM term? = some ((cs.zipIdx 1).map fun p => .value p.2) :=
  mapM_map_eq_some (fun p : Column × Nat => [mark p.2]) (fun p => Term.value p.2)
    (fun _ => rfl) (cs.zipIdx 1)

theorem mapM_cellTokens (cs : List Column) : (cellTokens 0 cs).mapM equation? = some (cells cs) :=
  mapM_map_eq_some (fun p : Column × Nat => [word p.1.name, sign '=', mark p.2])
    (fun p => (p.1.name, Term.value p.2)) (fun _ => rfl) (cs.zipIdx 1)

/-- The words that separate the parts of a statement. -/
def keywords : List String := ["AND", "FROM", "ORDER", "WHERE"]

theorem keyword_ne_name {w : String} (hw : w ∈ keywords) (c : Column) :
    word w ≠ word c.name := by
  simp only [keywords, List.mem_cons, List.not_mem_nil, or_false] at hw
  rcases hw with rfl | rfl | rfl | rfl <;> cases c <;> decide

section

variable {t : Token}

theorem notMem_nameTokens (h : ∀ c : Column, t ≠ word c.name) :
    ∀ ts ∈ nameTokens cs, t ∉ ts := by
  intro ts hts
  obtain ⟨c, -, rfl⟩ := List.mem_map.mp hts
  rw [List.mem_singleton]
  exact h c

theorem notMem_markTokens (h : ∀ k, t ≠ mark k) : ∀ ts ∈ markTokens 0 cs, t ∉ ts := by
  intro ts hts
  obtain ⟨p, -, rfl⟩ := List.mem_map.mp hts
  rw [List.mem_singleton]
  exact h p.2

theorem notMem_cellTokens (hname : ∀ c : Column, t ≠ word c.name) (hsign : t ≠ sign '=')
    (hmark : ∀ k, t ≠ mark k) : ∀ ts ∈ cellTokens 0 cs, t ∉ ts := by
  intro ts hts
  obtain ⟨p, -, rfl⟩ := List.mem_map.mp hts
  simp only [List.mem_cons, List.not_mem_nil, or_false, not_or]
  exact ⟨hname p.1, hsign, hmark p.2⟩

end

theorem zip_cells (cs : List Column) :
    (cs.map Column.name).zip ((cs.zipIdx 1).map fun p => Term.value p.2) = cells cs := by
  have hnames : cs.map Column.name = (cs.zipIdx 1).map fun p => p.1.name := by
    conv_lhs => rw [← List.zipIdx_map_fst 1 cs]
    rw [List.map_map]
    rfl
  rw [hnames, List.zip_map']
  rfl

theorem insert_command (cs : List Column) :
    command? ((insert cs).tokens d.nowTokens) = (insert cs).command := by
  have hsigns : ∀ c, ∀ ts ∈ nameTokens cs ++ [[word "updated_at"]], sign c ∉ ts := by
    intro c
    rw [List.forall_mem_append, List.forall_mem_singleton]
    exact ⟨notMem_nameTokens (by simp), by simp⟩
  have hnames : parts name? (sign ',') ([sign ','].intercalate
      (nameTokens cs ++ [[word "updated_at"]])) = some (cs.map Column.name ++ ["updated_at"]) := by
    apply parts_intercalate
    · simp
    · exact hsigns ','
    · rw [List.mapM_append, mapM_nameTokens]
      rfl
  have hterms : parts term? (sign ',') ([sign ','].intercalate
      (markTokens 0 cs ++ [d.nowTokens])) =
        some ((cs.zipIdx 1).map (fun p => .value p.2) ++ [.now]) := by
    apply parts_intercalate
    · simp
    · rw [List.forall_mem_append, List.forall_mem_singleton]
      refine ⟨notMem_markTokens (by simp), ?_⟩
      cases d <;> simp [Dialect.nowTokens]
    · rw [List.mapM_append, mapM_markTokens]
      simp [term?_nowTokens]
  have hbracket : sign ')' ∉ [sign ','].intercalate
      (nameTokens cs ++ [[word "updated_at"]]) :=
    notMem_intercalate (by decide) (hsigns ')')
  have htokens : (insert cs).tokens d.nowTokens = word "INSERT" :: word "INTO" ::
      word "tasktrail_tasks" :: sign '(' ::
        ([sign ','].intercalate (nameTokens cs ++ [[word "updated_at"]]) ++ sign ')' ::
          word "VALUES" :: sign '(' ::
            ([sign ','].intercalate (markTokens 0 cs ++ [d.nowTokens]) ++ [sign ')'])) := by
    simp only [tokens, List.cons_append, List.nil_append]
  rw [htokens, command?_insert]
  unfold insertion?
  rw [before_append hbracket]
  change (if _ = _ then _ else _) = _
  rw [if_pos List.getLast?_concat, List.dropLast_concat, hnames, hterms]
  change (if _ = _ then _ else _) = _
  rw [if_pos (by simp), List.zip_append (by simp), zip_cells]
  rfl

theorem update_command (cs : List Column) :
    command? ((update cs).tokens d.nowTokens) = (update cs).command := by
  have hcells : parts equation? (sign ',') ([sign ','].intercalate
      (cellTokens 0 cs ++ [[word "updated_at", sign '='] ++ d.nowTokens])) =
        some (cells cs ++ [("updated_at", .now)]) := by
    apply parts_intercalate
    · simp
    · rw [List.forall_mem_append, List.forall_mem_singleton]
      refine ⟨notMem_cellTokens (by simp) (by simp) (by simp), ?_⟩
      cases d <;> simp [Dialect.nowTokens]
    · rw [List.mapM_append, mapM_cellTokens]
      simp [equation?, term?_nowTokens]
  have hwhere : word "WHERE" ∉ [sign ','].intercalate
      (cellTokens 0 cs ++ [[word "updated_at", sign '='] ++ d.nowTokens]) := by
    apply notMem_intercalate (by decide)
    rw [List.forall_mem_append, List.forall_mem_singleton]
    refine ⟨notMem_cellTokens (keyword_ne_name (by decide)) (by simp) (by simp), ?_⟩
    cases d <;> simp [Dialect.nowTokens]
  have htokens : (update cs).tokens d.nowTokens =
      word "UPDATE" :: word "tasktrail_tasks" :: word "SET" :: ([sign ','].intercalate
        (cellTokens 0 cs ++ [[word "updated_at", sign '='] ++ d.nowTokens]) ++
          word "WHERE" :: [word "id", sign '=', mark (cs.length + 1)]) := by
    simp only [tokens, List.cons_append, List.nil_append]
  rw [htokens, command?_update]
  unfold amendment?
  rw [before_append hwhere]
  simp only [hcells]
  rfl

theorem readings_command {rest : List Token} {conditions : List (String × Term)}
    {newest : Option (String × Term)} {before' after : List Token}
    (hsplit : before (word "ORDER") rest = (before', after))
    (hconditions : conditions? before' = some conditions) (hnewest : newest? after = some newest) :
    command? (readingTokens ++ rest) =
      some (.select "tasktrail_tasks" (Column.selected.map Column.name) conditions newest) := by
  have hnames : parts name? (sign ',') ([sign ','].intercalate
      (nameTokens Column.selected)) = some (Column.selected.map Column.name) :=
    parts_intercalate (by decide) (notMem_nameTokens (by simp)) (mapM_nameTokens _)
  have hfrom : word "FROM" ∉ [sign ','].intercalate (nameTokens Column.selected) := by
    apply notMem_intercalate (by decide)
    exact notMem_nameTokens (keyword_ne_name (by decide))
  have htokens : readingTokens ++ rest = word "SELECT" :: ([sign ','].intercalate
      (nameTokens Column.selected) ++ word "FROM" :: word "tasktrail_tasks" :: rest) := by
    simp [readingTokens]
  rw [htokens, command?_select]
  unfold selection?
  rw [before_append hfrom]
  simp only [hsplit, hnames, hconditions, hnewest]
  rfl

theorem fetch_command : command? (fetch.tokens d.nowTokens) = fetch.command := by
  have hsplit : before (word "ORDER") [word "WHERE", word "id", sign '=', mark 1] =
      ([word "WHERE", word "id", sign '=', mark 1], []) := by
    simp [before]
  exact readings_command hsplit rfl rfl

theorem list_command (cs : List Column) :
    command? ((list cs).tokens d.nowTokens) = (list cs).command := by
  cases cs with
  | nil =>
      have hsplit : before (word "ORDER")
          [word "ORDER", word "BY", word "created_at", word "DESC", word "LIMIT", mark 1] =
            ([], [word "ORDER", word "BY", word "created_at", word "DESC", word "LIMIT", mark 1]) :=
        before_append List.not_mem_nil
      exact readings_command hsplit rfl rfl
  | cons c cs =>
      have horder : word "ORDER" ∉
          word "WHERE" :: [word "AND"].intercalate (cellTokens 0 (c :: cs)) := by
        rw [List.mem_cons, not_or]
        refine ⟨by decide, notMem_intercalate (by decide) ?_⟩
        exact notMem_cellTokens (keyword_ne_name (by decide)) (by simp) (by simp)
      have hconditions : conditions? (word "WHERE" ::
          [word "AND"].intercalate (cellTokens 0 (c :: cs))) = some (cells (c :: cs)) := by
        change parts equation? (word "AND")
          ([word "AND"].intercalate (cellTokens 0 (c :: cs))) = _
        apply parts_intercalate
        · simp [cellTokens]
        · exact notMem_cellTokens (keyword_ne_name (by decide)) (by simp) (by simp)
        · exact mapM_cellTokens (c :: cs)
      exact readings_command (before_append horder) hconditions rfl

end

/-- A statement about the table, which gives a column a value if it writes. -/
inductive OnTable : Statement → Prop where
  | insert {cs : List Column} (hne : cs ≠ []) : OnTable (.insert cs)
  | update {cs : List Column} (hne : cs ≠ []) : OnTable (.update cs)
  | fetch : OnTable .fetch
  | list (cs : List Column) : OnTable (.list cs)

namespace OnTable

variable {st : Statement} (d : Dialect)

theorem spells (h : st.OnTable) :
    Spells 0 (st.template d.now).toList (st.tokens d.nowTokens) st.slots.length := by
  cases h with
  | insert hne => simpa [slots] using insert_spells d hne
  | update hne => simpa [slots] using update_spells d hne
  | fetch => exact fetch_spells d _
  | list cs => simpa [slots] using list_spells d _ cs

theorem command_tokens (h : st.OnTable) : command? (st.tokens d.nowTokens) = st.command := by
  cases h with
  | insert _ => exact insert_command d _
  | update _ => exact update_command d _
  | fetch => exact fetch_command d
  | list cs => exact list_command d cs

/-- The text of a statement gives its command in every dialect. -/
theorem command_text (h : st.OnTable) (values : List Value) :
    command? (Sql.tokens (Query.text ⟨d, st, values⟩)) = st.command := by
  have hspells := h.spells d
  unfold Query.text
  rw [tokens_express d hspells.plain, hspells.tokens_eq]
  exact h.command_tokens d

end OnTable

end Statement

end TaskAudit

import Mathlib
import TaskAudit.Proofs.Json.Values
import TaskAudit.Proofs.Time.BriefText
import TaskAudit.Proofs.Time.RecordTimes
import TaskAudit.Record.Json

/-!
# Records are read back

A record that was written as JSON is read back as it was, if all its times are regular. The
members are read one by one, each with the reader of its field, and fill a draft; when they are
all there the draft is the record, with the times that its texts name.
-/
namespace TaskAudit

namespace Json

open Text

theorem text_quote (wanted s : String) (rest : List Piece) :
    Json.text wanted ((quote s).map .char ++ rest) = .ok (s, rest) := by
  rw [map_quote_append, Json.text, skipGap_cons rfl]
  exact string_quote s rest

/-- A value that is there is read behind its opening quote, so it is not taken for `null`. -/
theorem optional_quote {α : Type} {reader : List Piece → Except Stop (α × List Piece)} {a : α}
    {s : String} {rest : List Piece} (h : reader ((quote s).map .char ++ rest) = .ok (a, rest)) :
    optional reader ((quote s).map .char ++ rest) = .ok (some a, rest) := by
  rw [map_quote_append] at h ⊢
  change (reader (.char '"' :: _)).bind (fun p => .ok (some p.1, p.2)) = _
  rw [h]
  rfl

theorem optional_null {α : Type} (reader : List Piece → Except Stop (α × List Piece))
    (rest : List Piece) :
    optional reader ((compactChars .null).map .char ++ rest) = .ok (none, rest) := rfl

end Json

namespace Record

open Json Text

theorem statusReader_quote (s : Status) (rest : List Piece) :
    Status.reader ((quote s.name).map .char ++ rest) = .ok (s, rest) := by
  have htext := text_quote "variant identifier" s.name rest
  rw [map_quote_append] at htext ⊢
  rw [Status.reader, skipGap_cons rfl]
  simp only [reduceIte, Piece.char.injEq, Char.reduceEq, Status.readName, htext, Status.ofRead,
    Status.ofName_name, bind, Except.bind]

theorem readTime_quote (t : Timestamp) (rest : List Piece) :
    readTime ((quote t.brief).map .char ++ rest) = .ok (t.written, rest) := by
  simp only [readTime, text_quote, t.ofRelaxed_brief, bind, Except.bind, pure, Except.pure]

/-- Every field is read back from what is written of it. -/
theorem readField_fieldJson (r : Record) (f : Field) (rest : List Piece) :
    readField f ((compactChars (r.fieldJson f)).map .char ++ rest) =
      .ok (r.written.get f, rest) := by
  cases f with
  | id => exact text_quote "a string" r.id rest
  | taskType => exact text_quote "a string" r.taskType rest
  | queue => exact text_quote "a string" r.queue rest
  | payload => exact text_quote "a string" r.payload rest
  | status => exact statusReader_quote r.status rest
  | errorMessage =>
      simp only [readField, fieldJson, get, written]
      cases r.errorMessage with
      | none => exact optional_null _ rest
      | some text => exact optional_quote (text_quote "a string" text rest)
  | resultPayload =>
      simp only [readField, fieldJson, get, written]
      cases r.resultPayload with
      | none => exact optional_null _ rest
      | some text => exact optional_quote (text_quote "a string" text rest)
  | createdAt => exact readTime_quote r.createdAt rest
  | enqueuedAt => exact readTime_quote r.enqueuedAt rest
  | startedAt =>
      simp only [readField, fieldJson, get, written]
      cases r.startedAt with
      | none => exact optional_null _ rest
      | some time => exact optional_quote (readTime_quote time rest)
  | finishedAt =>
      simp only [readField, fieldJson, get, written]
      cases r.finishedAt with
      | none => exact optional_null _ rest
      | some time => exact optional_quote (readTime_quote time rest)

def draft (r : Record) (fs : List Field) : Draft :=
  fun f => if f ∈ fs then some (r.get f) else none

theorem draft_set (r : Record) (fs : List Field) (f : Field) :
    (r.draft fs).set f (r.get f) = r.draft (fs ++ [f]) := by
  funext g
  by_cases h : f = g
  · subst h
    simp [Draft.set, draft]
  · simp [Draft.set, draft, h, Ne.symm h]

def members (r : Record) (fs : List Field) : List (String × Json) :=
  fs.map fun f => (f.name, r.fieldJson f)

theorem find?_name (f : Field) : (Field.all.find? fun g => g.name = f.name) = some f := by
  cases f <;> rfl

theorem readMembers_compact (r : Record) {fs read : List Field} (hnew : (read ++ fs).Nodup)
    {fuel : Nat} (hfuel : fs.length < fuel) (isFirst : Bool) (rest : List Piece) :
    readMembers fuel isFirst (r.written.draft read)
        ((compactMembers isFirst (r.members fs)).map .char ++ .char '\x7d' :: rest) =
      .ok (r.written.draft (read ++ fs), rest) := by
  induction fs generalizing fuel read isFirst with
  | nil =>
      obtain ⟨fuel, rfl⟩ := Nat.exists_eq_succ_of_ne_zero (Nat.ne_zero_of_lt hfuel)
      rw [List.append_nil]
      rfl
  | cons f fs ih =>
      obtain ⟨fuel, rfl⟩ := Nat.exists_eq_succ_of_ne_zero (Nat.ne_zero_of_lt hfuel)
      have hunread : f ∉ read := by
        intro hmem
        exact (List.nodup_append.mp hnew).2.2 f hmem f List.mem_cons_self rfl
      have htext : (compactMembers isFirst (r.members (f :: fs))).map Piece.char ++
            Piece.char '\x7d' :: rest =
          comma isFirst ++ Piece.char '"' :: ((f.name.toList.flatMap escapedChar).map Piece.char ++
            Piece.char '"' :: Piece.char ':' :: ((compactChars (r.fieldJson f)).map Piece.char ++
              ((compactMembers false (r.members fs)).map Piece.char ++
                Piece.char '\x7d' :: rest))) := by
        simp only [members, List.map_cons, compactMembers, List.map_append, List.append_assoc,
          List.cons_append, map_quote_append]
        cases isFirst <;> rfl
      have hcolon : ∀ left, colon (.char ':' :: left) = .ok left := fun _ => rfl
      have hempty : (r.written.draft read f).isSome = false := by
        rw [draft, if_neg hunread]
        rfl
      have hnew' : (read ++ [f] ++ fs).Nodup := by simpa using hnew
      have hothers := ih hnew' (Nat.lt_of_succ_lt_succ hfuel) false
      rw [List.append_assoc, List.singleton_append] at hothers
      rw [htext, readMembers, nextName_quoted]
      simp only [bind, Except.bind, string_quote, find?_name, hempty, hcolon, readField_fieldJson,
        draft_set, hothers, Bool.false_eq_true, if_false]

theorem ofDraft_draft (r : Record) (rest : List Piece) :
    ofDraft (r.draft Field.all) rest = .ok (r, rest) := rfl

theorem length_le_compactMembers (isFirst : Bool) (ms : List (String × Json)) :
    ms.length ≤ (compactMembers isFirst ms).length := by
  induction ms generalizing isFirst with
  | nil => exact Nat.zero_le _
  | cons m ms ih =>
      have hrest := ih false
      simp only [compactMembers, List.length_append, List.length_cons]
      omega

/-- An object with all members of a record is read as the record that they name. -/
theorem reader_compact (r : Record) (rest : List Piece) :
    reader (.char '\x7b' :: ((compactMembers true (r.members Field.all)).map .char ++
      .char '\x7d' :: rest)) = .ok (r.written, rest) := by
  have hfuel : Field.all.length < ((compactMembers true (r.members Field.all)).map Piece.char ++
      .char '\x7d' :: rest).length + 1 := by
    have hlength := length_le_compactMembers true (r.members Field.all)
    have hfields : (r.members Field.all).length = Field.all.length := List.length_map ..
    rw [List.length_append, List.length_map]
    omega
  have hnew : ([] ++ Field.all).Nodup := by decide
  have hmembers := r.readMembers_compact hnew hfuel true rest
  have hempty : r.written.draft [] = fun _ => none := rfl
  rw [hempty, List.nil_append] at hmembers
  rw [reader, skipGap_cons rfl]
  simp only [reduceIte, Piece.char.injEq, Char.reduceEq, bind, Except.bind, hmembers,
    ofDraft_draft]

theorem ofJsonText_eq_written (r : Record) : ofJsonText r.jsonText = .ok r.written := by
  have hpieces : Piece.ofText r.jsonText = .char '\x7b' ::
      ((compactMembers true (r.members Field.all)).map .char ++ [Piece.char '\x7d']) := by
    rw [jsonText, ofText_compact, toJson, compactChars]
    simp [members]
  rw [ofJsonText, hpieces, readAll, reader_compact]
  rfl

theorem jsonText_written (r : Record) : r.written.jsonText = r.jsonText := by
  have htimes (o : Option Timestamp) :
      orNull timeJson (o.map Timestamp.written) = orNull timeJson o := by
    cases o <;> simp [orNull, timeJson]
  have hfields : r.written.fieldJson = r.fieldJson := by
    funext f
    cases f <;> simp [fieldJson, written, timeJson, htimes]
  rw [jsonText, jsonText, toJson, toJson, hfields]

/-- A record is read back from its JSON text if and only if all its times are regular. Any
other one is read as the record of regular times that has the same text. -/
theorem ofJsonText_jsonText (r : Record) :
    ofJsonText r.jsonText = .ok r.written ∧ r.written.IsRegular ∧
      r.written.jsonText = r.jsonText ∧ (ofJsonText r.jsonText = .ok r ↔ r.IsRegular) := by
  have hread := r.ofJsonText_eq_written
  refine ⟨hread, r.written_isRegular, r.jsonText_written, ?_⟩
  rw [hread, Except.ok.injEq, written_eq_self_iff]

/-- A leap second inside a minute is read back as the second that follows it. -/
theorem leap_in_minute_misread :
    let record : Record := .ofNewTask "a" "mail" "default" "1"
      ⟨1700000004, 1333333333, by decide⟩
    ofJsonText record.jsonText =
        .ok (.ofNewTask "a" "mail" "default" "1" ⟨1700000005, 333333333, by decide⟩) ∧
      ofJsonText record.jsonText ≠ .ok record := by
  intro record
  rw [ofJsonText_eq_written]
  decide +kernel

end Record

end TaskAudit

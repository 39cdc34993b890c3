import Mathlib
import TaskAudit.Broker.Messages.Queues
import TaskAudit.Proofs.Broker.Exchanges
import TaskAudit.Proofs.Json.Values

/-!
# Which messages are envelopes

An envelope is an object with a text for its type, or a list of two to four values in the order
id, type, payload, retries. An id may be missing or null, the retries may be missing, and what
the payload and other members are does not matter. A message with an envelope is delivered with
the values that it gives, and every other message is archived.
-/
namespace TaskAudit

namespace Envelope

/-- Does the envelope have the given values, and the usual ones for those that are missing? -/
structure HasParts (e : Envelope) (taskId taskType payload maxRetry : Option Json) : Prop where
  taskId : (taskId = none ∨ taskId = some .null) ∧ e.taskId = none ∨
    ∃ id, taskId = some (.str id) ∧ e.taskId = some id
  taskType : taskType = some (.str e.taskType)
  payload : e.payload = payload.getD .null
  maxRetry : maxRetry = none ∧ e.maxRetry = 25 ∨
    ∃ n : Nat, n < 2 ^ 32 ∧ maxRetry = some (.int n) ∧ e.maxRetry.toNat = n

/-- Does the value give the envelope, by the names of its parts or by their places? -/
inductive IsGivenBy (e : Envelope) : Json → Prop where
  | object {members}
    (h : e.HasParts (Named.find? "task_id" members) (Named.find? "task_type" members)
      (Named.find? "payload" members) (Named.find? "max_retry" members)) :
    IsGivenBy e (.obj members)
  | list {items : List Json} (hlow : 2 ≤ items.length) (hhigh : items.length ≤ 4)
    (h : e.HasParts items[0]? items[1]? items[2]? items[3]?) : IsGivenBy e (.arr items)

section

variable {α : Type} {read : Json → Except Json.Mismatch α} {old : α}

/-- A value that is read if it is there, and left as it is if not. -/
def slot (read : Json → Except Json.Mismatch α) (old : α) : Option Json → Except Json.Mismatch α
  | none => .ok old
  | some v => read v

theorem slot_cons {key name : String} {v : Json} {rest : List (String × Json)}
    (hname : name ∉ rest.map Prod.fst) {answer : α} :
    (∃ x, slot read old (if key = name then some v else none) = .ok x ∧
        slot read x (Named.find? key rest) = .ok answer) ↔
      slot read old (Named.find? key ((name, v) :: rest)) = .ok answer := by
  by_cases hkey : key = name
  · subst hkey
    simp [Named.find?, Named.find?_of_notMem hname, slot]
  · simp [Named.find?, hkey, slot]

theorem slot_taskId {part : Option Json} {taskId : Option String} :
    slot (Json.toOption Json.toText) none part = .ok taskId ↔
      (part = none ∨ part = some .null) ∧ taskId = none ∨
        ∃ id, part = some (.str id) ∧ taskId = some id := by
  rcases part with _ | v
  · simp [slot, eq_comm]
  · cases v <;> simp [slot, Json.toOption, Json.toText, Except.map, eq_comm]

theorem slot_taskType {part : Option Json} {taskType : String} :
    slot (fun v => v.toText.map some) none part = .ok (some taskType) ↔
      part = some (.str taskType) := by
  rcases part with _ | v
  · simp [slot]
  · cases v <;> simp [slot, Json.toText, Except.map]

theorem slot_payload {part : Option Json} {payload : Json} :
    slot .ok .null part = .ok payload ↔ payload = part.getD .null := by
  rcases part with _ | v <;> simp [slot, eq_comm]

theorem toCount_eq_ok_iff {v : Json} {count : UInt32} :
    v.toCount = .ok count ↔ ∃ n : Nat, n < 2 ^ 32 ∧ v = .int n ∧ count.toNat = n := by
  cases v with
  | int n =>
      have hlimit : ((Nat.pow 2 32 : Nat) : Int) = 2 ^ 32 := rfl
      rw [Json.toCount, hlimit]
      constructor
      · intro h
        split_ifs at h with hfits
        obtain rfl := Except.ok.inj h
        have hsmall : n.toNat < 2 ^ 32 := by omega
        refine ⟨n.toNat, hsmall, ?_, UInt32.toNat_ofNat_of_lt' hsmall⟩
        rw [Int.toNat_of_nonneg hfits.1]
      · rintro ⟨k, hsmall, hk, hcount⟩
        obtain rfl := Json.int.inj hk
        rw [if_pos ⟨by omega, by omega⟩, Int.toNat_natCast, ← hcount, UInt32.ofNat_toNat]
  | _ => simp [Json.toCount]

theorem slot_maxRetry {part : Option Json} {maxRetry : UInt32} :
    slot Json.toCount 25 part = .ok maxRetry ↔
      part = none ∧ maxRetry = 25 ∨
        ∃ n : Nat, n < 2 ^ 32 ∧ part = some (.int n) ∧ maxRetry.toNat = n := by
  rcases part with _ | v
  · simp [slot, eq_comm]
  · simp [slot, toCount_eq_ok_iff]

end

theorem withMember_eq_ok_iff {d d' : Draft} {name : String} {v : Json} :
    d.withMember name v = .ok d' ↔
      slot (Json.toOption Json.toText) d.taskId (if "task_id" = name then some v else none) =
          .ok d'.taskId ∧
        slot (fun v => v.toText.map some) d.taskType
            (if "task_type" = name then some v else none) = .ok d'.taskType ∧
        slot .ok d.payload (if "payload" = name then some v else none) = .ok d'.payload ∧
        slot Json.toCount d.maxRetry (if "max_retry" = name then some v else none) =
          .ok d'.maxRetry := by
  obtain ⟨taskId, taskType, payload, maxRetry⟩ := d
  obtain ⟨taskId', taskType', payload', maxRetry'⟩ := d'
  by_cases hid : name = "task_id"
  · subst hid
    cases hread : v.toOption Json.toText <;>
      simp [Draft.withMember, slot, hread, bind, Except.bind, pure, Except.pure]
  by_cases htype : name = "task_type"
  · subst htype
    cases hread : v.toText <;>
      simp [Draft.withMember, slot, hread, bind, Except.bind, pure, Except.pure, Except.map]
  by_cases hpayload : name = "payload"
  · subst hpayload
    simp [Draft.withMember, slot]
  by_cases hretry : name = "max_retry"
  · subst hretry
    cases hread : v.toCount <;>
      simp [Draft.withMember, slot, hread, bind, Except.bind, pure, Except.pure]
  · simp [Draft.withMember, slot, hid, htype, hpayload, hretry, Ne.symm hid, Ne.symm htype,
      Ne.symm hpayload, Ne.symm hretry]

theorem foldlM_withMember_eq_ok_iff {members : List (String × Json)}
    (hnames : (members.map Prod.fst).Nodup) {d d' : Draft} :
    members.foldlM (fun d m => Draft.withMember d m.1 m.2) d = .ok d' ↔
      slot (Json.toOption Json.toText) d.taskId (Named.find? "task_id" members) =
          .ok d'.taskId ∧
        slot (fun v => v.toText.map some) d.taskType (Named.find? "task_type" members) =
          .ok d'.taskType ∧
        slot .ok d.payload (Named.find? "payload" members) = .ok d'.payload ∧
        slot Json.toCount d.maxRetry (Named.find? "max_retry" members) = .ok d'.maxRetry := by
  induction members generalizing d with
  | nil =>
      obtain ⟨taskId, taskType, payload, maxRetry⟩ := d
      obtain ⟨taskId', taskType', payload', maxRetry'⟩ := d'
      simp [Named.find?, slot, pure, Except.pure]
  | cons m rest ih =>
      obtain ⟨name, v⟩ := m
      obtain ⟨hname, hrest⟩ := List.nodup_cons.mp hnames
      rw [List.foldlM_cons, ← slot_cons hname, ← slot_cons hname, ← slot_cons hname,
        ← slot_cons hname]
      constructor
      · intro h
        obtain ⟨d₁, hfirst, hlater⟩ := Json.bind_eq_ok h
        obtain ⟨hid, htype, hpayload, hretry⟩ := withMember_eq_ok_iff.mp hfirst
        obtain ⟨hid', htype', hpayload', hretry'⟩ := (ih hrest).mp hlater
        exact ⟨⟨_, hid, hid'⟩, ⟨_, htype, htype'⟩, ⟨_, hpayload, hpayload'⟩, ⟨_, hretry, hretry'⟩⟩
      · rintro ⟨⟨taskId, hid, hid'⟩, ⟨taskType, htype, htype'⟩, ⟨payload, hpayload, hpayload'⟩,
          ⟨maxRetry, hretry, hretry'⟩⟩
        have hfirst : d.withMember name v = .ok ⟨taskId, taskType, payload, maxRetry⟩ :=
          withMember_eq_ok_iff.mpr ⟨hid, htype, hpayload, hretry⟩
        simp only [hfirst]
        exact (ih hrest).mpr ⟨hid', htype', hpayload', hretry'⟩

theorem toEnvelope_eq_ok_iff {d : Draft} {fault : Json.Mismatch} {e : Envelope} :
    d.toEnvelope fault = .ok e ↔
      d.taskId = e.taskId ∧ d.taskType = some e.taskType ∧ d.payload = e.payload ∧
        d.maxRetry = e.maxRetry := by
  obtain ⟨taskId, taskType, payload, maxRetry⟩ := d
  obtain ⟨taskId', taskType', payload', maxRetry'⟩ := e
  cases taskType <;> simp [Draft.toEnvelope]

theorem draft_eq_ok_iff {members : List (String × Json)} (hnames : (members.map Prod.fst).Nodup)
    {fault : Json.Mismatch} {e : Envelope} :
    (members.foldlM (fun (d : Draft) m => d.withMember m.1 m.2) {} >>= fun d =>
      d.toEnvelope fault) = .ok e ↔
      e.HasParts (Named.find? "task_id" members) (Named.find? "task_type" members)
        (Named.find? "payload" members) (Named.find? "max_retry" members) := by
  constructor
  · intro h
    obtain ⟨d, hfold, henvelope⟩ := Json.bind_eq_ok h
    obtain ⟨hid, htype, hpayload, hretry⟩ := (foldlM_withMember_eq_ok_iff hnames).mp hfold
    obtain ⟨hid', htype', hpayload', hretry'⟩ := toEnvelope_eq_ok_iff.mp henvelope
    rw [hid'] at hid
    rw [htype'] at htype
    rw [hpayload'] at hpayload
    rw [hretry'] at hretry
    exact ⟨slot_taskId.mp hid, slot_taskType.mp htype, slot_payload.mp hpayload,
      slot_maxRetry.mp hretry⟩
  · rintro ⟨hid, htype, hpayload, hretry⟩
    have hfold : members.foldlM (fun (d : Draft) m => d.withMember m.1 m.2) {} =
        .ok ⟨e.taskId, some e.taskType, e.payload, e.maxRetry⟩ :=
      (foldlM_withMember_eq_ok_iff hnames).mpr ⟨slot_taskId.mpr hid, slot_taskType.mpr htype,
        slot_payload.mpr hpayload, slot_maxRetry.mpr hretry⟩
    rw [hfold]
    rfl

theorem find?_zip (items : List Json) :
    Named.find? "task_id" (names.zip items) = items[0]? ∧
      Named.find? "task_type" (names.zip items) = items[1]? ∧
      Named.find? "payload" (names.zip items) = items[2]? ∧
      Named.find? "max_retry" (names.zip items) = items[3]? := by
  rcases items with _ | ⟨a, _ | ⟨b, _ | ⟨c, _ | ⟨d, rest⟩⟩⟩⟩ <;> simp [names, Named.find?]

theorem nodup_zip (items : List Json) : ((names.zip items).map Prod.fst).Nodup := by
  rcases items with _ | ⟨a, _ | ⟨b, _ | ⟨c, _ | ⟨d, rest⟩⟩⟩⟩ <;> simp [names]

theorem ofJson_list_eq_ok_iff {items : List Json} {e : Envelope} :
    ofJson (.arr items) = .ok e ↔
      items.length ≤ 4 ∧ e.HasParts items[0]? items[1]? items[2]? items[3]? := by
  have hdraft := @draft_eq_ok_iff (names.zip items) (nodup_zip items)
    (.wrongLength 1 (wanted ++ " with 4 elements"))
  obtain ⟨hid, htype, hpayload, hretry⟩ := find?_zip items
  rw [hid, htype, hpayload, hretry] at hdraft
  rw [← hdraft]
  have hlength : names.length = 4 := rfl
  constructor
  · intro h
    obtain ⟨d, hfold, h⟩ := Json.bind_eq_ok h
    obtain ⟨e', henvelope, h⟩ := Json.bind_eq_ok h
    rw [hlength] at h
    split_ifs at h with hlong
    obtain rfl := Except.ok.inj h
    rw [hfold]
    exact ⟨not_lt.mp hlong, henvelope⟩
  · rintro ⟨hshort, h⟩
    obtain ⟨d, hfold, henvelope⟩ := Json.bind_eq_ok h
    simp only [ofJson, hfold, bind, Except.bind] at henvelope ⊢
    rw [henvelope]
    exact if_neg (not_lt.mpr hshort)

/-- The envelopes that are read are those that are given. -/
theorem ofJson_eq_ok_iff {v : Json} (hv : v.IsOrdered) (e : Envelope) :
    ofJson v = .ok e ↔ e.IsGivenBy v := by
  cases hv with
  | @obj members hnames _ =>
      constructor
      · intro h
        exact .object ((draft_eq_ok_iff hnames.nodup).mp h)
      · rintro ⟨h⟩
        exact (draft_eq_ok_iff hnames.nodup).mpr h
  | @arr items _ =>
      rw [ofJson_list_eq_ok_iff]
      constructor
      · rintro ⟨hhigh, h⟩
        have hsome : 1 < items.length := (List.getElem?_eq_some_iff.mp h.taskType).1
        exact .list hsome hhigh h
      · rintro (_ | ⟨-, hhigh, h⟩)
        exact ⟨hhigh, h⟩
  | _ =>
      constructor
      · nofun
      · nofun

end Envelope

namespace Messages

section

variable {δ : Type} {server : QueueServer δ} {settings : Settings} {s s₁ : δ} {queue : String}
  {m : Message} {v : Json}

theorem readNext_minuted_of_read
    (hread : ((server.read queue settings.visibilityTimeout).run s).Answers (some m) s₁)
    (hjson : Json.read m.body = .ok v) (log : List Exchange) :
    ∃ events, (readNext server.minuted settings queue).run (s, log) =
      ⟨.ok (some (m, v)),
        (s₁, log ++ [.read queue settings.visibilityTimeout (.ok (some m))]), events⟩ := by
  obtain ⟨events, hrun⟩ := hread.exists_events
  simp only [readNext, QueueServer.minuted, Action.run_bind, Action.run_noted, Effect.logged,
    hrun, bodyOf_of_read hjson]
  exact ⟨_, rfl⟩

theorem dequeue_of_stray {fault : Json.Mismatch}
    (hread : ((server.read queue settings.visibilityTimeout).run s).Answers (some m) s₁)
    (hjson : Json.read m.body = .ok v) (hfault : Envelope.ofJson v = .error fault)
    (queues : List String) :
    let poll := (dequeue server.minuted settings (queue :: queues)).run (s, [])
    .notice (.unroutable queue m.msgId fault.message) ∈ poll.events ∧
      ∃ answer rest, poll.state.2 =
        .read queue settings.visibilityTimeout (.ok (some m)) ::
          .archive queue m.msgId answer :: rest := by
  obtain ⟨events, hnext⟩ := readNext_minuted_of_read hread hjson []
  simp only [dequeue, Action.run_bind, hnext, hfault, Action.run_note, archive_minuted,
    Effect.logged]
  refine ⟨by simp, ((server.archive queue m.msgId).run s₁).value, ?_⟩
  generalize (archive server queue m.msgId).run s₁ = r
  obtain ⟨value, state', events'⟩ := r
  cases value with
  | error e => exact ⟨[], rfl⟩
  | ok done =>
      obtain ⟨log, -, hrun⟩ := dequeue_minuted server settings queues state' _
      exact ⟨log, by rw [hrun]; rfl⟩

end

/-- Whether a JSON value is an envelope, and which one, is a matter of its parts alone. A message
whose text reads as the value is delivered with what the envelope says if it is one, and is
reported and archived if it is none. -/
theorem dequeue_routes_envelopes {v : Json} (hv : v.IsOrdered) :
    (∀ e, Envelope.ofJson v = .ok e ↔ e.IsGivenBy v) ∧
      ∀ {δ : Type} (server : QueueServer δ) (settings : Settings) (queue : String)
        (queues : List String) (s s₁ : δ) (m : Message),
        ((server.read queue settings.visibilityTimeout).run s).Answers (some m) s₁ →
        Json.read m.body = .ok v →
        (∀ e : Envelope, e.IsGivenBy v →
          ∃ d, ((dequeue server settings (queue :: queues)).run s).Answers (some d) s₁ ∧
            d.IsMadeOf queue m e) ∧
        ((∀ e : Envelope, ¬ e.IsGivenBy v) →
          let poll := (dequeue server.minuted settings (queue :: queues)).run (s, [])
          (∃ reason, .notice (.unroutable queue m.msgId reason) ∈ poll.events) ∧
            ∃ answer rest, poll.state.2 =
              .read queue settings.visibilityTimeout (.ok (some m)) ::
                .archive queue m.msgId answer :: rest) := by
  have hiff := Envelope.ofJson_eq_ok_iff hv
  refine ⟨hiff, ?_⟩
  intro δ server settings queue queues s s₁ m hread hjson
  constructor
  · intro e he
    have hbody : e.IsReadIn m.body := ⟨v, hjson, (hiff e).mpr he⟩
    exact ⟨_, dequeue_of_read hread hbody queues, delivery_isMadeOf queue m e⟩
  · intro hnone
    cases hfault : Envelope.ofJson v with
    | ok e => exact absurd ((hiff e).mp hfault) (hnone e)
    | error fault =>
        obtain ⟨hnotice, harchive⟩ := dequeue_of_stray hread hjson hfault queues
        exact ⟨⟨_, hnotice⟩, harchive⟩

/-- The highest count and an id that is null, with a member of another name; then a count that is
null. -/
theorem dequeue_routes_envelopes_of_counts :
    let v : Json := .obj [("extra", .arr [.int 1]), ("max_retry", .int 4294967295),
      ("task_id", .null), ("task_type", .str "mail")]
    let w : Json := .obj [("max_retry", .null), ("task_type", .str "mail")]
    let e : Envelope := ⟨none, "mail", .null, 4294967295⟩
    let holding (body : String) : Queues := ⟨0, [("q", ⟨[⟨1, 0, 0, body⟩], [], 1⟩)]⟩
    v.IsOrdered ∧ w.IsOrdered ∧ e.IsGivenBy v ∧ (∀ e : Envelope, ¬ e.IsGivenBy w) ∧
      (∃ d s₁, ((dequeue Queues.server {} ["q"]).run (holding v.compact)).Answers (some d) s₁ ∧
        d.IsMadeOf "q" ⟨1, 1, v.compact⟩ e) ∧
      ∃ reason, .notice (.unroutable "q" 1 reason) ∈
        ((dequeue Queues.server.minuted {} ["q"]).run (holding w.compact, [])).events := by
  intro v w e holding
  have hvordered : v.IsOrdered := by
    refine .obj (Named.isOrdered_iff.mpr (by decide)) ?_
    simp only [List.forall_mem_cons]
    exact ⟨.arr (List.forall_mem_singleton.mpr .int), .int, .null, .str, nofun⟩
  have hwordered : w.IsOrdered := by
    refine .obj (Named.isOrdered_iff.mpr (by decide)) ?_
    simp only [List.forall_mem_cons]
    exact ⟨.null, .str, nofun⟩
  have hvread : Json.read v.compact = .ok v := by
    refine Json.read_compact (.obj ?_) hvordered (by decide)
    simp only [List.forall_mem_cons]
    exact ⟨.arr (List.forall_mem_singleton.mpr (.int (by decide) (by decide))),
      .int (by decide) (by decide), .null, .str, nofun⟩
  have hwread : Json.read w.compact = .ok w := by
    refine Json.read_compact (.obj ?_) hwordered (by decide)
    simp only [List.forall_mem_cons]
    exact ⟨.null, .str, nofun⟩
  have hgiven : e.IsGivenBy v :=
    .object ⟨.inl ⟨.inr rfl, rfl⟩, rfl, rfl, .inr ⟨4294967295, by decide, rfl, rfl⟩⟩
  have hnone : ∀ e : Envelope, ¬ e.IsGivenBy w := by
    intro e' h
    rw [show w = .obj [("max_retry", .null), ("task_type", .str "mail")] from rfl] at h
    obtain ⟨-, -, -, ⟨hretry, -⟩ | ⟨n, -, hretry, -⟩⟩ := h
    · cases hretry
    · cases hretry
  obtain ⟨hdelivered, -⟩ := (dequeue_routes_envelopes hvordered).2 Queues.server {} "q" []
    (holding v.compact) _ ⟨1, 1, v.compact⟩ ⟨rfl, rfl⟩ hvread
  obtain ⟨-, harchived⟩ := (dequeue_routes_envelopes hwordered).2 Queues.server {} "q" []
    (holding w.compact) _ ⟨1, 1, w.compact⟩ ⟨rfl, rfl⟩ hwread
  obtain ⟨d, hanswers, hmade⟩ := hdelivered e hgiven
  exact ⟨hvordered, hwordered, hgiven, hnone, ⟨d, _, hanswers, hmade⟩, (harchived hnone).1⟩

end Messages

end TaskAudit

import Mathlib
import TaskAudit.Named

/-!
# Names in order

Values that were put under their names stand in the order of the names, no two under one name,
and each is the last one that was put there. Values that stand so already are left as they are.
-/
namespace TaskAudit.Named

variable {α : Type} {name : String} {a : α} {l : List (String × α)}

/-- Does every value stand under a name behind all those before it? -/
def IsOrdered (l : List (String × α)) : Prop := l.Pairwise fun p q => p.1 < q.1

theorem isOrdered_iff : IsOrdered l ↔ (l.map Prod.fst).Pairwise (· < ·) := List.pairwise_map.symm

theorem mem_insert {p : String × α} (h : p ∈ insert name a l) : p = (name, a) ∨ p ∈ l := by
  induction l with
  | nil => exact .inl (List.mem_singleton.mp h)
  | cons q rest ih =>
      obtain ⟨other, b⟩ := q
      rw [insert] at h
      split_ifs at h
      · exact List.mem_cons.mp h
      · rcases List.mem_cons.mp h with rfl | hrest
        · exact .inl rfl
        · exact .inr (List.mem_cons_of_mem _ hrest)
      · rcases List.mem_cons.mp h with rfl | hrest
        · exact .inr List.mem_cons_self
        · exact (ih hrest).imp_right (List.mem_cons_of_mem _)

/-- Under its name a value takes the place of the one before it, and the others stay. -/
theorem IsOrdered.mem_insert_iff (h : IsOrdered l) {p : String × α} :
    p ∈ insert name a l ↔ p = (name, a) ∨ p ∈ l ∧ p.1 ≠ name := by
  induction l with
  | nil => simp [Named.insert]
  | cons q rest ih =>
      obtain ⟨other, b⟩ := q
      obtain ⟨hfirst, hrest⟩ := List.pairwise_cons.mp h
      rw [Named.insert]
      split_ifs with hlt heq
      · have hother : ∀ p ∈ (other, b) :: rest, p.1 ≠ name := by
          intro p hp
          rcases List.mem_cons.mp hp with rfl | hp
          · exact ne_of_gt hlt
          · exact ne_of_gt (lt_trans hlt (hfirst p hp))
        rw [List.mem_cons]
        exact or_congr_right (iff_self_and.mpr (hother p))
      · subst heq
        have hother : p ∈ rest → p.1 ≠ name := fun hp => ne_of_gt (hfirst p hp)
        grind
      · rw [List.mem_cons, ih hrest]
        grind

theorem IsOrdered.insert (h : IsOrdered l) (name : String) (a : α) :
    IsOrdered (insert name a l) := by
  induction l with
  | nil => exact List.pairwise_singleton _ _
  | cons q rest ih =>
      obtain ⟨other, b⟩ := q
      obtain ⟨hfirst, hrest⟩ := List.pairwise_cons.mp h
      rw [Named.insert]
      split_ifs with hlt heq
      · refine List.pairwise_cons.mpr ⟨fun p hp => ?_, h⟩
        rcases List.mem_cons.mp hp with rfl | hp
        · exact hlt
        · exact lt_trans hlt (hfirst p hp)
      · subst heq
        exact List.pairwise_cons.mpr ⟨hfirst, hrest⟩
      · refine List.pairwise_cons.mpr ⟨fun p hp => ?_, ih hrest⟩
        rcases mem_insert hp with rfl | hp
        · exact lt_of_le_of_ne (not_lt.mp hlt) (Ne.symm heq)
        · exact hfirst p hp

theorem IsOrdered.nodup (h : IsOrdered l) : (l.map Prod.fst).Nodup :=
  List.pairwise_map.mpr (h.imp fun hlt => ne_of_lt hlt)

theorem find?_of_notMem (h : name ∉ l.map Prod.fst) : find? name l = none := by
  induction l with
  | nil => rfl
  | cons q rest ih =>
      rw [List.map_cons, List.mem_cons, not_or] at h
      rw [find?, if_neg h.1]
      exact ih h.2

theorem ofList_append (l l' : List (String × α)) :
    ofList (l ++ l') = l'.foldl (fun acc p => insert p.1 p.2 acc) (ofList l) := by
  rw [ofList, List.foldl_append]
  rfl

theorem isOrdered_ofList (l : List (String × α)) : IsOrdered (ofList l) := by
  induction l using List.reverseRecOn with
  | nil => exact List.Pairwise.nil
  | append_singleton l p ih =>
      rw [ofList_append]
      exact ih.insert p.1 p.2

/-- What is kept under a name is what was put there last. -/
theorem mem_ofList_iff {p : String × α} :
    p ∈ ofList l ↔ (l.filter fun q => q.1 = p.1).getLast? = some p := by
  induction l using List.reverseRecOn with
  | nil => exact ⟨nofun, nofun⟩
  | append_singleton l q ih =>
      rw [ofList_append, List.foldl_cons, List.foldl_nil, (isOrdered_ofList l).mem_insert_iff, ih,
        List.filter_append]
      by_cases hname : q.1 = p.1
      · rw [List.filter_cons_of_pos (by simpa using hname), List.filter_nil, List.getLast?_concat]
        constructor
        · rintro (rfl | ⟨-, hne⟩)
          · rfl
          · exact absurd hname.symm hne
        · exact fun h => .inl (Option.some.inj h).symm
      · rw [List.filter_cons_of_neg (by simpa using hname), List.filter_nil, List.append_nil]
        constructor
        · rintro (rfl | ⟨hlast, -⟩)
          · exact absurd rfl hname
          · exact hlast
        · exact fun hlast => .inr ⟨hlast, Ne.symm hname⟩

theorem mem_of_mem_ofList {p : String × α} (h : p ∈ ofList l) : p ∈ l :=
  List.mem_of_mem_filter (List.mem_of_getLast? (mem_ofList_iff.mp h))

theorem exists_mem_ofList {p : String × α} (h : p ∈ l) : ∃ q ∈ ofList l, q.1 = p.1 := by
  have hne : (l.filter fun q => q.1 = p.1) ≠ [] :=
    List.ne_nil_of_mem (List.mem_filter.mpr ⟨h, decide_eq_true rfl⟩)
  have hq := List.getLast?_eq_some_getLast hne
  generalize List.getLast _ hne = q at hq
  have hname : q.1 = p.1 := of_decide_eq_true (List.mem_filter.mp (List.mem_of_getLast? hq)).2
  exact ⟨q, mem_ofList_iff.mpr (hname ▸ hq), hname⟩

theorem mem_ofList_of_nodup (h : (l.map Prod.fst).Nodup) {p : String × α} :
    p ∈ ofList l ↔ p ∈ l := by
  refine ⟨mem_of_mem_ofList, fun hp => ?_⟩
  obtain ⟨q, hq, hname⟩ := exists_mem_ofList hp
  rwa [← List.inj_on_of_nodup_map h (mem_of_mem_ofList hq) hp hname]

/-- Only the order of what is put under the same name matters. -/
theorem ofList_perm {l' : List (String × α)}
    (h : ∀ name, l.filter (fun q => q.1 = name) = l'.filter (fun q => q.1 = name)) :
    (ofList l).Perm (ofList l') := by
  apply (List.perm_ext_iff_of_nodup (isOrdered_ofList l).nodup.of_map
    (isOrdered_ofList l').nodup.of_map).mpr
  intro p
  rw [mem_ofList_iff, mem_ofList_iff, h p.1]

theorem IsOrdered.eq_of_mem_iff {l' : List (String × α)} (h : IsOrdered l) (h' : IsOrdered l')
    (hmem : ∀ p, p ∈ l ↔ p ∈ l') : l = l' := by
  have hperm : l.Perm l' :=
    (List.perm_ext_iff_of_nodup h.nodup.of_map h'.nodup.of_map).mpr hmem
  exact hperm.eq_of_pairwise (fun p q _ _ hlt hgt => absurd hgt (lt_asymm hlt)) h h'

theorem IsOrdered.ofList_eq_of_perm {l' : List (String × α)} (h : IsOrdered l)
    (hperm : l'.Perm l) : ofList l' = l := by
  have hdistinct : (l'.map Prod.fst).Nodup := (hperm.map Prod.fst).nodup_iff.mpr h.nodup
  exact (isOrdered_ofList l').eq_of_mem_iff h fun p =>
    (mem_ofList_of_nodup hdistinct).trans hperm.mem_iff

theorem IsOrdered.ofList_eq (h : IsOrdered l) : ofList l = l := h.ofList_eq_of_perm (.refl l)

end TaskAudit.Named

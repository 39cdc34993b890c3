import Mathlib
import TaskAudit.Proofs.Named
import TaskAudit.Worker.Lottery
import TaskAudit.Worker.Plan

/-!
# Every queue is polled

The workers poll the queues of positive weight, in the order of their names, or the usual queue
if there are none. For each poll the queues are drawn one after another: a number below the sum
of the weights is picked, and the queue on which it falls is taken out. The sum of as many
weights as 32 bits can count fits into 64 bits and is positive as long as a queue is left. So
every number that may be picked falls on a queue, all the arithmetic is exact, and each queue is
drawn once.
-/
namespace TaskAudit

namespace Weights

def weight (queues : Weights) : ℕ := (queues.map fun q => q.2.toNat).sum

variable {q : String × UInt32} {queues queues' : Weights}

@[simp] theorem weight_nil : weight [] = 0 := rfl

@[simp] theorem weight_cons : weight (q :: queues) = q.2.toNat + weight queues := rfl

@[simp] theorem weight_append : weight (queues ++ queues') = weight queues + weight queues' := by
  rw [weight, List.map_append, List.sum_append]
  rfl

theorem weight_le_of_sublist (h : queues.Sublist queues') : weight queues ≤ weight queues' :=
  (h.map _).sum_le_sum fun _ _ => Nat.zero_le _

theorem weight_pos (hne : queues ≠ []) (hpositive : ∀ q ∈ queues, 0 < q.2) :
    0 < weight queues := by
  obtain ⟨q, rest, rfl⟩ := List.exists_cons_of_ne_nil hne
  have hfirst : 0 < q.2.toNat := UInt32.lt_iff_toNat_lt.mp (hpositive q List.mem_cons_self)
  exact Nat.add_pos_left hfirst (weight rest)

/-- As many weights as 32 bits can count have a sum of 64 bits. -/
theorem weight_lt_of_length_le (h : queues.length ≤ 2 ^ 32) : weight queues < 2 ^ 64 := by
  have hbound : ∀ w ∈ queues.map fun q => q.2.toNat, w ≤ 2 ^ 32 - 1 := by
    intro w hw
    obtain ⟨q, -, rfl⟩ := List.mem_map.mp hw
    exact Nat.le_sub_one_of_lt q.2.toNat_lt
  have hsum : weight queues ≤ queues.length * (2 ^ 32 - 1) := by
    have h := List.sum_le_card_nsmul _ _ hbound
    rwa [List.length_map, smul_eq_mul] at h
  omega

variable {p : String × UInt32}

theorem Precedes.lt_of_ne (h : Precedes p q) (hne : p.1 ≠ q.1) : p.1 < q.1 := by
  rcases h with hlt | ⟨heq, -⟩
  · exact hlt
  · exact absurd heq hne

theorem Precedes.antisymm (h : Precedes p q) (h' : Precedes q p) : p = q := by
  rcases h with hlt | ⟨hname, hle⟩
  · rcases h' with hgt | ⟨hname, -⟩
    · exact absurd hgt (lt_asymm hlt)
    · exact absurd hname.symm (ne_of_lt hlt)
  · rcases h' with hgt | ⟨-, hge⟩
    · exact absurd hname.symm (ne_of_lt hgt)
    · exact Prod.ext hname (UInt32.le_antisymm hle hge)

instance : Std.Total Precedes where
  total p q := by
    rcases lt_trichotomy p.1 q.1 with hlt | heq | hgt
    · exact .inl (.inl hlt)
    · exact (UInt32.le_total p.2 q.2).imp (fun hle => .inr ⟨heq, hle⟩) fun hge => .inr ⟨heq.symm, hge⟩
    · exact .inr (.inl hgt)

instance : IsTrans (String × UInt32) Precedes where
  trans p q r h h' := by
    rcases h with hlt | ⟨hname, hle⟩
    · rcases h' with hlt' | ⟨hname', -⟩
      · exact .inl (lt_trans hlt hlt')
      · exact .inl (hname' ▸ hlt)
    · rcases h' with hlt' | ⟨hname', hle'⟩
      · exact .inl (hname ▸ hlt')
      · exact .inr ⟨hname.trans hname', UInt32.le_trans hle hle'⟩

theorem sort_eq_insertionSort (queues : Weights) :
    sort queues = queues.insertionSort Precedes := by
  have hinsert : ∀ q queues, insert q queues = queues.orderedInsert Precedes q := by
    intro q queues
    induction queues with
    | nil => rfl
    | cons p rest ih => rw [insert, List.orderedInsert, ih]
  induction queues with
  | nil => rfl
  | cons q rest ih => rw [sort, List.insertionSort_cons, ih, hinsert]

theorem sort_perm (queues : Weights) : (sort queues).Perm queues := by
  rw [sort_eq_insertionSort]
  exact List.perm_insertionSort Precedes queues

theorem sort_pairwise (queues : Weights) : (sort queues).Pairwise Precedes := by
  rw [sort_eq_insertionSort]
  exact List.pairwise_insertionSort Precedes queues

theorem isOrdered_sort (h : (queues.map Prod.fst).Nodup) : Named.IsOrdered (sort queues) := by
  have hdistinct : (sort queues).Pairwise fun p q => p.1 ≠ q.1 :=
    List.pairwise_map.mp (((sort_perm queues).map Prod.fst).nodup_iff.mpr h)
  exact (sort_pairwise queues).imp₂ (fun _ _ hle hne => hle.lt_of_ne hne) hdistinct

/-- The order in which a map is gone through leaves no trace after sorting. -/
theorem sort_eq_of_perm (h : queues.Perm queues') : sort queues = sort queues' := by
  have hperm := ((sort_perm queues).trans h).trans (sort_perm queues').symm
  exact hperm.eq_of_pairwise (fun p q _ _ => Precedes.antisymm) (sort_pairwise queues)
    (sort_pairwise queues')

end Weights

namespace Worker
open Weights

variable {q : String × UInt32} {queues : Weights} {pick : UInt64} {n place : ℕ}

theorem toNat_total (h : weight queues < 2 ^ 64) : (total queues).toNat = weight queues := by
  induction queues with
  | nil => rfl
  | cons q queues ih =>
      rw [weight_cons] at h
      have hrest : (total queues).toNat = weight queues := ih (by omega)
      have hsplit : total (q :: queues) = q.2.toUInt64 + total queues := rfl
      rw [hsplit, UInt64.toNat_add, UInt32.toNat_toUInt64, hrest, Nat.mod_eq_of_lt h, weight_cons]

/-- The place of the queue on which a number falls, if the queues lie end to end and each is as
long as its weight. A weight is only taken from a number that is not smaller. -/
inductive Finds : ℕ → Weights → ℕ → Prop where
  | here {n : ℕ} {q : String × UInt32} {queues : Weights} (h : n < q.2.toNat) :
    Finds n (q :: queues) 0
  | further {n place : ℕ} {q : String × UInt32} {queues : Weights} (h : q.2.toNat ≤ n)
    (hrest : Finds (n - q.2.toNat) queues place) : Finds n (q :: queues) (place + 1)

theorem choose_eq_some_iff : choose pick queues = some place ↔ Finds pick.toNat queues place := by
  induction queues generalizing pick place with
  | nil => exact ⟨nofun, nofun⟩
  | cons q queues ih =>
      rw [choose]
      by_cases hlt : pick < q.2.toUInt64
      · have hnat : pick.toNat < q.2.toNat := by
          rwa [UInt64.lt_iff_toNat_lt, UInt32.toNat_toUInt64] at hlt
        rw [if_pos hlt, Option.some_inj]
        constructor
        · rintro rfl
          exact .here hnat
        · intro hfinds
          cases hfinds with
          | here _ => rfl
          | further hle _ => omega
      · have hle : q.2.toUInt64 ≤ pick := UInt64.not_lt.mp hlt
        have hnat : q.2.toNat ≤ pick.toNat := by
          rwa [UInt64.le_iff_toNat_le, UInt32.toNat_toUInt64] at hle
        have hsub : (pick - q.2.toUInt64).toNat = pick.toNat - q.2.toNat := by
          rw [UInt64.toNat_sub_of_le _ _ hle, UInt32.toNat_toUInt64]
        rw [if_neg hlt, Option.map_eq_some_iff]
        constructor
        · rintro ⟨further, hfurther, rfl⟩
          have hrest := ih.mp hfurther
          rw [hsub] at hrest
          exact .further hnat hrest
        · intro hfinds
          cases hfinds with
          | here hlt => omega
          | further _ hrest =>
              rw [← hsub] at hrest
              exact ⟨_, ih.mpr hrest, rfl⟩

theorem Finds.lt_length (h : Finds n queues place) : place < queues.length := by
  induction h with
  | here _ => exact Nat.succ_pos _
  | further _ _ ih => exact Nat.succ_lt_succ ih

theorem exists_finds (h : n < weight queues) : ∃ place, Finds n queues place := by
  induction queues generalizing n with
  | nil => exact absurd h (Nat.not_lt_zero n)
  | cons q queues ih =>
      rw [weight_cons] at h
      by_cases hlt : n < q.2.toNat
      · exact ⟨0, .here hlt⟩
      · have hle : q.2.toNat ≤ n := not_lt.mp hlt
        obtain ⟨place, hplace⟩ := ih (n := n - q.2.toNat) (by omega)
        exact ⟨place + 1, .further hle hplace⟩

variable {σ : Type} {sample : UInt64 → σ → UInt64 × σ} {s s' : σ} {names : List String}

/-- Does a sampler that is asked for a number below a positive bound give one? -/
def StaysBelow (sample : UInt64 → σ → UInt64 × σ) : Prop :=
  ∀ bound s, 0 < bound → (sample bound s).1 < bound

/-- Drawing the queues one after another. The sum of the weights is exact and positive, the
number that is picked is below it, and it falls on the queue that is taken out. -/
inductive Draws (sample : UInt64 → σ → UInt64 × σ) : Weights → σ → List String → σ → Prop where
  | done {s : σ} : Draws sample [] s [] s
  | draw {queues : Weights} {s s₁ s₂ : σ} {pick : UInt64} {place : ℕ} {q : String × UInt32}
    {names : List String} (htotal : (total queues).toNat = weight queues)
    (hrange : 0 < total queues) (hsample : sample (total queues) s = (pick, s₁))
    (hpick : pick < total queues) (hchoose : choose pick queues = some place)
    (hfinds : Finds pick.toNat queues place) (hplace : queues[place]? = some q)
    (hrest : Draws sample (queues.eraseIdx place) s₁ names s₂) :
    Draws sample queues s (q.1 :: names) s₂

/-- One draw, and the draws of the queues that are left. -/
theorem arrange_succ (hchoose : choose (sample (total queues) s).1 queues = some place)
    (hplace : queues[place]? = some q) :
    arrange sample (n + 1) queues s =
      let e := arrange sample n (queues.eraseIdx place) (sample (total queues) s).2
      (q.1 :: e.1, e.2) := by
  simp only [arrange, hchoose, Option.getD_some, hplace]

theorem arrange_draws (hsample : StaysBelow sample) (hpositive : ∀ q ∈ queues, 0 < q.2)
    (hweight : weight queues < 2 ^ 64) (s : σ) :
    Draws sample queues s (arrange sample queues.length queues s).1
      (arrange sample queues.length queues s).2 := by
  generalize hn : queues.length = n
  induction n generalizing queues s with
  | zero =>
      obtain rfl := List.length_eq_zero_iff.mp hn
      exact .done
  | succ n ih =>
      have hne : queues ≠ [] := List.ne_nil_of_length_eq_add_one hn
      have htotal := toNat_total hweight
      have hrange : 0 < total queues := by
        rw [UInt64.lt_iff_toNat_lt, htotal]
        exact weight_pos hne hpositive
      have hpick := hsample (total queues) s hrange
      have hbelow : (sample (total queues) s).1.toNat < weight queues := by
        rwa [UInt64.lt_iff_toNat_lt, htotal] at hpick
      obtain ⟨place, hfinds⟩ := exists_finds hbelow
      have hchoose := choose_eq_some_iff.mpr hfinds
      have hlt : place < queues.length := hfinds.lt_length
      have hplace : queues[place]? = some queues[place] := List.getElem?_eq_getElem hlt
      have hsublist := List.eraseIdx_sublist queues place
      have hlength : (queues.eraseIdx place).length = n := by
        rw [List.length_eraseIdx_of_lt hlt, hn, Nat.add_sub_cancel]
      have hrest := ih (fun q hq => hpositive q (hsublist.mem hq))
        ((weight_le_of_sublist hsublist).trans_lt hweight) (sample (total queues) s).2 hlength
      rw [arrange_succ hchoose hplace]
      exact .draw htotal hrange rfl hpick hchoose hfinds hplace hrest

theorem Draws.perm (h : Draws sample queues s names s') : names.Perm (queues.map Prod.fst) := by
  induction h with
  | done => exact .nil
  | @draw queues s s₁ s₂ pick place q names _ _ _ _ _ hfinds hplace _ ih =>
      have hlt : place < queues.length := hfinds.lt_length
      have hq : queues[place] = q := by
        rw [List.getElem?_eq_getElem hlt] at hplace
        exact Option.some_inj.mp hplace
      have htaken : (q :: queues.eraseIdx place).Perm queues :=
        hq ▸ List.getElem_cons_eraseIdx_perm hlt
      calc (q.1 :: names).Perm (q.1 :: (queues.eraseIdx place).map Prod.fst) := ih.cons _
        _ = (q :: queues.eraseIdx place).map Prod.fst := rfl
        _ |>.Perm (queues.map Prod.fst) := htaken.map _

theorem mem_arrange {name : String} (h : name ∈ (arrange sample n queues s).1) :
    name ∈ queues.map Prod.fst := by
  induction n generalizing queues s with
  | zero => cases h
  | succ n ih =>
      simp only [arrange] at h
      split at h
      · cases h
      · next q hq =>
        rcases List.mem_cons.mp h with rfl | h
        · exact List.mem_map_of_mem (List.mem_of_getElem? hq)
        · exact ((List.eraseIdx_sublist _ _).map Prod.fst).mem (ih h)

theorem mem_pollingOrder {words : Words} {name : String}
    (h : name ∈ (pollingOrder queues words).1) : name ∈ queues.map Prod.fst :=
  mem_arrange h

theorem fair?_lt {bound word : UInt64} (h : fair? bound word = some pick) (hbound : 0 < bound) :
    pick < bound := by
  have hpositive : 0 < bound.toNat := UInt64.lt_iff_toNat_lt.mp hbound
  have hquotient : word.toNat * bound.toNat / Nat.pow 2 64 < bound.toNat := by
    rw [Nat.div_lt_iff_lt_mul (by decide), Nat.mul_comm bound.toNat]
    exact Nat.mul_lt_mul_of_pos_right word.toNat_lt hpositive
  obtain ⟨-, hpick⟩ := Option.ite_none_right_eq_some.mp h
  obtain rfl := Option.some_inj.mp hpick
  rw [UInt64.lt_iff_toNat_lt, UInt64.toNat_ofNat_of_lt' (hquotient.trans bound.toNat_lt)]
  exact hquotient

theorem drawFrom_lt {bound : UInt64} (hbound : 0 < bound) (taken : ℕ) (ahead : List UInt64) :
    (drawFrom bound taken ahead).1 < bound := by
  induction ahead generalizing taken with
  | nil => exact hbound
  | cons word rest ih =>
      rw [drawFrom]
      cases hfair : fair? bound word with
      | none => exact ih (taken + 1)
      | some pick => exact fair?_lt hfair hbound

theorem drawBelow_staysBelow : StaysBelow drawBelow :=
  fun _ words hbound => drawFrom_lt hbound words.taken words.ahead

theorem polled_cases (entries : Weights) :
    ((∃ q ∈ entries, 0 < q.2) ∧ (polled entries).Perm (entries.filter (0 < ·.2))) ∨
      (¬ ∃ q ∈ entries, 0 < q.2) ∧ polled entries = [(defaultQueue, 1)] := by
  simp only [polled]
  have hnone : entries.filter (0 < ·.2) = [] ↔ ¬ ∃ q ∈ entries, 0 < q.2 := by
    simp [List.filter_eq_nil_iff]
  by_cases hempty : entries.filter (0 < ·.2) = []
  · rw [if_pos hempty]
    exact .inr ⟨hnone.mp hempty, rfl⟩
  · rw [if_neg hempty]
    exact .inl ⟨not_not.mp (hnone.not.mp hempty), sort_perm _⟩

/-- The order in which the map is gone through does not matter. -/
theorem polled_eq_of_perm {entries entries' : Weights} (h : entries.Perm entries') :
    polled entries = polled entries' := by
  have hpositive := h.filter (0 < ·.2)
  simp only [polled]
  refine sort_eq_of_perm ?_
  by_cases hempty : entries.filter (0 < ·.2) = []
  · rw [if_pos hempty, if_pos (hempty ▸ hpositive).nil_eq.symm]
  · rw [if_neg hempty, if_neg fun hempty' => hempty (hempty' ▸ hpositive).eq_nil]
    exact hpositive

/-- Queues that can be polled: there are some, each has a name behind those before it, and each
has a positive weight. -/
structure IsPollable (queues : Weights) : Prop where
  nonempty : queues ≠ []
  ordered : Named.IsOrdered queues
  positive : ∀ q ∈ queues, 0 < q.2

theorem polled_isPollable {entries : Weights} (h : (entries.map Prod.fst).Nodup) :
    IsPollable (polled entries) := by
  have hordered : Named.IsOrdered (polled entries) := by
    apply isOrdered_sort
    split_ifs
    · exact List.nodup_singleton _
    · exact h.sublist (List.filter_sublist.map Prod.fst)
  rcases polled_cases entries with ⟨⟨q, hq, hpositive⟩, hpolled⟩ | ⟨-, hpolled⟩
  · constructor
    case nonempty =>
      have hmem := hpolled.mem_iff.mpr (List.mem_filter.mpr ⟨hq, decide_eq_true hpositive⟩)
      exact List.ne_nil_of_mem hmem
    case ordered => exact hordered
    case positive =>
      intro q hq
      exact of_decide_eq_true (List.mem_filter.mp (hpolled.mem_iff.mp hq)).2
  · constructor
    case nonempty =>
      rw [hpolled]
      exact List.cons_ne_nil _ _
    case ordered => exact hordered
    case positive =>
      rw [hpolled]
      simp

/-- From any settings, with the entries of the map in any order, a plan gets queues that can be
polled: those of positive weight by name, or the usual one. Whatever numbers a sampler picks
below the bounds that it is given, every sum of the draws is exact, every bound is positive,
every number falls on a queue, and each name is drawn once. -/
theorem polls_every_queue_once (settings : Settings)
    (hnames : (settings.queues.map Prod.fst).Nodup) :
    let planned := (plan settings).queues
    IsPollable planned ∧
      ((∃ q ∈ settings.queues, 0 < q.2) ∧ (∀ q, q ∈ planned ↔ q ∈ settings.queues ∧ 0 < q.2) ∨
        (¬ ∃ q ∈ settings.queues, 0 < q.2) ∧ planned = [("default", 1)]) ∧
      StaysBelow drawBelow ∧
      ∀ (σ : Type) (sample : UInt64 → σ → UInt64 × σ), StaysBelow sample →
        ∀ queues : Weights, IsPollable queues → queues.length ≤ 2 ^ 32 → ∀ s,
          let e := arrange sample queues.length queues s
          Draws sample queues s e.1 e.2 ∧ e.1.Perm (queues.map Prod.fst) ∧ e.1.Nodup := by
  intro planned
  have hplanned : planned = polled settings.queues := rfl
  refine ⟨polled_isPollable hnames, ?_, drawBelow_staysBelow, ?_⟩
  · rw [hplanned]
    rcases polled_cases settings.queues with ⟨hsome, hpolled⟩ | ⟨hnone, hpolled⟩
    · refine .inl ⟨hsome, fun q => ?_⟩
      rw [hpolled.mem_iff, List.mem_filter, decide_eq_true_eq]
    · exact .inr ⟨hnone, hpolled⟩
  · intro σ sample hsample queues hqueues hlength s e
    have hdraws : Draws sample queues s e.1 e.2 :=
      arrange_draws hsample hqueues.positive (weight_lt_of_length_le hlength) s
    exact ⟨hdraws, hdraws.perm, hdraws.perm.nodup_iff.mpr hqueues.ordered.nodup⟩

/-- A map that is not gone through in the order of its names: a queue without weight, and behind
it two with weights. The largest of all words is rejected before the first draw. -/
theorem polls_every_queue_once_of_three :
    let settings : Settings := { queues := [("mail", 0), ("low", 3), ("high", 4294967295)] }
    let planned := (plan settings).queues
    let words : Words := ⟨[18446744073709551615, 18446744071132571240], 0⟩
    (settings.queues.map Prod.fst).Nodup ∧
      planned = [("high", 4294967295), ("low", 3)] ∧ IsPollable planned ∧
      planned.length ≤ 2 ^ 32 ∧ StaysBelow drawBelow ∧
      pollingOrder planned words = (["low", "high"], ⟨[], 3⟩) ∧
      Draws drawBelow planned words ["low", "high"] ⟨[], 3⟩ := by
  intro settings planned words
  have hnames : (settings.queues.map Prod.fst).Nodup := by decide
  have hplanned : planned = [("high", 4294967295), ("low", 3)] := by decide +kernel
  have horder : pollingOrder planned words = (["low", "high"], ⟨[], 3⟩) := by decide +kernel
  have hlength : planned.length ≤ 2 ^ 32 := by
    rw [hplanned]
    decide
  obtain ⟨hpollable, -, hsample, hdraws⟩ := polls_every_queue_once settings hnames
  have hdrawn := (hdraws Words drawBelow hsample planned hpollable hlength words).1
  rw [show arrange drawBelow planned.length planned words = _ from horder] at hdrawn
  exact ⟨hnames, hplanned, hpollable, hlength, hsample, horder, hdrawn⟩

end Worker

end TaskAudit

import Mathlib
import TaskAudit.Proofs.Worker.Polling

/-!
# Queues are drawn by weight

A sampler that picks every number below its bound equally often draws the queues by their
weights: of the numbers below the sum, as many fall on a queue as its weight says, whatever
queues were taken out before. So the sequences of numbers that draw the queues in a given order
are as many as the product of the weights, for each order.
-/
namespace TaskAudit.Worker
open Weights

variable {q : String × UInt32} {queues before after : Weights} {pick : UInt64}
  {picks : List UInt64} {name : String} {names : List String} {n place : ℕ}

/-- The numbers that fall on a queue are those between the sums of the weights up to it. -/
theorem finds_append_iff :
    Finds n (before ++ q :: after) before.length ↔
      weight before ≤ n ∧ n < weight before + q.2.toNat := by
  induction before generalizing n with
  | nil =>
      simp only [List.nil_append, List.length_nil, weight_nil, Nat.zero_le, zero_add, true_and]
      constructor
      · rintro ⟨hlt⟩
        assumption
      · exact .here
  | cons first before ih =>
      rw [weight_cons]
      constructor
      · intro hfinds
        cases hfinds with
        | further hle hrest =>
            have hbounds := ih.mp hrest
            omega
      · rintro ⟨hle, hlt⟩
        exact .further (by omega) (ih.mpr (by omega))

theorem ncard_between {a b : ℕ} (hb : b ≤ 2 ^ 64) :
    {pick : UInt64 | a ≤ pick.toNat ∧ pick.toNat < b}.ncard = b - a := by
  have hinjective : Function.Injective UInt64.toNat := fun _ _ => UInt64.toNat_inj.mp
  have himage : UInt64.toNat '' {pick | a ≤ pick.toNat ∧ pick.toNat < b} = Finset.Ico a b := by
    ext m
    rw [Finset.coe_Ico, Set.mem_Ico]
    constructor
    · rintro ⟨pick, hpick, rfl⟩
      exact hpick
    · intro hm
      have hm64 : (UInt64.ofNat m).toNat = m := UInt64.toNat_ofNat_of_lt' (hm.2.trans_le hb)
      exact ⟨UInt64.ofNat m, by rwa [Set.mem_ofPred_eq, hm64], hm64⟩
  rw [← Set.ncard_image_of_injective _ hinjective, himage, Set.ncard_coe_finset, Nat.card_Ico]

theorem ncard_choosing (h : weight (before ++ q :: after) < 2 ^ 64) :
    {pick | pick < total (before ++ q :: after) ∧
      choose pick (before ++ q :: after) = some before.length}.ncard = q.2.toNat := by
  have hsame : {pick | pick < total (before ++ q :: after) ∧
      choose pick (before ++ q :: after) = some before.length} =
        {pick | weight before ≤ pick.toNat ∧ pick.toNat < weight before + q.2.toNat} := by
    ext pick
    rw [Set.mem_ofPred_eq, Set.mem_ofPred_eq, choose_eq_some_iff, finds_append_iff,
      UInt64.lt_iff_toNat_lt, toNat_total h, and_iff_right_iff_imp, weight_append, weight_cons]
    omega
  rw [weight_append, weight_cons] at h
  rw [hsame, ncard_between (by omega), Nat.add_sub_cancel_left]

theorem ncard_below_total (h : weight queues < 2 ^ 64) :
    {pick | pick < total queues}.ncard = weight queues := by
  have hsame : {pick | pick < total queues} =
      {pick | 0 ≤ pick.toNat ∧ pick.toNat < weight queues} := by
    ext pick
    rw [Set.mem_ofPred_eq, Set.mem_ofPred_eq, UInt64.lt_iff_toNat_lt, toNat_total h,
      and_iff_right (Nat.zero_le _)]
  rw [hsame, ncard_between h.le, Nat.sub_zero]

/-- Numbers to be picked, and the bounds for which numbers were asked so far. -/
structure Hand where
  ahead : List UInt64
  bounds : List UInt64 := []
  deriving DecidableEq, Repr

/-- Picks the next number, whatever the bound. -/
def Hand.deal (bound : UInt64) (hand : Hand) : UInt64 × Hand :=
  (hand.ahead.headD 0, ⟨hand.ahead.tail, hand.bounds ++ [bound]⟩)

/-- The sequences of numbers that draw the queues in an order, with one number for each draw and
each below the bound of its draw. -/
def sequences (queues : Weights) (names : List String) : Set (List UInt64) :=
  {picks |
    let e := arrange Hand.deal queues.length queues ⟨picks, []⟩
    e.1 = names ∧ List.Forall₂ (· < ·) picks e.2.bounds}

/-- Bounds of earlier draws make no difference. -/
theorem arrange_deal (n : ℕ) (queues : Weights) (picks bounds : List UInt64) :
    arrange Hand.deal n queues ⟨picks, bounds⟩ =
      let e := arrange Hand.deal n queues ⟨picks, []⟩
      (e.1, ⟨e.2.ahead, bounds ++ e.2.bounds⟩) := by
  induction n generalizing queues picks bounds with
  | zero => simp [arrange]
  | succ n ih =>
      simp only [arrange, Hand.deal, List.nil_append]
      cases queues[(choose (picks.headD 0) queues).getD (queues.length - 1)]? with
      | none => rfl
      | some q =>
          simp only [ih _ _ (bounds ++ [total queues]), ih _ _ [total queues], List.append_assoc]

theorem cons_mem_sequences_iff (hfinds : Finds pick.toNat queues place)
    (hplace : queues[place]? = some q) :
    pick :: picks ∈ sequences queues (name :: names) ↔
      pick < total queues ∧ q.1 = name ∧ picks ∈ sequences (queues.eraseIdx place) names := by
  have hlt : place < queues.length := hfinds.lt_length
  have hlength : queues.length = (queues.eraseIdx place).length + 1 := by
    rw [List.length_eraseIdx_of_lt hlt]
    omega
  have hrun : arrange Hand.deal ((queues.eraseIdx place).length + 1) queues ⟨pick :: picks, []⟩ =
      _ := arrange_succ (choose_eq_some_iff.mpr hfinds) hplace
  simp only [Hand.deal, List.tail_cons, List.nil_append] at hrun
  rw [sequences, Set.mem_ofPred_eq, hlength, hrun, arrange_deal]
  simp only [List.singleton_append, List.cons.injEq, List.forall₂_cons]
  exact ⟨fun h => ⟨h.2.1, h.1.1, h.1.2, h.2.2⟩, fun h => ⟨⟨h.2.1, h.2.2.1⟩, h.1, h.2.2.2⟩⟩

theorem exists_bounds (hne : queues ≠ []) (picks : List UInt64) :
    ∃ rest, (arrange Hand.deal queues.length queues ⟨picks, []⟩).2.bounds =
      total queues :: rest := by
  obtain ⟨n, hn⟩ := Nat.exists_eq_succ_of_ne_zero (mt List.length_eq_zero_iff.mp hne)
  rw [hn]
  simp only [arrange, Hand.deal, List.nil_append]
  split
  · exact ⟨[], rfl⟩
  · rw [arrange_deal]
    exact ⟨_, rfl⟩

theorem exists_cons_of_mem_sequences (hne : queues ≠ []) (h : picks ∈ sequences queues names) :
    ∃ pick rest, picks = pick :: rest ∧ pick < total queues := by
  obtain ⟨bounds, hbounds⟩ := exists_bounds hne picks
  have hbelow := h.2
  rw [hbounds] at hbelow
  cases hbelow with
  | cons hpick _ => exact ⟨_, _, rfl, hpick⟩

/-- The queue that comes first is drawn by the numbers that fall on it, and the others are drawn
as if it had not been there. -/
theorem sequences_eq_image (hdistinct : ((before ++ q :: after).map Prod.fst).Nodup)
    (hweight : weight (before ++ q :: after) < 2 ^ 64) :
    sequences (before ++ q :: after) (q.1 :: names) =
      (fun s : UInt64 × List UInt64 => s.1 :: s.2) ''
        ({pick | pick < total (before ++ q :: after) ∧
            choose pick (before ++ q :: after) = some before.length} ×ˢ
          sequences (before ++ after) names) := by
  have hown : (before ++ q :: after)[before.length]? = some q := by simp
  have hrest : (before ++ q :: after).eraseIdx before.length = before ++ after := by
    rw [List.eraseIdx_append_of_length_le le_rfl, Nat.sub_self]
    rfl
  ext picks
  constructor
  · intro hmem
    obtain ⟨pick, picks, rfl, hpick⟩ := exists_cons_of_mem_sequences (by simp) hmem
    have hbelow : pick.toNat < weight (before ++ q :: after) := by
      rwa [UInt64.lt_iff_toNat_lt, toNat_total hweight] at hpick
    obtain ⟨place, hfinds⟩ := exists_finds hbelow
    have hlt := hfinds.lt_length
    obtain ⟨-, hname, hpicks⟩ :=
      (cons_mem_sequences_iff hfinds (List.getElem?_eq_getElem hlt)).mp hmem
    -- the names are distinct, so the name tells the place
    have hsame : ((before ++ q :: after).map Prod.fst)[place]? =
        ((before ++ q :: after).map Prod.fst)[before.length]? := by
      rw [List.getElem?_map, List.getElem?_map, hown, List.getElem?_eq_getElem hlt,
        Option.map_some, hname, Option.map_some]
    obtain rfl := (List.getElem?_inj (by rwa [List.length_map]) hdistinct).mp hsame
    rw [hrest] at hpicks
    exact ⟨(pick, picks), ⟨⟨hpick, choose_eq_some_iff.mpr hfinds⟩, hpicks⟩, rfl⟩
  · rintro ⟨⟨pick, picks⟩, ⟨⟨hpick, hchoose⟩, hpicks⟩, rfl⟩
    rw [← hrest] at hpicks
    exact (cons_mem_sequences_iff (choose_eq_some_iff.mp hchoose) hown).mpr ⟨hpick, rfl, hpicks⟩

theorem ncard_sequences {order : Weights} (horder : order.Perm queues)
    (hdistinct : (queues.map Prod.fst).Nodup) (hweight : weight queues < 2 ^ 64) :
    (sequences queues (order.map Prod.fst)).ncard = (order.map fun q => q.2.toNat).prod := by
  induction order generalizing queues with
  | nil =>
      obtain rfl := List.nil_perm.mp horder
      have hempty : sequences [] [] = {[]} := by
        ext picks
        simp [sequences, arrange]
      rw [List.map_nil, hempty, Set.ncard_singleton]
      rfl
  | cons q order ih =>
      obtain ⟨before, after, rfl⟩ := List.append_of_mem (horder.mem_iff.mp List.mem_cons_self)
      have hperm : order.Perm (before ++ after) := (horder.trans List.perm_middle).cons_inv
      have hsublist : (before ++ after).Sublist (before ++ q :: after) :=
        (List.Sublist.refl before).append (List.sublist_cons_self q after)
      have hcount := ih hperm ((hsublist.map Prod.fst).nodup hdistinct)
        ((weight_le_of_sublist hsublist).trans_lt hweight)
      have hinjective : Function.Injective fun s : UInt64 × List UInt64 => s.1 :: s.2 := by
        intro s t h
        exact Prod.ext (List.cons.inj h).1 (List.cons.inj h).2
      rw [List.map_cons, sequences_eq_image hdistinct hweight,
        Set.ncard_image_of_injective _ hinjective, Set.ncard_prod, ncard_choosing hweight, hcount,
        List.map_cons, List.prod_cons]

/-- Of the sequences of numbers, each below the sum of the weights that are left, as many draw the
queues in one order as in any other: the product of the weights. At each draw, whatever is left,
the numbers below the sum are as many as the weights together, and those that take out one queue
as many as its weight. -/
theorem draws_by_weight (queues : Weights) (hdistinct : (queues.map Prod.fst).Nodup)
    (hweight : weight queues < 2 ^ 64) :
    (∀ order : Weights, order.Perm queues →
      (sequences queues (order.map Prod.fst)).ncard = (queues.map fun q => q.2.toNat).prod) ∧
      ∀ before q after, (before ++ q :: after).Sublist queues →
        {pick | pick < total (before ++ q :: after)}.ncard = weight (before ++ q :: after) ∧
          {pick | pick < total (before ++ q :: after) ∧
            choose pick (before ++ q :: after) = some before.length}.ncard = q.2.toNat := by
  constructor
  · intro order horder
    rw [ncard_sequences horder hdistinct hweight]
    exact (horder.map _).prod_eq
  · intro before q after hleft
    have hfits := (weight_le_of_sublist hleft).trans_lt hweight
    exact ⟨ncard_below_total hfits, ncard_choosing hfits⟩

/-- Three queues, drawn from the lightest to the heaviest. -/
theorem draws_by_weight_of_three :
    let queues : Weights := [("high", 6), ("low", 1), ("mail", 3)]
    let order : Weights := [("low", 1), ("mail", 3), ("high", 6)]
    (queues.map Prod.fst).Nodup ∧ weight queues < 2 ^ 64 ∧ order.Perm queues ∧
      [6, 8, 5] ∈ sequences queues ["low", "mail", "high"] ∧
      (sequences queues ["low", "mail", "high"]).ncard = 18 ∧
      List.Sublist [("high", 6), ("mail", 3)] queues ∧
      {pick | pick < total [("high", 6), ("mail", 3)] ∧
        choose pick [("high", 6), ("mail", 3)] = some 1}.ncard = 3 := by
  intro queues order
  have hdistinct : (queues.map Prod.fst).Nodup := by decide
  have hweight : weight queues < 2 ^ 64 := by decide
  have horder : order.Perm queues := by decide
  have hleft : List.Sublist [("high", 6), ("mail", 3)] queues := by decide
  have hrun : arrange Hand.deal queues.length queues ⟨[6, 8, 5], []⟩ =
      (["low", "mail", "high"], ⟨[], [10, 9, 6]⟩) := by
    decide +kernel
  have hmem : [6, 8, 5] ∈ sequences queues ["low", "mail", "high"] := by
    rw [sequences, Set.mem_ofPred_eq, hrun]
    exact ⟨rfl, .cons (by decide) (.cons (by decide) (.cons (by decide) .nil))⟩
  obtain ⟨hcount, hstep⟩ := draws_by_weight queues hdistinct hweight
  exact ⟨hdistinct, hweight, horder, hmem, hcount order horder, hleft,
    (hstep [("high", 6)] ("mail", 3) [] hleft).2⟩

end TaskAudit.Worker

import Mathlib.Data.List.Basic

/-
  Lists sorted by a falling number.

  A list is sorted by a number that each of its elements has, the largest first, and
  elements with the same number stay in order. This says all there is to say of the
  result: where the elements of a list stand in an order of their own, the sorted list is
  the only one with the same elements that keeps that order among equal numbers
  (`eq_byFalling_iff`).

  The sort keeps the elements with one number as they are (`filter_byFalling`), which
  gives the order of equal ones (`pairwise_byFalling`). Only comparisons of the numbers
  count, so that the list may be mapped before or after (`map_byFalling`).
-/

namespace LoudHeaders

variable {α β : Type} {key : α → Nat} {l : List α}

/-- The list by falling `key`; elements with the same stay in order. -/
def byFalling (key : α → Nat) (l : List α) : List α :=
  l.mergeSort fun a b => decide (key b ≤ key a)

/-- In front by a larger number, or by an order of their own where the numbers are the
same. -/
def Ahead (key : α → Nat) (R : α → α → Prop) (a b : α) : Prop :=
  key b < key a ∨ key b = key a ∧ R a b

theorem byFalling_perm (key : α → Nat) (l : List α) : (byFalling key l).Perm l :=
  List.mergeSort_perm l _

theorem falling_trans (a b c : α) (hab : decide (key b ≤ key a) = true)
    (hbc : decide (key c ≤ key b) = true) : decide (key c ≤ key a) = true := by
  simp only [decide_eq_true_eq] at *
  omega

theorem falling_total (a b : α) :
    (decide (key b ≤ key a) || decide (key a ≤ key b)) = true := by
  simp only [Bool.or_eq_true, decide_eq_true_eq]
  omega

theorem byFalling_sorted (key : α → Nat) (l : List α) :
    (byFalling key l).Pairwise fun a b => key b ≤ key a :=
  (List.pairwise_mergeSort falling_trans falling_total l).imp fun h => of_decide_eq_true h

theorem byFalling_of_pairwise (h : l.Pairwise fun a b => key b ≤ key a) : byFalling key l = l :=
  List.mergeSort_of_pairwise (h.imp fun hab => decide_eq_true hab)

/-- The elements with one number stay as they are. -/
theorem filter_byFalling (key : α → Nat) (l : List α) (k : Nat) :
    (byFalling key l).filter (fun a => key a == k) = l.filter fun a => key a == k := by
  let same := l.filter fun a => key a == k
  have hsame : same.Pairwise fun a b => decide (key b ≤ key a) = true := by
    refine List.pairwise_of_forall_mem_list fun a ha b hb => ?_
    have hka := beq_iff_eq.mp (List.mem_filter.mp ha).2
    have hkb := beq_iff_eq.mp (List.mem_filter.mp hb).2
    rw [hka, hkb]
    exact decide_eq_true (Nat.le_refl k)
  have hsub : same.Sublist (byFalling key l) :=
    List.sublist_mergeSort falling_trans falling_total hsame List.filter_sublist
  have hfilter := hsub.filter fun a => key a == k
  rw [List.filter_filter] at hfilter
  simp only [Bool.and_self] at hfilter
  exact (hfilter.eq_of_length ((byFalling_perm key l).filter _).length_eq.symm).symm

/-- Elements in an order of their own keep it where the numbers are the same. -/
theorem pairwise_byFalling {R : α → α → Prop} (h : l.Pairwise R) :
    (byFalling key l).Pairwise (Ahead key R) := by
  rw [List.pairwise_iff_forall_sublist]
  intro a b hab
  have hle : key b ≤ key a := List.pairwise_iff_forall_sublist.mp (byFalling_sorted key l) hab
  rcases Nat.lt_or_eq_of_le hle with hlt | heq
  · exact .inl hlt
  -- both have one number, so they stand in the list as they do among those with it
  have hboth : [a, b].filter (fun c => key c == key a) = [a, b] := by simp [heq]
  have hsub := hab.filter fun c => key c == key a
  rw [hboth, filter_byFalling] at hsub
  have hlist : [a, b].Sublist l := hsub.trans List.filter_sublist
  exact .inr ⟨heq, List.pairwise_iff_forall_sublist.mp h hlist⟩

/-- A list of the same elements is the sorted one exactly if it keeps the order where the
numbers are the same. -/
theorem eq_byFalling_iff {R : α → α → Prop} (hasymm : ∀ a b, R a b → ¬R b a)
    (h : l.Pairwise R) {es : List α} :
    es = byFalling key l ↔ es.Perm l ∧ es.Pairwise (Ahead key R) := by
  constructor
  · rintro rfl
    exact ⟨byFalling_perm key l, pairwise_byFalling h⟩
  · rintro ⟨hperm, hpairwise⟩
    refine List.Perm.eq_of_pairwise (fun a b _ _ hab hba => ?_) hpairwise
      (pairwise_byFalling h) (hperm.trans (byFalling_perm key l).symm)
    rcases hab with hab | ⟨_, hab⟩
    · rcases hba with hba | ⟨hba, _⟩
      · omega
      · omega
    · rcases hba with hba | ⟨_, hba⟩
      · omega
      · exact absurd hba (hasymm a b hab)

/-- A map that keeps the comparisons may come first. -/
theorem map_byFalling {key' : β → Nat} {f : α → β}
    (h : ∀ a ∈ l, ∀ b ∈ l, key b ≤ key a ↔ key' (f b) ≤ key' (f a)) :
    (byFalling key l).map f = byFalling key' (l.map f) :=
  List.map_mergeSort fun a ha b hb => decide_eq_decide.mpr (h a ha b hb)

end LoudHeaders

import LoudHeaders.Text.Basic

/-
  The order of texts.

  Texts compare as lists of code points do (`compare_eq_compareLex`), so their order
  is a total order in which only equal texts are equal. A list of texts therefore has
  one sorted form, whatever the order it is given in (`mergeSort_eq_of_perm`).
-/

namespace LoudHeaders

namespace Text

theorem compare_eq_compareLex : compare = List.compareLex (compareOn Char.toNat) := by
  funext s t
  induction s generalizing t with
  | nil => cases t <;> rfl
  | cons a s ih =>
    cases t with
    | nil => rfl
    | cons b t =>
      rw [List.compareLex_cons_cons, ← ih, compare, compareOn, Nat.compare_eq_ite_lt]
      split
      · rfl
      · split <;> rfl

/-- Characters are told apart by their code points. -/
instance : Std.LawfulEqCmp (compareOn Char.toNat) where
  compare_self := by simp [compareOn]
  eq_of_compare h := by simpa [compareOn, Char.toNat_inj] using h

instance : Std.TransCmp compare := by
  rw [compare_eq_compareLex]
  infer_instance

instance : Std.LawfulEqCmp compare := by
  rw [compare_eq_compareLex]
  infer_instance

/-- Two lists of the same texts have the same sorted form. -/
theorem mergeSort_eq_of_perm {ps qs : List Text} (h : ps.Perm qs) :
    ps.mergeSort (fun p q => (compare p q).isLE) =
      qs.mergeSort fun p q => (compare p q).isLE := by
  have hsorted (xs : List Text) : (xs.mergeSort fun p q => (compare p q).isLE).Pairwise
      fun p q => (compare p q).isLE = true := by
    apply List.pairwise_mergeSort
    · intro p q r hpq hqr
      exact Std.TransCmp.isLE_trans hpq hqr
    · intro p q
      rw [Bool.or_eq_true, ← Std.OrientedCmp.isGE_iff_isLE (a := p)]
      cases compare p q <;> decide
  apply List.Perm.eq_of_pairwise _ (hsorted ps) (hsorted qs)
  · exact (List.mergeSort_perm ps _).trans (h.trans (List.mergeSort_perm qs _).symm)
  · intro p q _ _ hpq hqp
    exact Std.LawfulEqCmp.eq_of_compare (Std.OrientedCmp.isLE_antisymm hpq hqp)

end Text

end LoudHeaders

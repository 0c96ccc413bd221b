import LoudHeaders.Path.Basic
import LoudHeaders.Proofs.Text.Order

/-
  The order of paths.

  Components compare by kind and then, as names, by their texts
  (`Component.compare_eq_compareLex`); paths compare as lists of components do
  (`compareComponents_eq_compareLex`). Both are total orders in which only equal things
  are equal, so two spellings are equal in the order of paths exactly if they are one path
  (`compare_eq_iff`).
-/

namespace LoudHeaders

namespace Component

/-- The components that are no names have one text for each kind. -/
theorem compare_eq_compareLex :
    compare = compareLex (compareOn kindRank) fun a b => Text.compare a.text b.text := by
  funext a b
  cases a <;> cases b <;> rfl

instance : Std.TransCmp fun a b : Component => Text.compare a.text b.text where
  eq_swap := Std.OrientedCmp.eq_swap
  isLE_trans := Std.TransCmp.isLE_trans

instance : Std.TransCmp compare := by
  rw [compare_eq_compareLex]
  infer_instance

instance : Std.LawfulEqCmp compare where
  compare_self {a} := by
    cases a with
    | name s => exact Std.ReflCmp.compare_self
    | _ => rfl
  eq_of_compare {a b} h := by
    rw [compare_eq_compareLex, compareLex_eq_eq] at h
    have hkind : a.kindRank = b.kindRank := Nat.compare_eq_eq.mp h.1
    have htext : a.text = b.text := Std.LawfulEqCmp.eq_of_compare h.2
    -- the kinds agree, and names have their texts
    cases a <;> cases b <;> simp_all [kindRank, text]

end Component

namespace Path

theorem compareComponents_eq_compareLex :
    compareComponents = List.compareLex Component.compare := by
  funext s t
  induction s generalizing t with
  | nil => cases t <;> rfl
  | cons a s ih =>
    cases t with
    | nil => rfl
    | cons b t => rw [List.compareLex_cons_cons, ← ih, compareComponents]

instance : Std.TransCmp compareComponents := by
  rw [compareComponents_eq_compareLex]
  infer_instance

instance : Std.LawfulEqCmp compareComponents := by
  rw [compareComponents_eq_compareLex]
  infer_instance

/-- Spellings of one path, and only they, are equal in the order of paths. -/
theorem compare_eq_iff {p q : Text} : compare p q = .eq ↔ same p q = true := by
  rw [compare, Std.LawfulEqCmp.compare_eq_iff_eq, same, beq_iff_eq]

end Path

end LoudHeaders

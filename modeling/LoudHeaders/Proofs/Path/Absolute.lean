import LoudHeaders.Proofs.Path.Walk

/-
  Absolute paths that never go up.

  A path has a rooted route exactly if it is absolute (`isRooted_route`). A plain path,
  absolute and without `..`, has no components but the names of the place it leads to
  (`IsPlain.components_eq`). So it is the same path as another one taken from a base
  exactly if that starts at the root and leads to the same place
  (`same_absolutize_iff`). What is relative and taken from a relative base is never the
  same as a plain path.
-/

namespace LoudHeaders

namespace Route

/-- The route starts at the root. -/
def IsRooted : Route → Prop
  | absolute _ => True
  | relative _ _ => False

theorem isRooted_next {r : Route} {c : Component} (hc : c ≠ .root) :
    (r.next c).IsRooted ↔ r.IsRooted := by
  cases c with
  | root => exact absurd rfl hc
  | here => cases r <;> rfl
  | name s => cases r <;> rfl
  | up =>
    cases r with
    | absolute ns => rfl
    | relative ups ns =>
      rw [next]
      split <;> rfl

end Route

namespace Path

theorem isRooted_route {p : Text} : (route p).IsRooted ↔ isAbsolute p = true := by
  have run (cs : List Component) (hcs : .root ∉ cs) (r : Route) :
      (cs.foldl Route.next r).IsRooted ↔ r.IsRooted := by
    induction cs generalizing r with
    | nil => rfl
    | cons c rest ih =>
      rw [List.mem_cons, not_or] at hcs
      rw [List.foldl_cons, ih hcs.2, Route.isRooted_next (Ne.symm hcs.1)]
  have hsteps : .root ∉ (pieces p).filterMap Component.ofPiece? := fun h => isStep_of_mem_steps h
  unfold route components
  split
  · rename_i habsolute
    rw [List.foldl_cons, run _ hsteps]
    exact iff_of_true trivial habsolute
  · rename_i hrelative
    refine iff_of_false ?_ hrelative
    split
    · rw [run _ (by simpa using hsteps)]
      exact id
    · rw [run _ hsteps]
      exact id

theorem isAbsolute_join (base p : Text) :
    isAbsolute (join base p) = true ↔ isAbsolute base = true ∨ isAbsolute p = true := by
  unfold join
  split
  · rename_i hp
    exact iff_of_true hp (.inr hp)
  · rename_i hp
    rw [or_iff_left hp]
    cases base with
    | nil => exact iff_of_false hp (by simp [isAbsolute])
    | cons c rest => split <;> rw [List.cons_append, isAbsolute_cons, isAbsolute_cons]

/-- A path taken from a base has the pieces of the two. -/
theorem mem_pieces_join {base p piece : Text} (h : piece ∈ pieces (join base p)) :
    piece ∈ pieces base ∨ piece ∈ pieces p := by
  unfold join at h
  split at h
  · exact .inr h
  split at h
  · rename_i hend
    rw [Bool.or_eq_true, List.isEmpty_iff, decide_eq_true_eq] at hend
    rcases hend with rfl | hlast
    · exact .inr h
    · obtain ⟨b, rfl⟩ := List.getLast?_eq_some_iff.mp hlast
      rw [List.append_assoc, List.singleton_append, pieces_append_slash] at h
      rw [pieces_append_slash]
      exact (List.mem_append.mp h).imp (fun hb => List.mem_append_left _ hb) id
  · rw [pieces_append_slash] at h
    exact List.mem_append.mp h

/-- An absolute path that never goes up. -/
structure IsPlain (p : Text) : Prop where
  isAbsolute : isAbsolute p = true
  no_up : ['.', '.'] ∉ pieces p

/-- All its steps are names. -/
theorem IsPlain.exists_name {p : Text} (h : IsPlain p) {c : Component}
    (hc : c ∈ (pieces p).filterMap Component.ofPiece?) : ∃ s, c = .name s := by
  have hstep := isStep_of_mem_steps hc
  cases c with
  | root => exact absurd hstep id
  | here => exact absurd hstep id
  | name s => exact ⟨s, rfl⟩
  | up =>
    obtain ⟨piece, hpiece, hup⟩ := List.mem_filterMap.mp hc
    unfold Component.ofPiece? at hup
    split at hup <;> cases hup
    exact absurd hpiece h.no_up

/-- Its components are the root and the names of the place it leads to. -/
theorem IsPlain.components_eq {p : Text} (h : IsPlain p) :
    components p = .root :: (walk [] p).map .name := by
  let steps := (pieces p).filterMap Component.ofPiece?
  have hsteps : (steps.map Component.text).map Component.name = steps := by
    rw [List.map_map]
    refine (List.map_congr_left fun c hc => ?_).trans (List.map_id _)
    obtain ⟨s, rfl⟩ := h.exists_name hc
    rfl
  have hroute : components p = (Route.absolute (steps.map Component.text)).components := by
    rw [components, if_pos h.isAbsolute, Route.components, hsteps]
  rw [walk_eq_foldl, hroute, Route.foldl_components_lead, Route.components, Route.lead]

/-- A plain path is the same as a path taken from a base exactly if that starts at the root
and leads to the same place. -/
theorem same_absolutize_iff {q base p : Text} (hq : IsPlain q) :
    same q (absolutize base p) = true ↔
      (isAbsolute base = true ∨ isAbsolute p = true) ∧ walk (walk [] base) p = walk [] q := by
  rw [same_iff, absolutize, components_normalize, hq.components_eq, ← isAbsolute_join,
    ← isRooted_route, ← walk_join, walk_eq_lead [] (join base p)]
  cases route (join base p) with
  | absolute ns =>
    rw [if_neg (by simp [Route.components]), Route.components, List.cons.injEq,
      List.map_inj_right fun _ _ => Component.name.inj]
    simp [Route.IsRooted, Route.lead, eq_comm]
  | relative ups ns =>
    refine iff_of_false ?_ fun h => h.1
    split
    · simp
    · intro h
      have hmem : .root ∈ (Route.relative ups ns).components := by
        rw [← h]
        exact List.mem_cons_self
      simp [Route.components] at hmem

end Path

end LoudHeaders

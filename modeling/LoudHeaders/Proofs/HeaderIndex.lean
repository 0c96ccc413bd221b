import Mathlib.Algebra.GroupWithZero.Nat
import Mathlib.Data.Finset.Card
import Mathlib.Data.List.Induction
import LoudHeaders.HeaderIndex

/-
  What a header index records.

  A listing is a header together with a target that lists it. An index that was
  filled from a list of listings is well formed, that is, its table and its entries
  describe each other, and its entries are `tabulate` of the listings: one entry for
  each header, in first-listed order, with the targets of its listings in order.
  One listing is one step (`Records.list`), a list of targets is a run of steps
  (`records_ofTargets`).

  From the closed form it follows what an index says of its targets, and how its parts
  fit together (`ofTargets_describes`): no listing is lost or taken up twice, and what is
  found through the table are the targets that list a header (`targetsOf_ofTargets`). The
  order of the targets shows in the order of the entries and of the targets under a header,
  and nowhere else (`agrees_of_perm`).
-/

namespace LoudHeaders

namespace HeaderIndex

/-- A header and a target that lists it. -/
abbrev Listing : Type := Text × CompileTarget

/-- The listings of targets, target by target. -/
def listings (targets : List CompileTarget) : List Listing :=
  targets.flatMap fun t => t.dependencies.map fun header => (header, t)

/-- The targets under a header. -/
def under (ls : List Listing) (header : Text) : List CompileTarget :=
  (ls.filter fun l => l.1 == header).map Prod.snd

/-- The entries of listings: one for each header, in first-listed order. -/
def tabulate (ls : List Listing) : List HeaderEntry :=
  (ls.map Prod.fst).eraseDups.map fun header => ⟨header, under ls header⟩

/-- One listing taken up by a list of entries. -/
def enlist (target : CompileTarget) (header : Text) : List HeaderEntry → List HeaderEntry
  | [] => [⟨header, [target]⟩]
  | e :: rest =>
    if e.header = header then appendTarget target e :: rest else e :: enlist target header rest

/-! ## Listings and entries -/

theorem nodup_eraseDups (headers : List Text) : headers.eraseDups.Nodup := by
  match headers with
  | [] => exact List.nodup_nil
  | h :: rest =>
    rw [List.eraseDups_cons, List.nodup_cons]
    exact ⟨by simp, nodup_eraseDups (rest.filter fun k => !k == h)⟩
termination_by headers.length
decreasing_by exact Nat.lt_succ_of_le (List.length_filter_le _ _)

theorem eraseDups_concat (headers : List Text) (h : Text) :
    (headers ++ [h]).eraseDups =
      if h ∈ headers then headers.eraseDups else headers.eraseDups ++ [h] := by
  rw [List.eraseDups_append, List.cons_removeAll]
  by_cases hmem : h ∈ headers
  · simp [hmem]
  · simp [hmem, List.eraseDups_cons]

/-- Without repetitions, headers stand in the order of their first occurrences. -/
theorem pairwise_idxOf_eraseDups (headers : List Text) :
    headers.eraseDups.Pairwise fun h k => headers.idxOf h < headers.idxOf k := by
  induction headers using List.reverseRecOn with
  | nil => exact List.Pairwise.nil
  | append_singleton front h ih =>
    -- a header of the front keeps its place when one more is listed
    have hplace : ∀ k ∈ front.eraseDups, (front ++ [h]).idxOf k = front.idxOf k := fun k hk =>
      List.idxOf_append_of_mem (List.mem_eraseDups.mp hk)
    have hbefore : front.eraseDups.Pairwise fun k l =>
        (front ++ [h]).idxOf k < (front ++ [h]).idxOf l := by
      refine ih.imp_of_mem fun hk hl hlt => ?_
      rwa [hplace _ hk, hplace _ hl]
    rw [eraseDups_concat]
    split
    · exact hbefore
    · rename_i hnew
      rw [List.pairwise_append]
      refine ⟨hbefore, List.pairwise_singleton _ _, ?_⟩
      intro k hk l hl
      rw [List.mem_singleton.mp hl, hplace k hk, List.idxOf_append_of_notMem hnew]
      have := List.idxOf_lt_length_of_mem (List.mem_eraseDups.mp hk)
      omega

theorem under_concat (ls : List Listing) (header k : Text) (t : CompileTarget) :
    under (ls ++ [(header, t)]) k = if k = header then under ls k ++ [t] else under ls k := by
  unfold under
  by_cases hk : k = header
  · simp [hk]
  · simp [hk, Ne.symm hk]

theorem enlist_of_forall_ne {t : CompileTarget} {header : Text} {es : List HeaderEntry}
    (h : ∀ e ∈ es, e.header ≠ header) : enlist t header es = es ++ [⟨header, [t]⟩] := by
  induction es with
  | nil => rfl
  | cons e rest ih =>
    rw [enlist, if_neg (h e List.mem_cons_self),
      ih fun x hx => h x (List.mem_cons_of_mem e hx), List.cons_append]

/-- Where the header has one entry, that entry takes the target up. -/
theorem enlist_of_unique {t : CompileTarget} {header : Text} {es : List HeaderEntry} {place : Nat}
    (hplace : es[place]?.map HeaderEntry.header = some header)
    (hunique : ∀ j, es[j]?.map HeaderEntry.header = some header → j = place) :
    enlist t header es = es.modify place (appendTarget t) := by
  induction es generalizing place with
  | nil => simp at hplace
  | cons e rest ih =>
    by_cases he : e.header = header
    · have hzero : 0 = place := hunique 0 (by simp [he])
      subst hzero
      rw [enlist, if_pos he, List.modify_zero_cons]
    · cases place with
      | zero => exact absurd (by simpa using hplace) he
      | succ k =>
        have hbehind : ∀ j, rest[j]?.map HeaderEntry.header = some header → j = k := by
          intro j hj
          have := hunique (j + 1) (by simpa using hj)
          omega
        have hrest : enlist t header rest = rest.modify k (appendTarget t) :=
          ih (by simpa using hplace) hbehind
        rw [enlist, if_neg he, hrest, List.modify_succ_cons]

/-- In entries made for distinct headers, only the entry of the header changes. -/
theorem enlist_map {t : CompileTarget} {header : Text} {headers : List Text}
    {f : Text → List CompileTarget} (hnodup : headers.Nodup) (hmem : header ∈ headers) :
    enlist t header (headers.map fun k => ⟨k, f k⟩) =
      headers.map fun k => ⟨k, if k = header then f k ++ [t] else f k⟩ := by
  induction headers with
  | nil => cases hmem
  | cons k rest ih =>
    obtain ⟨hk, hrest⟩ := List.nodup_cons.mp hnodup
    by_cases hkh : k = header
    · subst hkh
      have hother : ∀ x ∈ rest, x ≠ k := by
        rintro x hx rfl
        exact hk hx
      rw [List.map_cons, List.map_cons, enlist, if_pos rfl, appendTarget, if_pos rfl]
      congr 1
      apply List.map_congr_left
      intro x hx
      rw [if_neg (hother x hx)]
    · have hmem' : header ∈ rest := by
        rcases List.mem_cons.mp hmem with h | h
        · exact absurd h.symm hkh
        · exact h
      rw [List.map_cons, List.map_cons, enlist, if_neg hkh, ih hrest hmem', if_neg hkh]

/-- One more listing is taken up by the entries there are. -/
theorem tabulate_concat (ls : List Listing) (header : Text) (t : CompileTarget) :
    tabulate (ls ++ [(header, t)]) = enlist t header (tabulate ls) := by
  unfold tabulate
  rw [List.map_append, List.map_singleton, eraseDups_concat]
  by_cases hmem : header ∈ ls.map Prod.fst
  · rw [if_pos hmem, enlist_map (nodup_eraseDups _) (List.mem_eraseDups.mpr hmem)]
    simp only [under_concat]
  · have hempty : under ls header = [] := by
      unfold under
      rw [List.map_eq_nil_iff, List.filter_eq_nil_iff]
      intro l hl hlh
      exact hmem (List.mem_map.mpr ⟨l, hl, by simpa using hlh⟩)
    have hother : ∀ k ∈ (ls.map Prod.fst).eraseDups, k ≠ header := by
      rintro k hk rfl
      exact hmem (List.mem_eraseDups.mp hk)
    rw [if_neg hmem, enlist_of_forall_ne, List.map_append]
    · congr 1
      · apply List.map_congr_left
        intro k hk
        rw [under_concat, if_neg (hother k hk)]
      · simp [under_concat, hempty]
    · intro e he
      obtain ⟨k, hk, rfl⟩ := List.mem_map.mp he
      exact hother k hk

/-- Every entry holds a target for each listing, and no other. -/
theorem sum_tabulate (ls : List Listing) :
    ((tabulate ls).map fun e => e.targets.length).sum = ls.length := by
  have one (t : CompileTarget) (header : Text) (es : List HeaderEntry) :
      ((enlist t header es).map fun e => e.targets.length).sum =
        (es.map fun e => e.targets.length).sum + 1 := by
    induction es with
    | nil => rfl
    | cons e rest ih =>
      rw [enlist]
      split
      · simp only [List.map_cons, List.sum_cons, appendTarget, List.length_append,
          List.length_cons, List.length_nil]
        omega
      · rw [List.map_cons, List.map_cons, List.sum_cons, List.sum_cons, ih]
        omega
  induction ls using List.reverseRecOn with
  | nil => rfl
  | append_singleton front l ih =>
    rw [tabulate_concat, one, ih, List.length_append]
    rfl

theorem header_tabulate (ls : List Listing) :
    (tabulate ls).map HeaderEntry.header = (ls.map Prod.fst).eraseDups := by
  unfold tabulate
  rw [List.map_map]
  exact List.map_id _

theorem targets_of_mem_tabulate {ls : List Listing} {e : HeaderEntry} (h : e ∈ tabulate ls) :
    e.targets = under ls e.header := by
  obtain ⟨header, _, rfl⟩ := List.mem_map.mp h
  rfl

/-- What targets list, target by target. -/
def listed (targets : List CompileTarget) : List Text := targets.flatMap CompileTarget.dependencies

theorem header_listings (targets : List CompileTarget) :
    (listings targets).map Prod.fst = listed targets := by
  rw [listings, List.map_flatMap, listed]
  congr 1
  funext t
  rw [List.map_map]
  exact List.map_id _

theorem length_listed (targets : List CompileTarget) :
    (listed targets).length = (targets.map fun t => t.dependencies.length).sum :=
  List.length_flatMap

theorem under_listings (targets : List CompileTarget) (header : Text) :
    under (listings targets) header =
      targets.flatMap fun t => List.replicate (t.dependencies.count header) t := by
  rw [under, listings, List.filter_flatMap, List.map_flatMap]
  congr 1
  funext t
  rw [List.filter_map, List.map_map, List.count, List.countP_eq_length_filter]
  exact List.map_const'

theorem length_under (ls : List Listing) (header : Text) :
    (under ls header).length = (ls.map Prod.fst).count header := by
  rw [under, List.length_map, List.count, List.countP_map, List.countP_eq_length_filter]
  rfl

/-! ## The index -/

/-- The table and the entries describe each other: a header is in the table with a
place exactly if the entry at that place is the header's. -/
def WellFormed (index : HeaderIndex) : Prop :=
  ∀ header place, index.positions[header]? = some place ↔
    index.items[place]?.map HeaderEntry.header = some header

/-- The index holds these listings and nothing else. -/
structure Records (index : HeaderIndex) (ls : List Listing) : Prop where
  wellFormed : index.WellFormed
  items_eq : index.items = tabulate ls

theorem records_empty : Records empty [] := by
  refine ⟨fun header place => ?_, rfl⟩
  simp [empty, items]

/-- Taking up one listing is one step of the table, the entries and the closed
form alike. -/
theorem Records.list {index : HeaderIndex} {ls : List Listing} (h : index.Records ls)
    (t : CompileTarget) (header : Text) :
    (index.list t header).Records (ls ++ [(header, t)]) := by
  have hwf := h.wellFormed
  have hitems : tabulate (ls ++ [(header, t)]) = enlist t header index.items := by
    rw [tabulate_concat, h.items_eq]
  cases hp : index.positions[header]? with
  | some place =>
    -- the table stays, and so do the headers of the entries
    have hlist : (index.list t header).items = index.items.modify place (appendTarget t) := by
      simp [HeaderIndex.list, hp, items]
    have hposition : (index.list t header).positions = index.positions := by
      simp [HeaderIndex.list, hp]
    have hplace := (hwf header place).mp hp
    refine ⟨fun k j => ?_, ?_⟩
    · rw [hposition, hlist, hwf k j, List.getElem?_modify]
      cases index.items[j]? with
      | none => simp
      | some e =>
        by_cases hj : place = j
        · simp [hj, appendTarget]
        · simp [hj]
    · rw [hlist, hitems, enlist_of_unique hplace]
      intro j hj
      have := (hwf header j).mpr hj
      rw [hp] at this
      exact (Option.some.inj this).symm
  | none =>
    -- the new entry stands behind the others, where the table now points
    have hlist : (index.list t header).items = index.items ++ [⟨header, [t]⟩] := by
      simp [HeaderIndex.list, hp, items]
    have hposition : (index.list t header).positions =
        index.positions.insert header index.items.length := by
      simp [HeaderIndex.list, hp, items]
    have hfresh : ∀ j : Nat, index.items[j]?.map HeaderEntry.header ≠ some header := by
      intro j hj
      rw [(hwf header j).mpr hj] at hp
      cases hp
    refine ⟨fun k j => ?_, ?_⟩
    · rw [hposition, hlist, Std.HashMap.getElem?_insert, List.getElem?_append]
      by_cases hk : header = k
      · subst hk
        rw [if_pos (by simp)]
        split
        · rename_i hj
          refine ⟨fun he => ?_, fun he => absurd he (hfresh j)⟩
          have := Option.some.inj he
          omega
        · rename_i hj
          cases hd : j - index.items.length with
          | zero => simp; omega
          | succ d => simp; omega
      · rw [if_neg (by simpa using hk), hwf k j]
        split
        · rfl
        · rename_i hj
          rw [List.getElem?_eq_none (by omega)]
          cases j - index.items.length with
          | zero => simp [hk]
          | succ d => simp
    · rw [hlist, hitems, enlist_of_forall_ne]
      intro e he hheader
      obtain ⟨j, hj⟩ := List.getElem?_of_mem he
      exact hfresh j (by rw [hj, ← hheader]; rfl)

/-- Headers of a target are taken up one by one, -/
theorem Records.foldl_list {index : HeaderIndex} {ls : List Listing} (h : index.Records ls)
    (t : CompileTarget) (headers : List Text) :
    (headers.foldl (HeaderIndex.list t) index).Records
      (ls ++ headers.map fun header => (header, t)) := by
  induction headers generalizing index ls with
  | nil => simpa using h
  | cons header rest ih =>
    have := ih (h.list t header)
    rwa [List.append_assoc] at this

/-- and so are all headers of a target that is added. -/
theorem Records.add {index : HeaderIndex} {ls : List Listing} (h : index.Records ls)
    (t : CompileTarget) :
    (index.add t).Records (ls ++ t.dependencies.map fun header => (header, t)) :=
  h.foldl_list t t.dependencies

theorem Records.foldl_add {index : HeaderIndex} {ls : List Listing} (h : index.Records ls)
    (targets : List CompileTarget) :
    (targets.foldl HeaderIndex.add index).Records (ls ++ listings targets) := by
  induction targets generalizing index ls with
  | nil => simpa [listings] using h
  | cons t rest ih =>
    have := ih (h.add t)
    rwa [List.append_assoc] at this

/-- The index of a list of targets holds their listings. -/
theorem records_ofTargets (targets : List CompileTarget) :
    (ofTargets targets).Records (listings targets) := records_empty.foldl_add targets

/-- No listing is lost and none is taken up twice. -/
theorem sum_targets (targets : List CompileTarget) :
    ((ofTargets targets).items.map fun e => e.targets.length).sum =
      (targets.map fun t => t.dependencies.length).sum := by
  rw [(records_ofTargets targets).items_eq, sum_tabulate, ← List.length_map Prod.fst,
    header_listings, length_listed]

theorem header_items (targets : List CompileTarget) :
    (ofTargets targets).items.map HeaderEntry.header = (listed targets).eraseDups := by
  rw [(records_ofTargets targets).items_eq, header_tabulate, header_listings]

theorem size_ofTargets (targets : List CompileTarget) :
    (ofTargets targets).size = (listed targets).eraseDups.length := by
  rw [← header_items, List.length_map]
  rfl

theorem targets_of_mem_items {targets : List CompileTarget} {e : HeaderEntry}
    (h : e ∈ (ofTargets targets).items) : e.targets = under (listings targets) e.header := by
  rw [(records_ofTargets targets).items_eq] at h
  exact targets_of_mem_tabulate h

/-- What the table leads to for a header are the targets that list it. -/
theorem targetsOf_ofTargets (targets : List CompileTarget) (header : Text) :
    (ofTargets targets).targetsOf header = under (listings targets) header := by
  have hwf := (records_ofTargets targets).wellFormed header
  cases hp : (ofTargets targets).positions[header]? with
  | some place =>
    obtain ⟨e, he, hheader⟩ := Option.map_eq_some_iff.mp ((hwf place).mp hp)
    have hentry : (ofTargets targets).entries[place]? = some e := by
      rw [← Array.getElem?_toList]
      exact he
    have hfound : (ofTargets targets).targetsOf header = e.targets := by
      rw [targetsOf, hp]
      simp only [hentry]
      rfl
    rw [hfound, targets_of_mem_items (List.mem_of_getElem? he), hheader]
  | none =>
    -- a header that is listed has an entry, and so a place in the table
    have hnever : header ∉ listed targets := by
      intro hlisted
      rw [← List.mem_eraseDups, ← header_items] at hlisted
      obtain ⟨place, hplace⟩ := List.getElem?_of_mem hlisted
      rw [List.getElem?_map] at hplace
      cases hp.symm.trans ((hwf place).mpr hplace)
    have hempty : (under (listings targets) header).length = 0 := by
      rw [length_under, header_listings]
      exact List.count_eq_zero_of_not_mem hnever
    rw [List.length_eq_zero_iff.mp hempty, targetsOf, hp]

/-- An index says which headers these targets list, and how often each of them does. -/
structure Describes (index : HeaderIndex) (targets : List CompileTarget) : Prop where
  /-- The table and the entries describe each other, -/
  positions : ∀ (header : Text) (place : Nat), index.positions[header]? = some place ↔
    index.entries[place]?.map HeaderEntry.header = some header
  /-- so that every place in the table is that of an entry, -/
  lt_size : ∀ (header : Text) (place : Nat), index.positions[header]? = some place →
    place < index.entries.size
  /-- and no header has two. -/
  nodup : (index.items.map HeaderEntry.header).Nodup
  /-- There is an entry for each header that is listed, -/
  mem_iff : ∀ header, header ∈ index.items.map HeaderEntry.header ↔ header ∈ listed targets
  /-- and the entries stand in the order in which their headers were first listed. -/
  order : (index.items.map HeaderEntry.header).Pairwise fun h k =>
    (listed targets).idxOf h < (listed targets).idxOf k
  /-- Under a header stand the targets in their order, each as often as it lists it, -/
  entry : ∀ e ∈ index.items,
    e.targets = targets.flatMap fun t => List.replicate (t.dependencies.count e.header) t
  /-- which is at least one. -/
  ne_nil : ∀ e ∈ index.items, e.targets ≠ []
  /-- The entries hold as many targets as there are listings. -/
  sum_eq : (index.items.map fun e => e.targets.length).sum = (listed targets).length
  /-- There are as many entries as different headers. -/
  size_eq : index.size = (listed targets).toFinset.card

/-- **An index describes what its targets list.** The table and the entries fit together
in the middle of adding a target as well, when only some of its headers are taken up. -/
theorem ofTargets_describes (targets : List CompileTarget) :
    (ofTargets targets).Describes targets ∧
    ∀ (t : CompileTarget) (front : List Text),
      (front.foldl (list t) (ofTargets targets)).WellFormed := by
  have hrecords := records_ofTargets targets
  have hpositions : ∀ header place, (ofTargets targets).positions[header]? = some place ↔
      (ofTargets targets).entries[place]?.map HeaderEntry.header = some header := by
    intro header place
    rw [hrecords.wellFormed, items, Array.getElem?_toList]
  have hmem : ∀ header, header ∈ (ofTargets targets).items.map HeaderEntry.header ↔
      header ∈ listed targets := by
    intro header
    rw [header_items, List.mem_eraseDups]
  have hnodup : ((ofTargets targets).items.map HeaderEntry.header).Nodup := by
    rw [header_items]
    exact nodup_eraseDups _
  refine ⟨?_, fun t front => (hrecords.foldl_list t front).wellFormed⟩
  constructor
  case positions => exact hpositions
  case lt_size =>
    intro header place hplace
    obtain ⟨e, he, _⟩ := Option.map_eq_some_iff.mp ((hpositions header place).mp hplace)
    exact (Array.getElem?_eq_some_iff.mp he).choose
  case nodup => exact hnodup
  case mem_iff => exact hmem
  case order =>
    rw [header_items]
    exact pairwise_idxOf_eraseDups _
  case entry =>
    intro e he
    rw [targets_of_mem_items he, under_listings]
  case ne_nil =>
    intro e he
    have hlisted := (hmem e.header).mp (List.mem_map_of_mem he)
    rw [targets_of_mem_items he, ← List.length_pos_iff, length_under, header_listings]
    exact List.count_pos_iff.mpr hlisted
  case sum_eq => rw [sum_targets, length_listed]
  case size_eq =>
    rw [size_ofTargets, ← List.toFinset_card_of_nodup (nodup_eraseDups _)]
    congr 1
    ext header
    rw [List.mem_toFinset, List.mem_toFinset, List.mem_eraseDups]

/-! ## The order of the targets -/

/-- The same headers, and under each the same targets as often; orders apart. -/
structure Agrees (a b : HeaderIndex) : Prop where
  headers : (a.items.map HeaderEntry.header).Perm (b.items.map HeaderEntry.header)
  targets : ∀ x ∈ a.items, ∀ y ∈ b.items, x.header = y.header → x.targets.Perm y.targets

theorem agrees_of_perm {ts us : List CompileTarget} (h : ts.Perm us) :
    (ofTargets ts).Agrees (ofTargets us) := by
  have hls : (listings ts).Perm (listings us) := h.flatMap_right _
  have hts := (records_ofTargets ts).items_eq
  have hus := (records_ofTargets us).items_eq
  refine ⟨?_, ?_⟩
  · rw [hts, hus, header_tabulate, header_tabulate,
      List.perm_ext_iff_of_nodup (nodup_eraseDups _) (nodup_eraseDups _)]
    intro header
    rw [List.mem_eraseDups, List.mem_eraseDups]
    exact (hls.map Prod.fst).mem_iff
  · intro x hx y hy hxy
    rw [hts] at hx
    rw [hus] at hy
    rw [targets_of_mem_tabulate hx, targets_of_mem_tabulate hy, hxy]
    exact (hls.filter _).map _

end HeaderIndex

end LoudHeaders

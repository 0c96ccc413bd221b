import LoudHeaders.Machine.Files
import LoudHeaders.Proofs.Path.Route

/-
  Where a path leads by its text.

  `walk` follows a path piece by piece from a place. What is proved about it:
    1. `walk_eq_lead`: a path leads where its route leads.
    2. `Route.eq_of_lead`: two routes that lead to the same place from every
       directory are the same. Starts of one repeated name are enough.
    3. `normalize_canonical`: the normal form leads where the path leads, and it
       is one text for all paths that lead alike and for no others.
    4. `leadAlike_iff`: paths taken from bases have one absolute form exactly if
       they lead to the same place from every directory.
  `follow_eq_walk` ties the walk to a tree of files without links: where a path
  can be followed there, it leads where its text says.
-/

namespace LoudHeaders

open Machine (Place)

/-- A place a directory can be at: all its names are names. -/
def IsPlace (place : Place) : Prop := ∀ s ∈ place, IsName s

namespace Component

/-- The place one component leads to. -/
def lead (place : Place) : Component → Place
  | .root => []
  | .here => place
  | .up => place.dropLast
  | .name s => place ++ [s]

end Component

namespace Route

/-- The place a route leads to: some names of the start are given up, the names
of the route come behind. -/
def lead (start : Place) : Route → Place
  | absolute names => names
  | relative ups names => start.take (start.length - ups) ++ names

theorem dropLast_take (start : Place) (ups : Nat) :
    (start.take (start.length - ups)).dropLast = start.take (start.length - (ups + 1)) := by
  have h : (start.take (start.length - ups)).length - 1 = start.length - (ups + 1) := by
    rw [List.length_take]
    omega
  rw [List.dropLast_eq_take, h, List.take_take]
  congr 1
  omega

/-- One more component leads on from where the route leads. -/
theorem lead_next (start : Place) (r : Route) (c : Component) :
    (r.next c).lead start = c.lead (r.lead start) := by
  cases c with
  | root => cases r <;> rfl
  | here => cases r <;> rfl
  | name s => cases r <;> simp [next, lead, Component.lead]
  | up =>
    cases r with
    | absolute ns => rfl
    | relative ups ns =>
      by_cases hns : ns = []
      · subst hns
        simp [next, lead, Component.lead, dropLast_take]
      · simp [next, lead, Component.lead, hns, List.dropLast_append_of_ne_nil]

theorem lead_foldl (start : Place) (cs : List Component) (r : Route) :
    (cs.foldl next r).lead start = cs.foldl Component.lead (r.lead start) := by
  induction cs generalizing r with
  | nil => rfl
  | cons c rest ih => rw [List.foldl_cons, List.foldl_cons, ih, lead_next]

/-- The components of a route lead where the route leads. -/
theorem foldl_components_lead (start : Place) (r : Route) :
    r.components.foldl Component.lead start = r.lead start := by
  have names (ns : List Text) (place : Place) :
      (ns.map Component.name).foldl Component.lead place = place ++ ns := by
    induction ns generalizing place with
    | nil => simp
    | cons s rest ih => simp [Component.lead, ih]
  have ups (k : Nat) :
      (List.replicate k Component.up).foldl Component.lead start =
        start.take (start.length - k) := by
    induction k with
    | zero => simp
    | succ k ih =>
      rw [List.replicate_succ', List.foldl_append, ih]
      exact dropLast_take start k
  cases r with
  | absolute ns =>
    rw [components, List.foldl_cons, names]
    rfl
  | relative k ns => rw [components, List.foldl_append, ups, names, lead]

/-- A directory of the given depth, all of whose names are the letter `c`. -/
def deep (depth : Nat) (c : Char) : Place := List.replicate depth [c]

theorem deep_isPlace (depth : Nat) {c : Char} (hdot : c ≠ '.') (hslash : c ≠ '/') :
    IsPlace (deep depth c) := by
  intro s hs
  rw [List.eq_of_mem_replicate hs]
  exact ⟨by simp, by simpa using hdot, by simp, by simpa using hslash.symm⟩

/-- A start deeper than the names of the absolute route tells it from a relative
one, which keeps more of the start than that. -/
theorem absolute_ne_relative (as : List Text) (ups : Nat) (ns : List Text) :
    (absolute as).lead (deep (ups + as.length + 1) 'a') ≠
      (relative ups ns).lead (deep (ups + as.length + 1) 'a') := by
  intro h
  -- counting names is enough: the relative route leads too deep
  have hlength := congrArg List.length h
  simp only [lead, deep, List.length_append, List.length_take, List.length_replicate] at hlength
  omega

/-- Relative routes that lead alike from starts of one letter go up equally far:
else the names of one begin with whatever letter the start is made of. -/
theorem relative_eq_of_le {k l : Nat} {ms ns : List Text} (hle : k ≤ l)
    (ha : (relative k ms).lead (deep l 'a') = (relative l ns).lead (deep l 'a'))
    (hb : (relative k ms).lead (deep l 'b') = (relative l ns).lead (deep l 'b')) :
    k = l ∧ ms = ns := by
  have left (c : Char) :
      (relative k ms).lead (deep l c) = List.replicate (l - k) [c] ++ ms := by
    simp [lead, deep, List.take_replicate]
  have right (c : Char) : (relative l ns).lead (deep l c) = ns := by
    simp [lead, deep]
  rw [left, right] at ha hb
  -- were `k` smaller, `ns` would begin with `a` by one start and with `b` by the other
  cases hd : l - k with
  | zero =>
    rw [hd] at ha
    exact ⟨by omega, by simpa using ha⟩
  | succ d =>
    rw [hd, ← hb, hd, List.replicate_succ, List.replicate_succ, List.cons_append,
      List.cons_append, List.cons.injEq] at ha
    exact absurd ha.1 (by decide)

/-- Routes that lead to the same place from every directory are the same. -/
theorem eq_of_lead {r t : Route} (h : ∀ start, IsPlace start → r.lead start = t.lead start) :
    r = t := by
  have ha (depth : Nat) := h (deep depth 'a') (deep_isPlace depth (by decide) (by decide))
  have hb (depth : Nat) := h (deep depth 'b') (deep_isPlace depth (by decide) (by decide))
  cases r with
  | absolute as =>
    cases t with
    | absolute bs => rw [show as = bs from ha 0]
    | relative l ns => exact absurd (ha _) (absolute_ne_relative as l ns)
  | relative k ms =>
    cases t with
    | absolute bs => exact absurd (ha _).symm (absolute_ne_relative bs k ms)
    | relative l ns =>
      rcases Nat.le_total k l with hle | hle
      · obtain ⟨rfl, rfl⟩ := relative_eq_of_le hle (ha l) (hb l)
        rfl
      · obtain ⟨rfl, rfl⟩ := relative_eq_of_le hle (ha k).symm (hb k).symm
        rfl

end Route

namespace Path

/-- The place one piece of a path leads to: an empty one and `.` stay, `..` goes
up and stays at the root, a name goes down. -/
def stride (place : Place) (piece : Text) : Place :=
  if piece = [] ∨ piece = ['.'] then place
  else if piece = ['.', '.'] then place.dropLast
  else place ++ [piece]

/-- The place a path leads to, followed piece by piece; a slash in front starts at
the root. -/
def walk (start : Place) (p : Text) : Place :=
  (pieces p).foldl stride (if isAbsolute p then [] else start)

theorem stride_eq (place : Place) (piece : Text) :
    stride place piece =
      match Component.ofPiece? piece with
      | some c => c.lead place
      | none => place := by
  by_cases h₀ : piece = []
  · rw [h₀]
    rfl
  by_cases h₁ : piece = ['.']
  · rw [h₁]
    rfl
  by_cases h₂ : piece = ['.', '.']
  · rw [h₂]
    rfl
  rw [Component.ofPiece?_of_ne h₀ h₁ h₂, stride, if_neg (by simp [h₀, h₁]), if_neg h₂]
  rfl

theorem walk_eq_foldl (start : Place) (p : Text) :
    walk start p = (components p).foldl Component.lead start := by
  have steps (place : Place) :
      (pieces p).foldl stride place =
        ((pieces p).filterMap Component.ofPiece?).foldl Component.lead place := by
    rw [List.foldl_filterMap]
    congr 1
    funext place piece
    rw [stride_eq]
    cases Component.ofPiece? piece <;> rfl
  unfold walk components
  rw [steps]
  split
  · rfl
  · split <;> rfl

/-- A path leads where its route leads. -/
theorem walk_eq_lead (start : Place) (p : Text) : walk start p = (route p).lead start := by
  rw [walk_eq_foldl, route, Route.lead_foldl]
  congr 1
  simp [Route.lead]

/-- The normal form leads where the path leads. -/
theorem walk_normalize (start : Place) (p : Text) : walk start (normalize p) = walk start p := by
  rw [walk_eq_foldl, components_normalize, walk_eq_lead, ← Route.foldl_components_lead]
  split
  · rename_i hnil
    rw [hnil]
    rfl
  · rfl

/-- Paths that lead to the same place from every directory take one route. -/
theorem route_eq_of_walk {p q : Text}
    (h : ∀ start, IsPlace start → walk start p = walk start q) : route p = route q := by
  apply Route.eq_of_lead
  intro start hstart
  rw [← walk_eq_lead, ← walk_eq_lead]
  exact h start hstart

theorem normalize_eq_of_walk {p q : Text}
    (h : ∀ start, IsPlace start → walk start p = walk start q) : normalize p = normalize q := by
  rw [normalize_eq, normalize_eq, route_eq_of_walk h]

theorem walk_eq_of_normalize_eq {p q : Text} (h : normalize p = normalize q) (start : Place) :
    walk start p = walk start q := by
  rw [← walk_normalize start p, h, walk_normalize]

/-- The normal form is a canonical form of where paths lead. It leads where the
path leads, and two paths have one normal form exactly if they lead to the same
place from every start; to know that, starts that are places are enough. -/
theorem normalize_canonical :
    (∀ (p : Text) (start : Place), walk start (normalize p) = walk start p) ∧
    ∀ p q : Text,
      (normalize p = normalize q ↔ ∀ start : Place, walk start p = walk start q) ∧
      ((∀ start : Place, IsPlace start → walk start p = walk start q) →
        normalize p = normalize q) := by
  refine ⟨fun p start => walk_normalize start p, fun p q => ⟨⟨?_, ?_⟩, normalize_eq_of_walk⟩⟩
  · exact walk_eq_of_normalize_eq
  · intro h
    exact normalize_eq_of_walk fun start _ => h start

/-! ## Paths taken from a base -/

theorem walk_of_isAbsolute {p : Text} (hp : isAbsolute p = true) (start other : Place) :
    walk start p = walk other p := by
  rw [walk, walk, if_pos hp, if_pos hp]

/-- Behind a slash, a relative path leads on from where the slash is reached. -/
theorem walk_slash {p : Text} (hp : isAbsolute p = false) (start : Place) (b : Text) :
    walk start (b ++ '/' :: p) = walk (walk start (b ++ ['/'])) p := by
  have hfront : isAbsolute (b ++ '/' :: p) = isAbsolute (b ++ ['/']) := by
    cases b with
    | nil => rfl
    | cons c rest => rw [List.cons_append, List.cons_append, isAbsolute_cons, isAbsolute_cons]
  have hend : pieces (b ++ ['/']) = pieces b ++ [[]] := pieces_append_slash b []
  rw [walk, walk, walk, hfront, pieces_append_slash b p, hend, hp, List.foldl_append, List.foldl_append]
  simp [stride]

/-- A slash at the end of a path changes nothing. -/
theorem walk_trailing_slash {b : Text} (hb : b ≠ []) (start : Place) :
    walk start (b ++ ['/']) = walk start b := by
  have hfront : isAbsolute (b ++ ['/']) = isAbsolute b := by
    obtain ⟨c, rest, rfl⟩ := List.exists_cons_of_ne_nil hb
    rw [List.cons_append, isAbsolute_cons, isAbsolute_cons]
  have hend : pieces (b ++ ['/']) = pieces b ++ [[]] := pieces_append_slash b []
  rw [walk, walk, hfront, hend, List.foldl_append]
  simp [stride]

/-- A path taken from a base leads where it leads from the base's place. -/
theorem walk_join (start : Place) (base p : Text) :
    walk start (join base p) = walk (walk start base) p := by
  unfold join
  cases hp : isAbsolute p with
  | true => exact walk_of_isAbsolute hp _ _
  | false =>
    rw [if_neg (by simp)]
    by_cases hbase : base = []
    · subst hbase
      rfl
    by_cases hlast : base.getLast? = some '/'
    · obtain ⟨b, rfl⟩ := List.getLast?_eq_some_iff.mp hlast
      rw [if_pos (by simp), List.append_assoc, List.singleton_append, walk_slash hp]
    · rw [if_neg (by simp [hbase, hlast]), walk_slash hp, walk_trailing_slash hbase]

/-- Whether two paths, each taken from a base of its own, lead to the same place from
every directory. -/
def LeadAlike (base p other q : Text) : Prop :=
  ∀ start : Place, IsPlace start → walk (walk start base) p = walk (walk start other) q

theorem leadAlike_iff {base p other q : Text} :
    LeadAlike base p other q ↔ absolutize base p = absolutize other q := by
  constructor
  · intro h
    apply normalize_eq_of_walk
    intro start hstart
    rw [walk_join, walk_join]
    exact h start hstart
  · intro h start _
    rw [← walk_join, ← walk_join]
    exact walk_eq_of_normalize_eq h start

/-! ## Following a path in a tree of files -/

theorem stride_of_descend {t : Machine.FileTree} {place next : Place} {piece : Text}
    (h : t.descend place piece = .ok next) : next = stride place piece := by
  unfold Machine.FileTree.descend at h
  split at h
  · cases h
  · split at h
    · rename_i hstay
      cases h
      rw [stride, if_pos (by simpa using hstay)]
    · rename_i hstay
      rw [stride, if_neg (by simpa using hstay)]
      split at h
      · rename_i hup
        cases h
        rw [if_pos (by simpa using hup)]
      · rename_i hup
        rw [if_neg (by simpa using hup)]
        split at h
        · cases h
        · split at h
          · cases h
            rfl
          · cases h

/-- Where a path can be followed in a tree of files, it leads where its text
says. -/
theorem follow_eq_walk {t : Machine.FileTree} {start place : Place} {p : Text}
    (h : t.follow start p = .ok place) : place = walk start p := by
  have run (ps : List Text) (from_ : Place) (hps : ps.foldlM t.descend from_ = .ok place) :
      place = ps.foldl stride from_ := by
    induction ps generalizing from_ with
    | nil =>
      cases hps
      rfl
    | cons piece rest ih =>
      rw [List.foldlM_cons] at hps
      cases hd : t.descend from_ piece with
      | error e =>
        rw [hd] at hps
        cases hps
      | ok next =>
        rw [hd] at hps
        rw [List.foldl_cons, ← stride_of_descend hd]
        exact ih next hps
  unfold Machine.FileTree.follow at h
  split at h
  · cases h
  · exact run _ _ h

end Path

end LoudHeaders

import LoudHeaders.Path.Normal
import LoudHeaders.Proofs.Text.Pieces

/-
  Routes: paths in which nothing is left to take back.

  A route is a list of names below the root, or some steps up and then names.
  Following the components of a path one by one gives its route
  (`route`), and the normal form is that route written as a text
  (`normalize_eq`). Reading a written route gives its components back, so
  paths with one route and only they have one normal form.
-/

namespace LoudHeaders

/-- What a directory can be called: a text that a path can hold between two
slashes and that is neither `.` nor `..`. -/
structure IsName (s : Text) : Prop where
  ne_nil : s ≠ []
  ne_here : s ≠ ['.']
  ne_up : s ≠ ['.', '.']
  no_slash : '/' ∉ s

instance (s : Text) : Decidable (IsName s) :=
  decidable_of_iff (s ≠ [] ∧ s ≠ ['.'] ∧ s ≠ ['.', '.'] ∧ '/' ∉ s)
    ⟨fun ⟨h₀, h₁, h₂, hs⟩ => ⟨h₀, h₁, h₂, hs⟩, fun ⟨h₀, h₁, h₂, hs⟩ => ⟨h₀, h₁, h₂, hs⟩⟩

namespace Component

/-- A component that stands in a normal form behind its front. -/
def IsStep : Component → Prop
  | .up => True
  | .name s => IsName s
  | _ => False

/-- The component of a piece is that of a step, if there is one. -/
theorem isStep_of_piece {piece : Text} {c : Component} (hs : '/' ∉ piece)
    (h : ofPiece? piece = some c) : c.IsStep := by
  unfold ofPiece? at h
  split at h
  · cases h
  · cases h
  · cases h
    trivial
  · rename_i h₀ h₁ h₂
    cases h
    exact ⟨h₀, h₁, h₂, hs⟩

theorem ofPiece?_of_ne {s : Text} (h₀ : s ≠ []) (h₁ : s ≠ ['.']) (h₂ : s ≠ ['.', '.']) :
    ofPiece? s = some (.name s) := by
  unfold ofPiece?
  split
  · contradiction
  · contradiction
  · contradiction
  · rfl

/-- A step reads back as it is written. -/
theorem ofPiece?_text {c : Component} (h : c.IsStep) : ofPiece? c.text = some c := by
  cases c with
  | root => exact absurd h id
  | here => exact absurd h id
  | up => rfl
  | name s =>
    obtain ⟨h₀, h₁, h₂, _⟩ := h
    exact ofPiece?_of_ne h₀ h₁ h₂

theorem IsStep.text_ne_nil {c : Component} (h : c.IsStep) : c.text ≠ [] := by
  cases c with
  | root => exact absurd h id
  | here => exact absurd h id
  | up => simp [text]
  | name s => exact IsName.ne_nil h

theorem IsStep.text_ne_here {c : Component} (h : c.IsStep) : c.text ≠ ['.'] := by
  cases c with
  | root => exact absurd h id
  | here => exact absurd h id
  | up => simp [text]
  | name s => exact IsName.ne_here h

theorem IsStep.no_slash {c : Component} (h : c.IsStep) : '/' ∉ c.text := by
  cases c with
  | root => exact absurd h id
  | here => exact absurd h id
  | up => simp [text]
  | name s => exact IsName.no_slash h

end Component

/-- Names below the root, or some steps up and then names. -/
inductive Route where
  | absolute (names : List Text)
  | relative (ups : Nat) (names : List Text)
  deriving DecidableEq, Repr

namespace Route

/-- The names of a route. -/
def names : Route → List Text
  | absolute names => names
  | relative _ names => names

/-- The components of a route. -/
def components : Route → List Component
  | absolute names => .root :: names.map .name
  | relative ups names => List.replicate ups .up ++ names.map .name

/-- The route with one more component. -/
def next : Route → Component → Route
  | _, .root => absolute []
  | r, .here => r
  | absolute names, .up => absolute names.dropLast
  | relative ups names, .up =>
    if names = [] then relative (ups + 1) [] else relative ups names.dropLast
  | absolute names, .name s => absolute (names ++ [s])
  | relative ups names, .name s => relative ups (names ++ [s])

/-- A route whose names are names. -/
def IsClean (r : Route) : Prop := ∀ s ∈ r.names, IsName s

theorem next_clean {r : Route} {c : Component} (hr : r.IsClean) (hc : ∀ s, c = .name s → IsName s) :
    (r.next c).IsClean := by
  have snoc {ns : List Text} (h : ∀ s ∈ ns, IsName s) (t : Text) (ht : c = .name t) :
      ∀ s ∈ ns ++ [t], IsName s := by
    intro s hs
    rcases List.mem_append.mp hs with hs | hs
    · exact h s hs
    · rw [List.mem_singleton.mp hs]
      exact hc t ht
  have shorter {ns : List Text} (h : ∀ s ∈ ns, IsName s) : ∀ s ∈ ns.dropLast, IsName s :=
    fun s hs => h s (List.dropLast_subset ns hs)
  cases c with
  | root => intro s hs; cases hs
  | here => cases r <;> exact hr
  | up =>
    cases r with
    | absolute ns => exact shorter hr
    | relative ups ns =>
      simp only [next]
      split
      · intro s hs
        cases hs
      · exact shorter hr
  | name t =>
    cases r with
    | absolute ns => exact snoc hr t rfl
    | relative ups ns => exact snoc hr t rfl

/-- Folding a component into a route is taking one more step. The list is kept
last component first, so the cases go by the last name. -/
theorem fold_components (r : Route) (c : Component) :
    Path.fold r.components.reverse c = (r.next c).components.reverse := by
  cases c with
  | root => cases r <;> rfl
  | here => cases r <;> rfl
  | name s => cases r <;> simp [Path.fold, next, components]
  | up =>
    -- a last name is taken back; without one a relative route goes further up
    cases r with
    | absolute ns =>
      rcases List.eq_nil_or_concat ns with rfl | ⟨front, last, rfl⟩
      · rfl
      · simp [Path.fold, next, components]
    | relative ups ns =>
      rcases List.eq_nil_or_concat ns with rfl | ⟨front, last, rfl⟩
      · have bare (k : Nat) : (relative k []).components.reverse = List.replicate k .up := by
          simp [components]
        rw [bare, show (relative ups []).next .up = relative (ups + 1) [] from rfl, bare]
        cases ups <;> rfl
      · simp [Path.fold, next, components]

theorem foldl_components (r : Route) (cs : List Component) :
    cs.foldl Path.fold r.components.reverse = (cs.foldl next r).components.reverse := by
  induction cs generalizing r with
  | nil => rfl
  | cons c rest ih => rw [List.foldl_cons, List.foldl_cons, fold_components, ih]

end Route

namespace Path

/-- The route of a path. -/
def route (p : Text) : Route := (components p).foldl Route.next (.relative 0 [])

theorem normalComponents_eq (p : Text) : normalComponents p = (route p).components := by
  have h := Route.foldl_components (.relative 0 []) (components p)
  rw [normalComponents, route, show [] = (Route.relative 0 []).components.reverse from rfl, h,
    List.reverse_reverse]

/-- The normal form is the route, written. -/
theorem normalize_eq (p : Text) : normalize p = spell (route p).components := by
  rw [normalize, normalComponents_eq]

/-- Every step a path takes is one that can be written. -/
theorem isStep_of_mem_steps {p : Text} {c : Component}
    (h : c ∈ (pieces p).filterMap Component.ofPiece?) : c.IsStep := by
  obtain ⟨piece, hp, hc⟩ := List.mem_filterMap.mp h
  refine Component.isStep_of_piece ?_ hc
  intro hs
  have := Text.not_sep_of_mem_pieces hp '/' hs
  simp at this

theorem isName_of_mem_components {p : Text} {s : Text} (h : .name s ∈ components p) :
    IsName s := by
  have hs : Component.name s ∈ (pieces p).filterMap Component.ofPiece? := by
    unfold components at h
    split at h
    · simpa using h
    · split at h
      · simpa using h
      · exact h
  exact isStep_of_mem_steps hs

theorem route_clean (p : Text) : (route p).IsClean := by
  have run (cs : List Component) (hcs : ∀ s, .name s ∈ cs → IsName s) (r : Route)
      (hr : r.IsClean) : (cs.foldl Route.next r).IsClean := by
    induction cs generalizing r with
    | nil => exact hr
    | cons c rest ih =>
      refine ih (fun s hs => hcs s (List.mem_cons_of_mem c hs)) _ (Route.next_clean hr ?_)
      rintro s rfl
      exact hcs s List.mem_cons_self
  refine run _ (fun s hs => isName_of_mem_components hs) _ ?_
  intro s hs
  cases hs

/-! ## Reading a written route -/

theorem isAbsolute_cons (c : Char) (s : Text) : isAbsolute (c :: s) = (c == '/') := by
  by_cases hc : c = '/'
  · rw [hc]
    rfl
  · simp [isAbsolute, hc]

theorem pieces_slash (s : Text) : pieces ('/' :: s) = [] :: pieces s :=
  Text.pieces_cons_sep (by simp) s

/-- A path without an empty piece does not start with a slash. -/
theorem isAbsolute_of_nil_notMem {s : Text} (h : [] ∉ pieces s) : isAbsolute s = false := by
  cases s with
  | nil => rfl
  | cons c rest =>
    rw [isAbsolute_cons, beq_eq_false_iff_ne]
    rintro rfl
    rw [pieces_slash] at h
    exact h List.mem_cons_self

theorem pieces_append_slash (b s : Text) : pieces (b ++ '/' :: s) = pieces b ++ pieces s :=
  Text.pieces_append_sep (by simp) b s

theorem components_slash (s : Text) :
    components ('/' :: s) = .root :: (pieces s).filterMap Component.ofPiece? := by
  have hsteps : ([] :: pieces s).filterMap Component.ofPiece? =
      (pieces s).filterMap Component.ofPiece? := rfl
  rw [components, pieces_slash, hsteps]
  rfl

/-- Behind a slash, the components of a path come behind those in front of it. -/
theorem components_append_slash (b s : Text) :
    components (b ++ '/' :: s) =
      components (b ++ ['/']) ++ (pieces s).filterMap Component.ofPiece? := by
  have hend : pieces (b ++ ['/']) = pieces b ++ [[]] := pieces_append_slash b []
  have hfront : isAbsolute (b ++ '/' :: s) = isAbsolute (b ++ ['/']) := by
    cases b with
    | nil => rfl
    | cons c rest => rw [List.cons_append, List.cons_append, isAbsolute_cons, isAbsolute_cons]
  obtain ⟨first, others, hb⟩ := List.exists_cons_of_ne_nil (Text.pieces_ne_nil (· == '/') b)
  have hb : pieces b = first :: others := hb
  unfold components
  rw [pieces_append_slash, hend, hfront, hb, List.filterMap_append, List.filterMap_append]
  have hnone : [[]].filterMap Component.ofPiece? = [] := rfl
  rw [hnone, List.append_nil]
  split
  · rfl
  · by_cases hdot : first = ['.']
    · subst hdot
      rfl
    · simp [hdot]

theorem pieces_joinWith {steps : List Component} (hne : steps ≠ []) (h : ∀ c ∈ steps, c.IsStep) :
    pieces (Text.joinWith ['/'] (steps.map Component.text)) = steps.map Component.text := by
  apply Text.pieces_joinWith
  · simpa using hne
  · intro piece hp
    obtain ⟨c, hc, rfl⟩ := List.mem_map.mp hp
    exact (h c hc).no_slash

theorem filterMap_ofPiece? {steps : List Component} (h : ∀ c ∈ steps, c.IsStep) :
    (steps.map Component.text).filterMap Component.ofPiece? = steps := by
  induction steps with
  | nil => rfl
  | cons c rest ih =>
    have hrest := ih fun d hd => h d (List.mem_cons_of_mem c hd)
    rw [List.map_cons, List.filterMap_cons, Component.ofPiece?_text (h c List.mem_cons_self), hrest]

/-- Steps with slashes between them read back; the first one is written neither
as nothing nor as `.`, so the text is relative and has no `.` in front. -/
theorem components_joinWith {steps : List Component} (hne : steps ≠ [])
    (h : ∀ c ∈ steps, c.IsStep) :
    components (Text.joinWith ['/'] (steps.map Component.text)) = steps := by
  obtain ⟨c, rest, rfl⟩ := List.exists_cons_of_ne_nil hne
  have hc := h c List.mem_cons_self
  have hpieces := pieces_joinWith hne h
  have hrelative : isAbsolute (Text.joinWith ['/'] ((c :: rest).map Component.text)) = false := by
    apply isAbsolute_of_nil_notMem
    rw [hpieces]
    intro hnil
    obtain ⟨d, hd, htext⟩ := List.mem_map.mp hnil
    exact (h d hd).text_ne_nil htext
  unfold components
  rw [hpieces, filterMap_ofPiece? h, hrelative, if_neg (by simp), if_neg]
  rw [List.map_cons, List.head?_cons, Option.some.injEq]
  exact hc.text_ne_here

theorem spell_steps {steps : List Component} (hne : steps ≠ []) (h : ∀ c ∈ steps, c.IsStep) :
    spell steps = Text.joinWith ['/'] (steps.map Component.text) := by
  obtain ⟨c, rest, rfl⟩ := List.exists_cons_of_ne_nil hne
  cases c with
  | root => exact absurd (h .root List.mem_cons_self) id
  | here => rfl
  | up => rfl
  | name s => rfl

theorem isStep_names {ns : List Text} (h : ∀ s ∈ ns, IsName s) :
    ∀ c ∈ ns.map Component.name, c.IsStep := by
  intro c hc
  obtain ⟨s, hs, rfl⟩ := List.mem_map.mp hc
  exact h s hs

theorem isStep_relative {ups : Nat} {ns : List Text} (h : ∀ s ∈ ns, IsName s) :
    ∀ c ∈ (Route.relative ups ns).components, c.IsStep := by
  intro c hc
  rcases List.mem_append.mp hc with hc | hc
  · rw [List.eq_of_mem_replicate hc]
    trivial
  · exact isStep_names h c hc

/-- A written route reads back, except that no component at all reads as `.`. -/
theorem components_spell {r : Route} (h : r.IsClean) :
    components (spell r.components) = if r.components = [] then [.here] else r.components := by
  cases r with
  | absolute ns =>
    have hsteps : ∀ c ∈ ns.map Component.name, c.IsStep := isStep_names h
    rw [if_neg (by simp [Route.components])]
    show components ('/' :: Text.joinWith ['/'] ((ns.map .name).map Component.text)) = _
    rw [components_slash, Route.components]
    by_cases hne : ns.map Component.name = []
    · rw [hne]
      rfl
    · rw [pieces_joinWith hne hsteps, filterMap_ofPiece? hsteps]
  | relative ups ns =>
    have hsteps : ∀ c ∈ (Route.relative ups ns).components, c.IsStep := isStep_relative h
    by_cases hne : (Route.relative ups ns).components = []
    · rw [if_pos hne, hne]
      rfl
    · rw [if_neg hne, spell_steps hne hsteps, components_joinWith hne hsteps]

/-- The components of the normal form. -/
theorem components_normalize (p : Text) :
    components (normalize p) =
      if (route p).components = [] then [.here] else (route p).components := by
  rw [normalize_eq, components_spell (route_clean p)]

theorem same_iff {p q : Text} : same p q = true ↔ components p = components q := beq_iff_eq

theorem same_self (p : Text) : same p p = true := same_iff.mpr rfl

/-- Spellings of one path are the same as the same paths. -/
theorem same_congr {p q : Text} (h : same p q = true) (r : Text) : same r p = same r q := by
  rw [same, same, same_iff.mp h]

/-- Two normal forms are the same path only if they are the same text: the one
that reads as `.` is the only one with that component. -/
theorem same_normalize {p q : Text} :
    same (normalize p) (normalize q) = true ↔ normalize p = normalize q := by
  have no_here (r : Route) : .here ∉ r.components := by
    cases r <;> simp [Route.components]
  constructor
  · intro h
    rw [same_iff, components_normalize, components_normalize] at h
    -- `.` stands for no component at all, and no route has it as one
    have hroute : (route p).components = (route q).components := by
      split at h
      · rename_i hp
        split at h
        · rename_i hq
          rw [hp, hq]
        · exact absurd (by rw [← h]; exact List.mem_cons_self) (no_here (route q))
      · split at h
        · exact absurd (by rw [h]; exact List.mem_cons_self) (no_here (route p))
        · exact h
    rw [normalize_eq, normalize_eq, hroute]
  · intro h
    rw [h, same_iff]

end Path

end LoudHeaders

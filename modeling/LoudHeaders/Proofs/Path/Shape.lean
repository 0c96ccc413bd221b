import Mathlib.Data.List.Infix
import LoudHeaders.Proofs.Path.Absolute
import LoudHeaders.Proofs.Path.Order

/-
  What a normal form looks like.

  Of the steps up in a path, some take back a name and the others meet none. How many meet
  none can be read off the path without folding it: as many as the steps up are ever ahead
  of the names (`overshoot`). The route of a path keeps this count while it is built
  (`Route.Balances`). From it:
    1. `normalize_eq_closedForm`: the normal form is `/` and the names of the place the path
       leads to from the root, or, of a relative path, that many steps up and those names.
    2. `isTidy_normalize`: a normal form goes up only if it is relative, holds `.` only
       alone, and has no slash behind another one nor, but for `/`, at its end.
    3. `normalize_shape`: both, and that two normal forms are one path only as one text.
-/

namespace LoudHeaders

namespace Component

/-- Whether a component is a name. -/
def isName : Component → Bool
  | .name _ => true
  | _ => false

/-- One step up more is no name more. -/
theorem counts_concat_up (cs : List Component) :
    (cs ++ [up]).count up = cs.count up + 1 ∧ (cs ++ [up]).countP isName = cs.countP isName := by
  simp [isName]

end Component

namespace Path

/-- How far the steps up in a list of components outnumber its names. -/
def surplus (cs : List Component) : Int := cs.count .up - cs.countP Component.isName

/-- The greatest surplus of all beginnings of a list of components, or 0 if none is
positive. -/
def overshoot (cs : List Component) : Nat := ((cs.inits.map surplus).foldl max 0).toNat

/-- One component more is one beginning more, the whole list. -/
theorem overshoot_concat (cs : List Component) (c : Component) :
    overshoot (cs ++ [c]) = max (overshoot cs) (surplus (cs ++ [c])).toNat := by
  have hinits : (cs ++ [c]).inits = cs.inits ++ [cs ++ [c]] := by simp [List.inits_append]
  simp only [overshoot, hinits, List.map_append, List.map_singleton, List.foldl_append,
    List.foldl_cons, List.foldl_nil]
  omega

end Path

namespace Route

open LoudHeaders.Path (overshoot surplus)

/-- A route accounts for the components it was read from. The steps up that have met no name
are as many as the components overshoot, and a relative route has them in front; each of the
others has taken one name back. -/
structure Balances (cs : List Component) (r : Route) : Prop where
  length_names : r.names.length + cs.count .up = overshoot cs + cs.countP Component.isName
  ups_eq : ∀ ups names, r = relative ups names → ups = overshoot cs

theorem names_next_up (r : Route) : (r.next .up).names = r.names.dropLast := by
  cases r with
  | absolute ns => rfl
  | relative ups ns =>
    by_cases hns : ns = []
    · subst hns
      rfl
    · simp [next, names, hns]

theorem names_next_name (r : Route) (s : Text) : (r.next (.name s)).names = r.names ++ [s] := by
  cases r <;> rfl

variable {cs : List Component} {r : Route} {c : Component}

/-- Only a step up can overshoot further. -/
theorem Balances.overshoot_level (h : r.Balances cs) (hc : c ≠ .up) :
    overshoot (cs ++ [c]) = overshoot cs := by
  have hlength := h.length_names
  have hups : (cs ++ [c]).count .up = cs.count .up := by simp [List.count_append, hc]
  have hnames : cs.countP Component.isName ≤ (cs ++ [c]).countP Component.isName := by simp
  rw [Path.overshoot_concat, surplus, hups]
  -- by the balance, the surplus so far is the overshoot less the names that are left
  omega

/-- A step up overshoots further exactly if no name is left to take back. -/
theorem Balances.overshoot_up (h : r.Balances cs) :
    overshoot (cs ++ [.up]) = if r.names = [] then overshoot cs + 1 else overshoot cs := by
  have hlength := h.length_names
  obtain ⟨hups, hnames⟩ := Component.counts_concat_up cs
  rw [Path.overshoot_concat, surplus, hups, hnames]
  split
  · rename_i hnone
    rw [hnone, List.length_nil] at hlength
    omega
  · rename_i hsome
    have hpos : 0 < r.names.length := List.length_pos_of_ne_nil hsome
    omega

theorem Balances.next_here (h : r.Balances cs) : (r.next .here).Balances (cs ++ [.here]) := by
  have hover : overshoot (cs ++ [.here]) = overshoot cs := h.overshoot_level (by simp)
  have hr : r.next .here = r := by cases r <;> rfl
  rw [hr]
  refine ⟨?_, ?_⟩
  · rw [hover]
    simpa [Component.isName] using h.length_names
  · rw [hover]
    exact h.ups_eq

theorem Balances.next_name (h : r.Balances cs) (s : Text) :
    (r.next (.name s)).Balances (cs ++ [.name s]) := by
  have hlength := h.length_names
  have hover : overshoot (cs ++ [.name s]) = overshoot cs := h.overshoot_level (by simp)
  have hups : (cs ++ [Component.name s]).count .up = cs.count .up := by simp
  have hnames : (cs ++ [Component.name s]).countP Component.isName =
      cs.countP Component.isName + 1 := by
    simp [Component.isName]
  refine ⟨?_, ?_⟩
  · rw [hover, hups, hnames, names_next_name, List.length_append, List.length_singleton]
    omega
  · rw [hover]
    intro ups names heq
    cases r with
    | absolute ns => cases heq
    | relative k ns =>
      cases heq
      exact h.ups_eq _ _ rfl

/-- A step up takes the last name back; a relative route without a name goes further up. -/
theorem Balances.next_up (h : r.Balances cs) : (r.next .up).Balances (cs ++ [.up]) := by
  have hlength := h.length_names
  have hover := h.overshoot_up
  obtain ⟨hups, hnames⟩ := Component.counts_concat_up cs
  refine ⟨?_, ?_⟩
  · rw [hover, hups, hnames, names_next_up, List.length_dropLast]
    split
    · rename_i hnone
      rw [hnone, List.length_nil] at hlength ⊢
      omega
    · rename_i hsome
      have hpos : 0 < r.names.length := List.length_pos_of_ne_nil hsome
      omega
  · intro ups names heq
    cases r with
    | absolute ns => cases heq
    | relative k ns =>
      have hk : k = overshoot cs := h.ups_eq k ns rfl
      rw [Route.next] at heq
      rw [hover, ← hk]
      split at heq
      · rename_i hnone
        cases heq
        exact (if_pos hnone).symm
      · rename_i hsome
        cases heq
        exact (if_neg hsome).symm

/-- One component more keeps the balance. -/
theorem Balances.next (h : r.Balances cs) (hc : c ≠ .root) :
    (r.next c).Balances (cs ++ [c]) := by
  cases c with
  | root => exact absurd rfl hc
  | here => exact h.next_here
  | name s => exact h.next_name s
  | up => exact h.next_up

theorem Balances.foldl {steps : List Component} (h : r.Balances cs) (hsteps : .root ∉ steps) :
    (steps.foldl Route.next r).Balances (cs ++ steps) := by
  induction steps generalizing cs r with
  | nil => simpa using h
  | cons c rest ih =>
    rw [List.mem_cons, not_or] at hsteps
    have hrest := ih (h.next (Ne.symm hsteps.1)) hsteps.2
    rwa [List.append_assoc, List.singleton_append] at hrest

end Route

namespace Path

/-- The route of a path balances its components. It starts over at a root, which only
stands in front. -/
theorem route_balances (p : Text) : (route p).Balances (components p) := by
  have hsteps : .root ∉ (pieces p).filterMap Component.ofPiece? := fun h => isStep_of_mem_steps h
  have hstart : (Route.relative 0 []).Balances [] := by
    refine ⟨rfl, ?_⟩
    rintro ups names ⟨rfl, rfl⟩
    rfl
  have hroot : (Route.absolute []).Balances [.root] := by
    refine ⟨rfl, ?_⟩
    intro ups names heq
    cases heq
  unfold route components
  split
  · exact hroot.foldl hsteps
  · split
    · exact hstart.foldl (by simpa using hsteps)
    · exact hstart.foldl hsteps

/-! ## The closed form -/

/-- The normal form, written from the place the path leads to from the root: an absolute path
is that place, a relative one goes up as far as it overshoots and then to its names. -/
def closedForm (p : Text) : Text :=
  let ups := overshoot (components p)
  let names := walk [] p
  if isAbsolute p then '/' :: Text.joinWith ['/'] names
  else if ups = 0 ∧ names = [] then ['.']
  else Text.joinWith ['/'] (List.replicate ups ['.', '.'] ++ names)

theorem map_text_names (ns : List Text) : (ns.map Component.name).map Component.text = ns := by
  simp [Component.text, Function.comp_def]

theorem map_text_relative (ups : Nat) (ns : List Text) :
    (Route.relative ups ns).components.map Component.text =
      List.replicate ups ['.', '.'] ++ ns := by
  rw [Route.components, List.map_append, List.map_replicate, map_text_names, Component.text]

theorem walk_root (p : Text) : walk [] p = (route p).names := by
  rw [walk_eq_lead]
  cases route p with
  | absolute ns => rfl
  | relative ups ns => simp [Route.lead, Route.names]

theorem normalize_eq_closedForm (p : Text) : normalize p = closedForm p := by
  have hclean := route_clean p
  have hbalance := route_balances p
  have hrooted := isRooted_route (p := p)
  rw [closedForm, walk_root, normalize_eq]
  cases hr : route p with
  | absolute ns =>
    rw [hr] at hrooted
    rw [if_pos (hrooted.mp trivial)]
    show '/' :: Text.joinWith ['/'] ((ns.map Component.name).map Component.text) = _
    rw [map_text_names, Route.names]
  | relative ups ns =>
    rw [hr] at hrooted hclean
    rw [if_neg (fun h => hrooted.mpr h), ← hbalance.ups_eq ups ns hr, Route.names]
    split
    · rename_i hnone
      rw [hnone.1, hnone.2]
      rfl
    · rename_i hsome
      have hne : (Route.relative ups ns).components ≠ [] := by
        simpa [Route.components] using hsome
      rw [spell_steps hne (isStep_relative hclean), map_text_relative]

/-- Of the four steps up, two take back `a` and `x`, and two meet no name. -/
example : closedForm "a/../../x/./..//../b/".toList = "../../b".toList := by decide

/-! ## Tidy texts -/

/-- A path without a piece too many: no step up from the root, no `.` beside another piece,
and no empty piece but the one in front of the root's slash and, in `/`, the one behind it. -/
structure IsTidy (t : Text) : Prop where
  ne_nil : t ≠ []
  no_up : isAbsolute t = true → ['.', '.'] ∉ pieces t
  lone_here : ['.'] ∈ pieces t → t = ['.']
  no_double_slash : ¬['/', '/'] <:+: t
  no_end_slash : t.getLast? = some '/' → t = ['/']

/-- What is behind a slash is not the first piece. -/
theorem mem_tail_pieces {b s piece : Text} (h : piece ∈ pieces s) :
    piece ∈ (pieces (b ++ '/' :: s)).tail := by
  obtain ⟨first, others, hb⟩ := List.exists_cons_of_ne_nil (Text.pieces_ne_nil (· == '/') b)
  have hb : pieces b = first :: others := hb
  rw [pieces_append_slash, hb, List.cons_append, List.tail_cons]
  exact List.mem_append_right others h

/-- A slash behind another one, and one at the end, stand in front of an empty piece. -/
theorem IsTidy.of_pieces {t : Text} (hne : t ≠ [])
    (hup : isAbsolute t = true → ['.', '.'] ∉ pieces t) (hhere : ['.'] ∉ pieces t)
    (hempty : [] ∉ (pieces t).tail) : IsTidy t where
  ne_nil := hne
  no_up := hup
  lone_here := fun h => absurd h hhere
  no_double_slash := by
    rintro ⟨b, s, rfl⟩
    apply hempty
    have hnil : [] ∈ pieces ('/' :: s) := by
      rw [pieces_slash]
      exact List.mem_cons_self
    simpa using mem_tail_pieces (b := b) hnil
  no_end_slash := by
    intro hlast
    obtain ⟨b, rfl⟩ := List.getLast?_eq_some_iff.mp hlast
    exact absurd (mem_tail_pieces List.mem_cons_self) hempty

theorem isTidy_absolute {ns : List Text} (h : ∀ s ∈ ns, IsName s) :
    IsTidy ('/' :: Text.joinWith ['/'] ns) := by
  by_cases hne : ns = []
  · subst hne
    constructor <;> decide
  have hpieces : pieces ('/' :: Text.joinWith ['/'] ns) = [] :: ns := by
    rw [pieces_slash, pieces, Text.pieces_joinWith hne fun s hs => (h s hs).no_slash]
  apply IsTidy.of_pieces
  · simp
  · intro _ hup
    rw [hpieces] at hup
    exact (h _ (by simpa using hup)).ne_up rfl
  · intro hhere
    rw [hpieces] at hhere
    exact (h _ (by simpa using hhere)).ne_here rfl
  · intro hempty
    rw [hpieces] at hempty
    exact (h _ hempty).ne_nil rfl

theorem isTidy_relative {ups : Nat} {ns : List Text} (hne : ¬(ups = 0 ∧ ns = []))
    (h : ∀ s ∈ ns, IsName s) :
    IsTidy (Text.joinWith ['/'] (List.replicate ups ['.', '.'] ++ ns)) := by
  have hpiece : ∀ s ∈ List.replicate ups ['.', '.'] ++ ns, s ≠ [] ∧ s ≠ ['.'] ∧ '/' ∉ s := by
    intro s hs
    rcases List.mem_append.mp hs with hs | hs
    · rw [List.eq_of_mem_replicate hs]
      decide
    · exact ⟨(h s hs).ne_nil, (h s hs).ne_here, (h s hs).no_slash⟩
  have hpieces : pieces (Text.joinWith ['/'] (List.replicate ups ['.', '.'] ++ ns)) =
      List.replicate ups ['.', '.'] ++ ns :=
    Text.pieces_joinWith (by simpa using hne) fun s hs => (hpiece s hs).2.2
  have hempty : [] ∉ pieces (Text.joinWith ['/'] (List.replicate ups ['.', '.'] ++ ns)) := by
    intro hnil
    rw [hpieces] at hnil
    exact (hpiece _ hnil).1 rfl
  apply IsTidy.of_pieces
  · intro hnil
    rw [hnil] at hempty
    exact hempty List.mem_cons_self
  · intro habsolute
    rw [isAbsolute_of_nil_notMem hempty] at habsolute
    cases habsolute
  · intro hhere
    rw [hpieces] at hhere
    exact (hpiece _ hhere).2.1 rfl
  · exact fun hnil => hempty (List.mem_of_mem_tail hnil)

/-- The names of the place a path leads to from the root are names. -/
theorem isPlace_walk_root (p : Text) : IsPlace (walk [] p) := by
  rw [walk_root]
  exact route_clean p

theorem isTidy_normalize (p : Text) : IsTidy (normalize p) := by
  have hnames := isPlace_walk_root p
  rw [normalize_eq_closedForm, closedForm]
  split
  · exact isTidy_absolute hnames
  · split
    · constructor <;> decide
    · rename_i hne
      exact isTidy_relative hne hnames

theorem isAbsolute_normalize (p : Text) : isAbsolute (normalize p) = isAbsolute p := by
  have hroute : route (normalize p) = route p :=
    route_eq_of_walk fun start _ => walk_normalize start p
  rw [Bool.eq_iff_iff, ← isRooted_route, hroute, isRooted_route]

/-- **The shape of normal forms.** A normal form starts at the root exactly if the path does.
It is the slash of the root and the names of the place the path leads to from there, with
slashes between them; or, of a relative path, as many steps up as the steps up of the path are
ever ahead of its names, and then those names; or `.`, if there is nothing of either. So it is
tidy, and two normal forms are equal as paths, or in the order of paths, only if they are the
same text. -/
theorem normalize_shape :
    (∀ p : Text,
      normalize p = closedForm p ∧ IsPlace (walk [] p) ∧
      isAbsolute (normalize p) = isAbsolute p ∧ IsTidy (normalize p)) ∧
    ∀ p q : Text,
      (same (normalize p) (normalize q) = true ↔ normalize p = normalize q) ∧
      (compare (normalize p) (normalize q) = .eq ↔ normalize p = normalize q) := by
  constructor
  · intro p
    exact ⟨normalize_eq_closedForm p, isPlace_walk_root p, isAbsolute_normalize p,
      isTidy_normalize p⟩
  · intro p q
    exact ⟨same_normalize, compare_eq_iff.trans same_normalize⟩

end Path

end LoudHeaders

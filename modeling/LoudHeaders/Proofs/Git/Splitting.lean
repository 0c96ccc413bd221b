import Mathlib.Data.List.Basic
import LoudHeaders.Proofs.Git.Counts
import LoudHeaders.Proofs.Git.Failing

/-
  A run in two parts.

  A run that stops at some commit and a run that starts from there come to what one run
  through both parts comes to: no commit is compared twice where they meet, and none is
  left out.

    1. `Store.Leads.split`: the commits on the way to the root are those in front of an
       ancestor and those from the ancestor on.
    2. `comparisons_append`: the ancestor ends the comparisons of the first part and
       starts those of the second.
    3. `splits_along`: so what the two parts count adds up to what the whole counts.
    4. `Repository.standsAt_detachAt`: HEAD detached at the ancestor is where the second
       part starts.

  `splits_at_ancestor` says it of runs.
-/

namespace LoudHeaders

namespace Git

open ChangeCounts (stored)
open Store (EndsAtRoot cut steps)

namespace Store

variable {s : Store} {n i k : Nat} {c : Commit} {chain : List Commit} {bound : Option Nat}

/-! ## The way to an ancestor -/

theorem Leads.find?_eq (h : s.Leads n i k c) : s.find? k = some c := by
  induction h with
  | here found => exact found
  | back _ _ _ _ ih => exact ih

/-- An ancestor is on the way to the root, as many commits behind as there are steps to
it. -/
theorem Leads.split (h : s.Leads n i k c) (hline : s.Line n chain) (hroot : EndsAtRoot chain) :
    ∃ front back, chain = front ++ c :: back ∧ front.length = i ∧ s.Line k (c :: back) := by
  induction h generalizing chain with
  | here found =>
    obtain ⟨d, back, rfl⟩ := List.exists_cons_of_ne_nil hline.ne_nil
    obtain rfl := Option.some.inj (hline.head_eq.trans found)
    exact ⟨[], back, rfl, rfl, hline⟩
  | @back _ _ _ _ child _ _ found parents _ _ ih =>
    cases hline with
    | one found' =>
      -- a way that is over here ends at a root, but there is a parent
      obtain rfl := Option.some.inj (found.symm.trans found')
      cases parents.symm.trans (hroot _ rfl)
    | more found' parents' _ older =>
      obtain rfl := Option.some.inj (found.symm.trans found')
      obtain ⟨rfl, rfl⟩ := List.cons.inj (parents.symm.trans parents')
      obtain ⟨e, rest, rfl⟩ := List.exists_cons_of_ne_nil older.ne_nil
      obtain ⟨front, back, hrest, hlength, hback⟩ := ih older (endsAtRoot_cons.mp hroot)
      refine ⟨child :: front, back, ?_, ?_, hback⟩
      · rw [hrest, List.cons_append]
      · rw [List.length_cons, hlength]

theorem endsAtRoot_append {front back : List Commit} :
    EndsAtRoot (front ++ c :: back) ↔ EndsAtRoot (c :: back) := by
  rw [EndsAtRoot, EndsAtRoot, List.getLast?_append_cons]

/-- A bound that allows as many steps as lead to an ancestor, and some more, leaves what
the rest of it leaves from there. -/
theorem cut_append (rest : Option Nat) (front back : List Commit) :
    cut (rest.map (front.length + ·)) (front ++ back) = front ++ cut rest back := by
  cases rest with
  | none => rfl
  | some m => exact List.take_length_add_append (m + 1)

/-- All objects of a store are there, and each commit has a larger number than its
parents. -/
structure Complete (s : Store) : Prop where
  commits : s.lost = []
  trees : ∀ c ∈ s.commits, c.tree.isSome = true
  parents : ∀ n (c : Commit), s.commits[n]? = some c → ∀ p ∈ c.parents, p < n

/-- Where all objects are there, no comparison lacks any. -/
theorem Complete.not_lacks (h : s.Complete) : ¬s.Lacks n bound := by
  have hfind (m : Nat) : s.find? m = s.commits[m]? := by simp [find?, h.commits]
  have htrees {d : Commit} (hd : d ∈ s.commits) : d.tree ≠ none :=
    Option.isSome_iff_ne_none.mp (h.trees d hd)
  rintro ⟨i, k, c, hleads, _, p, others, hparents, hmissing⟩
  have hc : s.commits[k]? = some c := getElem?_of_find? hleads.find?_eq
  have hlt : p < k := h.parents k c hc p (hparents ▸ List.mem_cons_self)
  rcases hmissing with hparent | htree | ⟨parent, hparent, htree⟩
  · have hk : k < s.commits.length := (List.getElem?_eq_some_iff.mp hc).1
    have hnone : s.commits.length ≤ p := List.getElem?_eq_none_iff.mp (hfind p ▸ hparent hlt)
    omega
  · exact htrees (List.mem_of_getElem? hc) htree
  · exact htrees (mem_commits_of_find? hparent) htree

end Store

/-! ## Where two parts meet -/

theorem comparisons_append (front : List Commit) (c : Commit) (back : List Commit) :
    comparisons (front ++ c :: back) = comparisons (front ++ [c]) ++ comparisons (c :: back) := by
  induction front with
  | nil => rfl
  | cons d rest ih =>
    cases rest with
    | nil => rfl
    | cons e more => exact congrArg (_ :: ·) ih

theorem comparisons_take (m : Nat) (chain : List Commit) :
    comparisons (chain.take (m + 1)) = (comparisons chain).take m := by
  induction chain generalizing m with
  | nil => exact List.take_nil.symm
  | cons c rest ih =>
    cases m with
    | zero => cases rest <;> rfl
    | succ m =>
      cases rest with
      | nil => rfl
      | cons d more => exact congrArg (_ :: ·) (ih m)

/-- A bound leaves no tree to be needed that is not needed without it. -/
theorem Readable.cut {chain : List Commit} (h : Readable chain) (bound : Option Nat) :
    Readable (cut bound chain) := by
  cases bound with
  | none => exact h
  | some m =>
    intro x hx
    rw [Store.cut, comparisons_take] at hx
    exact h x (List.mem_of_mem_take hx)

theorem Readable.back {front back : List Commit} {c : Commit}
    (h : Readable (front ++ c :: back)) : Readable (c :: back) := by
  intro x hx
  apply h x
  rw [comparisons_append]
  exact List.mem_append_right _ hx

/-- Statistics are the sum of those of a first and a second part. -/
structure Statistics.Splits (whole first second : Statistics) : Prop where
  /-- The counts of a path add up, one that is absent being none. -/
  count : ∀ path, whole.counts.get? path =
    stored ((first.counts.get? path).getD 0 + (second.counts.get? path).getD 0)
  walked : whole.walked = first.walked + second.walked
  /-- The second part is the one that may meet the root. -/
  reachedRoot : whole.reachedRoot = second.reachedRoot

/-- The count of a path along some commits is how often their comparisons name it, in any
spelling. -/
theorem History.get?_along_eq (workingTree path : Text) (part : List Commit) :
    (along workingTree ⟨.empty, 0⟩ part).counts.get? path =
      stored ((((comparisons part).flatMap Comparison.diff).map (Path.join workingTree)).countP
        fun q => Path.same q path) := by
  rw [counts_along, ChangeCounts.get?_foldl_record path _ _ 0 rfl, Nat.zero_add]

/-- What is counted to a commit and what is counted from it on add up. -/
theorem splits_along (workingTree : Text) (rest : Option Nat) (front : List Commit) (c : Commit)
    (back : List Commit) :
    (Statistics.along workingTree (rest.map (front.length + ·)) (front ++ c :: back)).Splits
      (.along workingTree (some front.length) (front ++ [c]))
      (.along workingTree rest (c :: back)) := by
  have hsteps : steps (front ++ c :: back) = front.length + steps (c :: back) := by
    simp only [steps, List.length_append, List.length_cons]
    omega
  have hfirst : steps (front ++ [c]) = front.length := by
    simp only [steps, List.length_append, List.length_cons, List.length_nil]
    omega
  refine ⟨fun path => ?_, ?_, ?_⟩
  · simp only [Statistics.along, History.get?_along_eq, ChangeCounts.getD_stored]
    rw [comparisons_append, List.flatMap_append, List.map_append, List.countP_append]
  · rw [Statistics.along, Statistics.along, Statistics.along, hsteps, hfirst]
  · show (rest.map (front.length + ·) != some (steps (front ++ c :: back))) =
      (rest != some (steps (c :: back)))
    rw [hsteps]
    cases rest with
    | none => rfl
    | some m =>
      rw [Bool.eq_iff_iff, bne_iff_ne, bne_iff_ne, Option.map_some, ne_eq, ne_eq,
        Option.some.injEq, Option.some.injEq, Nat.add_left_cancel_iff]

/-- So does what bounds leave of the two. -/
theorem splits_cut (workingTree : Text) (rest : Option Nat) (front : List Commit) (c : Commit)
    (back : List Commit) :
    (Statistics.along workingTree (rest.map (front.length + ·))
        (cut (rest.map (front.length + ·)) (front ++ c :: back))).Splits
      (.along workingTree (some front.length) (cut (some front.length) (front ++ c :: back)))
      (.along workingTree rest (cut rest (c :: back))) := by
  have hfirst : cut (some front.length) (front ++ c :: back) = front ++ [c] :=
    Store.cut_append (some 0) front (c :: back)
  obtain ⟨more, hmore⟩ : ∃ more, cut rest (c :: back) = c :: more := by
    cases rest <;> exact ⟨_, rfl⟩
  rw [Store.cut_append, hfirst, hmore]
  exact splits_along workingTree rest front c more

/-! ## HEAD detached at a commit -/

/-- Ids are what they are in a repository: the id of a commit has its number of digits, and
no other commit and no tag has the same. -/
structure Objects.Addressed (o : Objects) : Prop where
  length : ∀ c ∈ o.store.commits, c.id.length = idLength
  digits : ∀ c ∈ o.store.commits, ∀ d ∈ c.id, isHexDigit d = true
  distinct : (o.store.commits.map Commit.id).Nodup
  untagged : ∀ c ∈ o.store.commits, ∀ tag ∈ o.tags, tag.1 ≠ c.id

/-- An id on a line of its own is read back. -/
theorem Reference.ofText_id {id : Text} (hlength : id.length = idLength)
    (hdigits : ∀ d ∈ id, isHexDigit d = true) (name : Text) :
    Reference.ofText name (id ++ ['\n']) = .ok (.direct id) := by
  have hmark : refMark.isPrefixOf (id ++ ['\n']) = false := by
    obtain ⟨d, rest, rfl⟩ := List.exists_cons_of_length_eq_add_one hlength
    have hd : 'r' ≠ d := by
      rintro rfl
      exact absurd (hdigits 'r' List.mem_cons_self) (by decide)
    simp [refMark, List.isPrefixOf, hd]
  have htake : (id ++ ['\n']).takeWhile isHexDigit = id := by
    rw [List.takeWhile_append_of_pos hdigits]
    exact List.append_nil id
  have hdrop : (id ++ ['\n']).drop idLength = ['\n'] := List.drop_left' hlength
  have hread : idOfText? (id ++ ['\n']) = some id := by
    simp only [idOfText?, htake, hdrop, hlength]
    rfl
  simp only [Reference.ofText, hmark, hread]
  rfl

namespace Objects

variable {o : Objects} {k : Nat} {c : Commit}

/-- The id of a commit that is there leads to the commit. -/
theorem Addressed.commit?_eq (h : o.Addressed) (hfound : o.store.find? k = some c) :
    o.commit? c.id = some (k, c) := by
  have hcommits : o.store.commits[k]? = some c := Store.getElem?_of_find? hfound
  have hc : c ∈ o.store.commits := List.mem_of_getElem? hcommits
  have hpeel : o.peel o.tags.length c.id = c.id := by
    have hnone : o.tags.find? (fun tag => tag.1 == c.id) = none :=
      List.find?_eq_none.mpr fun tag htag => by simpa using h.untagged c hc tag htag
    cases o.tags.length with
    | zero => rfl
    | succ steps => rw [peel, hnone]
  have hnumber : o.store.number? c.id = some k := by
    obtain ⟨hlt, rfl⟩ := List.getElem?_eq_some_iff.mp hcommits
    rw [Store.number?, List.findIdx?_eq_some_iff_getElem]
    refine ⟨hlt, beq_self_eq_true _, fun j hj hsame => ?_⟩
    -- no commit in front has the same id
    have hids := List.pairwise_iff_getElem.mp (List.pairwise_map.mp h.distinct)
    exact hids j k (by omega) hlt hj (beq_iff_eq.mp hsame)
  simp [commit?, hpeel, hnumber, hfound]

end Objects

namespace Repository

/-- The repository with its HEAD detached: it holds an id, and all else stays. -/
def detachAt (r : Repository) (id : Text) : Repository :=
  { r with file := fun name =>
      if name = ReferenceName.head then .content (id ++ ['\n']) else r.file name }

variable {r : Repository} {workingTree : Text} {n k : Nat} {c : Commit}

theorem readHead_detachAt {id : Text} (hlength : id.length = idLength)
    (hdigits : ∀ d ∈ id, isHexDigit d = true) :
    (r.detachAt id).readHead = .ok ⟨ReferenceName.head, id⟩ := by
  have hlookup : (r.detachAt id).lookup ReferenceName.head = .ok (.direct id) := by
    simp only [lookup, detachAt, if_true]
    exact Reference.ofText_id hlength hdigits _
  rw [readHead, hlookup]
  rfl

/-- A repository whose HEAD is detached at a commit stands there. -/
theorem standsAt_detachAt (hstands : r.StandsAt workingTree n) (haddressed : r.objects.Addressed)
    (hfound : r.objects.store.find? k = some c) :
    (r.detachAt c.id).StandsAt workingTree k := by
  have hc : c ∈ r.objects.store.commits := Store.mem_commits_of_find? hfound
  exact ⟨hstands.workingTree, _, c,
    readHead_detachAt (haddressed.length c hc) (haddressed.digits c hc),
    haddressed.commit?_eq hfound⟩

end Repository

/-- **A run is the sum of a run that stops at an ancestor and one that starts there.** The
first makes the comparisons up to the ancestor, the second those that are left, from a HEAD
that is detached at it. Only objects that the comparisons up to the root need have to be
there. -/
theorem splits_at_ancestor {verbosity verbosity₁ verbosity₂ : Verbosity} {find find' : Finder}
    {directory directory' workingTree : Text} {r : Repository} {n m k : Nat} {c : Commit}
    (hfind : find directory = .ok r) (hstands : r.StandsAt workingTree n)
    (haddressed : r.objects.Addressed) (hcomplete : ¬r.objects.store.Lacks n none)
    (hdates : Dated find directory) (hleads : r.objects.store.Leads n m k c)
    (hfind' : find' directory' = .ok (r.detachAt c.id)) (rest : Option Nat) :
    ∃ whole first second,
      (gatherChanges verbosity find directory (rest.map (m + ·))).run.value = .ok whole ∧
      (gatherChanges verbosity₁ find directory (some m)).run.value = .ok first ∧
      (gatherChanges verbosity₂ find' directory' rest).run.value = .ok second ∧
      whole.Splits first second := by
  obtain ⟨_, tip, htip, _⟩ := hstands.opened
  obtain ⟨chain, ⟨hline, hextent⟩, hreadable⟩ := exists_within_of_not_lacks htip hcomplete
  have hroot : EndsAtRoot chain := by
    rcases hextent with hbound | ⟨hroot, _⟩
    · cases hbound
    · exact hroot
  obtain ⟨front, back, rfl, rfl, hback⟩ := hleads.split hline hroot
  have hstands' : (r.detachAt c.id).StandsAt workingTree k :=
    Repository.standsAt_detachAt hstands haddressed hleads.find?_eq
  have hdates' : Dated find' directory' := by
    intro r' hr'
    obtain rfl := Except.ok.inj (hfind'.symm.trans hr')
    exact hdates r hfind
  -- what each of the three runs looks at
  have hcovers (bound : Option Nat) :
      Covers find directory bound workingTree (cut bound (front ++ c :: back)) :=
    ⟨r, n, hfind, hstands, Store.within_cut hline hroot bound, hreadable.cut bound⟩
  have hcovers' : Covers find' directory' rest workingTree (cut rest (c :: back)) :=
    ⟨_, k, hfind', hstands', Store.within_cut hback (Store.endsAtRoot_append.mp hroot) rest,
      hreadable.back.cut rest⟩
  exact ⟨_, _, _,
    (value_of_covers (hcovers _)).1 (not_stumbles_of_covers hdates (hcovers _)),
    (value_of_covers (hcovers _)).1 (not_stumbles_of_covers hdates (hcovers _)),
    (value_of_covers hcovers').1 (not_stumbles_of_covers hdates' hcovers'),
    splits_cut workingTree rest front c back⟩

namespace Restless

theorem addressed : repository.objects.Addressed where
  length := by decide
  digits := by
    have hplain {digit : Char} (h : isHexDigit digit = true) :
        ∀ d ∈ List.replicate idLength digit, isHexDigit d = true := by
      intro d hd
      rw [List.eq_of_mem_replicate hd]
      exact h
    intro c hc
    rcases hc with _ | ⟨_, _ | ⟨_, _ | ⟨_, hc⟩⟩⟩
    · exact hplain (by decide)
    · exact hplain (by decide)
    · exact hplain (by decide)
    · cases hc
  distinct := by decide
  untagged := by decide

theorem complete : repository.objects.store.Complete := by
  have hparents : ∀ n < 3, ∀ c ∈ repository.objects.store.commits[n]?, ∀ p ∈ c.parents, p < n := by
    decide
  refine ⟨rfl, by decide, fun n c hc => hparents n ?_ c hc⟩
  exact (List.getElem?_eq_some_iff.mp hc).1

/-- Finds the repository with its HEAD detached at the second commit. -/
def findBehind : Finder := fun _ => .ok (repository.detachAt executable.id)

theorem dated : Dated find ['/'] := by
  intro r hr
  obtain rfl := Except.ok.inj hr
  decide

end Restless

/-- Of the count of three, two are from the link made of the file, and one is from the commit
that made the file executable. -/
theorem splits_at_ancestor_restless :
    ∃ whole first second,
      (gatherChanges (.upTo .info) Restless.find ['/'] none).run.value = .ok whole ∧
      (gatherChanges (.upTo .info) Restless.find ['/'] (some 1)).run.value = .ok first ∧
      (gatherChanges .silent Restless.findBehind [] none).run.value = .ok second ∧
      whole.Splits first second ∧ whole.counts.get? ['/', 'a'] = some 3 ∧
      first.counts.get? ['/', 'a'] = some 2 ∧ second.counts.get? ['/', 'a'] = some 1 := by
  have hleads : Restless.repository.objects.store.Leads 2 1 1 Restless.executable :=
    .back rfl rfl (by decide) (.here rfl)
  obtain ⟨whole, first, second, hwhole, hfirst, hsecond, hsplits⟩ :=
    @splits_at_ancestor (.upTo .info) (.upTo .info) .silent Restless.find Restless.findBehind
      ['/'] [] _ _ _ _ _ _ rfl Restless.standsAt Restless.addressed Restless.complete.not_lacks
      Restless.dated hleads rfl none
  have hthree : whole.counts.get? ['/', 'a'] = some 3 := by
    obtain rfl := Except.ok.inj ((Restless.value none).symm.trans hwhole)
    rw [Restless.count]
    rfl
  have htwo : first.counts.get? ['/', 'a'] = some 2 := by
    obtain rfl := Except.ok.inj ((Restless.value (some 1)).symm.trans hfirst)
    rw [Restless.count]
    rfl
  refine ⟨whole, first, second, hwhole, hfirst, hsecond, hsplits, hthree, htwo, ?_⟩
  -- the one that the second part has to add
  have hsum := hsplits.count ['/', 'a']
  rw [hthree, htwo, eq_comm, ChangeCounts.stored_eq_some_iff] at hsum
  cases hone : second.counts.get? ['/', 'a'] with
  | none => simp [hone] at hsum
  | some one =>
    simp only [hone, Option.getD_some] at hsum
    congr 1
    omega

end Git

end LoudHeaders

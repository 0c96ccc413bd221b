import LoudHeaders.Path.Basic

/-
  Normal forms of paths.

  A path is brought to normal form by its text alone: `.` is dropped and `..`
  takes back the name before it. At the root `..` stays there; at the front of a
  relative path it remains. What has no component left is written `.`, so the
  normal form is never empty. Nothing is looked up on disk, and links are left
  alone.
-/

namespace LoudHeaders

namespace Path

/-- One component appended to a normal form that is kept last component first. -/
def fold (done : List Component) : Component → List Component
  | .here => done
  | .up =>
    match done with
    | .name _ :: before => before
    | .root :: _ => done
    | _ => .up :: done
  | .root => [.root]
  | .name s => .name s :: done

/-- The components of the normal form. -/
def normalComponents (p : Text) : List Component :=
  ((components p).foldl fold []).reverse

/-- Components written as a path; no components at all are written `.`. -/
def spell : List Component → Text
  | [] => ['.']
  | .root :: rest => '/' :: Text.joinWith ['/'] (rest.map Component.text)
  | steps => Text.joinWith ['/'] (steps.map Component.text)

/-- The normal form of a path. -/
def normalize (p : Text) : Text := spell (normalComponents p)

/-- The normal form of `p` taken from `base`. -/
def absolutize (base p : Text) : Text := normalize (join base p)

end Path

end LoudHeaders

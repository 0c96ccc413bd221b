import LoudHeaders.Git.Config.Reader
import LoudHeaders.Git.Grafts
import LoudHeaders.Git.PackedReferences
import LoudHeaders.Git.Repository
import LoudHeaders.Machine.Files
import LoudHeaders.Path.Normal

/-
  Repositories among the files.

  A directory holds the data of a repository if there is a HEAD file in it and
  there are directories `objects` and `refs`; the latter may be in another place,
  which the file `commondir` names. Data are looked for from a place upwards: in
  `.git` first, then in the place itself, then one directory higher, the root
  left out. A file `.git` names the directory that holds the data, and ends the
  search whether there are any or not. What is found is then searched once more,
  itself and `.git` in it only.

  The working tree is the directory above the data, unless a file `gitdir` or the
  configuration names another. Objects are not read from files: they are listed
  by the place of the data they belong to.
-/

namespace LoudHeaders

namespace Machine

namespace Repositories

/-- The name of the data of a repository inside its working tree. -/
def dataName : Text := ".git".toList

/-- The text of the file with a name in a directory, if there is one, without
blanks at its end. -/
def fileText? (t : FileTree) (place : Place) (name : String) : Option Text :=
  (t.bytes? (place ++ [name.toList])).map fun bytes =>
    Git.trimFileEnd (Utf8.decodeLossy bytes)

/-- The place a path leads to, or the reason why it leads nowhere. -/
def followed (t : FileTree) (directory : Place) (path : Text) : Except Text Place :=
  (t.follow directory path).mapError fun e =>
    "failed to resolve path '".toList ++ path ++ "': ".toList ++ e.text

/-- The place a path leads to that is written in a file; it is taken from the
directory `base`. -/
def followedFrom (t : FileTree) (base : Place) (path : Text) : Except Text Place :=
  followed t [] (Path.join base.path (Git.beforeZero path))

/-- The place of the data that a repository shares with others. -/
def commonPlace (t : FileTree) (data : Place) : Except Text Place :=
  match fileText? t data "commondir" with
  | some path => followedFrom t data path
  | none => .ok data

/-- Whether a place holds the data of a repository. -/
def isData (t : FileTree) (place : Place) : Except Text Bool := do
  let common ← commonPlace t place
  return (t.bytes? (place ++ [Git.ReferenceName.head])).isSome &&
    t.isDirectory (common ++ ["objects".toList]) && t.isDirectory (common ++ ["refs".toList])

/-- What a file `.git` starts with. -/
def linkMark : Text := "gitdir:".toList

/-- The place that a file `.git` names. -/
def linked (t : FileTree) (place : Place) (bytes : List UInt8) : Except Text Place :=
  let content := Git.trimFileEnd (Utf8.decodeLossy bytes)
  let path := content.drop linkMark.length
  if !linkMark.isPrefixOf content || path.isEmpty then
    .error ("the `.git` file at '".toList ++ place.path ++ "' is malformed".toList)
  else followedFrom t place.dropLast (path.dropWhile Git.isFileBlank)

/-- Looks for data in one place after the other. -/
def firstOf (t : FileTree) : List Place → Except Text (Option Place)
  | [] => .ok none
  | place :: rest =>
    match t.item? place with
    | none => firstOf t rest
    | some .directory => do if ← isData t place then return some place else firstOf t rest
    | some (.file bytes) =>
      if place.getLast? = some dataName then do
        let target ← linked t place bytes
        return if ← isData t target then some target else none
      else firstOf t rest

/-- The places to look in for what a place itself can hold. -/
def candidatesAt (place : Place) : List Place := [place ++ [dataName], place]

/-- The places to look in from a place upwards; `depth` is the number of names
still to try. -/
def candidatesAbove (place : Place) : Nat → List Place
  | 0 => []
  | depth + 1 => candidatesAt (place.take (depth + 1)) ++ candidatesAbove place depth

/-- The places to look in from a place upwards. The root counts only if the search
starts there. -/
def candidates (place : Place) : List Place :=
  if place.isEmpty then candidatesAt place else candidatesAbove place place.length

/-- The path of a directory, with a slash at its end. -/
def directoryPath (place : Place) : Text :=
  place.foldl (fun path name => path ++ name ++ ['/']) ['/']

/-- The text of a configuration file with a path, if there is one. -/
def configText? (t : FileTree) (path : Text) : Except Text (Option Text) :=
  match t.readBytes [] path with
  | .ok bytes => .ok (some (Utf8.decodeLossy bytes))
  | .error e =>
    if e = .nameTooLong then
      .error ("invalid path for filesystem '".toList ++ path ++ "': ".toList ++ e.text)
    else .ok none

/-- The configuration of the repository with data at a place, which stands in the
data that it shares with others. -/
def config (t : FileTree) (data common : Place) : Except Text (List Git.Config.Variable) :=
  let place := common ++ ["config".toList]
  let head := (t.bytes? (data ++ [Git.ReferenceName.head])).map Utf8.decodeLossy
  match t.bytes? place with
  | none => .ok []
  | some bytes =>
    Git.Config.load ⟨data.path, head.bind Git.Config.branchOf?⟩ (configText? t)
      Git.Config.maxDepth place.path (Utf8.decodeLossy bytes)

/-- Checks the grafts of the repository with data at a place. -/
def checkGrafts (t : FileTree) (data common : Place) : Except Text Unit :=
  let files := [common ++ ["info".toList, "grafts".toList], data ++ ["shallow".toList]]
  (files.filterMap t.bytes?).forM fun bytes => Git.Grafts.check (Utf8.decodeLossy bytes)

/-- The path of the working tree that belongs to data with a configuration, unless the
repository is bare. -/
def workingTree (t : FileTree) (config : List Git.Config.Variable) (data : Place) :
    Except Text (Option Text) := do
  let bare ← Git.Config.isBare config
  match fileText? t data "gitdir" with
  | some path => return some (Path.folder (Path.absolutize data.path path))
  | none =>
    if bare then return none
    match ← Git.Config.workingTree? config with
    | some path => return some (directoryPath (← followedFrom t data path))
    | none => return some (directoryPath data.dropLast)

/-- Whether a reference belongs to one working tree alone. -/
def isOwn (name : Text) : Bool :=
  !"refs/".toList.isPrefixOf name || "refs/bisect/".toList.isPrefixOf name

/-- The file of a reference with a name in a directory. -/
def referenceFile (t : FileTree) (directory : Place) (name : Text) : Git.ReferenceFile :=
  let path := directory.path ++ '/' :: name
  let place :=
    if FileTree.maxPath ≤ Text.byteSize path then .error .nameTooLong
    else (Path.pieces name).foldlM t.descend directory
  match place with
  | .error e =>
    if e = .nameTooLong then
      .refused ("invalid path for filesystem '".toList ++ path ++ "': ".toList ++ e.text)
    else .absent
  | .ok place =>
    match t.bytes? place with
    | some bytes => .content (Utf8.decodeLossy bytes)
    | none => .absent

/-- The id of a packed reference of the data at a place. -/
def packed (t : FileTree) (common : Place) (name : Text) : Except Text (Option Text) :=
  match t.item? (common ++ ["packed-refs".toList]) with
  | none => .ok none
  | some .directory =>
    .error ("failed to mmap. Could not write data: ".toList ++ SystemError.noDevice.text)
  | some (.file bytes) => Git.PackedReferences.lookup? (Utf8.decodeLossy bytes) name

/-- The repository whose data are at a place. -/
def ofData (t : FileTree) (objects : List (Place × Git.Objects)) (data : Place) :
    Except Text Git.Repository := do
  let common ← commonPlace t data
  let config ← config t data common
  Git.Config.checkExtensions config
  checkGrafts t data common
  return {
    workingTree := ← workingTree t config data
    file := fun name => referenceFile t (if isOwn name then data else common) name
    packed := packed t common
    objects := ((objects.find? fun entry => entry.1 == common).map (·.2)).getD .empty }

/-- The reason where no repository is found for a path. -/
def noneAt (path : Text) : Text := "could not find repository at '".toList ++ path ++ ['\x27']

/-- The repository that the place of a path belongs to, or why there is none. -/
def find (t : FileTree) (objects : List (Place × Git.Objects)) (directory : Place) :
    Git.Finder := fun path =>
  if path.contains '\x00' then
    .error "data contained a nul byte that could not be represented as a string".toList
  else do
    let start ← followed t directory path
    match ← firstOf t (candidates start) with
    | none => throw (noneAt path)
    | some found =>
      match ← firstOf t (candidatesAt found) with
      | none => throw (noneAt (directoryPath found))
      | some data => ofData t objects data

end Repositories

end Machine

end LoudHeaders

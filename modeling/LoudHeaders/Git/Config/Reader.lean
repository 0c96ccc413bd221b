import LoudHeaders.Git.Config.Condition

/-
  Configuration files.

  A file has headers of sections, `[core]` or `[core "part"]`, and variables,
  `bare = false`. A header may stand in front of others and of a variable on one
  line. Names of sections and variables are the same in capitals and small
  letters, names of parts are not. A comment starts with `#` or `;` and goes to the
  end of the line.

  Values lose their quotation marks and the blanks around them. A backslash at the
  end of a line continues the value on the next one. A line ends early at a zero
  character.

  The variable `include.path` names a file whose variables are read in its place, and
  so does a variable of a section `includeIf` if the condition there holds.
-/

namespace LoudHeaders

namespace Git

namespace Config

/-- What can be wrong with a line, with the column in some cases. -/
inductive Fault where
  | openHeader
  | headerCharacter (column : Nat)
  | partUnquoted
  | partUnclosed
  | textAfterPart (column : Nat)
  | variableName
  | escape (rest : Text)
  deriving DecidableEq, Repr

/-- The fault of a line of a file as a text. -/
def Fault.message (path : Text) (line : Nat) (fault : Fault) : Text :=
  let within (text : String) (column : Text) : Text :=
    "failed to parse config file: ".toList ++ text.toList ++ " (in ".toList ++ path ++
      ':' :: Text.ofNat line ++ column ++ [')']
  let column (n : Nat) : Text := ", column ".toList ++ Text.ofNat n
  match fault with
  | .openHeader => within "missing ']' in section header" []
  | .headerCharacter n => within "unexpected character in header" (column n)
  | .partUnquoted => within "missing quotation marks in section header" []
  | .partUnclosed => within "missing closing quotation mark in section header" []
  | .textAfterPart n => within "unexpected text after closing quotes" (column n)
  | .variableName => within "invalid configuration key" []
  | .escape rest => "invalid escape at ".toList ++ rest

/-- Whether a character can stand in the name of a variable. -/
def isNameCharacter (c : Char) : Bool := c.isAlphanum || c == '-'

/-- The name of a part up to the quotation mark that closes it, the column of that
mark, and the text from it on. A mark behind a backslash belongs to the name. In
front of the last mark of the line stand `left` characters. -/
def partName (left column : Nat) : Text → Text × Nat × Text
  | [] => ([], column, [])
  | '"' :: rest => ([], column, '"' :: rest)
  | '\\' :: c :: rest =>
    let column := column + 1 + c.utf8Size
    if left ≤ 2 then ([c], column, rest)
    else
      let found := partName (left - 2) column rest
      (c :: found.1, found.2)
  | c :: rest =>
    let column := column + c.utf8Size
    if left ≤ 1 then ([c], column, rest)
    else
      let found := partName (left - 1) column rest
      (c :: found.1, found.2)

/-- The number of characters in front of the last quotation mark of a line. -/
def beforeLastMark? (s : Text) : Option Nat :=
  let behind := (beforeZero s).reverse.dropWhile (· != '"')
  if behind.isEmpty then none else some (behind.length - 1)

/-- Reads the part a header names, and gives the rest of the line. -/
def sectionPart (s : Text) : Except Fault (Text × Text) :=
  match s.dropWhile isFileBlank with
  | '"' :: rest =>
    match beforeLastMark? rest with
    | none => .error .partUnclosed
    | some left =>
      match partName left 1 rest with
      | (name, _, '"' :: ']' :: rest) => .ok (name, rest)
      | (_, column, _) => .error (.textAfterPart column)
  | _ => .error .partUnquoted

/-- Reads the name in a header from a column on, and gives the rest of the line. -/
def sectionName (column : Nat) : Text → Except Fault (Text × Text)
  | [] => .error (.headerCharacter column)
  | c :: rest =>
    if isFileBlank c then do
      let (name, rest) ← sectionPart rest
      return ('.' :: name, rest)
    else if !isNameCharacter c && c != '.' then .error (.headerCharacter column)
    else match rest with
      | ']' :: rest => .ok ([c.toLower], rest)
      | _ => do
        let (name, rest) ← sectionName (column + 1) rest
        return (c.toLower :: name, rest)

/-- Reads a header behind its opening bracket, and gives the rest of the line. -/
def header (s : Text) : Except Fault (Text × Text) :=
  if (beforeZero s).contains ']' then sectionName 2 s else .error .openHeader

theorem length_dropWhile_le (p : Char → Bool) (s : Text) :
    (s.dropWhile p).length ≤ s.length := by
  induction s with
  | nil => simp
  | cons c rest ih =>
    by_cases h : p c
    · simp only [List.dropWhile_cons, h, if_true, List.length_cons]
      omega
    · simp [h]

theorem length_partName_le (left column : Nat) (s : Text) :
    (partName left column s).2.2.length ≤ s.length := by
  fun_induction partName left column s with
  | case1 => simp
  | case2 => simp
  | case3 =>
    simp only [List.length_cons]
    omega
  | case4 left column c rest column' h found ih =>
    simp only [List.length_cons] at ih ⊢
    show (partName (left - 2) column' rest).2.2.length ≤ _
    omega
  | case5 => simp
  | case6 left column c rest h1 h2 column' h found ih =>
    simp only [List.length_cons] at ih ⊢
    show (partName (left - 1) column' rest).2.2.length ≤ _
    omega

theorem length_lt_of_sectionPart {s name rest : Text} (h : sectionPart s = .ok (name, rest)) :
    rest.length < s.length := by
  unfold sectionPart at h
  split at h
  · rename_i behind hs
    split at h
    · simp at h
    · rename_i left _
      have hp := length_partName_le left 1 behind
      have hd := length_dropWhile_le isFileBlank s
      rw [hs] at hd
      split at h
      · rename_i found
        rw [found] at hp
        simp only [Except.ok.injEq, Prod.mk.injEq] at h
        obtain ⟨_, rfl⟩ := h
        simp only [List.length_cons] at hd hp
        omega
      · simp at h
  · simp at h

theorem length_lt_of_sectionName {column : Nat} {s name rest : Text}
    (h : sectionName column s = .ok (name, rest)) : rest.length < s.length := by
  induction s generalizing column name with
  | nil => simp [sectionName] at h
  | cons c more ih =>
    unfold sectionName at h
    split at h
    · cases hp : sectionPart more with
      | error fault => simp [hp, bind, Except.bind] at h
      | ok found =>
        have := length_lt_of_sectionPart hp
        simp only [hp, bind, Except.bind, pure, Except.pure, Except.ok.injEq, Prod.mk.injEq] at h
        obtain ⟨_, rfl⟩ := h
        simp only [List.length_cons]
        omega
    · split at h
      · simp at h
      · split at h
        · simp only [Except.ok.injEq, Prod.mk.injEq] at h
          obtain ⟨_, rfl⟩ := h
          simp only [List.length_cons]
          omega
        · cases hp : sectionName (column + 1) more with
          | error fault => simp [hp, bind, Except.bind] at h
          | ok found =>
            simp only [hp, bind, Except.bind, pure, Except.pure, Except.ok.injEq,
              Prod.mk.injEq] at h
            obtain ⟨_, rfl⟩ := h
            have := ih hp
            simp only [List.length_cons]
            omega

theorem length_lt_of_header {s name rest : Text} (h : header s = .ok (name, rest)) :
    rest.length < s.length := by
  unfold header at h
  split at h
  · exact length_lt_of_sectionName h
  · simp at h

/-- Reads the headers a line starts with: the section after them, and the rest of the
line, where blanks alone behind a header count as nothing. -/
def openSections (group : Option Text) (line : Text) : Except Fault (Option Text × Text) :=
  match _hl : line.dropWhile isFileBlank with
  | '[' :: s =>
    match _hs : header s with
    | .error fault => .error fault
    | .ok (name, rest) =>
      if rest.all isFileBlank then .ok (some name, []) else openSections (some name) rest
  | _ => .ok (group, line)
termination_by line.length
decreasing_by
  have hd := length_dropWhile_le isFileBlank line
  have hr := length_lt_of_header _hs
  rw [_hl, List.length_cons] at hd
  omega

/-- Whether a line says nothing: a comment, or blanks that start with one of the
usual ones. -/
def isIdle (line : Text) : Bool :=
  match line.dropWhile isFileBlank with
  | c :: _ => c == '#' || c == ';'
  | [] => line.head?.all fun c => c == ' ' || c == '\t' || c == '\r'

/-- A line up to its comment, and whether a quotation is open there. No comment
starts in a quotation or behind a backslash, unless that stands behind another one;
a mark directly behind a backslash opens or closes nothing. -/
def beforeComment (quoted afterBackslash isEscaped : Bool) : Text → Text × Bool
  | [] => ([], quoted)
  | c :: rest =>
    let quoted := quoted != (c == '"' && !afterBackslash)
    if (c == '#' || c == ';') && !quoted && !isEscaped then ([], quoted)
    else
      let found := beforeComment quoted (c == '\\') (c == '\\' && !isEscaped) rest
      (c :: found.1, found.2)

/-- What a line holds besides a comment and blanks at the end, and whether a
quotation is open there. -/
def content (quoted : Bool) (line : Text) : Text × Bool :=
  let found := beforeComment quoted false false (beforeZero line)
  (trimFileEnd found.1, found.2)

/-- The character that stands for a backslash and a character. -/
def escape? : Char → Option Char
  | 'n' => some '\n'
  | 't' => some '\t'
  | 'b' => some '\x08'
  | '"' => some '"'
  | '\\' => some '\\'
  | _ => none

/-- A value as it is meant, and whether it goes on in the next line. -/
def unquoted : Text → Except Fault (Text × Bool)
  | [] => .ok ([], false)
  | ['\\'] => .ok ([], true)
  | '\\' :: c :: rest =>
    match escape? c with
    | none => .error (.escape (c :: rest))
    | some d => do
      let (value, isOpen) ← unquoted rest
      return (d :: value, isOpen)
  | '"' :: rest => unquoted rest
  | c :: rest => do
    let (value, isOpen) ← unquoted rest
    return (c :: value, isOpen)

/-- The rest of a value that goes on in further lines, and the number of these. Lines
without content are passed over; the file or a line that starts with a zero
character ends the value. -/
def continued (quoted : Bool) : List Text → Except Fault (Text × Nat)
  | [] => .ok ([], 0)
  | ('\x00' :: _) :: _ => .ok ([], 1)
  | line :: rest =>
    match content quoted line with
    | ([], quoted) => do
      let (value, count) ← continued quoted rest
      return (value, count + 1)
    | (text, quoted) => do
      let (value, isOpen) ← unquoted text
      if !isOpen then return (value, 1)
      let (more, count) ← continued quoted rest
      return (value ++ more, count + 1)

/-- Reads the variable on a line, and gives the number of further lines its value
takes up. -/
def variableAt (group : Option Text) (line : Text) (further : List Text) :
    Except Fault (Variable × Nat) :=
  let (text, quoted) := content false (line.dropWhile isFileBlank)
  let own := text.takeWhile isNameCharacter
  let name := (group.map (· ++ ['.'])).getD [] ++ lowered own
  if own.isEmpty then .error .variableName
  else match (text.drop own.length).dropWhile isFileBlank with
    | [] => .ok (⟨name, none⟩, 0)
    | '=' :: rest => do
      let (value, isOpen) ← unquoted (rest.dropWhile isFileBlank)
      if !isOpen then return (⟨name, some value⟩, 0)
      let (more, count) ← continued quoted further
      return (⟨name, some (value ++ more)⟩, count)
    | _ => .error .variableName

/-- Reads the lines of a file, the next one having a number, and passes over the
first `skipped` of them. Gives the variables in front of the first fault, and the
fault, if there is one. -/
def ofLines (path : Text) (group : Option Text) (number skipped : Nat) :
    List Text → List Variable × Option Text
  | [] => ([], none)
  | line :: rest =>
    match skipped with
    | skipped + 1 => ofLines path group (number + 1) skipped rest
    | 0 =>
      match openSections group line with
      | .error fault => ([], some (fault.message path number))
      | .ok (group, line) =>
        if isIdle line then ofLines path group (number + 1) 0 rest
        else match variableAt group line rest with
          | .error fault => ([], some (fault.message path number))
          | .ok (v, count) =>
            let found := ofLines path group (number + 1) count rest
            (v :: found.1, found.2)

/-- Reads the text of a file. A mark of byte order in front does not count, and a
zero character there ends the file. -/
def ofText (path text : Text) : List Variable × Option Text :=
  match text with
  | '\x00' :: _ => ([], none)
  | '\ufeff' :: rest => ofLines path none 1 0 (Text.pieces (· == '\n') rest)
  | _ => ofLines path none 1 0 (Text.pieces (· == '\n') text)

/-- Reads a file and what it includes, up to some depth. -/
def load (around : Surroundings) (file : Text → Except Text (Option Text)) :
    Nat → Text → Text → Except Text (List Variable)
  | 0, _, _ => .error "maximum config include depth reached".toList
  | depth + 1, path, text => do
    let (found, fault) := ofText path text
    let config ← found.foldlM (fun config v => do
      match around.included? path v with
      | none => return config ++ [v]
      | some other =>
        match ← file other with
        | none => return config ++ [v]
        | some text => return config ++ v :: (← load around file depth other text)) []
    match fault with
    | some reason => throw reason
    | none => return config

/-- How deep files can include each other. -/
def maxDepth : Nat := 10

end Config

end Git

end LoudHeaders

import LoudHeaders.Machine.Shell.Builtin
import LoudHeaders.Machine.Shell.Field

/-
  Running shell scripts.

  Words are filled in and split, inputs and outputs are led where they belong, and
  the command that the first word names is carried out: a builtin, a function or a
  program. A part of a script that runs by itself, as in round brackets or on
  either side of a pipe, starts from the state of the shell and leaves only what
  it printed and wrote. Every step takes fuel, so that a script without an end
  ends with the process.

  This serves only the world the program is run in; no theorem is about it (see
  Machine/Shell/Basic).
-/

namespace LoudHeaders

namespace Machine

namespace Shell

/-- The name at the front of what stands between the braces of a parameter, and
what is behind it. -/
def parameterName (s : Text) : Text × Text :=
  match s with
  | [] => ([], [])
  | c :: rest =>
    if c.isDigit then (s.takeWhile Char.isDigit, s.dropWhile Char.isDigit)
    else if isSpecialParameter c then ([c], rest)
    else (s.takeWhile isNameChar, s.dropWhile isNameChar)

/-- The texts that a value can lose at its front, shortest first. -/
def fronts (s : Text) : List Nat := List.range (s.length + 1)

/-- A value without the front that a pattern stands for. -/
def withoutFront (longest : Bool) (pattern : List Pattern) (s : Text) : Text :=
  let sizes := (fronts s).filter fun n => Pattern.fits pattern (s.take n)
  match if longest then sizes.getLast? else sizes.head? with
  | some n => s.drop n
  | none => s

/-- A value without the end that a pattern stands for. -/
def withoutEnd (longest : Bool) (pattern : List Pattern) (s : Text) : Text :=
  let sizes := (fronts s).filter fun n => Pattern.fits pattern (s.drop n)
  match if longest then sizes.head? else sizes.getLast? with
  | some n => s.take n
  | none => s

/-- Why a file cannot be opened for reading. -/
def openingText (e : SystemError) : Text :=
  if e = .notFound || e = .notDirectory then "No such file".toList else e.text

/-- Why a file cannot be made. -/
def creatingText (e : SystemError) : Text :=
  if e = .notFound || e = .notDirectory then "Directory nonexistent".toList else e.text

/-- The place of a file that is to be written. -/
def writablePlace (files : FileTree) (directory : Place) (path : Text) :
    Except SystemError Place :=
  match files.resolve directory path with
  | .ok place => if files.isDirectory place then .error .isDirectory else .ok place
  | .error e =>
    let name := (path.reverse.takeWhile (· != '/')).reverse
    if e != .notFound || name.isEmpty then .error e
    else
      let above := path.take (path.length - name.length)
      let parent := if above.isEmpty then .ok directory else files.resolve directory above
      match parent with
      | .ok place => if files.isDirectory place then .ok (place ++ [name]) else .error .notDirectory
      | .error e => .error e

/-- The place and the program that a file name leads to. -/
def programAt (s : State) (directory : Place) (path : Text) :
    Except SystemError (Place × Utility) :=
  match s.files.resolve directory path with
  | .error e => .error e
  | .ok place =>
    match s.programs.find? fun entry => entry.1 == place with
    | some entry => .ok entry
    | none => .error .permissionDenied

/-- The program that a name without a slash stands for, looked for in directories
in order; `refusal` is what stands if none has it. -/
def searched (s : State) (name : Text) (refusal : SystemError) :
    List Text → Except SystemError (Place × Utility)
  | [] => .error refusal
  | directory :: rest =>
    match programAt s s.directory (directory ++ '/' :: name) with
    | .ok found => .ok found
    | .error e =>
      searched s name (if e = .permissionDenied then e else refusal) rest

/-- The program that a name stands for. -/
def utility (s : State) (name : Text) : Except SystemError (Place × Utility) :=
  if name.contains '/' then programAt s s.directory name
  else
    let path := (s.value? "PATH".toList).getD []
    searched s name .notFound (if path.isEmpty then [] else Text.pieces (· == ':') path)

/-- Whether an assignment or a word runs a command to be filled in. -/
def substitutes (w : Word) : Bool :=
  w.any fun
    | .substitution _ _ _ => true
    | _ => false

/-- How a script that runs by itself ended. -/
def settled (s : State) (result : Except Flow Unit) : Step Nat := do
  match result with
  | .ok _ => return (← get).status
  | .error (.exited n) => return n
  | .error (.returned n) => return n
  | .error (.left _ _) => return (← get).status
  | .error (.killed process signal) => throw (.killed process signal)
  | .error (.faulty message) =>
    modify (·.complain message)
    return 2
  | .error .exhausted =>
    set s
    throw .exhausted

/-- What remains of a part of a script that ran by itself. -/
def kept (before after : State) : State :=
  { before with
    files := after.files, buffers := after.buffers, input := after.input
    processes := after.processes }

/-- Opens a new buffer and gives its number. -/
def openBuffer : Step Nat := do
  let n := (← get).buffers.length
  modify fun s => { s with buffers := s.buffers ++ [[]] }
  return n

/-- Closes the buffer that was opened last and gives what is in it. -/
def closeBuffer (n : Nat) : Step (List UInt8) := do
  let content := ((← get).buffers[n]?).getD []
  modify fun s => { s with buffers := s.buffers.take n }
  return content

/-- Ends the shell after a command that failed, if it is to end then. -/
def checked (tested : Bool) : Step Unit := do
  let s ← get
  if !tested && s.status != 0 && s.hasOption 'e' then throw (.exited s.status)

/-- Sets the status. -/
def settle (status : Nat) : Step Unit := modify fun s => { s with status }

/-- The options in front of the arguments of a shell. -/
structure Invocation where
  options : Text
  asCommand : Bool
  fromInput : Bool
  rest : List Text

/-- Reads the options in front of the arguments of a shell. -/
def invocation (v : Invocation) : List Text → Except Text Invocation
  | [] => .ok { v with rest := [] }
  | ['-'] :: rest => .ok { v with rest }
  | ['-', '-'] :: rest => .ok { v with rest }
  | [] :: rest => .ok { v with rest := [] :: rest }
  | (sign :: letters) :: rest =>
    if sign != '-' && sign != '+' then .ok { v with rest := (sign :: letters) :: rest }
    else
      let isKnown (c : Char) : Bool :=
        Builtin.optionLetters.contains c || ['c', 's', 'i', 'l', 'o'].contains c
      match letters.find? fun c => !isKnown c with
      | some c => .error ("Illegal option -".toList ++ [c])
      | none =>
        let v := { v with
          options := v.options ++ letters.filter fun c => Builtin.optionLetters.contains c
          asCommand := v.asCommand || letters.contains 'c'
          fromInput := v.fromInput || letters.contains 's' }
        if letters.contains 'o' then
          match rest with
          | [] => .ok { v with rest := [] }
          | name :: rest =>
            match Builtin.longOptions.find? fun entry => entry.1 == name with
            | some entry => invocation { v with options := v.options ++ [entry.2] } rest
            | none => .error ("Illegal option -o ".toList ++ name)
        else invocation v rest

mutual

/-- Fills in one part of a word. `inner` holds inside a parameter, where plain
characters may be gaps. -/
def fillPart : Nat → Bool → Part → Step (List Piece)
  | 0, _, _ => throw .exhausted
  | fuel + 1, inner, part =>
    match part with
    | .plain c => return [.char ⟨c, false⟩ inner]
    | .quoted c => return [.char ⟨c, true⟩ false]
    | .mark => return [.mark]
    | .parameter expression inQuotes => fillParameter fuel expression inQuotes
    | .substitution script counted inQuotes => do
      let line := (← get).line
      let line := if counted then line else 1
      return Piece.ofValue inQuotes (← capture fuel line script)
    | .arithmetic expression inQuotes => do
      match literalParts expression with
      | .error message => stop message 2
      | .ok w =>
        let text := Piece.text (← fillParts fuel false w)
        let s ← get
        let valued := do
          let e ← (Arithmetic.parse text).mapError Arithmetic.Fault.expression
          Arithmetic.evaluate (fun name => (s.value? name).getD []) [] e
        match valued with
        | .ok (n, assigned) =>
          assigned.reverse.forM fun entry => assign entry.1 (Text.ofInt entry.2)
          return Piece.ofValue inQuotes (Text.ofInt n)
        | .error (.number given) => stop ("Illegal number: ".toList ++ given) 2
        | .error (.expression message) =>
          stop ("arithmetic expression: ".toList ++ message ++ ": \"".toList ++ text ++ ['"']) 2

/-- Fills in the parts of a word. -/
def fillParts : Nat → Bool → Word → Step (List Piece)
  | 0, _, _ => throw .exhausted
  | _ + 1, _, [] => return []
  | fuel + 1, inner, part :: rest => do
    let first ← fillPart fuel inner part
    return first ++ (← fillParts fuel inner rest)

/-- Fills in a parameter. -/
def fillParameter : Nat → Text → Bool → Step (List Piece)
  | 0, _, _ => throw .exhausted
  | fuel + 1, expression, inQuotes => do
    let s ← get
    let isList (name : Text) : Bool := name == ['@'] || name == ['*']
    let joined : Text :=
      Text.joinWith ((s.value? "IFS".toList).elim [' '] fun v => v.take 1) s.arguments
    let valueOf (name : Text) : Option Text :=
      if isList name then (if s.arguments.isEmpty then none else some joined)
      else s.parameter? name
    let plain (name : Text) : Step (List Piece) := do
      if name = ['@'] && inQuotes then
        match s.arguments with
        | [] => return [.nothing]
        | first :: rest =>
          return .mark :: Piece.ofValue true first ++
            rest.flatMap fun a => .boundary :: .mark :: Piece.ofValue true a
      else if isList name && !inQuotes then
        match s.arguments with
        | [] => return []
        | first :: rest =>
          return Piece.ofValue false first ++
            rest.flatMap fun a => .boundary :: Piece.ofValue false a
      else match valueOf name with
        | some value => return Piece.ofValue inQuotes value
        | none =>
          if s.hasOption 'u' && !isList name then stop (name ++ ": parameter not set".toList) 2
          return []
    let measured := expression.tail
    let (name, operation) := parameterName expression
    if expression.head? = some '#' && !measured.isEmpty && (parameterName measured).2.isEmpty then
      let value := (valueOf measured).getD []
      return Piece.ofValue inQuotes (Text.ofNat (Text.byteSize value))
    if name.isEmpty then stop "Bad substitution".toList 2
    if operation.isEmpty then plain name
    else
      let colon := operation.head? == some ':'
      let behind := if colon then operation.tail else operation
      let value := valueOf name
      let present := value.any fun v => !colon || !v.isEmpty
      let operand (text : Text) : Step (List Piece) := do
        let read :=
          if inQuotes then literalParts (text.filter (· != '"')) else wholeParts text
        match read with
        | .ok w => fillParts fuel true w
        | .error message => stop message 2
      let pattern (text : Text) : Step (List Pattern) := do
        match wholeParts text with
        | .ok w => return Pattern.of (Piece.marks (← fillParts fuel false w))
        | .error message => stop message 2
      let cut (f : List Pattern → Text → Text) (text : Text) : Step (List Piece) := do
        if colon then stop "Bad substitution".toList 2
        let p ← pattern text
        return Piece.ofValue inQuotes (f p (value.getD []))
      match behind with
      | '-' :: text => if present then plain name else operand text
      | '+' :: text => if present then operand text else return []
      | '=' :: text =>
        if present then plain name
        else
          let given := Piece.text (← operand text)
          if !isName name then stop (name ++ ": bad variable name".toList) 2
          assign name given
          return Piece.ofValue inQuotes given
      | '?' :: text =>
        if present then plain name
        else
          let message := Piece.text (← operand text)
          let standard :=
            if colon then "parameter not set or null".toList else "parameter not set".toList
          stop (name ++ ": ".toList ++ (if message.isEmpty then standard else message)) 2
      | '%' :: '%' :: text => cut (withoutEnd true) text
      | '%' :: text => cut (withoutEnd false) text
      | '#' :: '#' :: text => cut (withoutFront true) text
      | '#' :: text => cut (withoutFront false) text
      | _ => stop "Bad substitution".toList 2

/-- The output of a script that starts at a line, without line feeds at its end. -/
def capture : Nat → Nat → Text → Step Text
  | 0, _, _ => throw .exhausted
  | fuel + 1, line, script => do
    let n ← openBuffer
    let status ← alone fuel (modify (·.lead 1 (some (.buffer n)))) (.inr (line, script))
    let bytes ← closeBuffer n
    modify fun s => { s with captured := status }
    return ((Utf8.decodeLossy bytes).reverse.dropWhile (· == '\n')).reverse

/-- Runs a command, or a script that starts at a line, by itself, after a step of
preparation. -/
def alone : Nat → Step Unit → Command ⊕ Nat × Text → Step Nat
  | 0, _, _ => throw .exhausted
  | fuel + 1, prepare, body => do
    let before ← get
    prepare
    modify fun s => { s with traps := s.traps.filter (fun entry => entry.2.isEmpty), jobs := [] }
    let result ← observed (match body with
      | .inl c => run fuel false c
      | .inr (line, text) => script fuel line text)
    let ended ← observed (settled before result)
    let final ← observed (match ended with
      | .ok status => farewell fuel status
      | .error flow => throw flow)
    modify (kept before)
    resumed final

/-- Runs what is to be run at the end of a shell that ends with a status; gives
the status it ends with then. -/
def farewell : Nat → Nat → Step Nat
  | 0, status => return status
  | fuel + 1, status => do
    match (← get).traps.find? fun entry => entry.1 == 0 with
    | none => return status
    | some entry =>
      modify fun s => { s with status, traps := s.traps.filter fun t => t.1 != entry.1 }
      match ← observed (script fuel 1 entry.2) with
      | .ok _ => return status
      | .error (.exited n) => return n
      | .error flow => throw flow

/-- The text of a word that is not split. -/
def textOfWord : Nat → Word → Step Text
  | 0, _ => throw .exhausted
  | fuel + 1, w => do return Piece.text (← fillParts fuel false w)

/-- The texts that words become: split into fields, and patterns replaced by the
paths they stand for. -/
def textsOfWords : Nat → List Word → Step (List Text)
  | 0, _ => throw .exhausted
  | _ + 1, [] => return []
  | fuel + 1, w :: rest => do
    let pieces ← fillParts fuel false w
    let s ← get
    let fields := fieldsOf ((s.value? "IFS".toList).getD [' ', '\t', '\n']) pieces
    let first := fields.flatMap fun field =>
      let paths :=
        if Pattern.isProper field && !s.hasOption 'f' then matchingPaths s.files s.directory field
        else []
      if paths.isEmpty then [textOf field] else paths
    return first ++ (← textsOfWords fuel rest)

/-- Leads one input or output somewhere; gives what is wrong if that cannot be
done. -/
def redirect : Nat → Redirect → Step (Option Text)
  | 0, _ => throw .exhausted
  | fuel + 1, r => do
    match r with
    | .here _ body =>
      let text ← textOfWord fuel body
      modify fun s => { s with input := Utf8.encode text }
      return none
    | .read source file =>
      let path ← textOfWord fuel file
      let s ← get
      match s.files.resolve s.directory path with
      | .error e => return some ("cannot open ".toList ++ path ++ ": ".toList ++ openingText e)
      | .ok place =>
        if source = 0 then set { s with input := (s.files.bytes? place).getD [] }
        return none
    | .write source file append =>
      let path ← textOfWord fuel file
      let s ← get
      if path = "/dev/null".toList then
        set (s.lead source (some .nowhere))
        return none
      else if path = "/dev/stdout".toList || path = "/dev/fd/1".toList then
        set (s.lead source (s.sink? 1))
        return none
      else if path = "/dev/stderr".toList || path = "/dev/fd/2".toList then
        set (s.lead source (s.sink? 2))
        return none
      else
        match writablePlace s.files s.directory path with
        | .error e => return some ("cannot create ".toList ++ path ++ ": ".toList ++ creatingText e)
        | .ok place =>
          let content := if append then (s.files.bytes? place).getD [] else []
          set ((s.putItem place (.file content)).lead source (some (.file place)))
          return none
    | .join source target =>
      let text ← textOfWord fuel target
      let s ← get
      if text = ['-'] then
        set (s.lead source none)
        return none
      else match text with
        | [c] =>
          if !c.isDigit then stop "Syntax error: Bad fd number".toList 2
          let n := c.toNat - '0'.toNat
          if source = 0 || n = 0 then return none
          match s.sink? n with
          | some sink =>
            set (s.lead source (some sink))
            return none
          | none => return some (text ++ ": Bad file descriptor".toList)
        | _ => stop "Syntax error: Bad fd number".toList 2

/-- Leads inputs and outputs somewhere, one after the other; says whether all
could be. -/
def redirectAll : Nat → List Redirect → Step Bool
  | 0, _ => throw .exhausted
  | _ + 1, [] => return true
  | fuel + 1, r :: rest => do
    match ← redirect fuel r with
    | some message =>
      modify (·.complain message)
      return false
    | none => redirectAll fuel rest

/-- Runs a command. Where `tested` holds, its failure does not end the shell. -/
def run : Nat → Bool → Command → Step Unit
  | 0, _, _ => throw .exhausted
  | fuel + 1, tested, c => do
    match c with
    | .nothing => pure ()
    | .simple line assignments words redirects =>
      modify fun s => { s with line }
      simple fuel tested assignments words redirects
    | .redirected body redirects =>
      let before ← get
      if ← redirectAll fuel redirects then
        let result ← observed (run fuel tested body)
        modify fun s => { s with sinks := before.sinks, input := before.input }
        resumed result
      else
        modify fun s => { s with sinks := before.sinks, input := before.input }
        settle 2
        checked tested
    | .subshell body =>
      settle (← alone fuel (pure ()) (.inl body))
      checked tested
    | .sequence first second =>
      run fuel tested first
      run fuel tested second
    | .background body =>
      let before ← get
      let job := before.processes + 1
      set { before with processes := job }
      let status ← alone fuel (modify fun s => { s with input := [] }) (.inl body)
      modify fun s => { s with
        input := before.input, jobs := (job, status) :: s.jobs, latestJob := some job }
      settle 0
    | .both first second =>
      run fuel true first
      if (← get).status = 0 then run fuel tested second
    | .either first second =>
      run fuel true first
      if (← get).status != 0 then run fuel tested second
    | .negated body =>
      run fuel true body
      settle (if (← get).status = 0 then 1 else 0)
    | .piped first second =>
      let before ← get
      let n ← openBuffer
      let _ ← alone fuel (modify (·.lead 1 (some (.buffer n)))) (.inl first)
      let bytes ← closeBuffer n
      let middle ← get
      let result ← observed (alone fuel (modify fun s => { s with input := bytes }) (.inl second))
      modify fun s => { s with input := if before.input.isEmpty then [] else middle.input }
      settle (← resumed result)
      checked tested
    | .branch test yes no =>
      run fuel true test
      if (← get).status = 0 then run fuel tested yes
      else
        settle 0
        run fuel tested no
    | .loop wanted test body => loop fuel tested wanted test body 0
    | .each name words body =>
      let texts ← textsOfWords fuel words
      settle 0
      each fuel tested name body texts
    | .select subject cases =>
      let text ← textOfWord fuel subject
      settle 0
      select fuel tested text cases
    | .function name body =>
      modify fun s =>
        { s with functions := (name, body) :: s.functions.filter fun entry => entry.1 != name }
      settle 0

/-- Runs the body of a loop once; says whether the loop goes on. -/
def turn : Nat → Bool → Command → Step Bool
  | 0, _, _ => throw .exhausted
  | fuel + 1, tested, body => do
    modify fun s => { s with loops := s.loops + 1 }
    let result ← observed (run fuel tested body)
    modify fun s => { s with loops := s.loops - 1 }
    match result with
    | .ok _ => return true
    | .error (.left n again) =>
      settle 0
      if n ≤ 1 then return again else throw (.left (n - 1) again)
    | .error flow => throw flow

/-- Runs a loop; `last` is the status of the body so far. -/
def loop : Nat → Bool → Bool → Command → Command → Nat → Step Unit
  | 0, _, _, _, _, _ => throw .exhausted
  | fuel + 1, tested, wanted, test, body, last => do
    run fuel true test
    if ((← get).status == 0) == wanted then
      if ← turn fuel tested body then
        loop fuel tested wanted test body (← get).status
    else settle last

/-- Runs a body for each of some texts. -/
def each : Nat → Bool → Text → Command → List Text → Step Unit
  | 0, _, _, _, _ => throw .exhausted
  | _ + 1, _, _, _, [] => pure ()
  | fuel + 1, tested, name, body, text :: rest => do
    assign name text
    if ← turn fuel tested body then each fuel tested name body rest

/-- Runs the first case with a pattern that stands for a text. -/
def select : Nat → Bool → Text → List (List Word × Command) → Step Unit
  | 0, _, _, _ => throw .exhausted
  | _ + 1, _, _, [] => pure ()
  | fuel + 1, tested, text, (patterns, body) :: rest => do
    if ← anyFits fuel text patterns then run fuel tested body
    else select fuel tested text rest

/-- Whether one of some patterns stands for a text. -/
def anyFits : Nat → Text → List Word → Step Bool
  | 0, _, _ => throw .exhausted
  | _ + 1, _, [] => return false
  | fuel + 1, text, w :: rest => do
    let pattern := Pattern.of (Piece.marks (← fillParts fuel false w))
    if Pattern.fits pattern text then return true else anyFits fuel text rest

/-- Carries out the assignments of a command; `exported` holds in front of one that
is given them. -/
def assignAll : Nat → Bool → List (Text × Word) → Step Unit
  | 0, _, _ => throw .exhausted
  | _ + 1, _, [] => pure ()
  | fuel + 1, exported, (name, w) :: rest => do
    let value ← textOfWord fuel w
    assign name value
    let s ← get
    if s.hasOption 'x' then
      set (s.write 2 (Utf8.encode ("+ ".toList ++ name ++ ['='] ++ value ++ ['\n'])))
    if exported then
      modify fun s =>
        s.put { (s.variableOf name).getD ⟨name, none, true, false⟩ with exported := true }
    assignAll fuel exported rest

/-- Runs a simple command. -/
def simple : Nat → Bool → List (Text × Word) → List Word → List Redirect → Step Unit
  | 0, _, _, _, _ => throw .exhausted
  | fuel + 1, tested, assignments, words, redirects => do
    let texts ← textsOfWords fuel words
    let before ← get
    let restore : Step Unit :=
      modify fun s => { s with
        sinks := before.sinks
        input := if redirects.isEmpty then s.input else before.input }
    let given ← redirectAll fuel redirects
    match texts with
    | [] =>
      let runs := (words ++ assignments.map (·.2)).any substitutes
      let result ← observed (if given then assignAll fuel false assignments else pure ())
      restore
      resumed result
      let captured := (← get).captured
      settle (if !given then 2 else if runs then captured else 0)
      checked tested
    | name :: arguments =>
      let special := Builtin.isSpecial name
      if !given then
        restore
        settle 2
        if special then throw (.exited 2)
        checked tested
      else
        let held := (← get).bindings
        let result ← observed (do
          assignAll fuel (!special) assignments
          let s ← get
          if s.hasOption 'x' && !texts.isEmpty then
            set (s.write 2 (Utf8.encode ("+ ".toList ++ Text.joinWith [' '] texts ++ ['\n'])))
          invoke fuel true name arguments)
        if !special && !assignments.isEmpty then
          modify fun s => { s with
            bindings := s.bindings.filter (fun v => assignments.all fun a => a.1 != v.name) ++
              held.filter fun v => assignments.any fun a => a.1 == v.name }
        if !(name == "exec".toList && arguments.isEmpty) then restore
        resumed result
        checked tested

/-- Carries out what a name stands for: a builtin of the language, a function,
another builtin, or a program. -/
def invoke : Nat → Bool → Text → List Text → Step Unit
  | 0, _, _, _ => throw .exhausted
  | fuel + 1, functions, name, arguments => do
    let s ← get
    let body :=
      if functions && !Builtin.isSpecial name then
        (s.functions.find? fun entry => entry.1 == name).map (·.2)
      else none
    match body with
    | some body =>
      modify fun s => { s with arguments, saved := [] :: s.saved, loops := 0 }
      let result ← observed (run fuel true body)
      modify fun t =>
        let frame := t.saved.headD []
        let back := frame.foldl (fun (t : State) entry =>
          match entry.2 with
          | some v => t.put v
          | none => t.drop entry.1) t
        { back with arguments := s.arguments, saved := s.saved, loops := s.loops }
      match result with
      | .error (.returned n) => settle n
      | _ => resumed result
    | none =>
      if Builtin.names.contains name then
        if name != "command".toList then set { s with context := name }
        let result ← observed (builtin fuel name arguments)
        match result with
        | .error (.faulty message) => modify (·.complain message)
        | _ => pure ()
        modify fun t => { t with context := s.context }
        match result with
        | .ok status => settle status
        | .error (.faulty _) => if Builtin.isSpecial name then throw (.exited 2) else settle 2
        | .error flow => throw flow
      else
        match utility s name with
        | .ok found => settle (← program fuel false found.2 (name :: arguments))
        | .error e => refuse name e

/-- Reports a program that cannot be run. -/
def refuse : Text → SystemError → Step Unit := fun name e => do
  if e = .notFound || e = .notDirectory then
    modify (·.complain (name ++ ": not found".toList))
    settle 127
  else
    modify (·.complain (name ++ ": ".toList ++ e.text))
    settle (if name.contains '/' then 126 else 127)

/-- Carries out a builtin. -/
def builtin : Nat → Text → List Text → Step Nat
  | 0, _, _ => throw .exhausted
  | fuel + 1, name, arguments => do
    let prints := ["echo".toList, "printf".toList, "pwd".toList].contains name
    if prints && ((← get).sink? 1).isNone then
      modify (·.complain (name ++ ": I/O error".toList))
      return 1
    else if name = "eval".toList then
      settle 0
      script fuel 1 (Text.joinWith [' '] arguments)
      return (← get).status
    else if name = ['.'] then source fuel arguments
    else if name = "exec".toList then
      match arguments with
      | [] => return 0
      | program_ :: _ =>
        match utility (← get) program_ with
        | .ok found => throw (.exited (← program fuel true found.2 arguments))
        | .error e =>
          refuse program_ e
          throw (.exited (← get).status)
    else if name = "command".toList then
      match arguments with
      | [] => return 0
      | ['-', 'v'] :: names => describe false (names.take 1)
      | ['-', 'V'] :: names => describe true names
      | ['-', '-'] :: first :: rest =>
        invoke fuel false first rest
        return (← get).status
      | ['-', 'p'] :: first :: rest =>
        invoke fuel false first rest
        return (← get).status
      | first :: rest =>
        invoke fuel false first rest
        return (← get).status
    else if name = "type".toList then describe true arguments
    else if name = "kill".toList then
      let (status, action) ← Builtin.kill arguments
      match action with
      | none => return status
      | some action =>
        modify fun s => { s with context := [] }
        script fuel 1 action
        return status
    else Builtin.run name arguments

/-- Says what names stand for. -/
def describe : Bool → List Text → Step Nat := fun long names => do
  let s ← get
  let line (name : Text) : Option Text :=
    let isFunction := s.functions.any fun entry => entry.1 == name
    if Parser.keywords.contains name then
      some (if long then name ++ " is a shell keyword".toList else name)
    else if Builtin.isSpecial name then
      some (if long then name ++ " is a special shell builtin".toList else name)
    else if isFunction then some (if long then name ++ " is a shell function".toList else name)
    else if Builtin.names.contains name then
      some (if long then name ++ " is a shell builtin".toList else name)
    else
      match utility s name with
      | .ok found =>
        let shown := if name.contains '/' then name else found.1.path
        some (if long then name ++ " is ".toList ++ shown else shown)
      | .error _ => none
  names.forM fun name =>
    match line name with
    | some text => Builtin.print (Utf8.encode (text ++ ['\n']))
    | none =>
      if long then Builtin.print (Utf8.encode (name ++ ": not found\n".toList)) else pure ()
  return if names.all fun name => (line name).isSome then 0 else 127

/-- Runs the script in a file as a part of the one that is running. -/
def source : Nat → List Text → Step Nat
  | 0, _ => throw .exhausted
  | fuel + 1, arguments => do
    match arguments with
    | [] => return 0
    | path :: _ =>
      let s ← get
      let found :=
        if path.contains '/' then s.files.resolve s.directory path
        else
          let directories := Text.pieces (· == ':') ((s.value? "PATH".toList).getD [])
          let places := directories.filterMap fun directory =>
            (s.files.resolve s.directory (directory ++ '/' :: path)).toOption
          match places.find? fun place => (s.files.bytes? place).isSome with
          | some place => .ok place
          | none => .error .notFound
      match found with
      | .ok place =>
        set { s with status := 0, context := path }
        let text := Utf8.decodeLossy ((s.files.bytes? place).getD [])
        match ← observed (script fuel 1 text) with
        | .error (.returned n) => return n
        | result =>
          resumed result
          return (← get).status
      | .error e =>
        if path.contains '/' then
          Builtin.fault ("cannot open ".toList ++ path ++ ": ".toList ++ openingText e)
        else Builtin.fault (path ++ ": not found".toList)

/-- Runs a program to its end; in place of the shell itself if `instead` holds. -/
def program : Nat → Bool → Utility → List Text → Step Nat
  | 0, _, _, _ => throw .exhausted
  | fuel + 1, instead, u, argv => do
    let s ← get
    match u with
    | .shell =>
      let process := if instead then s.process else s.processes + 1
      set { State.start s.files s.programs [] s.directory (argv.headD []) [] with
        bindings := s.environment ++
          (State.start [] [] [] s.directory [] []).bindings.filter fun (v : Variable) =>
            s.environment.all fun w => w.name != v.name
        input := s.input, sinks := s.sinks, buffers := s.buffers
        process, processes := max process s.processes }
      let result ← observed (shell fuel argv)
      modify (kept s)
      match result with
      | .error (.killed p signal) =>
        if p != process || instead then throw (.killed p signal)
        Builtin.mourn signal
        return 128 + signal
      | _ => resumed result
    | _ =>
      let effect := u.run s.files s.directory s.input argv.tail
      modify fun s => ((s.write 1 effect.output).write 2 effect.error)
      modify fun s => { s with input := effect.input }
      return effect.status

/-- Runs a shell on its arguments; gives the status it ends with. -/
def shell : Nat → List Text → Step Nat
  | 0, _ => throw .exhausted
  | fuel + 1, argv => do
    let own := argv.headD []
    let refused (message : Text) : Step Nat := do
      modify fun s => { s with line := 0 }
      modify (·.complain message)
      return 2
    match invocation ⟨[], false, false, []⟩ argv.tail with
    | .error message => refused message
    | .ok v =>
      modify fun s => { s with options := v.options }
      let s ← get
      if v.asCommand then
        match v.rest with
        | [] => refused "-c requires an argument".toList
        | text :: rest =>
          modify fun s => { s with name := rest.headD own, arguments := rest.tail }
          session fuel text
      else
        match if v.fromInput then [] else v.rest with
        | [] =>
          modify fun t => { t with arguments := v.rest, input := [] }
          session fuel (Utf8.decodeLossy s.input)
        | path :: rest =>
          match s.files.resolve s.directory path with
          | .ok place =>
            modify fun s => { s with name := path, arguments := rest }
            session fuel (Utf8.decodeLossy ((s.files.bytes? place).getD []))
          | .error e =>
            refused ("cannot open ".toList ++ path ++ ": ".toList ++ openingText e)

/-- Runs the script of a shell to its end. -/
def session : Nat → Text → Step Nat
  | 0, _ => throw .exhausted
  | fuel + 1, text => do
    let before ← get
    let status ← settled before (← observed (script fuel 1 text))
    farewell fuel status

/-- Runs a script that starts at a line. -/
def script : Nat → Nat → Text → Step Unit
  | 0, _, _ => throw .exhausted
  | fuel + 1, line, text => lines fuel (tokens line text)

/-- Runs the lines that are left of a script. -/
def lines : Nat → Tokens → Step Unit
  | 0, _ => throw .exhausted
  | fuel + 1, t => do
    match Parser.nextLine t with
    | .error fault =>
      modify fun s => { s with line := fault.line }
      stop fault.message 2
    | .ok none => pure ()
    | .ok (some (c, rest)) =>
      run fuel false c
      lines fuel rest

end

/-- How many steps deep a shell can go. -/
def depth : Nat := 20000

/-- Runs a shell on its arguments, without input. -/
def process (files : FileTree) (programs : List (Place × Utility)) (searchPath : List Place)
    (directory : Place) (argv : List Text) : Finished :=
  let start := State.start files programs searchPath directory (argv.headD []) []
  let (result, s) := ((shell depth argv).run start)
  let status : Status :=
    match result with
    | .ok n => .exited n
    | .error (.killed _ signal) => .signalled signal
    | .error (.exited n) => .exited n
    | .error _ => .exited 2
  ⟨status, (s.buffers[0]?).getD [], (s.buffers[1]?).getD []⟩

end Shell

end Machine

end LoudHeaders

import GameBridge.Toml.Item

/-!
# TOML documents

A document is a sequence of statements: a key with its value, the header of a table, or the header
of a further table in a list. The statements are carried out one after the other on the table of
the whole document. Keys and headers lead through tables that exist, and through the last one of a
list, and make the tables that are missing.

No statement may give a meaning to what already has one. A header takes over a table that so far
only other headers lead through, but none that a key with dots has made.
-/

namespace GameBridge.Toml

/-! ## Statements -/

/-- A statement of a document. -/
inductive Statement where
  /-- A key with its value. -/
  | pair (path : List String) (value : Item)
  /-- The header of a table. -/
  | table (path : List String)
  /-- The header of a further table in a list. -/
  | further (path : List String)

/-- Reads one line; a blank line holds no statement. No value has more than `fuel` items. -/
def line? (fuel : Nat) : List Char → Option (Option Statement × List Char)
  | '[' :: '[' :: rest => do
    let (path, cs) ← key? rest
    let cs ← finishLine? (← expect? ']' (← expect? ']' cs))
    return (some (.further path), cs)
  | '[' :: rest => do
    let (path, cs) ← key? rest
    let cs ← finishLine? (← expect? ']' cs)
    return (some (.table path), cs)
  | '#' :: rest => (finishLine? ('#' :: rest)).map fun cs ↦ (none, cs)
  | '\n' :: rest => some (none, rest)
  | '\r' :: rest => (lineBreak? ('\r' :: rest)).map fun cs ↦ (none, cs)
  | cs => do
    let ((path, value), cs) ← pair? (value? fuel maxDepth) cs
    return (some (.pair path value), ← finishLine? cs)

/-- Reads at most `fuel` lines. Since a line and an item have at least one character each, what is
left of the fuel is also enough for the items of the values. -/
def lines? : Nat → List Char → Option (List Statement)
  | 0, _ => none
  | fuel + 1, cs =>
    match skipBlanks cs with
    | [] => some []
    | cs => do
      let (statement, rest) ← line? (fuel + 1) cs
      let more ← lines? fuel rest
      return statement.toList ++ more

/-- The statements of a text. A mark of the byte order in front is left out. -/
def statements? (text : String) : Option (List Statement) :=
  let cs :=
    match text.toList with
    | '\ufeff' :: rest => rest
    | cs => cs
  lines? (cs.length + 1) cs

/-! ## Carrying statements out -/

/-- The origin of a table that is made because a key or a header leads through it. -/
def Origin.made (byKey : Bool) : Origin := if byKey then .dotted else .implied

/-- Changes the table at the end of a path; `change` is told how that table came to be. Keys with
dots do not enter tables with headers, and nothing enters tables in braces. -/
def within? (byKey : Bool) (change : Origin → Entries → Option Entries) (origin : Origin)
    (entries : Entries) : List String → Option Entries
  | [] => change origin entries
  | key :: path =>
    match findEntry key entries with
    | none =>
      (within? byKey change (.made byKey) [] path).map fun child ↦
        insertEntry key (.table (.made byKey) child) entries
    | some (.table origin child) =>
      if origin = .braced ∨ origin = .dottedBraced ∨ (byKey = true ∧ origin = .header) then none
      else
        (within? byKey change origin child path).map fun child ↦
          insertEntry key (.table origin child) entries
    -- a list is entered at its last table
    | some (.tables (last :: before)) =>
      (within? byKey change .header last path).map fun child ↦
        insertEntry key (.tables (child :: before)) entries
    | some _ => none

/-- Adds a value under a new key. A key with dots only adds to tables that such keys have made. -/
def addValue? (hasDots : Bool) (key : String) (value : Item) (origin : Origin)
    (entries : Entries) : Option Entries :=
  if hasDots = true ∧ origin ≠ .dotted then none
  else
    match findEntry key entries with
    | none => some (insertEntry key value entries)
    | some _ => none

/-- Gives a table a header. -/
def openTable? (key : String) (entries : Entries) : Option Entries :=
  match findEntry key entries with
  | none => some (insertEntry key (.table .header []) entries)
  | some (.table .implied child) => some (insertEntry key (.table .header child) entries)
  | some _ => none

/-- Adds a further table to a list. -/
def addTable? (key : String) (entries : Entries) : Option Entries :=
  match findEntry key entries with
  | none => some (insertEntry key (.tables [[]]) entries)
  | some (.tables list) => some (insertEntry key (.tables ([] :: list)) entries)
  | some _ => none

/-- A document that is being read: what it holds so far, and the table of the last header. -/
structure Draft where
  /-- What it holds. -/
  entries : Entries
  /-- The path of the table to which keys belong. -/
  current : List String

/-- Carries out a statement. -/
def Draft.step (draft : Draft) : Statement → Option Draft
  | .pair path value => do
    let key ← path.getLast?
    let way := path.dropLast
    let add := fun origin entries ↦
      within? true (addValue? (!way.isEmpty) key value) origin entries way
    let entries ← within? false add .header draft.entries draft.current
    return { draft with entries }
  | .table path => do
    let key ← path.getLast?
    let entries ← within? false (fun _ ↦ openTable? key) .header draft.entries path.dropLast
    return ⟨entries, path⟩
  | .further path => do
    let key ← path.getLast?
    let entries ← within? false (fun _ ↦ addTable? key) .header draft.entries path.dropLast
    return ⟨entries, path⟩

/-- The table that statements describe. -/
def ofStatements? (statements : List Statement) : Option Entries :=
  (statements.foldlM Draft.step ⟨[], []⟩).map Draft.entries

/-- The table that a text describes. -/
def read? (text : String) : Option Entries := (statements? text).bind ofStatements?

end GameBridge.Toml

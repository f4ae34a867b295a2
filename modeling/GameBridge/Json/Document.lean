import GameBridge.Json.Token

/-!
# JSON documents

A document is what a JSON text says before anyone asks what it means: numbers keep their digits,
strings may lack a text, and the members of an object keep their order and their repetitions.

Documents are built from tokens with an explicit stack of the arrays and objects that are still
open, so nesting is limited by nothing. What a reader ignores it never looks into.
-/

namespace GameBridge.Json

/-- The content of a JSON text. -/
inductive Document where
  /-- The word `null`. -/
  | null
  /-- A truth value. -/
  | bool (value : Bool)
  /-- A number. -/
  | num (literal : Literal)
  /-- A string, if its content is a text. -/
  | str (text : Option String)
  /-- An array. -/
  | arr (items : List Document)
  /-- An object with its members in the order in which they are written. -/
  | obj (members : List (Option String × Document))
deriving Repr, Inhabited

namespace Document

/-- The members of an object. -/
abbrev Members := List (Option String × Document)

/-! ## Building -/

/-- An array or an object that is still open; what is complete in it is kept last first. -/
inductive Frame where
  /-- An array in which an item is being read. -/
  | item (before : List Document)
  /-- An object in which the value of a member is being read. -/
  | member (before : Members) (name : Option String)

/-- What has been read in the innermost open place. -/
inductive Phase where
  /-- A value has to follow. -/
  | value
  /-- The first item of an array has to follow, or its end. -/
  | first
  /-- The name of a member has to follow, or the end of the object if there is none before. -/
  | name (before : Members)
  /-- The colon after a name has to follow. -/
  | colon (before : Members) (name : Option String)
  /-- A value is complete. -/
  | complete (document : Document)

/-- The state of building a document. -/
structure Builder where
  /-- The open arrays and objects, innermost first. -/
  frames : List Frame
  /-- What has been read in the innermost one. -/
  phase : Phase

namespace Builder

/-- Nothing has been read. -/
def start : Builder := ⟨[], .value⟩

/-- Takes the first token of a value. -/
def beginValue? (frames : List Frame) : Token → Option Builder
  | .null => some ⟨frames, .complete .null⟩
  | .bool b => some ⟨frames, .complete (.bool b)⟩
  | .num l => some ⟨frames, .complete (.num l)⟩
  | .str s => some ⟨frames, .complete (.str s)⟩
  | .openArray => some ⟨.item [] :: frames, .first⟩
  | .openObject => some ⟨frames, .name []⟩
  | _ => none

/-- Takes one token. -/
def step (builder : Builder) (token : Token) : Option Builder :=
  match builder.phase, builder.frames, token with
  | .value, frames, token => beginValue? frames token
  | .first, .item _ :: frames, .closeArray => some ⟨frames, .complete (.arr [])⟩
  | .first, frames, token => beginValue? frames token
  | .name [], frames, .closeObject => some ⟨frames, .complete (.obj [])⟩
  | .name before, frames, .str name => some ⟨frames, .colon before name⟩
  | .colon before name, frames, .colon => some ⟨.member before name :: frames, .value⟩
  | .complete d, .item before :: frames, .comma => some ⟨.item (d :: before) :: frames, .value⟩
  | .complete d, .item before :: frames, .closeArray =>
    some ⟨frames, .complete (.arr (d :: before).reverse)⟩
  | .complete d, .member before name :: frames, .comma =>
    some ⟨frames, .name ((name, d) :: before)⟩
  | .complete d, .member before name :: frames, .closeObject =>
    some ⟨frames, .complete (.obj ((name, d) :: before).reverse)⟩
  | _, _, _ => none

/-- The document, if it is complete. -/
def finish? : Builder → Option Document
  | ⟨[], .complete d⟩ => some d
  | _ => none

end Builder

/-- The document that tokens form. -/
def ofTokens? (tokens : List Token) : Option Document :=
  (tokens.foldlM Builder.step Builder.start).bind Builder.finish?

/-- The document that a JSON text holds. -/
def read? (bytes : List UInt8) : Option Document := (Token.scan? bytes).bind ofTokens?

/-! ## Looking into a document -/

/-- The text of a string. -/
def text? : Document → Option String
  | .str text => text
  | _ => none

/-- The integer that a number stands for, if it is one. -/
def integer? : Document → Option Integer
  | .num l =>
    match l.number? with
    | some (.int n) => some n
    | _ => none
  | _ => none

/-- Reads a value that may be `null`. -/
def optional? {α : Type} (read : Document → Option α) : Document → Option (Option α)
  | .null => some none
  | d => (read d).map some

end Document

end GameBridge.Json

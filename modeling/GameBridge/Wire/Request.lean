import GameBridge.Json.Printer
import GameBridge.Json.Record
import GameBridge.Wire.Method

/-!
# Requests

A request is one line of JSON: the version of the protocol, the method, an id by which the host
recognises the response, and parameters. The last two may be missing.
-/

namespace GameBridge.Wire

open Json

/-- A request of a host. -/
structure Request where
  /-- The version of the protocol that the host speaks. -/
  version : UInt32
  /-- What it asks for. -/
  method : Method
  /-- By what it recognises the response. -/
  id : Option String
  /-- The parameters. -/
  params : Option Value

/-- The version of the protocol that is spoken here. -/
def protocolVersion : UInt32 := 1

namespace Request

/-- The request for a method, about a game if one is given. -/
def forMethod (method : Method) (gameId : Option String) : Request where
  version := protocolVersion
  method := method
  id := none
  params := gameId.map fun id ↦ .object [("game_id", .str id)]

/-- The members of a request in their order. -/
def members (request : Request) : List (String × Value) :=
  [("protocol_version", .ofUInt64 request.version.toUInt64), ("method", .str request.method.name),
    ("id", .ofOption .str request.id), ("params", request.params.getD .null)]

/-- The text of a request. -/
def chars (request : Request) : List Char := recordChars request.members

/-- The text of a request. -/
def text (request : Request) : String := String.ofList request.chars

/-! ## Reading -/

/-- The fields of a request. -/
def layout : Layout := ⟨["protocol_version", "method", "id", "params"], 2, true⟩

/-- Reads the version of the protocol. -/
def version? (document : Document) : Option UInt32 :=
  document.integer?.bind fun n ↦
    if 0 ≤ n.val ∧ n.val < UInt32.size then some (UInt32.ofNat n.val.toNat) else none

/-- Reads a field that may be missing. -/
def optionalField? {α : Type} (read : Document → Option α) :
    Option Document → Option (Option α)
  | none => some none
  | some document => document.optional? read

/-- Reads a request. -/
def ofDocument? (document : Document) : Option Request := do
  let field ← layout.fields? document
  let version ← (field "protocol_version").bind version?
  let method ← (field "method").bind Method.ofDocument?
  let id ← optionalField? Document.text? (field "id")
  let params ← optionalField? (Value.ofDocument? (maxDepth - 1)) (field "params")
  return ⟨version, method, id, params⟩

/-- Reads a request from a line. -/
def read? (line : List UInt8) : Option Request := (Document.read? line).bind ofDocument?

end Request

end GameBridge.Wire

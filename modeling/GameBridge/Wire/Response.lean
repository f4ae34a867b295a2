import GameBridge.Wire.GameParams
import GameBridge.Wire.Request

/-!
# Responses

A response is one line of JSON: whether the request succeeded, the id of the request, and either
data or an error. Members that are missing are not written.
-/

namespace GameBridge.Wire

open Json

/-- A response to a host. -/
structure Response where
  /-- Whether the request succeeded. -/
  ok : Bool
  /-- The id of the request. -/
  id : Option String
  /-- What was asked for. -/
  data : Option Value
  /-- What went wrong. -/
  error : Option ErrorInfo

namespace Response

/-- The response to a request that succeeded. -/
def success (id : Option String) (data : Value) : Response := ⟨true, id, some data, none⟩

/-- The response to a request that failed. -/
def failure (id : Option String) (error : ErrorInfo) : Response := ⟨false, id, none, some error⟩

/-! ## Writing -/

/-- An error as a value. -/
def errorValue (error : ErrorInfo) : Value :=
  .object [("code", .str error.code), ("message", .str error.message)]

/-- A member that is only written if there is something in it. -/
def member {α : Type} (name : String) (make : α → Value) (content : Option α) :
    List (String × Value) :=
  (content.map fun a ↦ (name, make a)).toList

/-- The members of a response in their order. -/
def members (response : Response) : List (String × Value) :=
  ("ok", .bool response.ok) :: member "id" .str response.id
    ++ member "data" (fun v ↦ v) response.data ++ member "error" errorValue response.error

/-- The text of a response. -/
def chars (response : Response) : List Char := recordChars response.members

/-- The text of a response. -/
def text (response : Response) : String := String.ofList response.chars

/-! ## Reading -/

/-- The fields of a response. -/
def layout : Layout := ⟨["ok", "id", "data", "error"], 4, false⟩

/-- The fields of an error. -/
def errorLayout : Layout := ⟨["code", "message"], 2, false⟩

/-- Reads a truth value. -/
def bool? : Document → Option Bool
  | .bool b => some b
  | _ => none

/-- Reads an error. -/
def error? (document : Document) : Option ErrorInfo := do
  let field ← errorLayout.fields? document
  let code ← (field "code").bind Document.text?
  let message ← (field "message").bind Document.text?
  return ⟨code, message⟩

/-- Reads a response. -/
def ofDocument? (document : Document) : Option Response := do
  let field ← layout.fields? document
  let ok ← (field "ok").bind bool?
  let id ← Request.optionalField? Document.text? (field "id")
  let data ← Request.optionalField? (Value.ofDocument? (maxDepth - 1)) (field "data")
  let error ← Request.optionalField? error? (field "error")
  return ⟨ok, id, data, error⟩

/-- Reads a response from its text. -/
def read? (bytes : List UInt8) : Option Response := (Document.read? bytes).bind ofDocument?

end Response

end GameBridge.Wire

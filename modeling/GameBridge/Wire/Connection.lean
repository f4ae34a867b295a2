import GameBridge.Wire.Reply

/-!
# Connections

A host sends one request on a connection and gets one line back. Bytes are taken in chunks until a
chunk holds a line break or nothing more comes; what follows the line break does not matter. A
request that is longer than the limit is refused as soon as that is known, and so is one that is
blank.
-/

namespace GameBridge.Wire

/-- The byte that ends a line. -/
def newline : UInt8 := 0x0a

/-- How many bytes are taken at a time. -/
def chunkSize : Nat := 4096

/-- How many bytes may be taken for a request. -/
def maxRequestBytes : Nat := 65536

/-- Takes chunks of what comes until one holds a line break, on top of the bytes taken before.
Gives nothing if these become too many. -/
def gather (taken : List UInt8) : List UInt8 → Option (List UInt8)
  | [] => some taken
  | b :: rest =>
    let chunk := (b :: rest).take chunkSize
    let taken := taken ++ chunk
    if maxRequestBytes < taken.length then none
    else if chunk.contains newline then some taken
    else gather taken ((b :: rest).drop chunkSize)
termination_by incoming => incoming.length
decreasing_by simp only [List.length_drop, chunkSize, List.length_cons]; omega

/-- Whether a byte is white space. -/
def isBlankByte (b : UInt8) : Bool :=
  b == 0x20 || b == 0x09 || b == 0x0a || b == 0x0c || b == 0x0d

/-- The request that comes in on a connection. -/
def receive (incoming : List UInt8) : Except ErrorInfo Request :=
  match gather [] incoming with
  | none => .error ⟨"request_too_large", "request exceeded maximum size"⟩
  | some taken =>
    -- what came in the same chunk after the line is of no interest
    let line := taken.takeWhile (· ≠ newline)
    if line.all isBlankByte then .error ⟨"empty_request", "request body was empty"⟩
    else
      match Request.read? line with
      | some request => .ok request
      | none => .error ⟨"invalid_json", "request was not valid JSON: "⟩

/-- What is sent back: the response on a line of its own. -/
def lineOf (response : Response) : List Char := response.chars ++ ['\n']

/-- Serves a connection: the bytes that come in, and the line that is sent back. -/
def serve [Room] (processId : UInt32) (engine : Engine) (incoming : List UInt8) :
    Except Stop (List Char) × Engine :=
  match receive incoming with
  | .error info => (.ok (lineOf (.failure none info)), engine)
  | .ok request =>
    let (result, engine) := reply processId engine request
    (result.map lineOf, engine)

end GameBridge.Wire

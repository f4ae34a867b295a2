import GameBridge.Proofs.Json.RoundTrip
import GameBridge.Proofs.Wire.Serving

/-!
# Both ends of a connection

The two ends of a connection write requests and responses as lines of JSON, and each reads what the
other has written. `Value.Portable` says which values come through: those that have no
floating-point numbers and are not nested too deeply, and not `null`, which cannot be told from a
field that is missing.

All data that the bridge sends are portable, so a host learns every response as it is. The only
parameters with which a request is made are an object with the id of a game, so the bridge learns
every request as it is, as long as its line is not too long.
-/

namespace GameBridge

open Json

/-! ## Portable values -/

namespace Json

/-- A value that can be sent in an optional field. -/
structure Value.Portable (v : Value) : Prop where
  /-- It is not taken for a missing one. -/
  ne_null : v ≠ .null
  /-- It has no floating-point numbers. -/
  exact : v.Exact
  /-- It is not nested too deeply to be read inside of a record. -/
  within : v.Within (maxDepth - 1)

theorem Value.Portable.exists_document {v : Value} (h : v.Portable) :
    ∃ d, v.document? = some d ∧ d.optional? (ofDocument? (maxDepth - 1)) = some (some v) := by
  obtain ⟨d, hd⟩ := Option.isSome_iff_exists.mp h.exact
  have hread := ofDocument?_document? h.within d hd
  refine ⟨d, hd, ?_⟩
  cases d with
  | null => exact absurd hd (document?_ne_null h.ne_null)
  | _ => exact congrArg (Option.map some) hread

/-- Objects are portable if their members may be in them. -/
theorem Value.portable_object {members : List (String × Value)}
    (h : ∀ member ∈ members, member.2.Exact ∧ member.2.Within (maxDepth - 2)) :
    (object members).Portable where
  ne_null := by simp [object]
  exact := exact_object fun member hmember ↦ (h member hmember).1
  within := within_object fun member hmember ↦ (h member hmember).2

theorem Value.portable_arr_map {α : Type} {make : α → Value}
    (h : ∀ a, (make a).Exact ∧ (make a).Within (maxDepth - 2)) (list : List α) :
    (arr (list.map make)).Portable where
  ne_null := by simp
  exact := exact_arr_map (fun a ↦ (h a).1) list
  within := within_arr_map (fun a ↦ (h a).2) list

end Json

namespace Wire

/-! ## Optional fields -/

/-- A value that is found in an optional field is as a reading leaves it, and not `null`. -/
theorem Request.within_of_optionalField? {depth : Nat} {field : Option Document} {v : Value}
    (h : optionalField? (Value.ofDocument? depth) field = some (some v)) :
    v ≠ .null ∧ v.Within depth := by
  rcases field with - | d
  · exact absurd h (by simp [optionalField?])
  obtain ⟨hnull, hread⟩ := Document.of_optional?_eq_some h
  refine ⟨?_, Value.within_of_ofDocument? d hread⟩
  rintro rfl
  exact hnull (Value.eq_null_of_ofDocument? hread)

/-! ## Responses -/

namespace Response

/-- The document of a member that is only written if there is something in it. -/
def memberDocument (name : String) (content : Option Document) : Document.Members :=
  (content.map fun d ↦ (some name, d)).toList

theorem memberDocuments?_member {α : Type} {name : String} {make : α → Value}
    {content : Option α} {found : Option Document}
    (h : content.map (fun a ↦ (make a).document?) = found.map some) :
    Value.memberDocuments? (member name make content) = some (memberDocument name found) := by
  rcases content with - | a <;> rcases found with - | d
  · rfl
  · exact absurd h (by simp)
  · exact absurd h (by simp)
  · have hd : (make a).document? = some d := Option.some.inj h
    show Value.memberDocuments? [(name, make a)] = _
    rw [Value.memberDocuments?, hd]
    rfl

/-- An error as a document. -/
def errorDocument (error : ErrorInfo) : Document :=
  .obj [(some "code", .str (some error.code)), (some "message", .str (some error.message))]

/-- Every field of a response is looked up among its members. -/
theorem ofDocument?_members (ok : Bool) (id data error : Option Document) :
    ofDocument? (.obj ((some "ok", .bool ok) :: memberDocument "id" id
        ++ memberDocument "data" data ++ memberDocument "error" error)) = do
      let id ← Request.optionalField? Document.text? id
      let data ← Request.optionalField? (Value.ofDocument? (maxDepth - 1)) data
      let error ← Request.optionalField? error? error
      return ⟨ok, id, data, error⟩ := by
  rcases id with - | id <;> rcases data with - | data <;> rcases error with - | error <;> rfl

/-- The members of a response are written as those that its reader looks up. -/
theorem document?_members {response : Response} {data : Option Document}
    (h : response.data.map (fun v ↦ v.document?) = data.map some) :
    (Value.obj response.members).document?
      = some (.obj ((some "ok", .bool response.ok)
        :: memberDocument "id" (response.id.map fun id ↦ .str (some id))
        ++ memberDocument "data" data ++ memberDocument "error" (response.error.map errorDocument)))
      := by
  have hok : Value.memberDocuments? [("ok", .bool response.ok)]
      = some [(some "ok", .bool response.ok)] := rfl
  have hid : Value.memberDocuments? (member "id" .str response.id)
      = some (memberDocument "id" (response.id.map fun id ↦ .str (some id))) :=
    memberDocuments?_member (by rw [Option.map_map]; rfl)
  have hdata : Value.memberDocuments? (member "data" (fun v ↦ v) response.data)
      = some (memberDocument "data" data) := memberDocuments?_member h
  have herror : Value.memberDocuments? (member "error" errorValue response.error)
      = some (memberDocument "error" (response.error.map errorDocument)) :=
    memberDocuments?_member (by rw [Option.map_map]; rfl)
  have hall := Value.memberDocuments?_append (Value.memberDocuments?_append
    (Value.memberDocuments?_append hok hid) hdata) herror
  exact congrArg (Option.map Document.obj) hall

/-- A response whose data, if it has any, are portable. -/
def Portable (response : Response) : Prop := ∀ data ∈ response.data, data.Portable

/-- The bytes of a response. -/
def bytes (response : Response) : List UInt8 := response.chars.flatMap Text.charBytes

theorem bytes_lineOf (response : Response) :
    (lineOf response).flatMap Text.charBytes = response.bytes ++ [newline] := List.flatMap_append

/-- **Reading a response** gives what was written. -/
theorem read?_bytes {response : Response} (h : response.Portable) :
    read? response.bytes = some response := by
  obtain ⟨data, hdata, hread⟩ : ∃ data : Option Document,
      response.data.map (fun v ↦ v.document?) = data.map some
        ∧ Request.optionalField? (Value.ofDocument? (maxDepth - 1)) data = some response.data := by
    rcases hcontent : response.data with - | v
    · exact ⟨none, rfl, rfl⟩
    · obtain ⟨d, hd, hread⟩ := (h v hcontent).exists_document
      exact ⟨some d, congrArg some hd, hread⟩
  have hid : Request.optionalField? Document.text? (response.id.map fun id ↦ .str (some id))
      = some response.id := by
    rcases response.id with - | id <;> rfl
  have herror : Request.optionalField? error? (response.error.map errorDocument)
      = some response.error := by
    rcases response.error with - | error <;> rfl
  rw [read?, bytes, chars, recordChars, Value.read?_chars (document?_members hdata),
    Option.bind_some, ofDocument?_members, hid, hread, herror]
  rfl

theorem read?_append_newline {line : List UInt8} {response : Response}
    (h : read? line = some response) : read? (line ++ [newline]) = some response := by
  obtain ⟨document, hdocument, hresponse⟩ := Option.bind_eq_some_iff.mp h
  have hline : Document.read? (line ++ [newline]) = some document := Document.read?_line hdocument
  rw [read?, hline]
  exact hresponse

/-- What is read is portable if it has no floating-point numbers. -/
theorem portable_of_read? {line : List UInt8} {response : Response}
    (h : read? line = some response) (hexact : ∀ data ∈ response.data, data.Exact) :
    response.Portable := by
  obtain ⟨document, -, hresponse⟩ := Option.bind_eq_some_iff.mp h
  rw [ofDocument?] at hresponse
  simp only [Option.bind_eq_bind, Option.bind_eq_some_iff] at hresponse
  obtain ⟨field, -, ok, -, id, -, data, hdata, error, -, heq⟩ := hresponse
  obtain rfl := Option.some.inj heq
  rintro v rfl
  obtain ⟨hnull, hwithin⟩ := Request.within_of_optionalField? hdata
  exact ⟨hnull, hexact v rfl, hwithin⟩

end Response

/-! ## What the bridge answers -/

theorem within_gameValue {depth : Nat} (entry : CatalogEntry) :
    (gameValue entry).Within (depth + 1) :=
  Value.within_object (by simp)

theorem within_localGameValue {depth : Nat} (entry : InstalledEntry) :
    (localGameValue entry).Within (depth + 1) :=
  Value.within_object (by simp)

theorem within_taskValue {depth : Nat} (task : Schedule.TaskSnapshot) :
    (taskValue task).Within (depth + 1) :=
  Value.within_object (by simp)

theorem within_statusValue {depth : Nat} (status : Engine.Status) :
    (statusValue status).Within (depth + 3) := by
  have htask : ∀ task, (taskValue task).Within (depth + 1) := within_taskValue
  have htasks := Value.within_arr_map htask status.tasks
  exact Value.within_object (by simp [htasks])

theorem portable_gameTimeValue (time : Engine.GameTime) : (gameTimeValue time).Portable :=
  Value.portable_object (by simp)

theorem portable_userValue (user : User) : (userValue user).Portable :=
  Value.portable_object (by simp)

theorem portable_healthValue (processId : UInt32) (status : Engine.Status) :
    (healthValue processId status).Portable := by
  have hstatus : (statusValue status).Within (maxDepth - 2) := within_statusValue status
  exact Value.portable_object (by simp [exact_statusValue, hstatus])

theorem portable_openedValue : openedValue.Portable := Value.portable_object (by simp)

theorem portable_tick (tasks : List String) :
    (Value.object [("launched", .texts tasks)]).Portable := by
  have htexts : (Value.texts tasks).Within (maxDepth - 2) :=
    Value.within_arr_map (fun _ ↦ .str _) tasks
  exact Value.portable_object (by simp [exact_texts, htexts])

/-- The responses that may come of a request are portable. -/
def Speaks (outcome : Except Stop Response) : Prop :=
  ∀ response, outcome = .ok response → response.Portable

theorem speaks_success (id : Option String) {data : Value} (h : data.Portable) :
    Speaks (.ok (.success id data)) := by
  rintro _ ⟨⟩ _ ⟨⟩
  exact h

theorem speaks_failure (id : Option String) (error : ErrorInfo) :
    Speaks (.ok (.failure id error)) := by
  rintro _ ⟨⟩ _ ⟨⟩

theorem speaks_error (stop : Stop) : Speaks (.error stop) := fun _ h ↦ absurd h (by simp)

theorem speaks_respond {α : Type} (id : Option String) {make : α → Value}
    (hmake : ∀ a, (make a).Portable) (result : Except Fault α) :
    Speaks (respond id make result) := by
  rcases result with (failure | stop) | a
  · exact speaks_failure id _
  · exact speaks_error stop
  · exact speaks_success id (hmake a)

theorem speaks_replyAbout [Room] (engine : Engine) (id : Option String) (gameId : String)
    (method : GameMethod) : Speaks (replyAbout engine id gameId method).1 := by
  rcases method with - | - | - | - | -
  · exact speaks_respond id portable_gameTimeValue _
  · exact speaks_respond id portable_gameTimeValue _
  · exact speaks_respond id (fun _ ↦ portable_openedValue) _
  · exact speaks_respond id (fun _ ↦ portable_openedValue) _
  · exact speaks_success id (Value.portable_object (by simp))

/-- **All responses** of the bridge are portable. -/
theorem speaks_reply [Room] (processId : UInt32) (engine : Engine) (request : Request) :
    Speaks (reply processId engine request).1 := by
  rw [reply]
  split
  · exact speaks_failure request.id _
  split
  · split
    · exact speaks_success request.id (portable_healthValue processId _)
    · exact speaks_error _
  · exact speaks_respond request.id portable_userValue _
  · exact speaks_respond request.id
      (Value.portable_arr_map fun entry ↦ ⟨exact_gameValue entry, within_gameValue entry⟩) _
  · exact speaks_respond request.id
      (Value.portable_arr_map fun entry ↦
        ⟨exact_localGameValue entry, within_localGameValue entry⟩) _
  · exact speaks_success request.id (portable_tick _)
  · split
    · exact speaks_failure request.id _
    · exact speaks_replyAbout engine request.id _ _

/-- **Responses come through.** A response whose data, if it has any, are not `null`, have no
floating-point numbers and are not nested too deeply, is read as it was written, with the line break
after it or without. All that the bridge answers is read in this way. And if a response without
floating-point numbers has been read from some text, it is written as a text that is written again
when it is read. -/
theorem response_roundTrip [Room] :
    (∀ response : Response, response.Portable →
        Response.read? response.bytes = some response
          ∧ Response.read? ((lineOf response).flatMap Text.charBytes) = some response
          ∧ firstLine ((lineOf response).flatMap Text.charBytes) = response.bytes)
      ∧ (∀ processId engine request response, (reply processId engine request).1 = .ok response →
        Response.read? response.bytes = some response
          ∧ Response.read? ((lineOf response).flatMap Text.charBytes) = some response)
      ∧ ∀ text response, Response.read? text = some response →
        (∀ data ∈ response.data, data.Exact) →
          (Response.read? response.bytes).map Response.bytes = some response.bytes := by
  refine ⟨fun response hportable ↦ ?_, fun processId engine request response hreply ↦ ?_,
    fun text response htext hexact ↦ ?_⟩
  · have hread := Response.read?_bytes hportable
    rw [Response.bytes_lineOf]
    exact ⟨hread, Response.read?_append_newline hread,
      firstLine_append_newline (newline_notMem_chars response) []⟩
  · have hread := Response.read?_bytes (speaks_reply processId engine request response hreply)
    rw [Response.bytes_lineOf]
    exact ⟨hread, Response.read?_append_newline hread⟩
  · rw [Response.read?_bytes (Response.portable_of_read? htext hexact)]
    rfl

/-- A response with a line break in its id and with the least and the greatest integer in its data,
one inside of the other; the state of a bridge that has just been started; and a text with members
that do not belong to a response. -/
theorem response_roundTrip_nested :
    let response : Response := ⟨true, some "a\n\"b\"", some (.obj
      [("least", .ofInt64 Int64.minValue),
        ("more", .arr [.ofUInt64 18446744073709551615, .null])]), none⟩
    let engine := Engine.start .default (.ofEntries .empty)
      ⟨100, .ofRows [] [] none, fun _ ↦ false, ⟨0, none, none⟩, .emptyFolder, .blank⟩
    let text := Text.bytes "\x7b\"error\":null,\"data\":[7],\"since\":1.5,\"ok\":false\x7d"
    Response.read? response.bytes = some response
      ∧ (∃ health, (reply 5 engine ⟨1, .health, some "x", none⟩).1 = .ok health
        ∧ Response.read? health.bytes = some health)
      ∧ ∃ read, Response.read? text = some read ∧ read.bytes = Text.bytes
          "\x7b\"ok\":false,\"data\":[7]\x7d"
        ∧ (Response.read? read.bytes).map Response.bytes = some read.bytes := by
  intro response engine text
  have hportable : response.Portable := by
    have hnames : "least" < "more" := by decide
    rintro _ ⟨⟩
    refine ⟨by simp, rfl, .obj (List.pairwise_pair.mpr hnames) ?_⟩
    exact List.forall_mem_cons.mpr ⟨Value.within_ofInt64 _, List.forall_mem_singleton.mpr
      (.arr (List.forall_mem_cons.mpr ⟨Value.within_ofUInt64 _,
        List.forall_mem_singleton.mpr .null⟩))⟩
  obtain ⟨hread, hreply, hwritten⟩ := response_roundTrip
  refine ⟨(hread response hportable).1, ?_, ?_⟩
  · have hok : (reply 5 engine ⟨1, .health, some "x", none⟩).1.isOk = true := by decide +kernel
    obtain ⟨health, hhealth⟩ : ∃ health,
        (reply 5 engine ⟨1, .health, some "x", none⟩).1 = .ok health := by
      rcases houtcome : (reply 5 engine ⟨1, .health, some "x", none⟩).1 with stop | health
      · rw [houtcome] at hok
        exact absurd hok (by simp [Except.isOk, Except.toBool])
      · exact ⟨health, rfl⟩
    exact ⟨health, hhealth, (hreply 5 engine _ health hhealth).1⟩
  · have htext : Response.read? text = some ⟨false, none, some (.arr [.ofInt64 7]), none⟩ := by
      rfl
    have hexact : ∀ data ∈ (some (.arr [.ofInt64 7]) : Option Value), data.Exact := by
      rintro _ ⟨⟩
      rfl
    exact ⟨_, htext, by decide +kernel, hwritten text _ htext hexact⟩

/-! ## Requests -/

theorem Method.ofName?_name (method : Method) : ofName? method.name = some method := by
  cases method with
  | game m => cases m <;> decide
  | _ => decide

namespace Request

/-- The bytes of a request. -/
def bytes (request : Request) : List UInt8 := request.chars.flatMap Text.charBytes

theorem newline_notMem_bytes (request : Request) : newline ∉ request.bytes := fun hmem ↦
  (Value.plain_chars _).not_lt_of_mem hmem (by decide)

theorem not_blank_bytes (request : Request) : ¬Blank request.bytes := by
  intro hblank
  have hbrace : '\x7b' ∈ request.chars := by
    rw [chars, recordChars, members, Value.chars]
    exact List.mem_cons_self
  exact absurd (hblank 0x7b (List.mem_flatMap.mpr ⟨_, hbrace, List.mem_singleton.mpr rfl⟩))
    (by decide)

theorem version?_ofUInt64 (version : UInt32) :
    version? (.num (.ofInt (Integer.ofUInt64 version.toUInt64).val)) = some version := by
  have hinteger : Document.integer? (.num (.ofInt (Integer.ofUInt64 version.toUInt64).val))
      = some (Integer.ofUInt64 version.toUInt64) := by
    rw [Document.integer?, Literal.number?_ofInt]
  have hrange : 0 ≤ (Integer.ofUInt64 version.toUInt64).val
      ∧ (Integer.ofUInt64 version.toUInt64).val < UInt32.size := by
    rw [Integer.val_ofUInt64, UInt32.toNat_toUInt64]
    exact ⟨Int.natCast_nonneg _, Int.ofNat_lt.mpr version.toNat_lt_size⟩
  rw [version?, hinteger, Option.bind_some, if_pos hrange, Integer.val_ofUInt64,
    UInt32.toNat_toUInt64, Int.toNat_natCast, UInt32.ofNat_toNat]

/-- The fields of a request are looked up among its members. -/
theorem ofDocument?_members (version method id params : Document) :
    ofDocument? (.obj [(some "protocol_version", version), (some "method", method),
        (some "id", id), (some "params", params)]) = do
      let version ← version? version
      let method ← Method.ofDocument? method
      let id ← id.optional? Document.text?
      let params ← params.optional? (Value.ofDocument? (maxDepth - 1))
      return ⟨version, method, id, params⟩ := rfl

/-- A request whose parameters, if it has any, are portable. -/
def Portable (request : Request) : Prop := ∀ params ∈ request.params, params.Portable

/-- **Reading a request** gives what was written. -/
theorem read?_bytes {request : Request} (h : request.Portable) :
    read? request.bytes = some request := by
  obtain ⟨version, method, id, params⟩ := request
  obtain ⟨d, hd, hparams⟩ : ∃ d, (params.getD .null).document? = some d
      ∧ d.optional? (Value.ofDocument? (maxDepth - 1)) = some params := by
    rcases params with - | v
    · exact ⟨.null, rfl, rfl⟩
    · exact (h v rfl).exists_document
  obtain ⟨i, hi, hid⟩ : ∃ i, (Value.ofOption .str id).document? = some i
      ∧ i.optional? Document.text? = some id := by
    rcases id with - | s
    · exact ⟨.null, rfl, rfl⟩
    · exact ⟨.str (some s), rfl, rfl⟩
  have hmethod : Method.ofDocument? (.str (some method.name)) = some method :=
    method.ofName?_name
  have hdocument : (Value.obj (members ⟨version, method, id, params⟩)).document?
      = some (.obj [(some "protocol_version",
          .num (.ofInt (Integer.ofUInt64 version.toUInt64).val)),
        (some "method", .str (some method.name)), (some "id", i), (some "params", d)]) := by
    simp [members, Value.document?, Value.memberDocuments?, Value.ofUInt64, hi, hd]
  rw [read?, bytes, chars, recordChars, Value.read?_chars hdocument, Option.bind_some,
    ofDocument?_members, version?_ofUInt64, hmethod, hid, hparams]
  rfl

theorem portable_forMethod (method : Method) (gameId : Option String) :
    (forMethod method gameId).Portable := by
  intro params hparams
  obtain ⟨id, -, rfl⟩ := Option.map_eq_some_iff.mp hparams
  exact Value.portable_object (by simp)

end Request

theorem GameParams.parse_object (raw : String) :
    parse (some (.object [("game_id", .str raw)]))
      = (validate raw).map fun _ ↦ Text.trim raw := by
  have hid : idOf (.object [("game_id", .str raw)]) = .ok raw := rfl
  rw [parse, hid]
  dsimp only
  cases validate raw with
  | error info => rfl
  | ok valid => rfl

/-- **Requests come through.** A request with the id of a game, or with none, is received as it was
written if its line is within the limit. For a method about one game, an id in it passes just if it
is valid, and then it is found without the white space around it. -/
theorem request_roundTrip (method : Method) (gameId : Option String)
    (h : ((Request.forMethod method gameId).bytes ++ [newline]).length ≤ maxRequestBytes) :
    receive ((Request.forMethod method gameId).bytes ++ [newline])
        = .ok (Request.forMethod method gameId)
      ∧ ∀ game id, method = .game game → gameId = some id →
        GameParams.parse (Request.forMethod method gameId).params
          = (GameParams.validate id).map fun _ ↦ Text.trim id := by
  have hline := firstLine_append_newline (Request.forMethod method gameId).newline_notMem_bytes []
  constructor
  · rw [receive_eq, if_neg fun hlong ↦ Nat.not_lt.mpr h hlong.1, hline,
      if_neg (Request.forMethod method gameId).not_blank_bytes, decode,
      Request.read?_bytes (Request.portable_forMethod method gameId)]
  · rintro game id - rfl
    exact GameParams.parse_object id

/-- An id with a line break at its end comes through, and is valid: the line break is white space
around it. -/
theorem request_roundTrip_lineBreak :
    let request := Request.forMethod (.game .launch) (some "42\n")
    (request.bytes ++ [newline]).length ≤ maxRequestBytes
      ∧ receive (request.bytes ++ [newline]) = .ok request
      ∧ GameParams.parse request.params = .ok "42" := by
  intro request
  have hlength : (request.bytes ++ [newline]).length ≤ maxRequestBytes := by decide +kernel
  obtain ⟨hreceive, hparse⟩ := request_roundTrip (.game .launch) (some "42\n") hlength
  exact ⟨hlength, hreceive, (hparse .launch "42\n" rfl rfl).trans (by decide +kernel)⟩

end Wire

end GameBridge

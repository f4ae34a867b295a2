import GameBridge.Proofs.Engine.Launching
import GameBridge.Proofs.Engine.Reading
import GameBridge.Proofs.Json.Lines
import GameBridge.Proofs.Json.Values
import GameBridge.Proofs.Wire.FirstLine

/-!
# One line for a connection

Whatever comes in on a connection, one line goes out: an object that says whether the request
succeeded, with the id of the request, and with data or an error. It is a line because no value is
written with a control character in it, and it can be read as an object because the data that the
bridge sends have no floating-point numbers.

The only operations that keep a host waiting are the reads of the caches. A connection that has to
wait is taken up again in a later state of the engine, and `sent` is what goes out on it in the end.
-/

namespace GameBridge

open Json

namespace Wire

/-! ## Data -/

theorem exact_gameValue (entry : CatalogEntry) : (gameValue entry).Exact :=
  Value.exact_object (by simp)

theorem exact_localGameValue (entry : InstalledEntry) : (localGameValue entry).Exact :=
  Value.exact_object (by simp)

theorem exact_gameTimeValue (time : Engine.GameTime) : (gameTimeValue time).Exact :=
  Value.exact_object (by simp)

theorem exact_userValue (user : User) : (userValue user).Exact := Value.exact_object (by simp)

theorem exact_taskValue (task : Schedule.TaskSnapshot) : (taskValue task).Exact :=
  Value.exact_object (by simp)

theorem exact_statusValue (status : Engine.Status) : (statusValue status).Exact := by
  have htasks := Value.exact_arr_map exact_taskValue status.tasks
  exact Value.exact_object (by simp [htasks])

theorem exact_healthValue (processId : UInt32) (status : Engine.Status) :
    (healthValue processId status).Exact :=
  Value.exact_object (by simp [exact_statusValue])

theorem exact_texts (items : List String) : (Value.texts items).Exact :=
  Value.exact_arr_map Value.exact_str items

end Wire

/-! ## Operations that keep nobody waiting -/

namespace Engine

theorem prompt_mapError {α : Type} (result : Except Failure α) :
    Prompt (result.mapError .failed) := by
  rcases result with failure | a
  · exact prompt_failed failure
  · exact prompt_ok a

theorem Prompt.bind {α β : Type} {result : Except Fault α} {f : α → Except Fault β}
    (h : Prompt result) (hf : ∀ a, Prompt (f a)) : Prompt (result.bind f) := by
  rcases result with fault | a
  · exact h.error
  · exact hf a

theorem prompt_lookUp (engine : Engine) (id : String) : Prompt (engine.lookUp id) := by
  have hanswer := prompt_answer engine.world.source (engine.world.source.installation id)
  rw [lookUp]
  generalize engine.world.source.answer (engine.world.source.installation id) = answer at *
  rcases answer with fault | row?
  · exact hanswer.error
  rcases row? with - | row
  · exact prompt_failed _
  dsimp only
  rcases resolveRow row engine.world.isFile with failure | - | entry
  · exact prompt_failed _
  · exact prompt_failed _
  · exact prompt_ok _

theorem prompt_executableFor (engine : Engine) (id : String) :
    Prompt (engine.executableFor id).1 := by
  have hlook := prompt_lookUp { engine with world := engine.world.noteInstallation } id
  rw [executableFor]
  split
  · exact prompt_ok _
  · dsimp only
    generalize lookUp { engine with world := engine.world.noteInstallation } id = looked at *
    rcases looked with fault | entry
    · exact hlook.error
    · exact prompt_ok _

theorem prompt_launch [Room] (engine : Engine) (raw : String) : Prompt (engine.launch raw).1 := by
  rw [(engine.launch_eq raw).1]
  refine (prompt_executableFor engine _).bind fun executable ↦ ?_
  rw [playAnswer]
  split
  · exact prompt_failed _
  · exact prompt_mapError _

end Engine

namespace Wire

/-! ## Replies -/

/-- A response with the given id that holds either data or an error. -/
def Response.Fits (id : Option String) (response : Response) : Prop :=
  (∃ data, data.Exact ∧ response = .success id data) ∨ ∃ error, response = .failure id error

/-- A request has been answered, unless the bridge crashed. -/
def Settles (id : Option String) : Except Stop Response → Prop
  | .ok response => response.Fits id
  | .error (.crashed _) => True
  | .error (.waiting _) => False

theorem settles_respond {α : Type} (id : Option String) {make : α → Value}
    (hmake : ∀ a, (make a).Exact) {result : Except Fault α} (h : Engine.Prompt result) :
    Settles id (respond id make result) := by
  rcases result with (failure | crash | task) | a
  · exact Or.inr ⟨_, rfl⟩
  · trivial
  · exact absurd rfl (h task)
  · exact Or.inl ⟨make a, hmake a, rfl⟩

/-- The task whose cache a request reads, if it reads one. -/
def Request.reads (request : Request) : Option Task :=
  if request.version ≠ protocolVersion then none
  else
    match request.method with
    | .ownedGames => some .ownership
    | .localGames => some .installation
    | _ => none

/-- A request that has to wait reads a cold cache that somebody is working on. -/
def Request.Waits (request : Request) (engine : Engine) : Prop :=
  ∃ task, request.reads = some task ∧ engine.isPrimed task = false
    ∧ engine.schedule.states.get task = .running

theorem Request.not_waits {request : Request} (h : request.reads = none) (engine : Engine) :
    ¬request.Waits engine := by
  rintro ⟨task, hreads, -⟩
  exact absurd (h.symm.trans hreads) (by simp)

theorem Request.waits_iff {request : Request} {task : Task} (h : request.reads = some task)
    (engine : Engine) : request.Waits engine ↔
      engine.isPrimed task = false ∧ engine.schedule.states.get task = .running := by
  constructor
  · rintro ⟨other, hreads, hbusy⟩
    obtain rfl := Option.some.inj (h.symm.trans hreads)
    exact hbusy
  · intro hbusy
    exact ⟨task, h, hbusy⟩

/-- What comes of a request: it waits, or it is answered with its id. -/
def Comes (request : Request) (engine : Engine) (outcome : Except Stop Response × Engine) : Prop :=
  (request.Waits engine ∧ ∃ task, outcome = (.error (.waiting task), engine)) ∨
    (¬request.Waits engine ∧ Settles request.id outcome.1)

/-- A read of a cache is answered unless it has to wait. -/
theorem comes_read [Room] {α : Type} {listing : Engine.Listing α} (h : listing.Lawful)
    {request : Request} (hreads : request.reads = some listing.task) {make : List α → Value}
    (hmake : ∀ list, (make list).Exact) (engine : Engine) :
    Comes request engine (respondWith request.id make (listing.read engine)) := by
  rw [Comes, Request.waits_iff hreads]
  rcases hprimed : engine.isPrimed listing.task with - | -
  · rcases hstate : engine.schedule.states.get listing.task with - | -
    · exact Or.inr ⟨by simp, settles_respond _ hmake (h.prompt_read (Or.inr hstate))⟩
    · refine Or.inl ⟨⟨rfl, rfl⟩, listing.task, ?_⟩
      rw [h.read_busy hprimed hstate]
      rfl
  · exact Or.inr ⟨by simp, settles_respond _ hmake (h.prompt_read (Or.inl hprimed))⟩

theorem settles_replyAbout [Room] (engine : Engine) (id : Option String) (gameId : String)
    (method : GameMethod) : Settles id (replyAbout engine id gameId method).1 := by
  rcases method with - | - | - | - | -
  · exact settles_respond id exact_gameTimeValue (Engine.prompt_mapError _)
  · exact settles_respond id exact_gameTimeValue (engine.prompt_launch gameId)
  · exact settles_respond id (fun _ ↦ Value.exact_object (by simp)) (Engine.prompt_mapError _)
  · exact settles_respond id (fun _ ↦ Value.exact_object (by simp)) (Engine.prompt_mapError _)
  · exact Or.inl ⟨_, Value.exact_object (by simp), rfl⟩

/-- **Replies.** Only a read of a cache can keep a host waiting, and then nothing happens to the
engine. Every other request is answered with its id. -/
theorem comes_reply [Room] (processId : UInt32) (engine : Engine) (request : Request) :
    Comes request engine (reply processId engine request) := by
  by_cases hversion : request.version ≠ protocolVersion
  · have hreads : request.reads = none := if_pos hversion
    refine Or.inr ⟨request.not_waits hreads engine, ?_⟩
    rw [reply, if_pos hversion]
    exact Or.inr ⟨_, rfl⟩
  rw [reply, if_neg hversion]
  have hreads : request.reads = match request.method with
      | .ownedGames => some .ownership
      | .localGames => some .installation
      | _ => none := if_neg hversion
  rcases hmethod : request.method with - | - | - | - | - | method
  case ownedGames =>
    rw [hmethod] at hreads
    exact comes_read Engine.lawful_ownedListing hreads (Value.exact_arr_map exact_gameValue) engine
  case localGames =>
    rw [hmethod] at hreads
    exact comes_read Engine.lawful_installedListing hreads
      (Value.exact_arr_map exact_localGameValue) engine
  all_goals
    rw [hmethod] at hreads
    refine Or.inr ⟨request.not_waits hreads engine, ?_⟩
  case health =>
    dsimp only
    rcases engine.status with crash | status
    · trivial
    · exact Or.inl ⟨_, exact_healthValue processId status, rfl⟩
  case authenticate => exact settles_respond _ exact_userValue (Engine.prompt_answer _ _)
  case tick => exact Or.inl ⟨_, Value.exact_object (by simp [exact_texts]), rfl⟩
  case game =>
    dsimp only
    rcases GameParams.parse request.params with info | gameId
    · exact Or.inr ⟨info, rfl⟩
    · exact settles_replyAbout engine request.id gameId method

/-! ## The id -/

/-- The id of the request that comes in, if one does and has an id. -/
def idOf (incoming : List UInt8) : Option String :=
  match receive incoming with
  | .ok request => request.id
  | .error _ => none

/-- What stands in a field for a text that may be missing: the text, or `null`, or nothing. -/
def Stands (text : Option String) (found : Option Document) : Prop :=
  match text with
  | some text => found = some (.str (some text))
  | none => found = none ∨ found = some .null

/-- An id is that of the request that comes in: what stands in the field for it in the first line.
If no request comes in, there is no id. -/
def Identifies (incoming : List UInt8) (id : Option String) : Prop :=
  match receive incoming with
  | .ok request => id = request.id ∧
    ∃ field, (Document.read? (firstLine incoming)).bind Request.layout.fields? = some field
      ∧ Stands id (field "id")
  | .error _ => id = none

theorem stands_of_optionalField? {found : Option Document} {text : Option String}
    (h : Request.optionalField? Document.text? found = some text) : Stands text found := by
  rcases found with - | document
  · obtain rfl := Option.some.inj h
    exact Or.inl rfl
  rcases document with - | b | l | s | items | members
  · obtain rfl := Option.some.inj h
    exact Or.inr rfl
  case str =>
    obtain ⟨t, rfl, rfl⟩ := Option.map_eq_some_iff.mp h
    rfl
  all_goals exact absurd h (by simp [Request.optionalField?, Document.optional?, Document.text?])

/-- A request that comes in is read from the first line. -/
theorem read?_of_receive {incoming : List UInt8} {request : Request}
    (h : receive incoming = .ok request) : Request.read? (firstLine incoming) = some request := by
  rw [receive_eq] at h
  split_ifs at h
  rw [decode] at h
  rcases hread : Request.read? (firstLine incoming) with - | found
  · rw [hread] at h
    exact absurd h (by simp)
  · rw [hread] at h
    exact congrArg some (Except.ok.inj h)

theorem identifies_idOf (incoming : List UInt8) : Identifies incoming (idOf incoming) := by
  rw [Identifies, idOf]
  rcases hreceived : receive incoming with info | request
  · rfl
  obtain ⟨document, hdocument, hrequest⟩ :=
    Option.bind_eq_some_iff.mp (read?_of_receive hreceived)
  rw [Request.ofDocument?] at hrequest
  simp only [Option.bind_eq_bind, Option.bind_eq_some_iff] at hrequest
  obtain ⟨field, hfield, version, -, method, -, id, hid, params, -, heq⟩ := hrequest
  obtain rfl := Option.some.inj heq
  refine ⟨rfl, field, ?_, stands_of_optionalField? hid⟩
  rw [hdocument, Option.bind_some, hfield]

/-! ## The line -/

/-- A connection has to wait for the answer to its request. -/
def Waits (incoming : List UInt8) (engine : Engine) : Prop :=
  ∃ request, receive incoming = .ok request ∧ request.Waits engine

/-- What goes out on a connection that is taken up in some states of the engine, one after the
other, for as long as it has to wait. -/
def sent [Room] (processId : UInt32) (incoming : List UInt8) : List Engine → List UInt8
  | [] => []
  | engine :: later =>
    match (serve processId engine incoming).1 with
    | .ok line => line.flatMap Text.charBytes
    | .error (.waiting _) => sent processId incoming later
    | .error (.crashed _) => []

/-- The member with the id, if there is one. -/
def idMember (id : Option String) : Document.Members :=
  (id.map fun id ↦ (some "id", .str (some id))).toList

/-- The members of an object by which a host is answered: that its request succeeded, its id, and
the data; or that it failed, its id, and the error. -/
def Answers (id : Option String) (members : Document.Members) : Prop :=
  (∃ data, members = (some "ok", .bool true) :: idMember id ++ [(some "data", data)]) ∨
    ∃ code message : String, members = (some "ok", .bool false) :: idMember id ++
      [(some "error", .obj [(some "code", .str (some code)),
        (some "message", .str (some message))])]

/-- **A response** is read as an object with its members. -/
theorem Response.read?_chars {id : Option String} {response : Response} (h : response.Fits id) :
    ∃ members, Document.read? (response.chars.flatMap Text.charBytes) = some (.obj members)
      ∧ Answers id members := by
  obtain ⟨data, hdata, rfl⟩ | ⟨error, rfl⟩ := h
  · obtain ⟨d, hd⟩ := Option.isSome_iff_exists.mp hdata
    refine ⟨_, Value.read?_chars ?_, Or.inl ⟨d, rfl⟩⟩
    rcases id with - | id <;>
      simp [members, success, member, idMember, Value.document?, Value.memberDocuments?, hd]
  · have herror : (errorValue error).document? = some (.obj [(some "code", .str (some error.code)),
        (some "message", .str (some error.message))]) := by
      rfl
    refine ⟨_, Value.read?_chars ?_, Or.inr ⟨error.code, error.message, rfl⟩⟩
    rcases id with - | id <;>
      simp [members, failure, member, idMember, Value.document?, Value.memberDocuments?, herror]

theorem newline_notMem_chars (response : Response) :
    newline ∉ response.chars.flatMap Text.charBytes := by
  intro hmem
  exact (Value.plain_chars _).not_lt_of_mem hmem (by decide)

/-- What comes of a connection in one state of the engine. -/
theorem serve_cases [Room] (processId : UInt32) (engine : Engine) (incoming : List UInt8) :
    (Waits incoming engine
        ∧ ∃ task, serve processId engine incoming = (.error (.waiting task), engine)) ∨
      (¬Waits incoming engine ∧ ∃ outcome, Settles (idOf incoming) outcome
        ∧ (serve processId engine incoming).1 = outcome.map lineOf) := by
  rcases hreceived : receive incoming with info | request
  · refine Or.inr ⟨?_, .ok (.failure none info), ?_, ?_⟩
    · rintro ⟨request, hrequest, -⟩
      exact absurd (hreceived.symm.trans hrequest) (by simp)
    · rw [idOf, hreceived]
      exact Or.inr ⟨info, rfl⟩
    · rw [serve, hreceived]
      rfl
  · have hwaits : Waits incoming engine ↔ request.Waits engine := by
      constructor
      · rintro ⟨other, hother, hbusy⟩
        obtain rfl := Except.ok.inj (hreceived.symm.trans hother)
        exact hbusy
      · intro hbusy
        exact ⟨request, hreceived, hbusy⟩
    rw [hwaits, idOf, hreceived, serve, hreceived]
    obtain ⟨hbusy, task, hreply⟩ | ⟨hfree, hsettles⟩ := comes_reply processId engine request
    · dsimp only
      rw [hreply]
      exact Or.inl ⟨hbusy, task, rfl⟩
    · exact Or.inr ⟨hfree, _, hsettles, rfl⟩

/-- **One line.** A connection on which the bridge does not crash is answered by one line, unless it
has to wait in all states of the engine in which it is taken up. The line is an object that has the
members of an answer, with the id of the request. -/
theorem sent_line [Room] (processId : UInt32) (incoming : List UInt8) (engines : List Engine)
    (h : ∀ engine ∈ engines, ∀ crash,
      (serve processId engine incoming).1 ≠ .error (.crashed crash)) :
    ((∀ engine ∈ engines, Waits incoming engine) ∧ sent processId incoming engines = []) ∨
      ((∃ engine ∈ engines, ¬Waits incoming engine)
        ∧ ∃ line id members, sent processId incoming engines = line ++ [newline]
          ∧ newline ∉ line ∧ Document.read? line = some (.obj members)
          ∧ Identifies incoming id ∧ Answers id members) := by
  induction engines with
  | nil => exact Or.inl ⟨by simp, rfl⟩
  | cons engine later ih =>
    obtain ⟨hengine, hlater⟩ := List.forall_mem_cons.mp h
    rw [sent]
    obtain ⟨hwaits, task, hserve⟩ | ⟨hfree, outcome, hsettles, hserve⟩ :=
      serve_cases processId engine incoming
    · rw [hserve]
      obtain ⟨hall, hnothing⟩ | ⟨⟨other, hother, hfree⟩, hline⟩ := ih hlater
      · exact Or.inl ⟨List.forall_mem_cons.mpr ⟨hwaits, hall⟩, hnothing⟩
      · exact Or.inr ⟨⟨other, List.mem_cons_of_mem _ hother, hfree⟩, hline⟩
    · refine Or.inr ⟨⟨engine, List.mem_cons_self, hfree⟩, ?_⟩
      rcases outcome with (crash | task) | response
      · exact absurd hserve (hengine crash)
      · exact hsettles.elim
      · obtain ⟨members, hread, hanswers⟩ := Response.read?_chars hsettles
        refine ⟨response.chars.flatMap Text.charBytes, idOf incoming, members, ?_,
          newline_notMem_chars response, hread, identifies_idOf incoming, hanswers⟩
        rw [hserve]
        exact List.flatMap_append

/-- Somebody claims the owned games and gives the claim back without a refresh. A host that asks for
them, with a line break in its id, waits for that and is told about the only game. -/
theorem sent_line_waiting :
    let incoming := Text.bytes
      "\x7b\"protocol_version\":1,\"method\":\"get_owned_games\",\"id\":\"a\\nb\"\x7d\n"
    let first := Engine.start .default (.ofEntries .empty)
      ⟨100, .ofRows [⟨7, some "Seven", 0, true⟩] [] none, fun _ ↦ false, ⟨0, none, none⟩,
        .emptyFolder, .blank⟩
    let busy := first.run [.tryClaim .ownership]
    let engines := [busy, busy.run [.finish .ownership]]
    (∀ engine ∈ engines, ∀ crash, (serve 5 engine incoming).1 ≠ .error (.crashed crash))
      ∧ (serve 5 busy incoming).1 = .error (.waiting .ownership)
      ∧ sent 5 incoming engines = Text.bytes ("\x7b\"ok\":true,\"id\":\"a\\nb\",\"data\":[\x7b"
        ++ "\"dlcs\":null,\"game_id\":\"7\",\"game_title\":\"Seven\","
        ++ "\"license_type\":\"free_to_play\"\x7d]\x7d\n")
      ∧ ∃ line id members, sent 5 incoming engines = line ++ [newline] ∧ newline ∉ line
        ∧ Document.read? line = some (.obj members) ∧ Identifies incoming id
        ∧ Answers id members := by
  intro incoming first busy engines
  have hbusy : (serve 5 busy incoming).1 = .error (.waiting .ownership) := by decide +kernel
  have hfreed : (serve 5 (busy.run [.finish .ownership]) incoming).1.isOk = true := by
    decide +kernel
  have hcrash : ∀ engine ∈ engines, ∀ crash,
      (serve 5 engine incoming).1 ≠ .error (.crashed crash) := by
    refine List.forall_mem_cons.mpr ⟨fun crash hfault ↦ ?_, List.forall_mem_singleton.mpr ?_⟩
    · exact absurd (hbusy.symm.trans hfault) (by simp)
    · intro crash hfault
      rw [hfault] at hfreed
      exact absurd hfreed (by simp [Except.isOk, Except.toBool])
  have hsent : sent 5 incoming engines ≠ [] := by decide +kernel
  refine ⟨hcrash, hbusy, by decide +kernel, ?_⟩
  obtain ⟨-, hnothing⟩ | ⟨-, hline⟩ := sent_line 5 incoming engines hcrash
  · exact absurd hnothing hsent
  · exact hline

end Wire

end GameBridge

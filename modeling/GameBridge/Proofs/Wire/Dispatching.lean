import GameBridge.Capacity
import GameBridge.Proofs.Engine.Run
import GameBridge.Proofs.Wire.FirstLine

/-!
# What a connection does to the engine

A request reaches the engine as the events that it asks for, and one that is refused asks for none.
So what connections do to the engine is a run of it (`course_eq_run`), and everything that is known
of runs holds for a bridge that serves whatever bytes come in, one connection after the other and
with other events in between.

Some requests ask for nothing but what can be told without a change. The journal counts that the
source was asked for the user, and that is all that remains of these.
-/

namespace GameBridge.Wire

/-! ## Events of a request -/

/-- What a method does to the engine when it is asked about a game. -/
def GameMethod.events (gameId : String) : GameMethod → List Engine.Event
  | .gameTime => [.gameTime gameId]
  | .launch => [.launch gameId]
  | .install | .uninstall => [.openGame gameId]
  | .osCompatibility => []

/-- What a request does to the engine. -/
def Request.events (request : Request) : List Engine.Event :=
  if request.version ≠ protocolVersion then []
  else
    match request.method with
    | .health => [.status]
    | .authenticate => [.authenticate]
    | .ownedGames => [.ownedGames]
    | .localGames => [.localGames]
    | .tick => [.tick]
    | .game method =>
      match GameParams.parse request.params with
      | .error _ => []
      | .ok gameId => method.events gameId

theorem replyAbout_snd [Room] (engine : Engine) (id : Option String) (gameId : String)
    (method : GameMethod) :
    (replyAbout engine id gameId method).2 = engine.run (method.events gameId) := by
  cases method <;> rfl

theorem reply_snd [Room] (processId : UInt32) (engine : Engine) (request : Request) :
    (reply processId engine request).2 = engine.run request.events := by
  rw [reply, Request.events]
  split
  · rfl
  cases request.method with
  | health =>
    dsimp only
    cases engine.status <;> rfl
  | game method =>
    dsimp only
    cases GameParams.parse request.params with
    | error info => rfl
    | ok gameId => exact replyAbout_snd engine request.id gameId method
  | _ => rfl

/-! ## Refused requests -/

theorem toOption_eq_some_iff {ε α : Type} {result : Except ε α} {a : α} :
    result.toOption = some a ↔ result = .ok a := by
  cases result <;> simp [Except.toOption]

/-- Whether a request is refused without the engine: it is in another version of the protocol, or it
should be about a game and its parameters do not name one. -/
def Request.refused (request : Request) : Bool :=
  request.version != protocolVersion
    || request.method.needsGame && !(GameParams.parse request.params).isOk

/-- Bytes are rejected if they are too many, if their first line is blank or cannot be read as a
request, and if the request is refused. -/
def Rejected (incoming : List UInt8) : Prop :=
  Overlong incoming ∨ Blank (firstLine incoming)
    ∨ ∀ request ∈ Request.read? (firstLine incoming), request.refused = true

instance (incoming : List UInt8) : Decidable (Rejected incoming) :=
  inferInstanceAs (Decidable (_ ∨ _ ∨ _))

/-- The codes of the errors by which hosts are told that their request was rejected. -/
def rejectionCodes : List String :=
  ["request_too_large", "empty_request", "invalid_json", "protocol_mismatch", "invalid_params",
    "missing_field", "invalid_game_id"]

/-- Parameters are refused with one of the errors for that. Otherwise they hold an id that is not
blank, is not too long and consists of the right characters, and it is trimmed. -/
theorem parse_cases (params : Option Json.Value) :
    (∃ info : ErrorInfo, info.code ∈ rejectionCodes ∧ GameParams.parse params = .error info) ∨
      ∃ value raw, params = some value ∧ GameParams.idOf value = .ok raw ∧ Text.trim raw ≠ ""
        ∧ raw.utf8ByteSize ≤ GameParams.maxBytes
        ∧ (∀ c ∈ (Text.trim raw).toList, GameId.isIdChar c = true)
        ∧ GameParams.parse params = .ok (Text.trim raw) := by
  rcases params with - | value
  · exact Or.inl ⟨_, by decide, rfl⟩
  simp only [GameParams.parse]
  rcases hid : GameParams.idOf value with fault | raw
  · exact Or.inl ⟨_, by simp [rejectionCodes], rfl⟩
  dsimp only [bind, Except.bind, pure, Except.pure]
  rw [GameParams.validate]
  split_ifs with hblank hlong hchars
  · exact Or.inl ⟨_, by decide, rfl⟩
  · exact Or.inl ⟨_, by decide, rfl⟩
  · exact Or.inr ⟨value, raw, rfl, hid, hblank, Nat.not_lt.mp hlong, List.all_eq_true.mp hchars,
      rfl⟩
  · exact Or.inl ⟨_, by decide, rfl⟩

theorem reply_of_refused [Room] {request : Request} (h : request.refused = true) :
    ∃ info : ErrorInfo, info.code ∈ rejectionCodes ∧ ∀ processId engine,
      reply processId engine request = (.ok (.failure request.id info), engine) := by
  by_cases hversion : request.version ≠ protocolVersion
  · refine ⟨_, ?_, fun processId engine ↦ by rw [reply, if_pos hversion]⟩
    decide
  · simp only [reply, if_neg hversion]
    rw [Request.refused, bne_eq_false_iff_eq.mpr (not_not.mp hversion), Bool.false_or,
      Bool.and_eq_true] at h
    obtain ⟨hgame, hparams⟩ := h
    cases hmethod : request.method with
    | game method =>
      obtain ⟨info, hcode, hparse⟩ | ⟨-, raw, -, -, -, -, -, hparse⟩ := parse_cases request.params
      · rw [hparse]
        exact ⟨info, hcode, fun processId engine ↦ rfl⟩
      · rw [hparse] at hparams
        exact absurd hparams (by simp [Except.isOk, Except.toBool])
    | _ =>
      rw [hmethod] at hgame
      exact absurd hgame Bool.false_ne_true

theorem serve_of_rejected [Room] {incoming : List UInt8} (h : Rejected incoming) :
    ∃ (id : Option String) (info : ErrorInfo), info.code ∈ rejectionCodes ∧
      ∀ processId engine, serve processId engine incoming
        = (.ok (lineOf (.failure id info)), engine) := by
  by_cases hlong : Overlong incoming
  · refine ⟨none, _, ?_, fun processId engine ↦ by rw [serve, receive_eq, if_pos hlong]⟩
    decide
  by_cases hblank : Blank (firstLine incoming)
  · refine ⟨none, _, ?_, fun processId engine ↦ by
      rw [serve, receive_eq, if_neg hlong, if_pos hblank]⟩
    decide
  -- a line that cannot be read has no request at all, so the condition says nothing about it
  simp only [serve, receive_eq, if_neg hlong, if_neg hblank, decode]
  cases hread : Request.read? (firstLine incoming) with
  | none => exact ⟨none, ⟨"invalid_json", _⟩, by decide, fun processId engine ↦ rfl⟩
  | some request =>
    have hrefused : request.refused = true :=
      ((h.resolve_left hlong).resolve_left hblank) request hread
    obtain ⟨info, hcode, hreply⟩ := reply_of_refused hrefused
    refine ⟨request.id, info, hcode, fun processId engine ↦ ?_⟩
    dsimp only
    rw [hreply]
    rfl

/-! ## Requests that change nothing -/

/-- The methods that only tell something. -/
def inquiries : List Method :=
  [.health, .authenticate, .game .gameTime, .game .osCompatibility]

/-- Bytes are an inquiry if their first line is a request for one of these methods. -/
def Inquiry (incoming : List UInt8) : Prop :=
  ∃ request, Request.read? (firstLine incoming) = some request ∧ request.method ∈ inquiries

theorem run_events_of_inquiry [Room] {request : Request} (h : request.method ∈ inquiries)
    (engine : Engine) :
    ∃ count, engine.run request.events = { engine with world.journal.fetches.user := count } := by
  have hsame : ∃ count, engine = { engine with world.journal.fetches.user := count } :=
    ⟨engine.world.journal.fetches.user, rfl⟩
  rw [Request.events]
  split
  · exact hsame
  cases hmethod : request.method with
  | health => exact hsame
  | authenticate => exact ⟨engine.world.journal.fetches.user + 1, rfl⟩
  | game method =>
    dsimp only
    cases GameParams.parse request.params with
    | error info => exact hsame
    | ok gameId =>
      cases method with
      | gameTime => exact hsame
      | osCompatibility => exact hsame
      | _ =>
        rw [hmethod] at h
        exact absurd h (by decide)
  | _ =>
    rw [hmethod] at h
    exact absurd h (by decide)

/-! ## Courses -/

/-- What happens to a bridge: bytes come in on a connection, or something else happens to its
engine. -/
inductive Happening where
  | connection (incoming : List UInt8)
  | event (event : Engine.Event)

/-- What a connection does to the engine. -/
def eventsOf (incoming : List UInt8) : List Engine.Event :=
  match receive incoming with
  | .ok request => request.events
  | .error _ => []

theorem serve_snd [Room] (processId : UInt32) (engine : Engine) (incoming : List UInt8) :
    (serve processId engine incoming).2 = engine.run (eventsOf incoming) := by
  rw [serve, eventsOf]
  cases receive incoming with
  | error info => rfl
  | ok request => exact reply_snd processId engine request

namespace Happening

/-- What a happening does to the engine. -/
def events : Happening → List Engine.Event
  | connection incoming => eventsOf incoming
  | event e => [e]

/-- Whether bytes come in that are rejected. -/
def isRejected : Happening → Bool
  | connection incoming => decide (Rejected incoming)
  | event _ => false

/-- The engine after a happening. -/
def apply [Room] (processId : UInt32) (engine : Engine) : Happening → Engine
  | connection incoming => (serve processId engine incoming).2
  | event e => engine.perform e

theorem apply_eq_run [Room] (processId : UInt32) (engine : Engine) (happening : Happening) :
    happening.apply processId engine = engine.run happening.events := by
  cases happening with
  | connection incoming => exact serve_snd processId engine incoming
  | event e => rfl

end Happening

/-- The engine after one happening after the other. -/
def course [Room] (processId : UInt32) (engine : Engine) (happenings : List Happening) : Engine :=
  happenings.foldl (Happening.apply processId) engine

/-- What comes in on the connections, each with what is sent back. -/
def exchanges [Room] (processId : UInt32) :
    Engine → List Happening → List (List UInt8 × Except Stop (List Char))
  | _, [] => []
  | engine, .connection incoming :: rest =>
    let (answer, engine) := serve processId engine incoming
    (incoming, answer) :: exchanges processId engine rest
  | engine, .event event :: rest => exchanges processId (engine.perform event) rest

section Course

variable (processId : UInt32) (engine : Engine) (happenings : List Happening)

theorem course_cons [Room] (happening : Happening) :
    course processId engine (happening :: happenings)
      = course processId (happening.apply processId engine) happenings := rfl

theorem exchanges_connection [Room] (incoming : List UInt8) :
    exchanges processId engine (.connection incoming :: happenings)
      = (incoming, (serve processId engine incoming).1)
        :: exchanges processId (serve processId engine incoming).2 happenings := rfl

/-- **Courses are runs.** -/
theorem course_eq_run [Room] :
    course processId engine happenings = engine.run (happenings.flatMap Happening.events) := by
  induction happenings generalizing engine with
  | nil => rfl
  | cons happening rest ih =>
    rw [course_cons, ih, Happening.apply_eq_run, ← Engine.run_append, ← List.flatMap_cons]

/-- Without the bytes that are rejected, everything goes on as before. -/
theorem course_filter_rejected [Room] :
    course processId engine (happenings.filter fun happening ↦ !happening.isRejected)
        = course processId engine happenings
      ∧ exchanges processId engine (happenings.filter fun happening ↦ !happening.isRejected)
        = (exchanges processId engine happenings).filter fun exchange ↦
          !decide (Rejected exchange.1) := by
  induction happenings generalizing engine with
  | nil => exact ⟨rfl, rfl⟩
  | cons happening rest ih =>
    rw [List.filter_cons]
    rcases happening with incoming | event
    · by_cases hrejected : Rejected incoming
      · obtain ⟨id, info, -, hserve⟩ := serve_of_rejected hrejected
        rw [if_neg (by simp [Happening.isRejected, hrejected]), course_cons, exchanges_connection,
          List.filter_cons_of_neg (by simp [hrejected]), Happening.apply, hserve]
        exact ih engine
      · rw [if_pos (by simp [Happening.isRejected, hrejected]), course_cons, course_cons,
          exchanges_connection, exchanges_connection, List.filter_cons_of_pos (by simp [hrejected])]
        obtain ⟨hcourse, hexchanges⟩ := ih (serve processId engine incoming).2
        exact ⟨hcourse, congrArg _ hexchanges⟩
    · rw [if_pos (by simp [Happening.isRejected]), course_cons, course_cons]
      exact ih (engine.perform event)

end Course

/-- **Nothing happens.** Bytes that are rejected are answered by one of the errors for that, and
leave the whole engine as it was, with its caches, its schedule, its store and the journal of what
was run and opened; a course without them is the same. An inquiry leaves everything as it was,
except that the journal may count one more question for the user. -/
theorem course_frame [Room] (processId : UInt32) (engine : Engine) (happenings : List Happening) :
    (∀ incoming, Rejected incoming → ∃ id info, info.code ∈ rejectionCodes
        ∧ serve processId engine incoming = (.ok (lineOf (.failure id info)), engine))
      ∧ (∀ incoming, Inquiry incoming → ∃ count, (serve processId engine incoming).2
        = { engine with world.journal.fetches.user := count })
      ∧ course processId engine (happenings.filter fun happening ↦ !happening.isRejected)
        = course processId engine happenings
      ∧ exchanges processId engine (happenings.filter fun happening ↦ !happening.isRejected)
        = (exchanges processId engine happenings).filter fun exchange ↦
          !decide (Rejected exchange.1) := by
  refine ⟨fun incoming hrejected ↦ ?_, fun incoming hinquiry ↦ ?_,
    course_filter_rejected processId engine happenings⟩
  · obtain ⟨id, info, hcode, hserve⟩ := serve_of_rejected hrejected
    exact ⟨id, info, hcode, hserve processId engine⟩
  · obtain ⟨request, hread, hmethod⟩ := hinquiry
    rw [serve_snd, eventsOf, receive_eq]
    split_ifs
    · exact ⟨engine.world.journal.fetches.user, rfl⟩
    · exact ⟨engine.world.journal.fetches.user, rfl⟩
    · rw [decode, hread]
      exact run_events_of_inquiry hmethod engine

/-- The line with a request about a game. -/
def lineAbout (method game : String) : List UInt8 :=
  Text.bytes ("\x7b\"protocol_version\":1,\"method\":\"" ++ method
    ++ "\",\"params\":\x7b\"game_id\":\"" ++ game ++ "\"\x7d\x7d\n")

/-- A new engine that knows nothing about any game. -/
def unaware : Engine :=
  .start .default (.ofEntries .empty)
    ⟨100, .ofRows [] [] none, fun _ ↦ false, ⟨0, none, none⟩, .emptyFolder, .blank⟩

/-- A game without a name is not launched, as if nobody had asked for it, and then the user is
asked for. -/
theorem course_frame_authenticate :
    let nameless := lineAbout "launch_game" " "
    let asking := Text.bytes "\x7b\"protocol_version\":1,\"method\":\"authenticate\"\x7d\n"
    Rejected nameless ∧ Inquiry asking
      ∧ (∃ id info, info.code ∈ rejectionCodes
        ∧ serve 5 unaware nameless = (.ok (lineOf (.failure id info)), unaware))
      ∧ (∃ count, (serve 5 unaware asking).2 = { unaware with world.journal.fetches.user := count })
      ∧ course 5 unaware [.event .tick, .connection asking]
        = course 5 unaware [.event .tick, .connection nameless, .connection asking]
      ∧ (course 5 unaware [.event .tick, .connection asking]).world.journal.fetches.user = 1 := by
  intro nameless asking
  have hnameless : Rejected nameless := by decide +kernel
  have hasking : ¬Rejected asking := by decide +kernel
  have hinquiry : Inquiry asking := by
    have hmethod : (Request.read? (firstLine asking)).map Request.method = some .authenticate := by
      decide +kernel
    obtain ⟨request, hread, hrequest⟩ := Option.map_eq_some_iff.mp hmethod
    exact ⟨request, hread, hrequest ▸ by decide⟩
  obtain ⟨hrejected, hasked, hcourse, -⟩ :=
    course_frame 5 unaware [.event .tick, .connection nameless, .connection asking]
  refine ⟨hnameless, hinquiry, hrejected nameless hnameless, hasked asking hinquiry, ?_,
    by decide +kernel⟩
  rw [← hcourse]
  simp [Happening.isRejected, hnameless, hasking]

end GameBridge.Wire

import GameBridge.Proofs.Json.Values
import GameBridge.Proofs.Wire.Dispatching

/-!
# Spellings of a game

A host may spell the id of a game in several ways. A `Question` is what a request asks about a game
once the spelling is forgotten. Bridges that are asked the same questions, and to which otherwise
the same happens, do the same: the engine goes on with the canonical id only.

They also answer the same, with one exception. The answer to the question for the platform repeats
the id as the host spelled it.
-/

namespace GameBridge

open Json

namespace Wire

/-! ## Questions -/

/-- The game that a request is about, as it is spelled there. -/
def Request.spelling? (request : Request) : Option String :=
  match request.method with
  | .game _ => (GameParams.parse request.params).toOption
  | _ => none

/-- What a request asks about a game. -/
structure Question where
  /-- The version of the protocol. -/
  version : UInt32
  /-- What is asked for. -/
  method : GameMethod
  /-- The id of the request. -/
  id : Option String
  /-- The canonical id of the game. -/
  game : String
deriving DecidableEq

/-- The question in a request that names a game. -/
def Request.question? (request : Request) : Option Question :=
  match request.method with
  | .game method => (GameParams.parse request.params).toOption.map fun gameId ↦
    ⟨request.version, method, request.id, GameId.canonical gameId⟩
  | _ => none

/-- A request asks a question, with the game in some spelling. -/
structure Request.Asks (request : Request) (question : Question) (spelling : String) : Prop where
  version : request.version = question.version
  method : request.method = .game question.method
  id : request.id = question.id
  params : GameParams.parse request.params = .ok spelling
  game : GameId.canonical spelling = question.game

theorem Request.asks_of_question? {request : Request} {question : Question}
    (h : request.question? = some question) :
    ∃ spelling, request.spelling? = some spelling ∧ request.Asks question spelling := by
  rw [question?] at h
  rw [spelling?]
  cases hmethod : request.method with
  | game method =>
    rw [hmethod] at h
    obtain ⟨spelling, hspelling, rfl⟩ := Option.map_eq_some_iff.mp h
    exact ⟨spelling, hspelling, rfl, hmethod, rfl, toOption_eq_some_iff.mp hspelling, by dsimp only⟩
  | _ =>
    rw [hmethod] at h
    exact absurd h (by simp)

/-- Whether the answer to a question repeats the id of the game as the host spelled it. -/
def Question.repeatsSpelling (question : Question) : Bool :=
  question.version == protocolVersion && question.method == .osCompatibility

/-! ## Answers -/

/-- What is answered when the platform is asked for. -/
def platformValue (spelling : String) : Value :=
  .object [("game_id", .str spelling), ("os_compatibility", .str Engine.platform)]

theorem Request.Asks.reply_eq [Room] {request : Request} {question : Question} {spelling : String}
    (h : request.Asks question spelling) (processId : UInt32) (engine : Engine) :
    reply processId engine request =
      if question.version ≠ protocolVersion then
        (.ok (.failure question.id ⟨"protocol_mismatch", "unsupported protocol version"⟩), engine)
      else replyAbout engine question.id spelling question.method := by
  rw [reply, h.version, h.method, h.id]
  dsimp only
  rw [h.params]

theorem replyAbout_congr [Room] {spelling other : String}
    (h : GameId.canonical spelling = GameId.canonical other) (engine : Engine) (id : Option String)
    {method : GameMethod} (hmethod : method ≠ .osCompatibility) :
    replyAbout engine id spelling method = replyAbout engine id other method := by
  cases method with
  | gameTime => rw [replyAbout, replyAbout, Engine.gameTime, Engine.gameTime, h]
  | launch => rw [replyAbout, replyAbout, Engine.launch, Engine.launch, h]
  | install => rw [replyAbout, replyAbout, Engine.openGame, Engine.openGame, h]
  | uninstall => rw [replyAbout, replyAbout, Engine.openGame, Engine.openGame, h]
  | osCompatibility => exact absurd rfl hmethod

/-- The answer with the platform as a document. -/
private def platformDocument (id : Option String) (spelling : String) : Document :=
  .obj ((some "ok", .bool true) :: (id.map fun id ↦ (some "id", Document.str (some id))).toList
    ++ [(some "data", .obj [(some "game_id", .str (some spelling)),
      (some "os_compatibility", .str (some Engine.platform))])])

theorem platformLine_injective {id : Option String} {spelling other : String}
    (h : lineOf (.success id (platformValue spelling))
      = lineOf (.success id (platformValue other))) : spelling = other := by
  have hread : ∀ spelling,
      Document.read? ((Response.success id (platformValue spelling)).chars.flatMap Text.charBytes)
        = some (platformDocument id spelling) := by
    intro spelling
    refine Value.read?_chars ?_
    rcases id with - | id <;> rfl
  have hchars : (Response.success id (platformValue spelling)).chars
      = (Response.success id (platformValue other)).chars := List.append_cancel_right h
  have hsame := hread spelling
  rw [hchars, hread other] at hsame
  simpa [platformDocument] using (Option.some.inj hsame).symm

/-- Two requests that ask the same question do the same. They are answered alike unless the answer
repeats how the game is spelled, and then just if it is spelled alike. -/
theorem reply_of_question? [Room] {request other : Request} {question : Question}
    (h : request.question? = some question) (hother : other.question? = some question)
    (processId : UInt32) (engine : Engine) :
    (reply processId engine request).2 = (reply processId engine other).2
      ∧ ((reply processId engine request).1.map lineOf = (reply processId engine other).1.map lineOf
        ↔ ¬(question.repeatsSpelling = true ∧ request.spelling? ≠ other.spelling?)) := by
  obtain ⟨spelling, hspelling, hasks⟩ := Request.asks_of_question? h
  obtain ⟨spelling', hspelling', hasks'⟩ := Request.asks_of_question? hother
  rw [hasks.reply_eq, hasks'.reply_eq, hspelling, hspelling', Question.repeatsSpelling]
  by_cases hversion : question.version ≠ protocolVersion
  · -- in another version nobody looks at the game
    rw [if_pos hversion, if_pos hversion]
    exact ⟨rfl, iff_of_true rfl (by simp [hversion])⟩
  rw [if_neg hversion, if_neg hversion, not_not.mp hversion]
  by_cases hmethod : question.method = .osCompatibility
  · rw [hmethod]
    refine ⟨rfl, ?_⟩
    simp only [beq_self_eq_true, Bool.and_self, true_and, ne_eq, not_not, Option.some.injEq]
    constructor
    · intro hline
      exact platformLine_injective (Except.ok.inj hline)
    · rintro rfl
      rfl
  · rw [replyAbout_congr (hasks.game.trans hasks'.game.symm) engine question.id hmethod]
    exact ⟨rfl, iff_of_true rfl (by simp [hmethod])⟩

/-! ## Connections -/

/-- The question that comes in, if one about a game does. -/
def questionOf (incoming : List UInt8) : Option Question :=
  (receive incoming).toOption.bind Request.question?

/-- The game that the question is about, as it is spelled there. -/
def spellingOf (incoming : List UInt8) : Option String :=
  (receive incoming).toOption.bind Request.spelling?

/-- The same question comes in on two connections. -/
def Respelled (incoming other : List UInt8) : Prop :=
  ∃ question, questionOf incoming = some question ∧ questionOf other = some question

/-- Two connections ask for the platform of a game in different spellings. -/
def Echoes (incoming other : List UInt8) : Prop :=
  (questionOf incoming).any Question.repeatsSpelling = true
    ∧ spellingOf incoming ≠ spellingOf other

theorem serve_of_respelled [Room] {incoming other : List UInt8} (h : Respelled incoming other)
    (processId : UInt32) (engine : Engine) :
    (serve processId engine incoming).2 = (serve processId engine other).2
      ∧ ((serve processId engine incoming).1 = (serve processId engine other).1
        ↔ ¬Echoes incoming other) := by
  obtain ⟨question, hquestion, hquestion'⟩ := h
  obtain ⟨request, hreceived, hrequest⟩ := Option.bind_eq_some_iff.mp hquestion
  obtain ⟨request', hreceived', hrequest'⟩ := Option.bind_eq_some_iff.mp hquestion'
  rw [Echoes, hquestion, spellingOf, spellingOf, hreceived, hreceived', serve, serve,
    toOption_eq_some_iff.mp hreceived, toOption_eq_some_iff.mp hreceived']
  exact reply_of_question? hrequest hrequest' processId engine

/-! ## Courses -/

namespace Happening

/-- Two happenings differ at most in how a game is spelled. -/
def Respells : Happening → Happening → Prop
  | connection incoming, connection other => incoming = other ∨ Respelled incoming other
  | event e, event other => e = other
  | _, _ => False

/-- Two happenings ask for the platform of a game in different spellings. -/
def Echoes : Happening → Happening → Prop
  | connection incoming, connection other => Wire.Echoes incoming other
  | _, _ => False

end Happening

/-- What is sent back on the connections. -/
def answers [Room] (processId : UInt32) (engine : Engine) (happenings : List Happening) :
    List (Except Stop (List Char)) := (exchanges processId engine happenings).map Prod.snd

/-- **Spellings.** Of two courses in which the same happens, except that games are spelled in
different ways, each leads to the same engine. The answers are the same just if nowhere the platform
of a game is asked for in different spellings. -/
theorem course_respelled [Room] (processId : UInt32) (engine : Engine)
    {happenings others : List Happening} (h : List.Forall₂ Happening.Respells happenings others) :
    course processId engine happenings = course processId engine others
      ∧ (answers processId engine happenings = answers processId engine others
        ↔ List.Forall₂ (fun happening other ↦ ¬happening.Echoes other) happenings others) := by
  -- the two engines are the same at every point, so a step is about one engine
  induction h generalizing engine with
  | nil => exact ⟨rfl, iff_of_true rfl List.Forall₂.nil⟩
  | @cons happening other rest rest' hfirst hrest ih =>
    rw [List.forall₂_cons]
    rcases happening with incoming | e
    · rcases other with incoming' | e'
      · have hserve : (serve processId engine incoming).2 = (serve processId engine incoming').2
            ∧ ((serve processId engine incoming).1 = (serve processId engine incoming').1
              ↔ ¬Echoes incoming incoming') := by
          rcases hfirst with rfl | hrespelled
          · exact ⟨rfl, iff_of_true rfl fun hechoes ↦ hechoes.2 rfl⟩
          · exact serve_of_respelled hrespelled processId engine
        obtain ⟨hcourse, hanswers⟩ := ih (serve processId engine incoming).2
        rw [course_cons, course_cons, answers, answers, exchanges_connection, exchanges_connection,
          List.map_cons, List.map_cons, List.cons.injEq, Happening.apply, Happening.apply,
          ← hserve.1]
        exact ⟨hcourse, and_congr hserve.2 hanswers⟩
      · exact hfirst.elim
    · rcases other with incoming' | e'
      · exact hfirst.elim
      · obtain rfl : e = e' := hfirst
        obtain ⟨hcourse, hanswers⟩ := ih (engine.perform e)
        refine ⟨hcourse, hanswers.trans ?_⟩
        exact (and_iff_right id).symm

/-- The game 7 is shown in the client however it is spelled. -/
theorem course_respelled_install :
    let happenings := [.event .tick, .connection (lineAbout "install_game" "7")]
    let others := [.event .tick, .connection (lineAbout "install_game" " 007")]
    List.Forall₂ Happening.Respells happenings others
      ∧ course 5 unaware happenings = course 5 unaware others
      ∧ answers 5 unaware happenings = answers 5 unaware others
      ∧ (course 5 unaware others).world.journal.opened = ["itch://games/7"] := by
  intro happenings others
  have hquestion : questionOf (lineAbout "install_game" "7")
        = some ⟨1, .install, none, "7"⟩
      ∧ questionOf (lineAbout "install_game" " 007") = some ⟨1, .install, none, "7"⟩ := by
    decide +kernel
  have hrespells : List.Forall₂ Happening.Respells happenings others :=
    .cons rfl (.cons (Or.inr ⟨_, hquestion⟩) .nil)
  obtain ⟨hcourse, hanswers⟩ := course_respelled 5 unaware hrespells
  refine ⟨hrespells, hcourse, hanswers.mpr (.cons id (.cons (fun hechoes ↦ ?_) .nil)),
    by decide +kernel⟩
  have hrepeats := hechoes.1
  rw [hquestion.1] at hrepeats
  exact absurd hrepeats (by decide)

/-- The platform of the game 7 is asked for in two spellings, and the answers differ. -/
theorem course_respelled_platform :
    let seven := lineAbout "get_os_compatibility" "7"
    let other := lineAbout "get_os_compatibility" "007"
    Respelled seven other
      ∧ (serve 5 unaware seven).1 = .ok ("\x7b\"ok\":true,\"data\":\x7b\"game_id\":\"7\","
        ++ "\"os_compatibility\":\"windows\"\x7d\x7d\n").toList
      ∧ (serve 5 unaware other).1 = .ok ("\x7b\"ok\":true,\"data\":\x7b\"game_id\":\"007\","
        ++ "\"os_compatibility\":\"windows\"\x7d\x7d\n").toList := by
  intro seven other
  have hquestion : questionOf seven = some ⟨1, .osCompatibility, none, "7"⟩
      ∧ questionOf other = some ⟨1, .osCompatibility, none, "7"⟩ := by
    decide +kernel
  exact ⟨⟨_, hquestion⟩, by decide +kernel⟩

end Wire

end GameBridge

import GameBridge.Config
import GameBridge.Programs
import GameBridge.Proofs.Catalog.CanonicalIds
import GameBridge.Proofs.Engine.Opening
import GameBridge.Proofs.Wire.Dispatching

/-!
# Links that hosts open

A host can have a link opened by the bridge: to install a game, or to uninstall it. The link goes to
a program as one of its arguments, so it matters what a host can put into it. All that comes from
the host is the id of the game, and that has been trimmed, checked and replaced by its canonical
form; the scheme comes from the configuration and was checked there.

Every such request that is accepted opens one link, and nothing else that comes in on a connection
opens any. If the launcher cannot open links, the host is told about the link.
-/

namespace GameBridge

/-! ## Schemes -/

namespace Config

theorem isScheme_of_load {disk : Disk} {path : Path} {config : Config}
    (h : load disk path = .ok config) : isScheme config.scheme = true := by
  rw [load] at h
  split_ifs at h with hmissing
  · rw [← Except.ok.inj h]
    decide
  · split at h
    · exact absurd h (by simp)
    · split at h
      · exact absurd h (by simp)
      · split_ifs at h with hscheme
        rw [← Except.ok.inj h]
        exact hscheme

theorem notMem_of_isScheme {s : String} (h : isScheme s = true) {c : Char}
    (hc : isSchemeChar c = false) : c ∉ s.toList := by
  intro hmem
  rw [isScheme, Bool.and_eq_true] at h
  exact absurd (List.all_eq_true.mp h.2 c hmem) (by simp [hc])

end Config

namespace Wire

/-! ## Requests for a link -/

/-- The game that is to be shown in the client, if a request for that comes in and is accepted. -/
def shownBy (incoming : List UInt8) : Option String :=
  match receive incoming with
  | .ok request =>
    if request.version = protocolVersion
        ∧ (request.method = .game .install ∨ request.method = .game .uninstall) then
      (GameParams.parse request.params).toOption
    else none
  | .error _ => none

/-- An accepted request for a link. -/
structure Shows (incoming : List UInt8) (gameId : String) (request : Request) : Prop where
  received : receive incoming = .ok request
  version : request.version = protocolVersion
  method : request.method = .game .install ∨ request.method = .game .uninstall
  params : GameParams.parse request.params = .ok gameId

theorem shows_of_shownBy {incoming : List UInt8} {gameId : String}
    (h : shownBy incoming = some gameId) : ∃ request, Shows incoming gameId request := by
  rw [shownBy] at h
  split at h
  · rename_i request hreceived
    split_ifs at h with hasked
    exact ⟨request, hreceived, hasked.1, hasked.2, toOption_eq_some_iff.mp h⟩
  · exact absurd h (by simp)

/-- What is answered to a request for a link. -/
def linkResponse (openFault id : Option String) (link : String) : Response :=
  match openFault with
  | none => .success id openedValue
  | some details => .failure id (.ofFailure (.openFailed link details))

/-- A request for a link is a single attempt to open that link. -/
theorem Shows.serve_eq [Room] {incoming : List UInt8} {gameId : String} {request : Request}
    (h : Shows incoming gameId request) (processId : UInt32) (engine : Engine) :
    serve processId engine incoming =
      let link := GameId.uri engine.settings.scheme (GameId.canonical gameId)
      (.ok (lineOf (linkResponse engine.world.launcher.openFault request.id link)),
        { engine with world := (engine.world.openLink link).2 }) := by
  have hreply : reply processId engine request
      = (respond request.id (fun _ ↦ openedValue) ((engine.openGame gameId).1.mapError .failed),
        (engine.openGame gameId).2) := by
    rw [reply, if_neg (not_not.mpr h.version)]
    -- the two methods do the same
    rcases h.method with hmethod | hmethod
    all_goals
      rw [hmethod]
      dsimp only
      rw [h.params]
      rfl
  rw [serve, h.received]
  dsimp only
  rw [hreply]
  simp only [linkResponse, Engine.openGame, World.openLink]
  cases engine.world.launcher.openFault <;> rfl

theorem GameMethod.leavesLinks_of_mem_events {method : GameMethod} (hinstall : method ≠ .install)
    (huninstall : method ≠ .uninstall) {gameId : String} {event : Engine.Event}
    (hevent : event ∈ method.events gameId) (openFault : Option String) :
    event.LeavesLinks openFault := by
  cases method with
  | install => exact absurd rfl hinstall
  | uninstall => exact absurd rfl huninstall
  | osCompatibility => exact absurd hevent List.not_mem_nil
  | _ =>
    obtain rfl := List.mem_singleton.mp hevent
    trivial

theorem leavesLinks_of_shownBy {incoming : List UInt8} (h : shownBy incoming = none)
    {event : Engine.Event} (hevent : event ∈ eventsOf incoming) (openFault : Option String) :
    event.LeavesLinks openFault := by
  rw [eventsOf] at hevent
  rw [shownBy] at h
  rcases hreceived : receive incoming with info | request
  · rw [hreceived] at hevent
    exact absurd hevent List.not_mem_nil
  rw [hreceived] at hevent h
  dsimp only at hevent h
  rw [Request.events] at hevent
  split_ifs at hevent with hversion
  · exact absurd hevent List.not_mem_nil
  rw [not_not.mp hversion] at h
  cases hmethod : request.method with
  | game method =>
    rw [hmethod] at hevent h
    dsimp only at hevent
    rcases hparams : GameParams.parse request.params with info | gameId
    · rw [hparams] at hevent
      exact absurd hevent List.not_mem_nil
    -- a game is named, so it is not to be shown
    rw [hparams] at hevent h
    refine GameMethod.leavesLinks_of_mem_events ?_ ?_ hevent openFault
    · rintro rfl
      exact absurd h (by simp [Except.toOption])
    · rintro rfl
      exact absurd h (by simp [Except.toOption])
  | _ =>
    rw [hmethod] at hevent
    obtain rfl := List.mem_singleton.mp hevent
    trivial

/-! ## Courses -/

/-- The game that is to be shown in the client. -/
def Happening.shown : Happening → Option String
  | connection incoming => shownBy incoming
  | event _ => none

/-- The links to games that a launcher opens when it is asked to. -/
def openedLinks (openFault : Option String) (scheme : String) (games : List String) :
    List String :=
  match openFault with
  | none => games.map fun gameId ↦ GameId.uri scheme (GameId.canonical gameId)
  | some _ => []

theorem openedLinks_append (openFault : Option String) (scheme : String)
    (games more : List String) :
    openedLinks openFault scheme (games ++ more)
      = openedLinks openFault scheme games ++ openedLinks openFault scheme more := by
  cases openFault with
  | none => exact List.map_append
  | some details => rfl

/-- What happens to links: those to some games are opened, and everything that decides about the
next link stays as it is. -/
structure OpensFor (games : List String) (before after : Engine) : Prop where
  settings : after.settings = before.settings
  openFault : after.world.launcher.openFault = before.world.launcher.openFault
  opened : after.world.journal.opened = before.world.journal.opened
    ++ openedLinks before.world.launcher.openFault before.settings.scheme games

namespace OpensFor

theorem of_unopened {before after : Engine} (hsettings : after.settings = before.settings)
    (h : Engine.Unopened before after) : OpensFor [] before after where
  settings := hsettings
  openFault := h.openFault
  opened := by
    rw [h.opened]
    cases before.world.launcher.openFault <;> exact (List.append_nil _).symm

theorem trans {games more : List String} {first second third : Engine}
    (h : OpensFor games first second) (hmore : OpensFor more second third) :
    OpensFor (games ++ more) first third where
  settings := hmore.settings.trans h.settings
  openFault := hmore.openFault.trans h.openFault
  opened := by
    rw [hmore.opened, h.opened, h.settings, h.openFault, openedLinks_append, List.append_assoc]

end OpensFor

theorem opensFor_run [Room] (engine : Engine) {events : List Engine.Event}
    (h : ∀ event ∈ events, event.LeavesLinks engine.world.launcher.openFault) :
    OpensFor [] engine (engine.run events) := by
  induction events generalizing engine with
  | nil => exact OpensFor.of_unopened rfl ⟨rfl, rfl⟩
  | cons event rest ih =>
    obtain ⟨hevent, hrest⟩ := List.forall_mem_cons.mp h
    have hfirst := OpensFor.of_unopened (engine.settings_perform event)
      (engine.unopened_perform hevent)
    rw [← hfirst.openFault] at hrest
    exact hfirst.trans (ih _ hrest)

/-- **One step.** An accepted request for a link opens that link, and nothing else opens any. -/
theorem opensFor_apply [Room] (processId : UInt32) (engine : Engine) (happening : Happening)
    (h : ∀ e, happening = .event e → e.LeavesLinks engine.world.launcher.openFault) :
    OpensFor happening.shown.toList engine (happening.apply processId engine) := by
  rcases happening with incoming | e
  · rw [Happening.shown, Happening.apply]
    cases hshown : shownBy incoming with
    | none =>
      rw [serve_snd]
      exact opensFor_run engine fun event hevent ↦ leavesLinks_of_shownBy hshown hevent _
    | some gameId =>
      obtain ⟨request, hrequest⟩ := shows_of_shownBy hshown
      rw [hrequest.serve_eq]
      dsimp only
      rw [World.openLink]
      cases hfault : engine.world.launcher.openFault with
      | none => exact ⟨rfl, rfl, by rw [hfault]; rfl⟩
      | some details => exact ⟨rfl, rfl, by rw [hfault]; exact (List.append_nil _).symm⟩
  · exact OpensFor.of_unopened (engine.settings_perform e) (engine.unopened_perform (h e rfl))

theorem opensFor_course [Room] (processId : UInt32) (engine : Engine) {happenings : List Happening}
    (h : ∀ e, .event e ∈ happenings → e.LeavesLinks engine.world.launcher.openFault) :
    OpensFor (happenings.filterMap Happening.shown) engine
      (course processId engine happenings) := by
  induction happenings generalizing engine with
  | nil => exact OpensFor.of_unopened rfl ⟨rfl, rfl⟩
  | cons happening rest ih =>
    have hfirst := opensFor_apply processId engine happening
      fun e he ↦ h e (he ▸ List.mem_cons_self)
    have hrest := ih (happening.apply processId engine) fun e he ↦
      hfirst.openFault ▸ h e (List.mem_cons_of_mem _ he)
    rw [course_cons]
    have hall := hfirst.trans hrest
    rw [List.filterMap_cons]
    cases hshown : happening.shown with
    | none =>
      rw [hshown] at hall
      exact hall
    | some gameId =>
      rw [hshown] at hall
      exact hall

/-- Whoever asks for a link is told whether it was opened. -/
theorem answer_of_shows [Room] (processId : UInt32) (engine : Engine) {happenings : List Happening}
    (h : ∀ e, .event e ∈ happenings → e.LeavesLinks engine.world.launcher.openFault)
    {incoming : List UInt8} {answer : Except Stop (List Char)} {gameId : String}
    (hanswer : (incoming, answer) ∈ exchanges processId engine happenings)
    (hshown : shownBy incoming = some gameId) :
    ∃ request, Shows incoming gameId request ∧ answer = .ok (lineOf (linkResponse
      engine.world.launcher.openFault request.id
      (GameId.uri engine.settings.scheme (GameId.canonical gameId)))) := by
  induction happenings generalizing engine with
  | nil => exact absurd hanswer List.not_mem_nil
  | cons happening rest ih =>
    have hfirst := opensFor_apply processId engine happening
      fun e he ↦ h e (he ▸ List.mem_cons_self)
    have hrest := ih (happening.apply processId engine) fun e he ↦
      hfirst.openFault ▸ h e (List.mem_cons_of_mem _ he)
    rw [hfirst.openFault, hfirst.settings] at hrest
    rcases happening with other | e
    · rw [exchanges_connection] at hanswer
      rcases List.mem_cons.mp hanswer with hnow | hlater
      · obtain ⟨rfl, rfl⟩ := Prod.mk.inj hnow
        obtain ⟨request, hrequest⟩ := shows_of_shownBy hshown
        refine ⟨request, hrequest, ?_⟩
        rw [hrequest.serve_eq]
      · exact hrest hlater
    · exact hrest hanswer

/-! ## What a link is like -/

/-- A link to the game that a host names: the configured scheme, and the canonical form of the id
that the host sent, white space aside. It can be read in one way only, and makes up a single
argument of a program. -/
structure LinksTo (config : Config) (incoming : List UInt8) (gameId link : String) : Prop where
  form : link = GameId.uri config.scheme (GameId.canonical gameId)
  scheme : Config.isScheme config.scheme = true
  sent : ∃ request value raw, Shows incoming gameId request ∧ request.params = some value
    ∧ GameParams.idOf value = .ok raw ∧ gameId = Text.trim raw
  plain : GameId.Plain (GameId.canonical gameId)
  unique : ∀ scheme id, Config.isScheme scheme = true → link = GameId.uri scheme id →
    scheme = config.scheme ∧ id = GameId.canonical gameId
  argument : Programs.openLink true link = .ok [link]

theorem linksTo_uri {config : Config} (hscheme : Config.isScheme config.scheme = true)
    {incoming : List UInt8} {gameId : String} (h : shownBy incoming = some gameId) :
    LinksTo config incoming gameId (GameId.uri config.scheme (GameId.canonical gameId)) := by
  obtain ⟨request, hrequest⟩ := shows_of_shownBy h
  obtain ⟨info, -, hrefused⟩ | ⟨value, raw, hvalue, hraw, hblank, hshort, hchars, hparams⟩ :=
    parse_cases request.params
  · exact absurd (hrefused.symm.trans hrequest.params) (by simp)
  obtain rfl : Text.trim raw = gameId := Except.ok.inj (hparams.symm.trans hrequest.params)
  have hplain : GameId.Plain (Text.trim raw) :=
    ⟨hblank, (Text.length_trim_le raw).trans ((Text.length_le_utf8ByteSize raw).trans hshort),
      hchars⟩
  refine ⟨rfl, hscheme, ⟨request, value, raw, hrequest, hvalue, hraw, rfl⟩, hplain.canonical, ?_,
    ?_⟩
  · intro scheme id hother hsame
    obtain ⟨hschemes, hids⟩ := GameId.uri_inj (Config.notMem_of_isScheme hscheme (by decide))
      (Config.notMem_of_isScheme hother (by decide)) hsame
    exact ⟨hschemes.symm, hids.symm⟩
  · have hzero : '\x00' ∉ (GameId.uri config.scheme (GameId.canonical (Text.trim raw))).toList := by
      rw [GameId.toList_uri, List.mem_append, List.mem_cons, List.mem_append, not_or, not_or,
        not_or]
      refine ⟨Config.notMem_of_isScheme hscheme (by decide), by decide, by decide, fun hmem ↦ ?_⟩
      exact absurd (hplain.canonical.chars _ hmem) (by decide)
    rw [Programs.openLink, if_neg (by simpa using hzero), if_pos rfl]

/-- **Links.** Whatever comes in on connections, and whatever else happens as long as it opens no
link by itself, the links that are opened are those for the requests that were accepted, one for
each and in their order. Where the launcher has a fault, none is opened, and the host is told about
the link instead. Each of these links has the configured scheme and a plain canonical id, and can be
read in this way only. -/
theorem opened_course [Room] {disk : Disk} {path : Path} {config : Config}
    (hconfig : Config.load disk path = .ok config) (processId : UInt32) (store : Store)
    (world : World) {happenings : List Happening}
    (h : ∀ e, .event e ∈ happenings → e.LeavesLinks world.launcher.openFault) :
    let engine := Engine.start config.engineSettings store world
    let games := happenings.filterMap Happening.shown
    (course processId engine happenings).world.journal.opened
        = world.journal.opened ++ openedLinks world.launcher.openFault config.scheme games
      ∧ (∀ incoming answer gameId, (incoming, answer) ∈ exchanges processId engine happenings →
        shownBy incoming = some gameId → ∃ request, Shows incoming gameId request
          ∧ answer = .ok (lineOf (linkResponse world.launcher.openFault request.id
            (GameId.uri config.scheme (GameId.canonical gameId)))))
      ∧ ∀ incoming gameId, shownBy incoming = some gameId →
        LinksTo config incoming gameId
          (GameId.uri config.scheme (GameId.canonical gameId)) := by
  intro engine games
  refine ⟨(opensFor_course processId engine h).opened, ?_, ?_⟩
  · intro incoming answer gameId hanswer hshown
    exact answer_of_shows processId engine h hanswer hshown
  · intro incoming gameId hshown
    exact linksTo_uri (Config.isScheme_of_load hconfig) hshown

/-- A configuration has another scheme. A game is installed and one is uninstalled, and a launch and
an id with a slash in between open no link. -/
theorem opened_course_two :
    let disk : Disk := .folder [("config.toml",
      .file (Text.bytes "[launch]\nuri_scheme = \"my-app\"\n"))]
    let config : Config := { Config.default with scheme := "my-app" }
    let happenings := [.connection (lineAbout "install_game" " 007"),
      .connection (lineAbout "launch_game" "7"), .connection (lineAbout "install_game" "7/x"),
      .event .tick, .connection (lineAbout "uninstall_game" "a_B")]
    Config.load disk "config.toml" = .ok config
      ∧ (course 5 (.start config.engineSettings (.ofEntries .empty) unaware.world)
          happenings).world.journal.opened = ["my-app://games/7", "my-app://games/a_B"]
      ∧ LinksTo config (lineAbout "install_game" " 007") "007" "my-app://games/7" := by
  intro disk config happenings
  have hconfig : Config.load disk "config.toml" = .ok config := by decide +kernel
  have hevents : ∀ e, Happening.event e ∈ happenings → e.LeavesLinks none := by
    intro e he
    simp only [happenings, List.mem_cons, List.not_mem_nil, reduceCtorEq, or_false, false_or,
      Happening.event.injEq] at he
    rw [he]
    trivial
  have hgames : happenings.filterMap Happening.shown = ["007", "a_B"] := by decide +kernel
  have hshown : shownBy (lineAbout "install_game" " 007") = some "007" := by decide +kernel
  have hid : GameId.canonical "007" = "7" := by decide +kernel
  obtain ⟨hopened, -, hlinks⟩ :=
    opened_course hconfig 5 (.ofEntries .empty) unaware.world hevents
  have hlink := hlinks _ _ hshown
  rw [hgames] at hopened
  rw [hid] at hlink
  refine ⟨hconfig, hopened.trans ?_, hlink⟩
  decide +kernel

end Wire

end GameBridge

import EventRelay.Proofs.Browser
import EventRelay.Proofs.Comeback
import EventRelay.Proofs.Stretch

/-!
# A browser comes back

A browser is told for how long to keep its session's cookie when its stream opens, and counts
from then; the session is kept from the time at which the connection ends. So the cookie may be
gone when the session is not. `App.Revisit.session_kept_iff` says exactly when a browser that
comes back gets its session: while the cookie lasts, however long the session does. A connection
that is open for as long as the cookie lasts has outlived it (`App.cookie_outlived`).
-/

namespace EventRelay

/-- Whoever asks while the loop runs may wait for an answer. -/
theorem Broker.register_of_running {b : Broker} (hruns : b.isRunning = true) {arrival : Arrival}
    (hstreams : arrival.streaming = true) (draws : List Draw) :
    ∃ b' n, b.register arrival draws = (b', .ok n) := by
  have hnoted : ∀ notice, (b.note notice).isRunning = true := fun _ => hruns
  unfold register
  rw [hstreams]
  cases arrival.session with
  | none => simp [hruns]
  | some id =>
      cases hclaimable : b.registry.claimable id arrival.metadata <;>
        simp [hclaimable, hruns, hnoted]

namespace App

variable {a b : App} {r r' : Http.Request} {draws : List Draw} {s : EventStream} {text : String}

/-! ## Opening a stream -/

theorem handle_stream (hmethod : r.method = "GET") (hpath : r.uri.path = "/sse") :
    a.handle r draws = a.openStream r draws := by
  have hroute : route? r.uri.path = some openStream := by
    rw [hpath]
    rfl
  rw [handle, hroute]
  exact if_pos hmethod

theorem noted (c : Broker) (notice : Notice)
    (hother : ∀ id client, notice ≠ .clientReplaced id client) :
    c.Stretch [] (c.note notice) :=
  Broker.Stretch.refl.quiet (.reported (Hub.untouched_note c.hub hother) rfl)

/-- The cookie that a response sets is the session's, and can be sent. -/
theorem streamHeaders_cookie (a : App) (secure : Bool) (id : SessionId) :
    (a.streamHeaders secure id).1.broker.phase = a.broker.phase ∧
    a.broker.Stretch [] (a.streamHeaders secure id).1.broker ∧
    ∀ text, ("set-cookie", text) ∈ (a.streamHeaders secure id).2 →
      text = sessionCookie a.settings.cookieName id a.settings.cookieMaxAge secure ∧
        Http.isFieldValue (Utf8.encode text) = true := by
  unfold streamHeaders
  dsimp only
  split
  · next hvalid =>
      refine ⟨rfl, .refl, fun text hmem => ?_⟩
      have htext :
          text = sessionCookie a.settings.cookieName id a.settings.cookieMaxAge secure := by
        simpa [sessionHeader] using hmem
      exact ⟨htext, htext ▸ hvalid⟩
  · refine ⟨rfl, noted _ _ nofun, fun text hmem => ?_⟩
    simp [sessionHeader] at hmem

/-- A request for a stream that is registered gets what its registration is answered with. -/
theorem openStream_answered {query : StreamQuery} {c : Broker} {n : Ticket}
    (hread : StreamQuery.read r.uri.query = .ok query)
    (hasked : a.broker.register (.ofRequest a.settings.cookieName r query) draws = (c, .ok n)) :
    (c.await [n]).Stretch [] (a.openStream r draws).1.broker ∧
    (a.openStream r draws).1.broker.phase = (c.await [n]).phase ∧
    (∀ client, (c.await [n]).answer? n = some (.ok client) →
      ∃ s, (a.openStream r draws).2.body = .ongoing s ∧ s.client = client) ∧
    ∀ s, (a.openStream r draws).2.body = .ongoing s →
      (c.await [n]).answer? n = some (.ok s.client) ∧
      ∀ text, ("set-cookie", text) ∈ (a.openStream r draws).2.headers →
        text = sessionCookie a.settings.cookieName s.client.session a.settings.cookieMaxAge
          r.isSecure ∧
          Http.isFieldValue (Utf8.encode text) = true := by
  unfold openStream
  rw [hread]
  dsimp only
  rw [hasked]
  dsimp only
  cases hanswer : (c.await [n]).answer? n with
  | none => exact ⟨.refl, rfl, nofun, nofun⟩
  | some answer =>
      cases answer with
      | error refusal =>
          unfold refuse
          cases refusal with
          | entropy reason => exact ⟨noted _ _ nofun, rfl, nofun, nofun⟩
          | streamingUnsupported => exact ⟨.refl, rfl, nofun, nofun⟩
          | shutDown => exact ⟨.refl, rfl, nofun, nofun⟩
      | ok client =>
          have hopened : (c.await [n]).Stretch []
              ((c.await [n]).note (.streamOpened client.session client.id)) := noted _ _ nofun
          obtain ⟨hphase, hway, hcookie⟩ := streamHeaders_cookie
            (({ a with broker := c.await [n] } : App).note (.streamOpened client.session client.id))
            r.isSecure client.session
          refine ⟨hopened.trans hway, hphase, ?_, ?_⟩
          · rintro client' ⟨⟩
            exact ⟨_, rfl, rfl⟩
          · rintro s ⟨⟩
            exact ⟨rfl, hcookie⟩

/-- A stream that was opened was asked for. -/
theorem openStream_asked (hopens : (a.openStream r draws).2.body = .ongoing s) :
    ∃ query c n, StreamQuery.read r.uri.query = .ok query ∧
      a.broker.register (.ofRequest a.settings.cookieName r query) draws = (c, .ok n) := by
  cases hread : StreamQuery.read r.uri.query with
  | error name =>
      unfold openStream at hopens
      rw [hread] at hopens
      cases hopens
  | ok query =>
      obtain ⟨c, asked, hasked⟩ : ∃ c asked,
        a.broker.register (.ofRequest a.settings.cookieName r query) draws = (c, asked) :=
        ⟨_, _, rfl⟩
      cases asked with
      | ok n => exact ⟨query, c, n, rfl, hasked⟩
      | error refusal =>
          unfold openStream at hopens
          rw [hread] at hopens
          dsimp only at hopens
          rw [hasked] at hopens
          cases refusal <;> cases hopens

/-- A request opens a stream, and the loop does this while the request waits. -/
structure Opens (a : App) (r : Http.Request) (draws : List Draw) (s : EventStream)
    (new : List Moment) : Prop where
  method : r.method = "GET"
  path : r.uri.path = "/sse"
  body : (a.handle r draws).2.body = .ongoing s
  work : ∃ query c n, StreamQuery.read r.uri.query = .ok query ∧
    a.broker.register (.ofRequest a.settings.cookieName r query) draws = (c, .ok n) ∧
    c.Toil new (c.await [n])

namespace Opens

variable {new : List Moment}

/-- A stream is not opened unless the loop does something for it. -/
theorem of_body (hmethod : r.method = "GET") (hpath : r.uri.path = "/sse")
    (hbody : (a.handle r draws).2.body = .ongoing s) (hgoes : (a.handle r draws).1.broker.Goes) :
    ∃ new, a.Opens r draws s new := by
  have hopens := hbody
  rw [handle_stream hmethod hpath] at hopens hgoes
  obtain ⟨query, c, n, hread, hasked⟩ := openStream_asked hopens
  obtain ⟨new, htoil⟩ := Broker.spells_toil (fun c => [n].all fun t => (c.answer? t).isSome)
    c.spellBound ((openStream_answered hread hasked).1.goes hgoes)
  exact ⟨new, hmethod, hpath, hbody, query, c, n, hread, hasked, htoil⟩

theorem course (ho : a.Opens r draws s new) : a.broker.Stretch new (a.handle r draws).1.broker := by
  obtain ⟨query, c, n, hread, hasked, htoil⟩ := ho.work
  have hask := Broker.Move.asked (b := a.broker) (.ofRequest a.settings.cookieName r query) draws
  rw [hasked] at hask
  have hway := ((Broker.Stretch.refl.quiet hask).trans htoil.stretch).trans
    (openStream_answered hread hasked).1
  rw [handle_stream ho.method ho.path]
  simpa using hway

/-- The browser is told to keep the session's cookie. -/
theorem cookie (ho : a.Opens r draws s new)
    (hcookie : ("set-cookie", text) ∈ (a.handle r draws).2.headers) :
    text = sessionCookie a.settings.cookieName s.client.session a.settings.cookieMaxAge r.isSecure ∧
      Http.isFieldValue (Utf8.encode text) = true := by
  obtain ⟨query, c, n, hread, hasked, -⟩ := ho.work
  have hbody := ho.body
  rw [handle_stream ho.method ho.path] at hbody hcookie
  exact ((openStream_answered hread hasked).2.2.2 s hbody).2 text hcookie

/-- The client of the stream was admitted while the request waited. -/
theorem admitted {b₀ : Broker} (ho : a.Opens r draws s new) (hnew : b₀.New)
    (hreach : b₀.Reachable a.broker) : ∃ x ∈ new, ∃ g, x.act = .register g ∧
      x.outcome = .admitted s.client ∧ g.metadata.userAgent = r.headers.text? "user-agent" := by
  obtain ⟨query, c, n, hread, hasked, htoil⟩ := ho.work
  have hbody := ho.body
  rw [handle_stream ho.method ho.path] at hbody
  obtain ⟨newer, x, older, g, rfl, hact, hmetadata, -, -, hanswer⟩ := hreach.asks hnew hasked htoil
  refine ⟨x, List.mem_append_right _ (List.mem_cons_self ..), g, hact, ?_, ?_⟩
  · exact (hanswer s.client).mp ((openStream_answered hread hasked).2.2.2 s hbody).1
  · rw [hmetadata]
    rfl

end Opens

/-! ## Coming back -/

/-- A browser opens a stream and is told to keep a cookie. Its connection ends, and before the
session's time is over it asks for the stream again, from the same user agent and with the cookie
if it still keeps it. In between anything may happen, but after the end nobody else gets the
session or claims it. -/
structure Revisit (a b : App) (r r' : Http.Request) (draws : List Draw) (s : EventStream)
    (text : String) (newer older : List Moment) (y : Moment)
    (fields : List (List Http.CookiePair)) : Prop where
  before : ∃ app now, start a.settings now = .ok app ∧ app.broker.Reachable a.broker
  course : ∃ first later, a.Opens r draws s first ∧
    (a.handle r draws).1.broker.Stretch later b.broker ∧ later ++ first = newer ++ y :: older
  cookie : ("set-cookie", text) ∈ (a.handle r draws).2.headers
  /-- Ids that are made of numbers are tokens. -/
  named : Http.isToken s.client.session = true
  ends : y.ends s.client
  alone : ∀ z ∈ newer, ∀ c, z.outcome = .admitted c → c.session ≠ s.client.session
  unclaimed : ∀ e ∈ b.broker.pending, e.2.candidate ≠ some s.client.session
  inTime : b.broker.now - y.time ≤ a.settings.registry.ttl
  settings : b.settings = a.settings
  runs : b.broker.isRunning = true
  asks : r'.method = "GET" ∧ r'.uri.path = "/sse" ∧ r'.version.canStream = true
  reads : ∃ query, StreamQuery.read r'.uri.query = .ok query
  agent : r'.headers.text? "user-agent" = r.headers.text? "user-agent"
  sends : r'.headers.all "cookie" = fields.map Http.CookiePair.field
  brought : Http.Cookie.Brought text a.broker.now b.broker.now a.settings.cookieName fields

namespace Revisit

variable {newer older : List Moment} {y : Moment} {fields : List (List Http.CookiePair)}

/-- What is known of the session when the browser comes back. -/
theorem session (hv : Revisit a b r r' draws s text newer older y fields) (hgoes : b.broker.Goes) :
    ∃ app now past, start a.settings now = .ok app ∧ app.broker.Reachable b.broker ∧
      Broker.Accounted (newer ++ y :: past) app.broker b.broker ∧
      s.client ∈ handles ((y :: past).map Moment.occurrence) ∧
      (a.settings.strictBinding = true → ∀ s', y.after.registry.find? s.client.session = some s' →
        s'.metadata.userAgent = r.headers.text? "user-agent") := by
  obtain ⟨app, now, hstart, hreach⟩ := hv.before
  have hnew := start_new hstart
  obtain ⟨first, later, hopens, hlater, hmoments⟩ := hv.course
  obtain ⟨x, hx, g, hact, hout, hagent⟩ := hopens.admitted hnew hreach
  have hall := hopens.course.trans hlater
  obtain ⟨past, hacc⟩ := hreach.accounted hnew (hall.goes hgoes)
  have hacc' := hacc.stretch hall hgoes
  rw [hmoments, List.append_assoc, List.cons_append] at hacc'
  have hx' : x ∈ y :: older := by
    have hmem : x ∈ newer ++ y :: older := hmoments ▸ List.mem_append_right _ hx
    exact (List.mem_append.mp hmem).resolve_left fun hlate => hv.alone x hlate _ hout rfl
  have hx'' : x ∈ y :: (older ++ past) := List.mem_append_left past hx'
  refine ⟨app, now, older ++ past, hstart, hall.reachable hreach, hacc', ?_,
    fun hstrict s' hs' => ?_⟩
  · exact List.mem_filterMap.mpr
      ⟨x.occurrence, List.mem_map_of_mem hx'', Moment.handle?_eq_some.mpr hout⟩
  · have htrail := hacc'.trail
    obtain ⟨mid, sooner, hsplit⟩ := List.append_of_mem hx''
    have hconfig : x.before.registry.config = a.settings.registry := by
      rw [hsplit, ← List.append_assoc] at htrail
      calc x.before.registry.config
          = b.broker.registry.config := htrail.terms_since.2.1.symm
        _ = app.broker.registry.config := hacc'.sessions
        _ = a.settings.registry := congrArg Terms.sessions (start_termsAt hstart 0).1
    rw [htrail.cut.bound_since hx'' hact hout hv.ends hs' (hconfig ▸ hstrict), hagent]

theorem runs_on (hv : Revisit a b r r' draws s text newer older y fields) : b.broker.Goes := by
  intro f hfailed
  cases hv.runs.symm.trans (Broker.isRunning_of_failed hfailed)

/-- The browser waits for an answer. -/
theorem asked (hv : Revisit a b r r' draws s text newer older y fields) (draws' : List Draw) :
    ∃ query c n, StreamQuery.read r'.uri.query = .ok query ∧
      b.broker.register (.ofRequest b.settings.cookieName r' query) draws' = (c, .ok n) := by
  obtain ⟨query, hread⟩ := hv.reads
  have hstreams : (Arrival.ofRequest b.settings.cookieName r' query).streaming = true :=
    hv.asks.2.2
  obtain ⟨c, n, hasked⟩ := Broker.register_of_running hv.runs hstreams draws'
  exact ⟨query, c, n, hread, hasked⟩

theorem goes_on (hv : Revisit a b r r' draws s text newer older y fields) (draws' : List Draw)
    (hbearable : (a.settings.terms b.broker.now).Bearable) :
    (b.handle r' draws').1.broker.Lasts ∧
      ((∀ id, b.broker.returnsDue id < Limits.maxCount) → (b.handle r' draws').1.broker.Goes) := by
  obtain ⟨app, now, past, hstart, hreach, -⟩ := hv.session hv.runs_on
  have hnew := start_new hstart
  rw [← (start_termsAt hstart _).1] at hbearable
  obtain ⟨query, c, n, hread, hasked⟩ := hv.asked draws'
  have hask := Broker.Move.asked (b := b.broker) (.ofRequest b.settings.cookieName r' query) draws'
  have hcourse := b.broker.register_cases (.ofRequest b.settings.cookieName r' query) draws'
  rw [hasked] at hask hcourse
  have hreach' := hreach.moved hask
  have hnow : c.now = b.broker.now := congrArg Terms.now hask.quiet.terms
  obtain ⟨hreach'', hnow', -⟩ := hreach'.spells
    (fun c => [n].all fun t => (c.answer? t).isSome) c.spellBound
  have hphase : (b.handle r' draws').1.broker.phase = (c.await [n]).phase := by
    rw [handle_stream hv.asks.1 hv.asks.2.1, (openStream_answered hread hasked).2.1]
  refine ⟨fun f hfailed => ?_, fun hroom f hfailed => ?_⟩
  · exact hreach''.lasts hnew hbearable (Nat.le_of_eq (hnow'.trans hnow)) f
      (hphase.symm.trans hfailed)
  · have hsame : c.phase = b.broker.phase := by
      obtain ⟨-, -, h, g, rfl, -⟩ := Broker.register_queued hasked
      exact Broker.enqueue_phase ..
    have hgoes : c.Goes := fun f hended => hv.runs_on f (hsame.symm.trans hended)
    exact hreach'.goes_on hnew hbearable (Nat.le_of_eq hnow) hgoes
      (fun id => (hcourse.returnsDue_le id).trans (hroom id)) _ _ f (hphase.symm.trans hfailed)

/-- The session is given back exactly if the request presents it. -/
theorem given_back_iff (hv : Revisit a b r r' draws s text newer older y fields)
    (draws' : List Draw) (hgoes : (b.handle r' draws').1.broker.Goes) :
    (∃ s', (b.handle r' draws').2.body = .ongoing s' ∧ s'.client.session = s.client.session ∧
        s'.client.reconnected = true) ↔
      Arrival.presentedSession a.settings.cookieName r'.headers = some s.client.session := by
  obtain ⟨app, now, past, hstart, hreach, hacc, hc, hbound⟩ := hv.session hv.runs_on
  have hconfig : app.broker.registry.config = a.settings.registry :=
    congrArg Terms.sessions (start_termsAt hstart 0).1
  obtain ⟨query, c, n, hread, hasked⟩ := hv.asked draws'
  obtain ⟨hnoted, -, hfound, hclient⟩ := openStream_answered hread hasked
  rw [handle_stream hv.asks.1 hv.asks.2.1] at hgoes ⊢
  have hgiven := hreach.given_back_iff (start_new hstart) hacc hc hv.ends hv.alone hv.unclaimed
    (hconfig ▸ hv.inTime)
    (fun hstrict s' hs' => (hbound
      ((congrArg Registry.Config.strictBinding hconfig).symm.trans hstrict) s' hs').trans
        hv.agent.symm)
    hasked (hnoted.goes hgoes)
  rw [Arrival.ofRequest, hv.settings] at hgiven
  refine Iff.trans ⟨?_, ?_⟩ hgiven
  · rintro ⟨s', hopens, hback⟩
    exact ⟨s'.client, (hclient s' hopens).1, hback⟩
  · rintro ⟨client, hanswer, hback⟩
    obtain ⟨s', hopens, rfl⟩ := hfound client hanswer
    exact ⟨s', hopens, hback⟩

/-- The request presents the session if the browser has the cookie and the relay can read it. -/
theorem presented_iff (hv : Revisit a b r r' draws s text newer older y fields) :
    Arrival.presentedSession a.settings.cookieName r'.headers = some s.client.session ↔
      (b.broker.now < a.broker.now + Duration.ofSeconds a.settings.cookieMaxAge ∧
        Http.Cookie.Keepable a.settings.cookieName ∧
        Http.CookiePair.Legible a.settings.cookieName fields) ∨
      r'.headers.text? sessionHeader = some s.client.session := by
  obtain ⟨first, later, hopens, -⟩ := hv.course
  have hbrought := hv.brought
  obtain ⟨rfl, hvalid⟩ := hopens.cookie hv.cookie
  exact hbrought.presented_iff hvalid hv.named hv.sends

/-- **When a browser gets its session back.** It comes back while the session is kept, and
nobody else has claimed it. If the settings and the time are bearable, the relay goes on unless
it counts too far, and it does not while everybody who waits may come back and be counted. If it
goes on, it gives the session back exactly if three things hold: less time has passed since the
stream was opened than the cookie lasts, the cookie is kept under its name, and the field that
carries it can be read. (A header that names the session does as well, but browsers do not send
it.) For how long the connection was open does not matter to the session, but it does to the
cookie. -/
theorem session_kept_iff (hv : Revisit a b r r' draws s text newer older y fields)
    (draws' : List Draw) :
    ((a.settings.terms b.broker.now).Bearable → (b.handle r' draws').1.broker.Lasts ∧
      ((∀ id, b.broker.returnsDue id < Limits.maxCount) → (b.handle r' draws').1.broker.Goes)) ∧
    ((b.handle r' draws').1.broker.Goes →
      ((∃ s', (b.handle r' draws').2.body = .ongoing s' ∧
          s'.client.session = s.client.session ∧ s'.client.reconnected = true) ↔
        (b.broker.now < a.broker.now + Duration.ofSeconds a.settings.cookieMaxAge ∧
          Http.Cookie.Keepable a.settings.cookieName ∧
          Http.CookiePair.Legible a.settings.cookieName fields) ∨
        r'.headers.text? sessionHeader = some s.client.session)) :=
  ⟨hv.goes_on draws', fun hgoes => (hv.given_back_iff draws' hgoes).trans hv.presented_iff⟩

end Revisit

/-! ## A page that is left and loaded again -/

/-- A page asks for the stream, with the cookies that it has. -/
def page (fields : List (List Http.CookiePair)) : Http.Request where
  method := "GET"
  uri := { path := "/sse" }
  version := .http11
  headers := fields.map fun ps => ("cookie", Http.CookiePair.field ps)

theorem page_headers (fields : List (List Http.CookiePair)) (name : String) :
    (page fields).headers.all name =
      if name = "cookie" then fields.map Http.CookiePair.field else [] := by
  unfold page Http.Headers.all
  split
  · next hcookie => simp [hcookie]
  · next hother => simp [Ne.symm hother]

/-- The relay with the default settings. -/
def unvisited : App where
  settings := {}
  broker :=
    { hub := ({ config := {}, registry := newRegistry {} 0 } : Hub).note
        (.brokerStarted 64 1024 25000 5000)
      heartbeat := Ticker.start 25000 0 }

/-- The relay when the page has been opened. -/
def visited : App := (unvisited.handle (page []) [.ok "S1"]).1

/-- The page's stream. -/
def visit : EventStream where
  client := ⟨⟨1⟩, "S1", false, 0⟩
  retry := some 3000

/-- What the page is told. -/
def visit.cookie : String := "sse_session=S1; Path=/; Max-Age=86400; HttpOnly; SameSite=Strict"

/-- What the page sends while it keeps the cookie. -/
def visit.kept : List (List Http.CookiePair) := [[.ofTexts "sse_session" "S1"]]

/-- The page is left at the time `t`. -/
def leaving (t : Nat) : App :=
  { visited with broker := visited.broker.setClock t }.dropStream visit

/-- The relay when it has seen to that. -/
def left (t : Nat) : App := { leaving t with broker := (leaving t).broker.turn }

/-- A page may be left at any time, and loaded again at once with what cookies it has then. -/
theorem page_revisits {t : Nat} {fields : List (List Http.CookiePair)}
    (hbrought : Http.Cookie.Brought visit.cookie 0 t "sse_session" fields) :
    ∃ older y, Revisit unvisited (left t) (page []) (page fields) [.ok "S1"] visit visit.cookie
      [] older y fields := by
  obtain ⟨first, hopens⟩ : ∃ first, unvisited.Opens (page []) [.ok "S1"] visit first :=
    Opens.of_body rfl rfl rfl fun f hfailed => by cases hfailed
  have hway := (((Broker.Stretch.refl.passed (b := visited.broker) (Nat.zero_le t)).trans
    (noted _ (.streamReleased "S1") nofun)).act (.left visit.client)).quiet
      (.releasing ⟨"S1", some ⟨1⟩⟩)
  have hwaits : (leaving t).broker.releases = [⟨"S1", some ⟨1⟩⟩] := rfl
  have hturn := Broker.turn_of_release hwaits rfl
  have hbusy : (leaving t).broker.isIdle = false := rfl
  have hpending : (left t).broker.pending = [] := rfl
  have hopen : (leaving t).broker.hub.closed = [] := rfl
  have hclosed : (leaving t).broker.turn.hub.closed = [⟨1⟩] := rfl
  have hnow : (leaving t).broker.now = t ∧ (left t).broker.now = t := ⟨rfl, rfl⟩
  exact ⟨_ :: _ :: first, ⟨.release "S1" (some ⟨1⟩), (leaving t).broker.hub⟩, {
    before := ⟨unvisited, 0, rfl, .refl⟩
    course := ⟨first, _, hopens, hway.act (.turned hbusy hturn), rfl⟩
    cookie := by decide +kernel
    named := by decide
    ends := by
      refine ⟨?_, ?_⟩
      · rw [hopen]
        exact List.not_mem_nil
      · show (⟨1⟩ : ClientId) ∈ (leaving t).broker.turn.hub.closed
        rw [hclosed]
        exact List.mem_singleton_self _
    alone := fun z hz => absurd hz List.not_mem_nil
    unclaimed := by
      rw [hpending]
      exact nofun
    inTime := by
      show (left t).broker.now - (leaving t).broker.now ≤ _
      rw [hnow.1, hnow.2, Nat.sub_self]
      exact Nat.zero_le _
    settings := rfl
    runs := rfl
    asks := ⟨rfl, rfl, rfl⟩
    reads := ⟨_, rfl⟩
    agent := by
      rw [Http.Headers.text?, Http.Headers.text?, page_headers, page_headers]
      rfl
    sends := page_headers fields "cookie"
    brought := hbrought }⟩

/-- A page that is left after a minute gets its session back. -/
theorem revisit_in_time : ∃ older y, Revisit unvisited (left 60000) (page []) (page visit.kept)
      [.ok "S1"] visit visit.cookie [] older y visit.kept ∧
    ∃ s, ((left 60000).handle (page visit.kept) [.ok "S2"]).2.body = .ongoing s ∧
      s.client.session = visit.client.session ∧ s.client.reconnected = true := by
  have hbrought : Http.Cookie.Brought visit.cookie 0 60000 "sse_session" visit.kept :=
    ⟨by decide, by decide +kernel, by decide +kernel⟩
  obtain ⟨older, y, hvisit⟩ := page_revisits hbrought
  have hphase : ((left 60000).handle (page visit.kept) [.ok "S2"]).1.broker.phase = .running := by
    decide +kernel
  have htold : Http.Cookie.ofText? visit.cookie = some ⟨"sse_session", "S1", some 86400⟩ := by
    decide +kernel
  have hkeepable := Http.Cookie.keepable_of_told htold
  exact ⟨older, y, hvisit, ((hvisit.session_kept_iff [.ok "S2"]).2
    (Broker.goes_of_running hphase)).mpr
    (.inl ⟨by decide +kernel, hkeepable, by decide +kernel⟩)⟩

/-- A page that was open for a day has lost its cookie when it is loaded again, and gets another
session, although its own can be had. -/
theorem cookie_outlived :
    ∃ older y, Revisit unvisited (left 86400000) (page []) (page []) [.ok "S1"]
      visit visit.cookie [] older y [] ∧
    (left 86400000).broker.registry.claimable visit.client.session {} = true ∧
    ∃ s, ((left 86400000).handle (page []) [.ok "S2"]).2.body = .ongoing s ∧
      s.client.session ≠ visit.client.session ∧ s.client.reconnected = false := by
  have hbrought : Http.Cookie.Brought visit.cookie 0 86400000 "sse_session" [] :=
    ⟨by decide, by decide +kernel, by decide⟩
  obtain ⟨older, y, hvisit⟩ := page_revisits hbrought
  exact ⟨older, y, hvisit, by decide +kernel, ⟨⟨⟨2⟩, "S2", false, 0⟩, some 3000, false⟩,
    by decide +kernel, by decide, rfl⟩

end App

end EventRelay

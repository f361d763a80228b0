import Mathlib.Data.List.Forall2
import RestClient.Proofs.Programs
import RestClient.Proofs.Layers
import RestClient.Sample

/-!
# Secrecy of credentials

Two clients are made by the same settings, but for their tokens.  Whatever a program asks of them,
and whatever replies it gets, it comes to the same with both: the token is seen in one header field
of the requests and nowhere else.
-/

namespace RestClient

/-!
## What does not depend on credentials
-/

def Headers.SameButCredentials (headers headers' : Headers) : Prop :=
  List.Forall₂ (fun field field' : Header.Name × Header.Value => field'.1 = field.1 ∧
    (field.1 ≠ Header.authorization -> field'.2 = field.2)) headers.fields headers'.fields

structure HttpRequest.SameButCredentials (request request' : HttpRequest) : Prop where
  method : request'.method = request.method
  url : request'.url = request.url
  headers : request.headers.SameButCredentials request'.headers
  body : request'.body = request.body
  timeout : request'.timeout = request.timeout

inductive Deed.SameButCredentials : Deed -> Deed -> Prop where
  | sent {request request' : HttpRequest} (h : request.SameButCredentials request') :
      SameButCredentials (.sent request) (.sent request')
  | same (deed : Deed) : SameButCredentials deed deed

structure Entry.SameButCredentials (entry entry' : Entry) : Prop where
  time : entry'.time = entry.time
  deed : entry.deed.SameButCredentials entry'.deed

/-- The same world, but for the credentials that were sent and for jitter. -/
structure World.SameButCredentials {σ : Type} (w w' : World σ) : Prop where
  now : w'.now = w.now
  clock : w'.clock = w.clock
  transport : w'.transport = w.transport
  tokens : w'.tokens = w.tokens
  scheduled : w'.scheduled = w.scheduled
  history : List.Forall₂ Entry.SameButCredentials w.history w'.history

namespace Headers.SameButCredentials

variable {headers headers' : Headers}

theorem refl (headers : Headers) : headers.SameButCredentials headers := by
  apply List.forall₂_same.mpr
  intro field _
  exact ⟨rfl, fun _ => rfl⟩

theorem set (h : headers.SameButCredentials headers') (name : Header.Name)
    {value value' : Header.Value} (hvalue : name ≠ Header.authorization -> value' = value) :
    (headers.insert name value).SameButCredentials (headers'.insert name value') := by
  apply List.rel_append
  · apply List.rel_filter _ h
    intro field field' hfield
    dsimp only
    rw [hfield.1]
  · exact List.Forall₂.cons ⟨rfl, hvalue⟩ List.Forall₂.nil

theorem overlay (h : headers.SameButCredentials headers') (newer : Headers) :
    (headers.overlay newer).SameButCredentials (headers'.overlay newer) := by
  unfold Headers.overlay
  induction newer.fields generalizing headers headers' with
  | nil => exact h
  | cons field rest ih => exact ih (h.set field.1 fun _ => rfl)

end Headers.SameButCredentials

namespace World.SameButCredentials

variable {σ : Type} {w w' : World σ}

theorem refl_history (history : List Entry) :
    List.Forall₂ Entry.SameButCredentials history history := by
  apply List.forall₂_same.mpr
  intro entry _
  exact ⟨rfl, .same entry.deed⟩

theorem note (h : SameButCredentials w w') {deed deed' : Deed}
    (hdeed : deed.SameButCredentials deed') : SameButCredentials (w.note deed) (w'.note deed') where
  now := h.now
  clock := h.clock
  transport := h.transport
  tokens := h.tokens
  scheduled := h.scheduled
  history := List.rel_append h.history (.cons ⟨h.now, hdeed⟩ .nil)

theorem cancel (h : SameButCredentials w w') (token : Token) :
    SameButCredentials (w.cancel token) (w'.cancel token) := by
  unfold World.cancel
  apply note _ (.same _)
  exact { h with tokens := congrArg (·.cancel token) h.tokens }

theorem cancelLater (h : SameButCredentials w w') (millis : Nat) (token : Token) :
    SameButCredentials (w.cancelLater millis token) (w'.cancelLater millis token) := by
  refine { h with scheduled := ?_ }
  unfold World.cancelLater
  dsimp only
  rw [h.scheduled, h.now]

theorem advance (h : SameButCredentials w w') (time : Nat) :
    SameButCredentials (w.advance time) (w'.advance time) := by
  unfold World.advance
  rw [h.now, h.scheduled, h.tokens]
  exact
    { now := rfl, clock := h.clock, transport := h.transport, tokens := rfl, scheduled := rfl
      history := List.rel_append h.history (refl_history _) }

theorem isCanceled (h : SameButCredentials w w') (token : Option Token) :
    w'.isCanceled token = w.isCanceled token := by
  unfold World.isCanceled
  rw [h.tokens]

theorem cancelTime (h : SameButCredentials w w') (token : Option Token) :
    w'.cancelTime? token = w.cancelTime? token := by
  unfold World.cancelTime?
  rw [h.isCanceled, h.scheduled, h.now]

theorem send {w w' : World Script} (h : SameButCredentials w w') {request request' : HttpRequest}
    (hrequest : request.SameButCredentials request') :
    exists reply v v', w.send request = (reply, v) ∧ w'.send request' = (reply, v') ∧
      SameButCredentials v v' := by
  have hsecond : w'.send request' = (w.transport.next.1,
      { w' with transport := w.transport.next.2 }.note (.sent request')) := by
    rw [← h.transport]
    rfl
  refine ⟨_, _, _, rfl, hsecond, ?_⟩
  apply note _ (.sent hrequest)
  exact { h with transport := rfl }

theorem arrive (h : SameButCredentials w w') (reply : Reply) :
    SameButCredentials (w.arrive reply) (w'.arrive reply) := by
  unfold World.arrive
  cases reply.cancels with
  | none => exact h
  | some token => exact h.cancel token

theorem filterMap_eq {β : Type} (h : SameButCredentials w w') {read : Entry -> Option β}
    (hsent : forall time request, read ⟨time, .sent request⟩ = none) :
    w'.history.filterMap read = w.history.filterMap read := by
  have hread : List.Forall₂ Eq (w.history.filterMap read) (w'.history.filterMap read) := by
    apply List.rel_filterMap _ h.history
    rintro ⟨time, deed⟩ ⟨time', deed'⟩ ⟨htime, hdeed⟩
    dsimp only at htime
    subst htime
    cases hdeed with
    | sent hrequest =>
      rw [hsent, hsent]
      exact .none
    | same deed =>
      cases read ⟨time', deed⟩ with
      | none => exact .none
      | some b => exact .some rfl
  rw [List.forall₂_eq_eq_eq] at hread
  exact hread.symm

theorem delays (h : SameButCredentials w w') : w'.delays = w.delays :=
  h.filterMap_eq fun _ _ => rfl

theorem events (h : SameButCredentials w w') : w'.events = w.events :=
  h.filterMap_eq fun _ _ => rfl

theorem requests (h : SameButCredentials w w') :
    List.Forall₂ HttpRequest.SameButCredentials w.requests w'.requests := by
  apply List.rel_filterMap _ h.history
  rintro ⟨time, deed⟩ ⟨time', deed'⟩ ⟨_, hdeed⟩
  cases hdeed with
  | sent hrequest => exact .some hrequest
  | same deed =>
    cases deed with
    | sent request =>
      exact .some ⟨rfl, rfl, Headers.SameButCredentials.refl _, rfl, rfl⟩
    | paused delay => exact .none
    | canceled token => exact .none
    | reported event => exact .none

end World.SameButCredentials

/-!
## Clients
-/

namespace Client

structure SameButCredentials (client client' : Client) : Prop where
  root : client'.root = client.root
  headers : client.headers.SameButCredentials client'.headers
  settings : SameSettings client client'

namespace SameButCredentials

variable {client client' : Client}

theorem preparesAlike (h : SameButCredentials client client') :
    PreparesAlike client client' HttpRequest.SameButCredentials := by
  intro request body
  unfold prepare
  rw [h.root, h.settings.timeout]
  cases request.url client.root with
  | error e => exact .inl ⟨e, rfl, rfl⟩
  | ok url =>
    have hheaders := h.headers.overlay request.headers
    cases body with
    | none => exact .inr ⟨_, _, rfl, rfl, ⟨rfl, rfl, hheaders, rfl, rfl⟩⟩
    | some payload =>
      dsimp only
      cases payload.bytes with
      | error e => exact .inl ⟨e, rfl, rfl⟩
      | ok bytes =>
        exact .inr ⟨_, _, rfl, rfl, ⟨rfl, rfl, hheaders.set _ fun _ => rfl, rfl, rfl⟩⟩

theorem stepByStep (h : SameButCredentials client client')
    (hjitter : client.strategy.hasJitter = false) :
    StepByStep client client' (World.SameButCredentials (σ := Script))
      HttpRequest.SameButCredentials where
  settings := h.settings
  prepare := h.preparesAlike
  now hw := hw.now
  clock hw := hw.clock
  backoff hw retry := by
    rw [Strategy.delay?_of_unjittered hjitter, Strategy.delay?_of_unjittered hjitter]
  isCanceled hw := hw.isCanceled client.cancel
  cancelTime hw := hw.cancelTime client.cancel
  advance hw := hw.advance
  report hw event := hw.note (.same _)
  paused hw delay := hw.note (.same _)
  method hrequest := hrequest.method
  url hrequest := hrequest.url
  send := by
    intro w w' hw request request' hrequest
    rcases hw.send hrequest with ⟨reply, v, v', hfirst, hsecond, hv⟩
    exact ⟨reply, reply, v, v', hfirst, hsecond, hv, rfl, rfl, fun hu => hu.arrive reply⟩

theorem with_cancel (h : SameButCredentials client client') (heeded : Option Token) :
    SameButCredentials { client with cancel := heeded } { client' with cancel := heeded } where
  root := h.root
  headers := h.headers
  settings := { h.settings with cancel := rfl }

end SameButCredentials

/-!
## Tokens
-/

/-- Two tokens, or the same setting of another kind. -/
inductive Setting.SameButToken : Setting -> Setting -> Prop where
  | token (text text' : String) : SameButToken (.token text) (.token text')
  | other (setting : Setting) (h : setting.token? = none) : SameButToken setting setting

namespace Builder

structure SameButToken (builder builder' : Builder) : Prop where
  isSome : builder'.token.isSome = builder.token.isSome
  others : builder' = { builder with token := builder'.token }

variable {builder builder' made made' : Builder}

theorem make_of_token (builder : Builder) (token : Option String) {setting : Setting}
    (h : setting.token? = none) :
    { builder with token }.make setting =
      (builder.make setting).map fun made => { made with token } := by
  cases setting with
  | token text => cases h
  | root text =>
    change { builder with token }.withRoot text = (builder.withRoot text).map _
    unfold withRoot
    cases Url.parse text with
    | error fault => rfl
    | ok url => rfl
  | header name value =>
    change { builder with token }.withHeader name value = (builder.withHeader name value).map _
    unfold withHeader
    cases Header.field? name value with
    | error e => rfl
    | ok field => rfl
  | pageSize size =>
    change { builder with token }.withPageSize size = (builder.withPageSize size).map _
    unfold withPageSize
    split
    · rfl
    · rfl
  | userAgent | strategy | predicate | timeout | deadline | rateLimit | sleeper => rfl

theorem token_of_make {setting : Setting} (h : setting.token? = none)
    (hmade : builder.make setting = .ok made) : made.token = builder.token := by
  cases change_of_make hmade with
  | token text heq => cases h
  | userAgent text heq => rw [heq]; rfl
  | header name value field hfield heq => rw [heq]
  | other _ htoken huserAgent hheader token userAgent headers => exact token

namespace SameButToken

theorem make (h : SameButToken builder builder') {setting setting' : Setting}
    (hsetting : setting.SameButToken setting') (hmade : builder.make setting = .ok made)
    (hmade' : builder'.make setting' = .ok made') : SameButToken made made' := by
  rw [h.others] at hmade'
  cases hsetting with
  | token text text' =>
    cases hmade
    cases hmade'
    exact ⟨rfl, rfl⟩
  | other _ htoken =>
    rw [make_of_token builder builder'.token htoken, hmade] at hmade'
    cases hmade'
    constructor
    · rw [token_of_make htoken hmade]
      exact h.isSome
    · rfl

theorem makeAll (h : SameButToken builder builder') {settings settings' : List Setting}
    (hsettings : List.Forall₂ Setting.SameButToken settings settings')
    (hmade : builder.makeAll settings = .ok made)
    (hmade' : builder'.makeAll settings' = .ok made') : SameButToken made made' := by
  induction hsettings generalizing builder builder' with
  | nil =>
    cases hmade
    cases hmade'
    exact h
  | cons hsetting hrest ih =>
    rcases makeAll_cons hmade with ⟨next, hnext, hmore⟩
    rcases makeAll_cons hmade' with ⟨next', hnext', hmore'⟩
    exact ih (h.make hsetting hnext hnext') hmore hmore'

theorem headers (h : SameButToken builder builder') {headers headers' : Headers}
    (hheaders : builder.fixedHeaders = .ok headers)
    (hheaders' : builder'.fixedHeaders = .ok headers') :
    headers.SameButCredentials headers' := by
  have hsome := h.isSome
  rw [h.others] at hheaders'
  rcases fixedHeaders_cases hheaders with
    ⟨fixed, rfl, ⟨htoken, rfl⟩ | ⟨token, htoken, rfl⟩⟩
  · rcases fixedHeaders_cases hheaders' with
      ⟨fixed', rfl, ⟨htoken', rfl⟩ | ⟨token', htoken', rfl⟩⟩
    · exact Headers.SameButCredentials.refl _
    · dsimp only at htoken'
      rw [htoken, htoken'] at hsome
      cases hsome
  · rcases fixedHeaders_cases hheaders' with
      ⟨fixed', rfl, ⟨htoken', rfl⟩ | ⟨token', htoken', rfl⟩⟩
    · dsimp only at htoken'
      rw [htoken, htoken'] at hsome
      cases hsome
    · apply (Headers.SameButCredentials.refl _).set
      intro hname
      exact absurd rfl hname

theorem build (h : SameButToken builder builder') {client client' : Client}
    (hclient : builder.build = .ok client) (hclient' : builder'.build = .ok client') :
    client.SameButCredentials client' := by
  rcases build_cases hclient with ⟨root, headers, hroot, hheaders, rfl⟩
  rcases build_cases hclient' with ⟨root', headers', hroot', hheaders', rfl⟩
  have hsame := h.headers hheaders hheaders'
  have hroots : builder'.fixedRoot = builder.fixedRoot := by
    rw [h.others]
    rfl
  rw [hroots, hroot] at hroot'
  cases hroot'
  rw [h.others]
  exact ⟨rfl, hsame, ⟨rfl, rfl, rfl, rfl, rfl, rfl, rfl, rfl⟩⟩

theorem events (h : SameButToken builder builder') {client client' : Client}
    (hclient : builder.build = .ok client) (hclient' : builder'.build = .ok client') :
    builder'.events = builder.events := by
  rcases build_cases hclient with ⟨root, headers, hroot, hheaders, rfl⟩
  rcases build_cases hclient' with ⟨root', headers', hroot', hheaders', rfl⟩
  unfold Builder.events
  rw [hheaders, hheaders', ← Option.not_isSome, ← Option.not_isSome, h.isSome]
  rfl

end SameButToken
end Builder
end Client

/-!
## Programs
-/

/-- Two clients that are made by the same settings but for their tokens cannot be told apart by
what comes of a program, by the delays and events on its way, or by what is left of the script.
Their requests differ in the value of one header field at most. -/
theorem token_is_seen_in_credentials_only {settings settings' : List Client.Setting}
    {builder builder' : Client.Builder} {client client' : Client}
    (hsettings : List.Forall₂ Client.Setting.SameButToken settings settings')
    (hmade : Client.Builder.default.makeAll settings = .ok builder)
    (hclient : builder.build = .ok client)
    (hmade' : Client.Builder.default.makeAll settings' = .ok builder')
    (hclient' : builder'.build = .ok client') (hjitter : client.strategy.hasJitter = false)
    (tasks : List Task) (script : Script) (clock : Moment) (jitter jitter' : Nat -> Jitter) :
    builder'.events = builder.events ∧
    exists answers w w',
      Task.runAll client tasks [] (.initial script clock jitter) = (answers, w) ∧
      Task.runAll client' tasks [] (.initial script clock jitter') = (answers, w') ∧
      w'.now = w.now ∧ w'.delays = w.delays ∧ w'.events = w.events ∧
      w'.transport = w.transport ∧
      List.Forall₂ HttpRequest.SameButCredentials w.requests w'.requests := by
  have hbuilder : Client.Builder.SameButToken .default .default := ⟨rfl, rfl⟩
  have hsame := hbuilder.makeAll hsettings hmade hmade'
  have hclients := hsame.build hclient hclient'
  have hlockstep : forall heeded, Client.Lockstep { client with cancel := heeded }
      { client' with cancel := heeded } (World.SameButCredentials (σ := Script))
        HttpRequest.SameButCredentials := by
    intro heeded
    exact ((hclients.with_cancel heeded).stepByStep hjitter).lockstep
  have hworld : (World.initial script clock jitter).SameButCredentials
      (World.initial script clock jitter') := ⟨rfl, rfl, rfl, rfl, rfl, .nil⟩
  have hnone : forall b, b ∈ ([] : List Begun) -> b.IsOf client := by
    intro b hb
    cases hb
  constructor
  · exact hsame.events hclient hclient'
  · rcases Task.runAll_lockstep hlockstep World.SameButCredentials.cancel
      World.SameButCredentials.cancelLater hworld hnone tasks with
      ⟨answers, w, w', hfirst, hsecond, hw⟩
    exact ⟨answers, w, w', hfirst, hsecond, hw.now, hw.delays, hw.events, hw.transport,
      hw.requests⟩

namespace Sample

def withToken (text : String) : List Client.Setting :=
  [.token text, .strategy (.linear (.ofMillis 5) 2)]

def builder (text : String) : Client.Builder :=
  { Client.Builder.default with token := some text, strategy := .linear (.ofMillis 5) 2 }

def tasks : List Task :=
  [.operate UInt64 inferInstance numbers.resource [] none (.find "p"),
    .begin UInt64 inferInstance numbers.resource [] (some token) .default, .cancel token,
    .next 0, .rest 0]

def failing : Script := ⟨[reply 0 (some (.ok unavailable))]⟩

theorem tokens_cannot_be_told_apart :
    exists client client', (builder "first").build = .ok client ∧
      (builder "second").build = .ok client' ∧
      exists answers w w',
        Task.runAll client tasks [] (.initial failing ⟨0⟩ fun _ => .whole) = (answers, w) ∧
        Task.runAll client' tasks [] (.initial failing ⟨0⟩ fun n => .ofNat n) = (answers, w') ∧
        w'.delays = w.delays ∧ w'.events = w.events ∧
        List.Forall₂ HttpRequest.SameButCredentials w.requests w'.requests := by
  have hbuilds : (builder "first").build.isOk = true := by decide +kernel
  have hbuilds' : (builder "second").build.isOk = true := by decide +kernel
  cases hclient : (builder "first").build with
  | error e =>
    rw [hclient] at hbuilds
    cases hbuilds
  | ok client =>
    cases hclient' : (builder "second").build with
    | error e =>
      rw [hclient'] at hbuilds'
      cases hbuilds'
    | ok client' =>
      have hsettings : List.Forall₂ Client.Setting.SameButToken (withToken "first")
          (withToken "second") :=
        .cons (.token "first" "second") (.cons (.other _ rfl) .nil)
      have hjitter : client.strategy.hasJitter = false := by
        rcases Client.Builder.build_cases hclient with ⟨root, headers, _, _, rfl⟩
        rfl
      rcases token_is_seen_in_credentials_only hsettings rfl hclient rfl hclient' hjitter tasks
        failing ⟨0⟩ (fun _ => .whole) (fun n => .ofNat n) with
        ⟨_, answers, w, w', hfirst, hsecond, _, hdelays, hevents, _, hrequests⟩
      exact ⟨client, client', rfl, rfl, answers, w, w', hfirst, hsecond, hdelays, hevents,
        hrequests⟩

end Sample
end RestClient

import RestClient.Client.Basic

/-!
# Settings

The settings of a client and the steps that describe a request, each as data, so that any number of
them can be made in any order.  The first half is about which values count in the end: of the
settings of one kind the last one does.
-/

namespace RestClient

theorem Header.Value.eq_of_ofString? {text : String} {value : Header.Value}
    (h : Header.Value.ofString? text = some value) : value = ⟨text⟩ := by
  unfold Header.Value.ofString? at h
  split at h
  · exact (Option.some.inj h).symm
  · cases h

namespace Client

/-- One call of a setter of the builder. -/
inductive Setting where
  | root (text : String)
  | token (text : String)
  | userAgent (text : String)
  | header (name value : String)
  | strategy (strategy : Strategy)
  | predicate (predicate : Predicate)
  | timeout (timeout : Duration)
  | deadline (deadline : Duration)
  | rateLimit (config : RateLimit.Config)
  | pageSize (size : UInt32)
  | sleeper (sleeper : Sleeper)

namespace Setting

def token? : Setting -> Option String
  | .token text => some text
  | _ => none

def userAgent? : Setting -> Option String
  | .userAgent text => some text
  | _ => none

def header? : Setting -> Option (String × String)
  | .header name value => some (name, value)
  | _ => none

end Setting

namespace Builder

def make (builder : Builder) : Setting -> Except Error Builder
  | .root text => builder.withRoot text
  | .token text => .ok (builder.withToken text)
  | .userAgent text => .ok (builder.withUserAgent text)
  | .header name value => builder.withHeader name value
  | .strategy strategy => .ok (builder.withStrategy strategy)
  | .predicate predicate => .ok (builder.withPredicate predicate)
  | .timeout timeout => .ok (builder.withTimeout timeout)
  | .deadline deadline => .ok (builder.withDeadline deadline)
  | .rateLimit config => .ok (builder.withRateLimit config)
  | .pageSize size => builder.withPageSize size
  | .sleeper sleeper => .ok (builder.withSleeper sleeper)

def makeAll : Builder -> List Setting -> Except Error Builder
  | builder, [] => .ok builder
  | builder, setting :: rest =>
    match builder.make setting with
    | .error e => .error e
    | .ok builder => builder.makeAll rest

end Builder

def ofSettings (settings : List Setting) : Except Error Client :=
  match Builder.default.makeAll settings with
  | .error e => .error e
  | .ok builder => builder.build

end Client

namespace Request

inductive Step where
  | pathParam (name value : String)
  | queryParam (name value : String)
  | header (name value : String)
  | idempotent (idempotent : Bool)

def Step.header? : Step -> Option (String × String)
  | .header name value => some (name, value)
  | _ => none

def take (request : Request) : Step -> Except Error Request
  | .pathParam name value => .ok (request.withPathParam name value)
  | .queryParam name value => .ok (request.withQueryParam name value)
  | .header name value => request.withHeader name value
  | .idempotent idempotent => .ok (request.withIdempotent idempotent)

def takeAll : Request -> List Step -> Except Error Request
  | request, [] => .ok request
  | request, step :: rest =>
    match request.take step with
    | .error e => .error e
    | .ok request => request.takeAll rest

end Request

namespace Client

theorem exists_of_ofSettings {settings : List Setting} {client : Client}
    (h : ofSettings settings = .ok client) :
    exists builder, Builder.default.makeAll settings = .ok builder ∧
      builder.build = .ok client := by
  unfold ofSettings at h
  cases hbuilder : Builder.default.makeAll settings with
  | error e =>
    rw [hbuilder] at h
    cases h
  | ok builder =>
    rw [hbuilder] at h
    exact ⟨builder, rfl, h⟩

/-!
## The settings that count
-/

namespace Builder

variable {builder made : Builder} {setting : Setting} {rest : List Setting}

theorem makeAll_cons (h : builder.makeAll (setting :: rest) = .ok made) :
    exists next, builder.make setting = .ok next ∧ next.makeAll rest = .ok made := by
  unfold makeAll at h
  cases hnext : builder.make setting with
  | error e =>
    rw [hnext] at h
    cases h
  | ok next =>
    rw [hnext] at h
    exact ⟨next, rfl, h⟩

/-- What one setting changes, as far as header fields are made of it. -/
inductive Change (builder next : Builder) : Setting -> Prop where
  | token (text : String) (heq : next = builder.withToken text) : Change builder next (.token text)
  | userAgent (text : String) (heq : next = builder.withUserAgent text) :
      Change builder next (.userAgent text)
  | header (name value : String) (field : Header.Name × Header.Value)
      (hfield : Header.field? name value = .ok field)
      (heq : next = { builder with headers := builder.headers.insert field.1 field.2 }) :
      Change builder next (.header name value)
  | other (setting : Setting) (htoken : setting.token? = none)
      (huserAgent : setting.userAgent? = none) (hheader : setting.header? = none)
      (token : next.token = builder.token) (userAgent : next.userAgent = builder.userAgent)
      (headers : next.headers = builder.headers) : Change builder next setting

theorem change_of_make {next : Builder} (h : builder.make setting = .ok next) :
    Change builder next setting := by
  cases setting with
  | token text => exact .token text (Except.ok.inj h).symm
  | userAgent text => exact .userAgent text (Except.ok.inj h).symm
  | header name value =>
    change builder.withHeader name value = .ok next at h
    unfold withHeader at h
    cases hfield : Header.field? name value with
    | error e =>
      rw [hfield] at h
      cases h
    | ok field =>
      rw [hfield] at h
      exact .header name value field hfield (Except.ok.inj h).symm
  | root text =>
    change builder.withRoot text = .ok next at h
    unfold withRoot at h
    cases hparse : Url.parse text with
    | error fault =>
      rw [hparse] at h
      cases h
    | ok url =>
      rw [hparse] at h
      cases h
      exact .other _ rfl rfl rfl rfl rfl rfl
  | pageSize size =>
    change builder.withPageSize size = .ok next at h
    unfold withPageSize at h
    split at h
    · cases h
      exact .other _ rfl rfl rfl rfl rfl rfl
    · cases h
  | strategy | predicate | timeout | deadline | rateLimit | sleeper =>
    cases h
    exact .other _ rfl rfl rfl rfl rfl rfl

theorem token_makeAll {settings : List Setting} (h : builder.makeAll settings = .ok made) :
    made.token = (settings.filterMap Setting.token?).getLast?.or builder.token := by
  induction settings generalizing builder with
  | nil =>
    cases h
    rfl
  | cons setting rest ih =>
    rcases makeAll_cons h with ⟨next, hnext, hrest⟩
    rw [ih hrest]
    cases change_of_make hnext with
    | token text heq =>
      have hset : Setting.token? (.token text) = some text := rfl
      rw [heq, List.filterMap_cons_some hset, List.getLast?_cons]
      cases (rest.filterMap Setting.token?).getLast? with
      | none => rfl
      | some last => rfl
    | userAgent text heq =>
      rw [heq, List.filterMap_cons_none rfl]
      rfl
    | header name value field hfield heq =>
      rw [heq, List.filterMap_cons_none rfl]
    | other _ htoken huserAgent hheader token userAgent headers =>
      rw [token, List.filterMap_cons_none htoken]

theorem userAgent_makeAll {settings : List Setting} (h : builder.makeAll settings = .ok made) :
    made.userAgent =
      (settings.filterMap Setting.userAgent?).getLast?.getD builder.userAgent := by
  induction settings generalizing builder with
  | nil =>
    cases h
    rfl
  | cons setting rest ih =>
    rcases makeAll_cons h with ⟨next, hnext, hrest⟩
    rw [ih hrest]
    cases change_of_make hnext with
    | token text heq =>
      rw [heq, List.filterMap_cons_none rfl]
      rfl
    | userAgent text heq =>
      have hset : Setting.userAgent? (.userAgent text) = some text := rfl
      rw [heq, List.filterMap_cons_some hset, List.getLast?_cons]
      rfl
    | header name value field hfield heq =>
      rw [heq, List.filterMap_cons_none rfl]
    | other _ htoken huserAgent hheader token userAgent headers =>
      rw [userAgent, List.filterMap_cons_none huserAgent]

/-!
## Building
-/

theorem fixedHeaders_cases {headers : Headers}
    (h : builder.fixedHeaders = .ok headers) :
    exists fixed, fixed = (builder.headers.insert Header.accept Header.json).insert Header.userAgent
        ⟨builder.userAgent⟩ ∧
      ((builder.token = none ∧ headers = fixed) ∨
        exists token, builder.token = some token ∧
          headers = fixed.insert Header.authorization ⟨"Bearer " ++ token⟩) := by
  unfold fixedHeaders at h
  cases huserAgent : Header.Value.ofString? builder.userAgent with
  | none =>
    rw [huserAgent] at h
    cases h
  | some userAgent =>
    rw [huserAgent, Header.Value.eq_of_ofString? huserAgent] at h
    refine ⟨_, rfl, ?_⟩
    cases htoken : builder.token with
    | none =>
      rw [htoken] at h
      exact .inl ⟨rfl, (Except.ok.inj h).symm⟩
    | some token =>
      rw [htoken] at h
      dsimp only at h
      cases hcredentials : Header.Value.ofString? ("Bearer " ++ token) with
      | none =>
        rw [hcredentials] at h
        cases h
      | some credentials =>
        rw [hcredentials, Header.Value.eq_of_ofString? hcredentials] at h
        exact .inr ⟨token, rfl, (Except.ok.inj h).symm⟩

theorem build_cases {client : Client} (h : builder.build = .ok client) :
    exists root headers, builder.fixedRoot = .ok root ∧ builder.fixedHeaders = .ok headers ∧
      client =
        { root, headers, strategy := builder.strategy, predicate := builder.predicate,
          timeout := builder.timeout, deadline := builder.deadline,
          rateLimit := builder.rateLimit, pageSize := builder.pageSize,
          sleeper := builder.sleeper, cancel := none } := by
  unfold build at h
  cases hroot : builder.fixedRoot with
  | error e =>
    rw [hroot] at h
    cases h
  | ok root =>
    rw [hroot] at h
    dsimp only at h
    cases hheaders : builder.fixedHeaders with
    | error e =>
      rw [hheaders] at h
      cases h
    | ok headers =>
      rw [hheaders] at h
      exact ⟨root, headers, rfl, rfl, (Except.ok.inj h).symm⟩

end Builder
end Client
end RestClient

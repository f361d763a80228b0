import RestClient.Proofs.Sending
import RestClient.Proofs.Settings

/-!
# Layers of header fields

The header fields of a request come from the client's own settings, from what a client says about
itself, from the request and from its body.  The main statement says which of these counts for each
name: every request that a call sends has the value of the uppermost layer that has one, and no
other field.
-/

namespace RestClient

/-!
## Fields by name
-/

/-- The value that was given last to a name; names are compared without regard to case. -/
def lastValue? (pairs : List (String × String)) (name : String) : Option String :=
  ((pairs.filter fun pair => pair.1.toLower = name.toLower).getLast?).map (·.2)

theorem lastValue?_cons (pair : String × String) (rest : List (String × String)) (name : String) :
    lastValue? (pair :: rest) name = (lastValue? rest name).or
      (if pair.1.toLower = name.toLower then some pair.2 else none) := by
  unfold lastValue?
  by_cases h : pair.1.toLower = name.toLower
  · rw [if_pos h, List.filter_cons_of_pos (by simpa using h), List.getLast?_cons]
    cases (rest.filter fun pair => pair.1.toLower = name.toLower).getLast? with
    | none => rfl
    | some last => rfl
  · rw [if_neg h, List.filter_cons_of_neg (by simpa using h), Option.or_none]

theorem toLower_toLower_char (c : Char) : c.toLower.toLower = c.toLower := by
  unfold Char.toLower
  by_cases hupper : c.val ≥ 'A'.val ∧ c.val ≤ 'Z'.val
  · have hlower : ¬ (c.val + ('a'.val - 'A'.val) ≥ 'A'.val ∧
        c.val + ('a'.val - 'A'.val) ≤ 'Z'.val) := by
      rcases hupper with ⟨hleast, hgreatest⟩
      rintro ⟨-, h⟩
      rw [ge_iff_le, UInt32.le_iff_toNat_le] at *
      rw [UInt32.toNat_add] at h
      have ha : 'A'.val.toNat = 65 := rfl
      have hz : 'Z'.val.toNat = 90 := rfl
      have hshift : ('a'.val - 'A'.val).toNat = 32 := rfl
      omega
    rw [dif_pos hupper, dif_neg hlower]
  · rw [dif_neg hupper, dif_neg hupper]

theorem toLower_toLower (text : String) : text.toLower.toLower = text.toLower := by
  unfold String.toLower
  apply String.toList_injective
  rw [String.toList_map, String.toList_map, List.map_map]
  apply List.map_congr_left
  intro c _
  exact toLower_toLower_char c

theorem Header.field?_cases {name value : String} {field : Header.Name × Header.Value}
    (h : Header.field? name value = .ok field) : field = (⟨name.toLower⟩, ⟨value⟩) := by
  have hlower : String.ofList (name.toList.map Char.toLower) = name.toLower := by
    apply String.toList_injective
    rw [String.toList_ofList]
    exact String.toList_map.symm
  unfold Header.field? Header.Name.ofString? Header.Value.ofString? at h
  dsimp only at h
  rw [hlower] at h
  split at h
  · cases h
  · rename_i hname
    split at h
    · cases h
    · rename_i hvalue
      split at hname
      · cases hname
      · split at hvalue
        · cases hname
          cases hvalue
          exact (Except.ok.inj h).symm
        · cases hvalue

namespace Headers

def values (headers : Headers) (name : String) : List String :=
  (headers.fields.filter fun field => field.1.text.toLower = name.toLower).map (·.2.text)

def text? (headers : Headers) (name : String) : Option String :=
  (headers.get? ⟨name.toLower⟩).map (·.text)

structure Distinct (headers : Headers) : Prop where
  lower : forall field, field ∈ headers.fields -> field.1.text.toLower = field.1.text
  nodup : (headers.fields.map (·.1)).Nodup

theorem distinct_empty : Distinct empty := by
  constructor
  · intro field hfield
    cases hfield
  · exact List.nodup_nil

theorem Distinct.insert {headers : Headers} (h : headers.Distinct) {name : Header.Name}
    (hname : name.text.toLower = name.text) (value : Header.Value) :
    (headers.insert name value).Distinct := by
  constructor
  · intro field hfield
    rcases List.mem_append.mp hfield with hold | hnew
    · exact h.lower field (List.mem_of_mem_filter hold)
    · rw [List.mem_singleton.mp hnew]
      exact hname
  · exact Assoc.nodup_keys_set h.nodup name value

theorem Distinct.overlay {headers newer : Headers} (h : headers.Distinct)
    (hnewer : newer.Distinct) : (headers.overlay newer).Distinct := by
  have hlower := hnewer.lower
  unfold Headers.overlay
  generalize newer.fields = fields at hlower
  induction fields generalizing headers with
  | nil => exact h
  | cons field rest ih =>
    apply ih (h.insert (hlower field List.mem_cons_self) field.2)
    intro other hother
    exact hlower other (List.mem_cons_of_mem field hother)

theorem Distinct.values_eq {headers : Headers} (h : headers.Distinct) (name : String) :
    headers.values name = (headers.text? name).toList := by
  have hkeys := Assoc.filter_of_nodup h.nodup ⟨name.toLower⟩
  have hfilter : (headers.fields.filter fun field => field.1.text.toLower = name.toLower) =
      headers.fields.filter fun field => field.1 = ⟨name.toLower⟩ := by
    apply List.filter_congr
    intro field hfield
    rw [h.lower field hfield]
    apply decide_eq_decide.mpr
    constructor
    · intro hname
      exact congrArg Header.Name.mk hname
    · intro hname
      exact congrArg Header.Name.text hname
  unfold values text? get?
  rw [hfilter, Option.toList_map, ← hkeys, List.map_map]
  rfl

theorem text?_insert (headers : Headers) (name : Header.Name) (value : Header.Value)
    (other : String) :
    (headers.insert name value).text? other =
      if name.text = other.toLower then some value.text else headers.text? other := by
  unfold text?
  by_cases h : name.text = other.toLower
  · rw [if_pos h, ← h, get?_insert_self]
    rfl
  · have hne : (⟨other.toLower⟩ : Header.Name) ≠ name := by
      intro heq
      exact h (congrArg Header.Name.text heq).symm
    rw [if_neg h, get?_insert_of_ne headers value hne]

theorem text?_overlay (headers : Headers) {newer : Headers} (h : newer.Distinct)
    (name : String) :
    (headers.overlay newer).text? name = (newer.text? name).or (headers.text? name) := by
  have hoverlay : (headers.overlay newer).get? ⟨name.toLower⟩ =
      (newer.get? ⟨name.toLower⟩).or (headers.get? ⟨name.toLower⟩) := by
    have hfields : (headers.overlay newer).fields =
        newer.fields.foldl (fun entries new => Assoc.set entries new.1 new.2) headers.fields := by
      exact (List.foldl_hom Headers.fields fun headers new => rfl).symm
    unfold get?
    rw [hfields, Assoc.get?_foldl_set, Assoc.get?_reverse h.nodup]
  unfold text?
  rw [hoverlay, Option.map_or]

structure Given (headers made : Headers) (pairs : List (String × String)) : Prop where
  distinct : headers.Distinct -> made.Distinct
  text? : forall name, made.text? name = (lastValue? pairs name).or (headers.text? name)

theorem given_nil (headers : Headers) : Given headers headers [] := by
  constructor
  · exact id
  · intro name
    rfl

theorem Given.cons {headers made : Headers} {pairs : List (String × String)}
    {name value : String} {field : Header.Name × Header.Value}
    (hfield : Header.field? name value = .ok field)
    (h : Given (headers.insert field.1 field.2) made pairs) :
    Given headers made ((name, value) :: pairs) := by
  rw [Header.field?_cases hfield] at h
  constructor
  · intro hdistinct
    exact h.distinct (hdistinct.insert (toLower_toLower name) ⟨value⟩)
  · intro other
    rw [h.text? other, text?_insert, lastValue?_cons, Option.or_assoc]
    congr 1
    by_cases hname : name.toLower = other.toLower
    · rw [if_pos hname, if_pos hname]
      rfl
    · rw [if_neg hname, if_neg hname]
      rfl

end Headers

/-!
## Settings and steps
-/

theorem Client.Builder.given_makeAll {builder made : Builder} {settings : List Setting}
    (h : builder.makeAll settings = .ok made) :
    Headers.Given builder.headers made.headers (settings.filterMap Setting.header?) := by
  induction settings generalizing builder with
  | nil =>
    cases h
    exact Headers.given_nil _
  | cons setting rest ih =>
    rcases makeAll_cons h with ⟨next, hnext, hrest⟩
    have hgiven := ih hrest
    cases change_of_make hnext with
    | token text heq =>
      rw [heq] at hgiven
      exact hgiven
    | userAgent text heq =>
      rw [heq] at hgiven
      exact hgiven
    | header name value field hfield heq =>
      rw [heq] at hgiven
      exact hgiven.cons hfield
    | other _ htoken huserAgent hheader token userAgent headers =>
      rw [headers] at hgiven
      rw [List.filterMap_cons_none hheader]
      exact hgiven

theorem Request.given_takeAll {request made : Request} {steps : List Step}
    (h : request.takeAll steps = .ok made) :
    Headers.Given request.headers made.headers (steps.filterMap Step.header?) := by
  induction steps generalizing request with
  | nil =>
    cases h
    exact Headers.given_nil _
  | cons step rest ih =>
    unfold takeAll at h
    cases hnext : request.take step with
    | error e =>
      rw [hnext] at h
      cases h
    | ok next =>
      rw [hnext] at h
      have hgiven := ih h
      cases step with
      | pathParam name value =>
        cases hnext
        exact hgiven
      | queryParam name value =>
        cases hnext
        exact hgiven
      | idempotent idempotent =>
        cases hnext
        exact hgiven
      | header name value =>
        change request.withHeader name value = .ok next at hnext
        unfold withHeader at hnext
        cases hfield : Header.field? name value with
        | error e =>
          rw [hfield] at hnext
          cases hnext
        | ok field =>
          rw [hfield] at hnext
          cases hnext
          exact hgiven.cons hfield

namespace Client

/-!
## Layers
-/

/-- What a client says about itself under a name. -/
def ownValue? (userAgent : String) (token : Option String) (name : String) : Option String :=
  if name.toLower = "accept" then some "application/json"
  else if name.toLower = "user-agent" then some userAgent
  else if name.toLower = "authorization" then token.map fun text => "Bearer " ++ text
  else none

/-- The value of the uppermost layer that has one for the name: the type of a body, the request,
what the client says about itself, the client's other fields. -/
def layeredValue? (settings : List Setting) (steps : List Request.Step) (body : Option Payload)
    (name : String) : Option String :=
  if body.isSome ∧ name.toLower = "content-type" then some "application/json"
  else
    let userAgent := (settings.filterMap Setting.userAgent?).getLast?.getD defaultUserAgent
    let token := (settings.filterMap Setting.token?).getLast?
    (lastValue? (steps.filterMap Request.Step.header?) name).or
      ((ownValue? userAgent token name).or
        (lastValue? (settings.filterMap Setting.header?) name))

theorem Builder.text?_fixedHeaders {builder : Builder} {headers : Headers}
    (h : builder.fixedHeaders = .ok headers) (name : String) :
    headers.text? name =
      (ownValue? builder.userAgent builder.token name).or (builder.headers.text? name) := by
  rcases fixedHeaders_cases h with ⟨fixed, hfixed, ⟨htoken, hheaders⟩ | ⟨token, htoken, hheaders⟩⟩
  · rw [hheaders, hfixed, htoken, Headers.text?_insert, Headers.text?_insert]
    unfold ownValue? Header.accept Header.userAgent Header.json
    grind
  · rw [hheaders, hfixed, htoken, Headers.text?_insert, Headers.text?_insert,
      Headers.text?_insert]
    unfold ownValue? Header.accept Header.userAgent Header.authorization Header.json
    grind

theorem Builder.distinct_fixedHeaders {builder : Builder} {headers : Headers}
    (h : builder.fixedHeaders = .ok headers) (hbuilder : builder.headers.Distinct) :
    headers.Distinct := by
  have haccept : Header.accept.text.toLower = Header.accept.text := by decide +kernel
  have huserAgent : Header.userAgent.text.toLower = Header.userAgent.text := by decide +kernel
  have hcredentials : Header.authorization.text.toLower = Header.authorization.text := by
    decide +kernel
  have hfixed := (hbuilder.insert haccept Header.json).insert huserAgent ⟨builder.userAgent⟩
  rcases fixedHeaders_cases h with ⟨fixed, rfl, ⟨-, rfl⟩ | ⟨token, -, rfl⟩⟩
  · exact hfixed
  · exact hfixed.insert hcredentials _

theorem headers_of_ofSettings {settings : List Setting} {client : Client}
    (h : ofSettings settings = .ok client) :
    client.headers.Distinct ∧ forall name, client.headers.text? name =
      (ownValue? ((settings.filterMap Setting.userAgent?).getLast?.getD defaultUserAgent)
        (settings.filterMap Setting.token?).getLast? name).or
          (lastValue? (settings.filterMap Setting.header?) name) := by
  rcases exists_of_ofSettings h with ⟨builder, hmade, hbuild⟩
  have hgiven := Builder.given_makeAll hmade
  have htoken := Builder.token_makeAll hmade
  have huserAgent := Builder.userAgent_makeAll hmade
  rcases Builder.build_cases hbuild with ⟨root, headers, hroot, hfixed, rfl⟩
  constructor
  · exact Builder.distinct_fixedHeaders hfixed (hgiven.distinct Headers.distinct_empty)
  · intro name
    have hempty : Builder.default.headers.text? name = none := rfl
    rw [Builder.text?_fixedHeaders hfixed name, hgiven.text? name, hempty, htoken, huserAgent]
    simp only [Builder.default, Option.or_none]

theorem headers_of_prepare {client : Client} {request : Request} {body : Option Payload}
    {prepared : HttpRequest} (h : client.prepare request body = .ok prepared) :
    prepared.headers =
      match body with
      | none => client.headers.overlay request.headers
      | some _ =>
        (client.headers.overlay request.headers).insert Header.contentType Header.json := by
  unfold prepare at h
  cases hurl : request.url client.root with
  | error e =>
    rw [hurl] at h
    cases h
  | ok url =>
    rw [hurl] at h
    cases body with
    | none =>
      cases h
      rfl
    | some payload =>
      dsimp only at h
      cases hbytes : payload.bytes with
      | error e =>
        rw [hbytes] at h
        cases h
      | ok bytes =>
        rw [hbytes] at h
        cases h
        rfl

theorem values_of_prepare {settings : List Setting} {client : Client}
    (hclient : ofSettings settings = .ok client) {method : Method} {path : String}
    {steps : List Request.Step} {request : Request}
    (hrequest : (Request.new method path).takeAll steps = .ok request) {body : Option Payload}
    {prepared : HttpRequest} (h : client.prepare request body = .ok prepared) (name : String) :
    prepared.headers.values name = (layeredValue? settings steps body name).toList := by
  rcases headers_of_ofSettings hclient with ⟨hdistinct, htext⟩
  have hgiven := Request.given_takeAll hrequest
  have hnew : (Request.new method path).headers.text? name = none := rfl
  have hsteps : request.headers.text? name =
      lastValue? (steps.filterMap Request.Step.header?) name := by
    rw [hgiven.text? name, hnew, Option.or_none]
  have hown := hgiven.distinct Headers.distinct_empty
  have hoverlay := hdistinct.overlay hown
  have htype : Header.contentType.text.toLower = Header.contentType.text := by decide +kernel
  have hheaders := headers_of_prepare h
  unfold layeredValue?
  cases body with
  | none =>
    rw [hheaders, hoverlay.values_eq, Headers.text?_overlay _ hown, hsteps, htext name, if_neg]
    · intro hnone
      cases hnone.1
  | some payload =>
    rw [hheaders, (hoverlay.insert htype _).values_eq, Headers.text?_insert,
      Headers.text?_overlay _ hown, hsteps, htext name]
    congr 1
    by_cases hname : name.toLower = "content-type"
    · have hsame : Header.contentType.text = name.toLower := hname.symm
      rw [if_pos hsame, if_pos ⟨rfl, hname⟩]
      rfl
    · have hother : Header.contentType.text ≠ name.toLower := Ne.symm hname
      rw [if_neg hother, if_neg fun heq => hname heq.2]

/-- Every request of a call has under each name, compared without regard to case, the value of the
uppermost layer that has one, and no other value. -/
theorem requests_carry_uppermost_layers {σ α : Type} [Transport σ] [Json.Decode α]
    {settings : List Setting} {client : Client} (hclient : ofSettings settings = .ok client)
    (cancel : Option Token) {method : Method} {path : String} {steps : List Request.Step}
    {request : Request} (hrequest : (Request.new method path).takeAll steps = .ok request)
    (body : Option Payload) (w : World σ) :
    exists sent, ({ client with cancel }.call request body w :
        Except Halt (Response α) × World σ).2.requests = w.requests ++ sent ∧
      forall prepared, prepared ∈ sent -> forall name,
        prepared.headers.values name = (layeredValue? settings steps body name).toList := by
  rcases { client with cancel }.exists_requests_call (α := α) request body w with
    ⟨sent, hsent, hprepared⟩
  refine ⟨sent, hsent, ?_⟩
  intro prepared hmem name
  have hprepare : client.prepare request body = .ok prepared := hprepared prepared hmem
  exact values_of_prepare hclient hrequest hprepare name

end Client

namespace Sample

def settings : List Client.Setting :=
  [.root "http://h", .token "old", .header "X-Tag" "a", .token "new"]

def steps : List Request.Step := [.header "x-TAG" "b"]

def posted : Except Error (List HttpRequest) :=
  match Client.ofSettings settings, (Request.new .post "p").takeAll steps with
  | .ok client, .ok request =>
    .ok (client.call request (some (.ok .null)) (world [reply 0 (some (.ok done))]) :
      Except Halt (Response Json.Ignored) × World Script).2.requests
  | .error e, _ => .error e
  | _, .error e => .error e

def names : List String := ["X-Tag", "Authorization", "content-type", "user-agent", "cookie"]

theorem layers_of_names :
    names.map (Client.layeredValue? settings steps (some (.ok .null))) =
      [some "b", some "Bearer new", some "application/json", some Client.defaultUserAgent,
        none] := by
  have hsteps : steps.filterMap Request.Step.header? = [("x-TAG", "b")] := rfl
  have hheaders : settings.filterMap Client.Setting.header? = [("X-Tag", "a")] := rfl
  have htoken : (settings.filterMap Client.Setting.token?).getLast? = some "new" := rfl
  have huserAgent : (settings.filterMap Client.Setting.userAgent?).getLast? = none := rfl
  have hupper : "x-TAG".toLower = "x-tag" := by decide +kernel
  have htag : "X-Tag".toLower = "x-tag" := by decide +kernel
  have hcredentials : "Authorization".toLower = "authorization" := by decide +kernel
  have htype : "content-type".toLower = "content-type" := by decide +kernel
  have hagent : "user-agent".toLower = "user-agent" := by decide +kernel
  have hcookie : "cookie".toLower = "cookie" := by decide +kernel
  simp [names, Client.layeredValue?, Client.ownValue?, lastValue?, hsteps, hheaders, htoken,
    huserAgent, hupper, htag, hcredentials, htype, hagent, hcookie]

theorem last_settings_are_sent :
    exists prepared, posted = .ok [prepared] ∧ names.map prepared.headers.values =
      [["b"], ["Bearer new"], ["application/json"], [Client.defaultUserAgent], []] := by
  have hposted : posted.toOption.map List.length = some 1 := by decide +kernel
  unfold posted at hposted ⊢
  cases hclient : Client.ofSettings settings with
  | error e =>
    rw [hclient] at hposted
    cases hposted
  | ok client =>
    cases hrequest : (Request.new .post "p").takeAll steps with
    | error e =>
      rw [hclient, hrequest] at hposted
      cases hposted
    | ok request =>
      rcases Client.requests_carry_uppermost_layers (α := Json.Ignored) hclient client.cancel
        hrequest (some (.ok .null)) (world [reply 0 (some (.ok done))]) with
        ⟨sent, hsent, hvalues⟩
      rw [hclient, hrequest] at hposted
      dsimp only at hposted ⊢
      rw [hsent] at hposted ⊢
      rcases List.length_eq_one_iff.mp (Option.some.inj hposted) with ⟨prepared, hprepared⟩
      have hvalue := hvalues prepared (List.mem_of_getLast? (congrArg List.getLast? hprepared))
      have hnames : names.map prepared.headers.values = (names.map
          (Client.layeredValue? settings steps (some (.ok .null)))).map Option.toList := by
        rw [List.map_map]
        exact List.map_congr_left fun name _ => hvalue name
      refine ⟨prepared, congrArg Except.ok hprepared, ?_⟩
      rw [hnames, layers_of_names]
      rfl

end Sample
end RestClient
